import MailFilter.Host.Reader
import MailFilter.Proofs.Evaluation.Existence

/-!
# The envelope is read part by part

An `envelope` test goes through the parts that it names in their order. It passes over a part that
the message has no path for, stops with success at the first whose address is accepted, and with a
fault at the first whose path is neither null nor a mailbox. So which of the two comes first decides
what a test comes to, and a name that is no part of an envelope is a fault whatever the message is.
-/

namespace MailFilter

/-- Some item is of one kind, and all items before it are of another. -/
def Reached {α : Type} (passed sought : α → Prop) (items : List α) : Prop :=
  ∃ before item after, items = before ++ item :: after ∧ sought item ∧
    ∀ earlier ∈ before, passed earlier

/-- Nothing is reached among no items. -/
theorem not_reached_nil {α : Type} (passed sought : α → Prop) : ¬Reached passed sought [] := by
  rintro ⟨before, item, after, hitems, -⟩
  cases before <;> cases hitems

/-- It is the first item, or the first is passed and it is reached behind that. -/
theorem reached_cons_iff {α : Type} {passed sought : α → Prop} {item : α} {items : List α} :
    Reached passed sought (item :: items) ↔
      sought item ∨ passed item ∧ Reached passed sought items := by
  constructor
  · rintro ⟨before, found, after, hitems, hfound, hbefore⟩
    cases before with
    | nil =>
      cases hitems
      exact .inl hfound
    | cons earlier before =>
      cases hitems
      obtain ⟨hearlier, hbefore⟩ := List.forall_mem_cons.mp hbefore
      exact .inr ⟨hearlier, before, found, after, rfl, hfound, hbefore⟩
  · rintro (hitem | ⟨hitem, before, found, after, rfl, hfound, hbefore⟩)
    · exact ⟨[], item, items, rfl, hitem, nofun⟩
    · exact ⟨item :: before, found, after, rfl, hfound, List.forall_mem_cons.mpr ⟨hitem, hbefore⟩⟩

/-- What a message holds for a part of its envelope: nothing, the null address, or what its path
spells, which is one mailbox or why it is not. -/
inductive Message.EnvelopeHolds [MailReader] (mail : Message) (part : EnvelopePart) :
    Option (Except MailboxFault Address) → Prop
  | absent (hpath : mail.envelope part = none) : EnvelopeHolds mail part none
  | null {path : String} (hpath : mail.envelope part = some path)
    (hnull : Text.trim path = "" ∨ Text.trim path = "<>") :
    EnvelopeHolds mail part (some (.ok .null))
  | spelled {path : String} {spelled : Except MailboxFault Address}
    (hpath : mail.envelope part = some path)
    (hnull : ¬(Text.trim path = "" ∨ Text.trim path = "<>"))
    (hspelled : Address.ofMailbox (Text.trim path) = spelled) :
    EnvelopeHolds mail part (some spelled)

namespace Message

variable [MailReader]

/-- There is no path for a part, or it is null or one mailbox. -/
def EnvelopeSound (mail : Message) (part : EnvelopePart) : Prop :=
  mail.EnvelopeHolds part none ∨ ∃ address, mail.EnvelopeHolds part (some (.ok address))

/-- There is a path for a part that is neither null nor one mailbox. -/
def EnvelopeBroken (mail : Message) (part : EnvelopePart) : Prop :=
  ∃ cause, mail.EnvelopeHolds part (some (.error cause))

variable {mail : Message} {part : EnvelopePart} {held : Option (Except MailboxFault Address)}

/-- An envelope holds something for every part, if only nothing. -/
theorem exists_envelopeHolds (mail : Message) (part : EnvelopePart) :
    ∃ held, mail.EnvelopeHolds part held := by
  cases hpath : mail.envelope part with
  | none => exact ⟨none, .absent hpath⟩
  | some path =>
    by_cases hnull : Text.trim path = "" ∨ Text.trim path = "<>"
    · exact ⟨_, .null hpath hnull⟩
    · exact ⟨_, .spelled hpath hnull rfl⟩

/-- An envelope holds only one thing for a part. -/
theorem EnvelopeHolds.eq {other : Option (Except MailboxFault Address)}
    (h : mail.EnvelopeHolds part held) (hother : mail.EnvelopeHolds part other) : held = other := by
  cases h <;> cases hother <;> simp_all

/-- A part is sound unless what is held for it is why its path is no mailbox. -/
theorem EnvelopeHolds.sound_iff (h : mail.EnvelopeHolds part held) :
    mail.EnvelopeSound part ↔ ∀ cause, held ≠ some (.error cause) := by
  constructor
  · rintro (hsound | ⟨address, hsound⟩) cause rfl
    · cases h.eq hsound
    · cases h.eq hsound
  · intro hsound
    match held, h, hsound with
    | none, h, _ => exact .inl h
    | some (.ok address), h, _ => exact .inr ⟨address, h⟩
    | some (.error cause), _, hsound => exact absurd rfl (hsound cause)

/-- A part is broken if what is held for it is why its path is no mailbox. -/
theorem EnvelopeHolds.broken_iff (h : mail.EnvelopeHolds part held) :
    mail.EnvelopeBroken part ↔ ∃ cause, held = some (.error cause) :=
  exists_congr fun _ => ⟨h.eq, fun hheld => hheld ▸ h⟩

end Message

/-- Whether the address that a message holds for a part is accepted for some key. -/
def MatchArguments.AcceptsPart [MailReader] (sought : MatchArguments) (comparator : Comparator)
    (mail : Message) (part : EnvelopePart) : Prop :=
  ∃ address, mail.EnvelopeHolds part (some (.ok address)) ∧
    ∃ key ∈ sought.keys, sought.AcceptsKey comparator address key

namespace MatchArguments

variable {sought : MatchArguments} {comparator : Comparator} {mail : Message} {part : EnvelopePart}

variable [MailReader]

/-- One part decides, or leaves it to the parts behind it. -/
theorem acceptsEnvelope_cons {held : Option (Except MailboxFault Address)}
    (hheld : mail.EnvelopeHolds part held) (parts : List EnvelopePart) :
    sought.acceptsEnvelope comparator mail (part :: parts) =
      match held with
      | none => sought.acceptsEnvelope comparator mail parts
      | some (.error cause) => .error (.addressParse ("envelope " ++ part.text) cause)
      | some (.ok address) =>
        if sought.acceptsAddress comparator address then .ok true
        else sought.acceptsEnvelope comparator mail parts := by
  rw [acceptsEnvelope]
  cases hheld with
  | absent hpath => rw [hpath]
  | @null path hpath hnull =>
    have haddress : part.address path = .ok .null := if_pos hnull
    simp only [hpath, haddress]
  | @spelled path spelled hpath hnull hspelled =>
    have haddress : part.address path =
        spelled.mapError (.addressParse ("envelope " ++ part.text)) :=
      (if_neg hnull).trans (congrArg _ hspelled)
    simp only [hpath, haddress]
    cases spelled <;> rfl

/-- A part is accepted if the address that is held for it is. -/
theorem acceptsPart_iff {held : Option (Except MailboxFault Address)}
    (hheld : mail.EnvelopeHolds part held) :
    sought.AcceptsPart comparator mail part ↔
      ∃ address, held = some (.ok address) ∧ sought.acceptsAddress comparator address = true := by
  simp only [acceptsAddress_eq_true_iff]
  exact exists_congr fun address =>
    and_congr_left' ⟨hheld.eq, fun heq => heq ▸ hheld⟩

/-- The walk succeeds at a part that is accepted, if all parts before it are sound. -/
theorem acceptsEnvelope_eq_true_iff {parts : List EnvelopePart} :
    sought.acceptsEnvelope comparator mail parts = .ok true ↔
      Reached mail.EnvelopeSound (sought.AcceptsPart comparator mail) parts := by
  induction parts with
  | nil => exact iff_of_false nofun (not_reached_nil _ _)
  | cons part parts ih =>
    obtain ⟨held, hheld⟩ := mail.exists_envelopeHolds part
    rw [acceptsEnvelope_cons hheld, reached_cons_iff, ← ih, acceptsPart_iff hheld,
      hheld.sound_iff]
    match held with
    | none => simp
    | some (.error cause) => simp
    | some (.ok address) =>
      by_cases haccepts : sought.acceptsAddress comparator address = true <;> simp [haccepts]

/-- The walk fails at a part that is broken, if none before it is accepted. -/
theorem acceptsEnvelope_eq_error_iff {parts : List EnvelopePart} :
    (∃ fault, sought.acceptsEnvelope comparator mail parts = .error fault) ↔
      Reached (fun part => ¬sought.AcceptsPart comparator mail part) mail.EnvelopeBroken parts := by
  induction parts with
  | nil => exact iff_of_false (fun ⟨_, h⟩ => nomatch h) (not_reached_nil _ _)
  | cons part parts ih =>
    obtain ⟨held, hheld⟩ := mail.exists_envelopeHolds part
    rw [acceptsEnvelope_cons hheld, reached_cons_iff, ← ih, acceptsPart_iff hheld,
      hheld.broken_iff]
    match held with
    | none => simp
    | some (.error cause) => simp
    | some (.ok address) =>
      by_cases haccepts : sought.acceptsAddress comparator address = true <;> simp [haccepts]

end MatchArguments

/-- A word names a part if it is the name of the part in any case of its letters. -/
theorem EnvelopePart.ofWord?_eq_some_iff {word : String} {part : EnvelopePart} :
    ofWord? word = some part ↔ Ascii.lower word = part.text := by
  rw [ofWord?]
  split
  · next hword => rw [hword]; cases part <;> simp [text]
  · next hword => rw [hword]; cases part <;> simp [text]
  · next hsender hrecipient =>
    refine iff_of_false nofun fun htext => ?_
    cases part with
    | sender => exact hsender htext
    | recipient => exact hrecipient htext

namespace Test

/-- Names that are parts are read as these parts. -/
theorem envelopeParts_of_forall₂ (test : Test) {names : List String} {parts : List EnvelopePart}
    (h : List.Forall₂ (fun name part => Ascii.lower name = EnvelopePart.text part) names parts) :
    test.envelopeParts names = .ok parts := by
  induction h with
  | nil => rfl
  | cons hname _ ih =>
    rw [envelopeParts, EnvelopePart.ofWord?_eq_some_iff.mpr hname, ih]
    rfl

/-- If some name is no part, the reading fails with one that is none. -/
theorem exists_envelopeParts_eq_error (test : Test) {names : List String}
    (h : ∃ name ∈ names, ∀ part : EnvelopePart, Ascii.lower name ≠ part.text) :
    ∃ unknown ∈ names, (∀ part : EnvelopePart, Ascii.lower unknown ≠ part.text) ∧
      test.envelopeParts names = .error (test.argumentFault (.unknownEnvelopePart unknown)) := by
  induction names with
  | nil =>
    obtain ⟨name, hname, -⟩ := h
    cases hname
  | cons name names ih =>
    rw [envelopeParts]
    cases hpart : EnvelopePart.ofWord? name with
    | none =>
      refine ⟨name, List.mem_cons_self, fun part htext => ?_, rfl⟩
      rw [EnvelopePart.ofWord?_eq_some_iff.mpr htext] at hpart
      cases hpart
    | some part =>
      have hothers : ∃ other ∈ names, ∀ part : EnvelopePart, Ascii.lower other ≠ part.text := by
        obtain ⟨other, hmem, hother⟩ := h
        rcases List.mem_cons.mp hmem with rfl | hmem
        · exact absurd (EnvelopePart.ofWord?_eq_some_iff.mp hpart) (hother part)
        · exact ⟨other, hmem, hother⟩
      obtain ⟨unknown, hmem, hunknown, hfault⟩ := ih hothers
      refine ⟨unknown, List.mem_cons_of_mem name hmem, hunknown, ?_⟩
      rw [hfault]
      rfl

variable {environment : Environment} {test : Test} {sought : MatchArguments}

/-- The verdict of a test that is bound to `envelope` is that of an envelope test. -/
theorem verdict_envelope [MailReader]
    (hname : environment.registries.tests.lookup test.name = .ok .envelope) :
    test.verdict environment = test.envelope environment := by
  obtain ⟨name, arguments, tests, line⟩ := test
  rw [verdict.eq_def]
  dsimp only
  rw [hname]

/-- An envelope test of known parts, with a known comparator, comes to what the walk through the
parts comes to. -/
theorem verdict_envelope_eq [MailReader] {comparator : Comparator} {parts : List EnvelopePart}
    (hname : environment.registries.tests.lookup test.name = .ok .envelope)
    (hsought : MatchArguments.ofTest test true = .ok sought)
    (hcomparator : environment.registries.comparators.lookup sought.comparator = .ok comparator)
    (hparts : List.Forall₂ (fun name part => Ascii.lower name = EnvelopePart.text part)
      sought.names parts) :
    test.verdict environment = sought.acceptsEnvelope comparator environment.mail parts := by
  rw [verdict_envelope hname, envelope_eq_of_ofTest environment hsought hcomparator,
    test.envelopeParts_of_forall₂ hparts]
  rfl

/-- If the names cannot be read, the test fails for that whatever the message is. -/
theorem apply_evaluate_unreadable [MailReader] {fault : Fault}
    (hbudget : environment.maxSteps = none)
    (hname : environment.registries.tests.lookup test.name = .ok .envelope)
    (hsought : MatchArguments.ofTest test true = .ok sought)
    (hparts : test.envelopeParts sought.names = .error fault) (session : Session) :
    (test.evaluate environment).apply session = (.error fault, session.counted) := by
  have hfault : test.verdict environment = .error fault := by
    rw [verdict_envelope hname, envelope, hsought]
    simp only [bind, Except.bind, hparts]
  rw [apply_evaluate_alone hbudget, hfault]
  · rfl
  · intro kind hkind
    obtain rfl : TestKind.envelope = kind := Except.ok.inj (hname.symm.trans hkind)
    rfl

/-- What an `envelope` test comes to is settled by the first part that is accepted and the first
that is broken, whichever comes first. If it names anything that is no part of an envelope, it
fails, and the message has no say in that. -/
theorem evaluate_envelope_in_order [MailReader] (hbudget : environment.maxSteps = none)
    (hname : environment.registries.tests.lookup test.name = .ok .envelope)
    (hsought : MatchArguments.ofTest test true = .ok sought) :
    (∀ (comparator : Comparator) (parts : List EnvelopePart),
      environment.registries.comparators.lookup sought.comparator = .ok comparator →
      List.Forall₂ (fun name part => Ascii.lower name = EnvelopePart.text part)
        sought.names parts →
      ∀ session : Session,
        let mail := environment.mail
        let result := ((test.evaluate environment).apply session).1
        let found := Reached mail.EnvelopeSound (sought.AcceptsPart comparator mail) parts
        let broken :=
          Reached (fun part => ¬sought.AcceptsPart comparator mail part) mail.EnvelopeBroken parts
        (result = .ok true ↔ found) ∧
          ((∃ header cause, result = .error (.addressParse header cause)) ↔ broken) ∧
          (result = .ok false ↔ ¬found ∧ ¬broken)) ∧
    ((∃ name ∈ sought.names, ∀ part : EnvelopePart, Ascii.lower name ≠ part.text) →
      ∃ unknown ∈ sought.names, (∀ part : EnvelopePart, Ascii.lower unknown ≠ part.text) ∧
        ∀ (mail : Message) (session : Session),
          (test.evaluate { environment with mail := mail }).apply session =
            (.error (.arguments test.name test.line (.unknownEnvelopePart unknown)),
              session.counted)) := by
  constructor
  · intro comparator parts hcomparator hparts session mail result found broken
    have hresult : result = sought.acceptsEnvelope comparator mail parts :=
      (result_apply_evaluate hbudget test session).trans
        (verdict_envelope_eq hname hsought hcomparator hparts)
    have hfound : result = .ok true ↔ found :=
      hresult ▸ MatchArguments.acceptsEnvelope_eq_true_iff
    have hbroken : (∃ fault, result = .error fault) ↔ broken :=
      hresult ▸ MatchArguments.acceptsEnvelope_eq_error_iff
    -- Once the names have been read, a path is all that can still be at fault.
    have haddress : FailsOnly EnvelopePart.IsAddressFault result :=
      hresult ▸ sought.failsOnly_acceptsEnvelope comparator mail parts
    refine ⟨hfound, ?_, ?_⟩
    · rw [← hbroken]
      constructor
      · rintro ⟨header, cause, hfault⟩
        exact ⟨_, hfault⟩
      · rintro ⟨fault, hfault⟩
        obtain ⟨header, cause, rfl⟩ := haddress fault hfault
        exact ⟨header, cause, hfault⟩
    · rw [← hfound, ← hbroken]
      match result with
      | .error fault => simp
      | .ok true => simp
      | .ok false => simp
  · intro hunknown
    obtain ⟨unknown, hmem, hnone, hparts⟩ := test.exists_envelopeParts_eq_error hunknown
    exact ⟨unknown, hmem, hnone, fun mail => apply_evaluate_unreadable hbudget hname hsought hparts⟩

/-- There are two mailboxes for the recipient, which is a fault unless the sender has settled the
test before: by its local part, in any case of the letters, or as the null path. -/
theorem evaluate_envelope_in_order_two_recipients :
    let environment (sender : String) : Environment :=
      ⟨.builtin, none, .ofBytes [] (some sender) (some "ann@x.org, bob@x.org")⟩
    let asking (tag : String) (names : List String) (key : String) : Test :=
      ⟨"envelope", [.tag tag, .strings names, .string key], none, 1⟩
    let result (sender tag : String) (names : List String) (key : String) :=
      (((asking tag names key).evaluate (environment sender)).apply (.start [])).1
    let broken (result : Except Fault Bool) :=
      ∃ header cause, result = .error (.addressParse header cause)
    result "<ann@x.org>" ":localpart" ["From", "TO"] "ANN" = .ok true ∧
      broken (result "<ann@x.org>" ":domain" ["From", "TO"] "y.org") ∧
      broken (result "<ann@x.org>" ":domain" ["to", "from"] "x.org") ∧
      result "<ann@x.org>" ":domain" ["from"] "y.org" = .ok false ∧
      result " <>" ":all" ["from", "to"] "" = .ok true ∧
      ∀ (mail : Message) (session : Session),
        ((asking ":all" ["to", "bcc"] "").evaluate ⟨.builtin, none, mail⟩).apply session =
          (.error (.arguments "envelope" 1 (.unknownEnvelopePart "bcc")), session.counted) := by
  intro environment asking result broken
  let sought (part : AddressPart) (names : List String) (key : String) : MatchArguments :=
    ⟨"i;ascii-casemap", .is, part, names, [key]⟩
  have hname : ∀ sender tag names key,
      (environment sender).registries.tests.lookup (asking tag names key).name = .ok .envelope :=
    fun _ _ _ _ => TestKind.envelope.lookup_builtin
  -- The tests differ in the part of an address that they compare, and so in how they are read.
  have hwalk := fun sender tag part names key
    (hsought : MatchArguments.ofTest (asking tag names key) true = .ok (sought part names key)) =>
    (evaluate_envelope_in_order rfl (hname sender tag names key) hsought).1 .asciiCasemap
  have hcomparator : ∀ sender, (environment sender).registries.comparators.lookup
      "i;ascii-casemap" = .ok .asciiCasemap :=
    fun _ => Comparator.asciiCasemap.lookup_builtin
  have hfrom : Ascii.lower "From" = EnvelopePart.text .sender := by decide +kernel
  have hto : Ascii.lower "TO" = EnvelopePart.text .recipient := by decide +kernel
  have hann : (environment "<ann@x.org>").mail.EnvelopeHolds .sender
      (some (.ok ⟨"ann", some "x.org"⟩)) := .spelled rfl (by decide +kernel) (by decide +kernel)
  have hboth : (environment "<ann@x.org>").mail.EnvelopeBroken .recipient :=
    ⟨.several 2, .spelled rfl (by decide +kernel) (by decide +kernel)⟩
  have hother : ∀ names, ¬(sought .domain names "y.org").AcceptsPart .asciiCasemap
      (environment "<ann@x.org>").mail .sender := by
    rintro names ⟨address, hholds, key, hkey, text, htext, haccepts⟩
    cases hann.eq hholds
    cases List.mem_singleton.mp hkey
    cases htext
    have hrefused : Comparator.asciiCasemap.compare .is (Ascii.lower "x.org")
        (Ascii.lower "y.org") = false := by decide +kernel
    exact Bool.false_ne_true (hrefused.symm.trans haccepts)
  refine ⟨?_, ?_, ?_, ?_, ?_, ?_⟩
  · obtain ⟨hfound, -⟩ := hwalk "<ann@x.org>" ":localpart" .localpart ["From", "TO"] "ANN" rfl
      [.sender, .recipient] (hcomparator _) (.cons hfrom (.cons hto .nil)) (.start [])
    exact hfound.mpr ⟨[], .sender, _, rfl, ⟨_, hann, "ANN", List.mem_singleton_self _, "ann",
      .localpart _ _, by decide +kernel⟩, nofun⟩
  · obtain ⟨-, hbroken, -⟩ := hwalk "<ann@x.org>" ":domain" .domain ["From", "TO"] "y.org" rfl
      [.sender, .recipient] (hcomparator _) (.cons hfrom (.cons hto .nil)) (.start [])
    refine hbroken.mpr ⟨[.sender], .recipient, [], rfl, hboth, fun part hpart => ?_⟩
    obtain rfl := List.mem_singleton.mp hpart
    exact hother _
  · obtain ⟨-, hbroken, -⟩ := hwalk "<ann@x.org>" ":domain" .domain ["to", "from"] "x.org" rfl
      [.recipient, .sender] (hcomparator _) (.cons rfl (.cons rfl .nil)) (.start [])
    exact hbroken.mpr ⟨[], .recipient, _, rfl, hboth, nofun⟩
  · obtain ⟨-, -, hfalse⟩ := hwalk "<ann@x.org>" ":domain" .domain ["from"] "y.org" rfl
      [.sender] (hcomparator _) (.cons rfl .nil) (.start [])
    refine hfalse.mpr ⟨fun hfound => ?_, fun hbroken => ?_⟩
    · rcases reached_cons_iff.mp hfound with haccepts | ⟨-, hnext⟩
      · exact hother _ haccepts
      · exact not_reached_nil _ _ hnext
    · rcases reached_cons_iff.mp hbroken with ⟨cause, hcause⟩ | ⟨-, hnext⟩
      · cases hann.eq hcause
      · exact not_reached_nil _ _ hnext
  · obtain ⟨hfound, -⟩ := hwalk " <>" ":all" .all ["from", "to"] "" rfl
      [.sender, .recipient] (hcomparator _) (.cons rfl (.cons rfl .nil)) (.start [])
    exact hfound.mpr ⟨[], .sender, _, rfl, ⟨.null, .null rfl (.inr (by decide +kernel)), "",
      List.mem_singleton_self _, "", .undivided "", by decide +kernel⟩, nofun⟩
  · have hsought : MatchArguments.ofTest (asking ":all" ["to", "bcc"] "") true =
        .ok (sought .all ["to", "bcc"] "") := rfl
    obtain ⟨unknown, hmem, hnone, hfault⟩ :=
      (evaluate_envelope_in_order rfl (hname " <>" ":all" _ _) hsought).2
        ⟨"bcc", by simp [sought], fun part => by cases part <;> decide⟩
    rcases List.mem_pair.mp hmem with rfl | rfl
    · exact absurd rfl (hnone .recipient)
    · exact hfault

end Test

end MailFilter
