import MailFilter.Evaluation.Tests
import MailFilter.Host.Reader
import MailFilter.Proofs.Match.Comparator

/-!
# Domains have no case

A test of domains folds the domain and the keys before it compares them. The comparator it was
given can then see no case that the other would not see, so the choice of it makes no difference,
and neither does the case of letters in the keys and in the domains of the message.
-/

namespace MailFilter

/-- The domains are the same but for the case of ASCII letters. -/
def Address.SameDomain (address other : Address) : Prop :=
  Ascii.Recased (address.part .domain) (other.part .domain)

/-- Two paths of an envelope part are both absent, or name mailboxes whose domains are the same but
for the case of ASCII letters, or are no mailboxes for the same reason. -/
inductive EnvelopePart.SamePath [MailReader] (part : EnvelopePart) :
    Option String → Option String → Prop
  | absent : part.SamePath none none
  | mailbox {path otherPath : String} {address other : Address} :
    part.address path = .ok address → part.address otherPath = .ok other →
      address.SameDomain other → part.SamePath (some path) (some otherPath)
  | fault {path otherPath : String} {fault : Fault} :
    part.address path = .error fault → part.address otherPath = .error fault →
      part.SamePath (some path) (some otherPath)

/-- The mailboxes of two messages, in headers and envelope, have the same domains but for the case
of ASCII letters. -/
structure Message.SameDomains [MailReader] (mail other : Message) : Prop where
  headers : ∀ name, List.Forall₂ Address.SameDomain (mail.addresses name) (other.addresses name)
  envelope : ∀ part : EnvelopePart, part.SamePath (mail.envelope part) (other.envelope part)

/-- Two lists have an accepted item at the same time if their items are accepted pairwise. -/
theorem any_eq_of_forall₂ {α β : Type} {R : α → β → Prop} {p : α → Bool} {q : β → Bool}
    {xs : List α} {ys : List β} (h : List.Forall₂ R xs ys) (hpq : ∀ x y, R x y → p x = q y) :
    xs.any p = ys.any q := by
  induction h with
  | nil => rfl
  | cons hxy _ ih => rw [List.any_cons, List.any_cons, hpq _ _ hxy, ih]

/-- In lower case all comparators agree. -/
theorem Comparator.compare_lower (comparator : Comparator) (matchType : MatchType)
    (value key : String) :
    comparator.compare matchType (Ascii.lower value) (Ascii.lower key) =
      asciiCasemap.compare matchType value key := by
  rw [asciiCasemap_compare, ← octet_compare_lower]
  cases comparator with
  | octet => rfl
  | asciiCasemap =>
    rw [asciiCasemap_compare, Ascii.upper_lower, Ascii.upper_lower, octet_compare_lower]

/-- Two tests of domains are asked the same, but for their comparators and the case of ASCII
letters in their keys. -/
structure MatchArguments.SameOnDomains (sought other : MatchArguments) : Prop where
  domain : sought.addressPart = .domain
  otherDomain : other.addressPart = .domain
  matchType : sought.matchType = other.matchType
  names : sought.names = other.names
  keys : List.Forall₂ Ascii.Recased sought.keys other.keys

namespace MatchArguments.SameOnDomains

variable {sought other : MatchArguments} {mail otherMail : Message}

/-- Addresses of the same domain are accepted alike, whatever the comparators are. -/
theorem acceptsAddress (h : sought.SameOnDomains other) (first second : Comparator)
    {address otherAddress : Address} (hdomain : address.SameDomain otherAddress) :
    sought.acceptsAddress first address = other.acceptsAddress second otherAddress := by
  simp only [MatchArguments.acceptsAddress, h.domain, h.otherDomain, if_true,
    Comparator.compare_lower, h.matchType]
  exact any_eq_of_forall₂ h.keys fun key otherKey hkey =>
    (Comparator.asciiCasemap_compare_recased hdomain hkey other.matchType).symm

variable [MailReader]

/-- Messages with the same domains are accepted alike, whatever the comparators are. -/
theorem acceptsAddresses (h : sought.SameOnDomains other) (first second : Comparator)
    (hmail : mail.SameDomains otherMail) :
    sought.acceptsAddresses first mail = other.acceptsAddresses second otherMail := by
  rw [MatchArguments.acceptsAddresses, MatchArguments.acceptsAddresses, h.names]
  congr 1
  funext name
  exact any_eq_of_forall₂ (hmail.headers name) fun _ _ => h.acceptsAddress first second

/-- Envelopes with the same domains come to the same, whatever the comparators are. -/
theorem acceptsEnvelope (h : sought.SameOnDomains other) (first second : Comparator)
    (hmail : mail.SameDomains otherMail) (parts : List EnvelopePart) :
    sought.acceptsEnvelope first mail parts = other.acceptsEnvelope second otherMail parts := by
  induction parts with
  | nil => rfl
  | cons part parts ih =>
    rw [MatchArguments.acceptsEnvelope, MatchArguments.acceptsEnvelope]
    have hpaths := hmail.envelope part
    generalize mail.envelope part = path, otherMail.envelope part = otherPath at hpaths
    cases hpaths with
    | absent => exact ih
    | mailbox haddress hother hdomain =>
      have haccepts := h.acceptsAddress first second hdomain
      simp only [haddress, hother, haccepts, ih]
    | fault hfault hother => simp only [hfault, hother]

end MatchArguments.SameOnDomains

/-- The comparators that are built in are found by their names. -/
theorem Comparator.lookup_builtin (comparator : Comparator) :
    Registries.builtin.comparators.lookup comparator.name = .ok comparator := by
  cases comparator <;> rfl

/-- The tests that are built in are found by their names. -/
theorem TestKind.lookup_builtin (kind : TestKind) :
    Registries.builtin.tests.lookup kind.name = .ok kind := by
  cases kind <;> rfl

/-- A test without tests inside is asked what its arguments say. -/
theorem MatchArguments.ofTest_of_ofArguments {arguments : List Argument} {sought : MatchArguments}
    (h : ofArguments true arguments = .ok sought) (name : String) (line : Nat) :
    ofTest ⟨name, arguments, none, line⟩ true = .ok sought := by
  rw [ofTest]
  simp [h, Except.mapError]

/-- All choices of comparator, match type, names and keys can be asked for. -/
theorem MatchArguments.ofArguments_domain (comparator : Comparator) (matchType : MatchType)
    (names keys : List String) :
    ofArguments true [.tag ":comparator", .string comparator.name, .tag ":domain",
        .tag matchType.text, .strings names, .strings keys] =
      .ok ⟨comparator.name, matchType, .domain, names, keys⟩ := by
  cases comparator <;> cases matchType <;> rfl

namespace Test

variable {test : Test} {sought : MatchArguments} {comparator : Comparator}

/-- An `address` test with a known comparator comes to whether an address is accepted. -/
theorem address_eq_of_ofTest [MailReader] (environment : Environment)
    (hsought : MatchArguments.ofTest test true = .ok sought)
    (hcomparator : environment.registries.comparators.lookup sought.comparator = .ok comparator) :
    test.address environment = .ok (sought.acceptsAddresses comparator environment.mail) := by
  rw [address, hsought]
  simp only [bind, Except.bind, hcomparator]
  rfl

/-- An `envelope` test with a known comparator reads its parts and walks through them. -/
theorem envelope_eq_of_ofTest [MailReader] (environment : Environment)
    (hsought : MatchArguments.ofTest test true = .ok sought)
    (hcomparator : environment.registries.comparators.lookup sought.comparator = .ok comparator) :
    test.envelope environment =
      test.envelopeParts sought.names >>=
        sought.acceptsEnvelope comparator environment.mail := by
  rw [envelope, hsought]
  change (test.envelopeParts sought.names >>= fun parts =>
    environment.registries.comparators.lookup sought.comparator >>= fun comparator =>
      sought.acceptsEnvelope comparator environment.mail parts) = _
  rw [hcomparator]
  rfl

/-- The arguments of a test have no part in what its names mean. -/
theorem envelopeParts_eq (first second : List Argument) {name : String} {line : Nat}
    (names : List String) :
    envelopeParts ⟨name, first, none, line⟩ names =
      envelopeParts ⟨name, second, none, line⟩ names := by
  induction names with
  | nil => rfl
  | cons _ _ ih =>
    rw [envelopeParts, envelopeParts, ih]
    rfl

/-- The evaluation of a test that holds no further tests: its step is counted, and its result is
noted unless it is a fault. -/
def conclude (environment : Environment) (test : Test) (result : Except Fault Bool) :
    Eval Bool := do
  Eval.tick environment test.name test.line
  let result ← Eval.ofExcept result
  Eval.note (.testDone test.name test.line result)
  return result

variable [MailReader]

/-- A test that is bound to `address` is concluded as one. -/
theorem evaluate_address (environment : Environment) (test : Test)
    (hname : environment.registries.tests.lookup test.name = .ok .address) :
    test.evaluate environment = test.conclude environment (test.address environment) := by
  obtain ⟨name, arguments, tests, line⟩ := test
  rw [evaluate, hname]
  rfl

/-- A test that is bound to `envelope` is concluded as one. -/
theorem evaluate_envelope (environment : Environment) (test : Test)
    (hname : environment.registries.tests.lookup test.name = .ok .envelope) :
    test.evaluate environment = test.conclude environment (test.envelope environment) := by
  obtain ⟨name, arguments, tests, line⟩ := test
  rw [evaluate, hname]
  rfl

/-- An `address` or `envelope` test of domains, in whatever order its arguments were written, does
not depend on its comparator, nor on the case of ASCII letters in its keys and in the domains of
the mailboxes: it comes to the same truth value or the same fault, and leaves the same state. -/
theorem evaluate_domain_caseless {kind : TestKind} (hkind : kind = .address ∨ kind = .envelope)
    {first second : Comparator} {matchType : MatchType} {names keys otherKeys : List String}
    {arguments otherArguments : List Argument}
    (harguments : MatchArguments.ofArguments true arguments =
      .ok ⟨first.name, matchType, .domain, names, keys⟩)
    (hother : MatchArguments.ofArguments true otherArguments =
      .ok ⟨second.name, matchType, .domain, names, otherKeys⟩)
    (hkeys : List.Forall₂ Ascii.Recased keys otherKeys)
    {mail otherMail : Message} (hmail : mail.SameDomains otherMail)
    (maxSteps : Option Nat) (line : Nat) (session : Session) :
    (evaluate ⟨.builtin, maxSteps, mail⟩ ⟨kind.name, arguments, none, line⟩).apply session =
      (evaluate ⟨.builtin, maxSteps, otherMail⟩
        ⟨kind.name, otherArguments, none, line⟩).apply session := by
  have hsame : MatchArguments.SameOnDomains ⟨first.name, matchType, .domain, names, keys⟩
      ⟨second.name, matchType, .domain, names, otherKeys⟩ := ⟨rfl, rfl, rfl, rfl, hkeys⟩
  have hsought := MatchArguments.ofTest_of_ofArguments harguments kind.name line
  have hotherSought := MatchArguments.ofTest_of_ofArguments hother kind.name line
  have hname := kind.lookup_builtin
  let environment : Environment := ⟨.builtin, maxSteps, mail⟩
  let otherEnvironment : Environment := ⟨.builtin, maxSteps, otherMail⟩
  let test : Test := ⟨kind.name, arguments, none, line⟩
  let otherTest : Test := ⟨kind.name, otherArguments, none, line⟩
  -- All that is left of an evaluation besides its result does not read the message.
  have hconclude : ∀ result, test.conclude environment result =
      otherTest.conclude otherEnvironment result := fun _ => rfl
  rcases hkind with rfl | rfl
  · have hresult : test.address environment = otherTest.address otherEnvironment := by
      rw [address_eq_of_ofTest environment hsought first.lookup_builtin,
        address_eq_of_ofTest otherEnvironment hotherSought second.lookup_builtin,
        hsame.acceptsAddresses first second hmail]
    rw [evaluate_address environment test hname, evaluate_address otherEnvironment otherTest hname,
      hresult, hconclude]
  · have hresult : test.envelope environment = otherTest.envelope otherEnvironment := by
      rw [envelope_eq_of_ofTest environment hsought first.lookup_builtin,
        envelope_eq_of_ofTest otherEnvironment hotherSought second.lookup_builtin,
        envelopeParts_eq arguments otherArguments]
      congr 1
      funext parts
      exact hsame.acceptsEnvelope first second hmail parts
    rw [evaluate_envelope environment test hname,
      evaluate_envelope otherEnvironment otherTest hname, hresult, hconclude]

end Test

/-- It is enough to compare the mailboxes field by field. -/
theorem Message.forall₂_addresses [MailReader] {mail other : Message}
    (h : List.Forall₂ (fun field otherField : HeaderField => field.name = otherField.name ∧
      List.Forall₂ Address.SameDomain (Address.ofList field.value)
        (Address.ofList otherField.value)) mail.fields other.fields) (name : String) :
    List.Forall₂ Address.SameDomain (mail.addresses name) (other.addresses name) := by
  rw [addresses, addresses, values, values]
  generalize mail.fields = fields, other.fields = otherFields at h
  induction h with
  | nil => exact .nil
  | @cons field otherField _ _ hfield _ ih =>
    obtain ⟨hname, hmailboxes⟩ := hfield
    rw [List.filter_cons, List.filter_cons, hname]
    by_cases hnamed : Ascii.eqIgnoreCase otherField.name name = true
    · rw [if_pos hnamed, if_pos hnamed]
      exact List.rel_append hmailboxes ih
    · rw [if_neg hnamed, if_neg hnamed]
      exact ih

/-- A message to a mailbox of the domain. -/
def Message.toAnn (domain : String) : Message :=
  .ofBytes (Utf8.encode ("To: ann@" ++ domain ++ "\r\n\r\n")) none (some ("ann@" ++ domain))

/-- Two messages to Ann whose domains differ in the case of letters have the same domains. -/
theorem Message.sameDomains_toAnn : (toAnn "Example.ORG").SameDomains (toAnn "eXample.org") where
  headers := by
    refine forall₂_addresses ?_
    have hfields : (toAnn "Example.ORG").fields =
        [⟨"To", Utf8.encode " ann@Example.ORG\r\n"⟩] := by decide +kernel
    have hotherFields : (toAnn "eXample.org").fields =
        [⟨"To", Utf8.encode " ann@eXample.org\r\n"⟩] := by decide +kernel
    have hmailboxes : Address.ofList (Utf8.encode " ann@Example.ORG\r\n") =
        [⟨"ann", some "Example.ORG"⟩] := by decide +kernel
    have hotherMailboxes : Address.ofList (Utf8.encode " ann@eXample.org\r\n") =
        [⟨"ann", some "eXample.org"⟩] := by decide +kernel
    rw [hfields, hotherFields]
    refine .cons ⟨rfl, ?_⟩ .nil
    rw [hmailboxes, hotherMailboxes]
    exact .cons (Ascii.recased_iff.mpr (by decide)) .nil
  envelope part := by
    cases part with
    | sender => exact .absent
    | recipient =>
      have hpath : EnvelopePart.recipient.address "ann@Example.ORG" =
          .ok ⟨"ann", some "Example.ORG"⟩ := by decide +kernel
      have hotherPath : EnvelopePart.recipient.address "ann@eXample.org" =
          .ok ⟨"ann", some "eXample.org"⟩ := by decide +kernel
      exact .mailbox hpath hotherPath (Ascii.recased_iff.mpr (by decide))

/-- The test `address :comparator "i;octet" :domain :contains ["to"] ["EXAMPLE."]` and one for
`example.` with the folding comparator, on messages that spell the domain differently. -/
theorem Test.evaluate_domain_caseless_toAnn :
    let mail := Message.toAnn "Example.ORG"
    let other := Message.toAnn "eXample.org"
    let asked : List Argument := [.tag ":comparator", .string "i;octet", .tag ":domain",
      .tag ":contains", .strings ["to"], .strings ["EXAMPLE."]]
    let otherAsked : List Argument := [.tag ":contains", .tag ":domain", .string "to",
      .string "example."]
    MatchArguments.ofArguments true asked =
        .ok ⟨"i;octet", .contains, .domain, ["to"], ["EXAMPLE."]⟩ ∧
      MatchArguments.ofArguments true otherAsked =
        .ok ⟨"i;ascii-casemap", .contains, .domain, ["to"], ["example."]⟩ ∧
      ["EXAMPLE."].Forall₂ Ascii.Recased ["example."] ∧ mail.SameDomains other ∧
      ((evaluate ⟨.builtin, some 1, mail⟩ ⟨"address", asked, none, 3⟩).apply (.start [])).1 =
        .ok true ∧
      (evaluate ⟨.builtin, some 1, mail⟩ ⟨"address", asked, none, 3⟩).apply (.start []) =
        (evaluate ⟨.builtin, some 1, other⟩ ⟨"address", otherAsked, none, 3⟩).apply
          (.start []) := by
  intro mail other asked otherAsked
  have hasked := MatchArguments.ofArguments_domain .octet .contains ["to"] ["EXAMPLE."]
  have hotherAsked : MatchArguments.ofArguments true otherAsked =
      .ok ⟨Comparator.asciiCasemap.name, .contains, .domain, ["to"], ["example."]⟩ := by
    decide +kernel
  have hkeys : ["EXAMPLE."].Forall₂ Ascii.Recased ["example."] :=
    .cons (Ascii.recased_iff.mpr (by decide)) .nil
  have htrue : ((evaluate ⟨.builtin, some 1, mail⟩ ⟨"address", asked, none, 3⟩).apply
      (.start [])).1 = .ok true := by decide +kernel
  exact ⟨hasked, hotherAsked, hkeys, Message.sameDomains_toAnn, htrue,
    evaluate_domain_caseless (.inl rfl) hasked hotherAsked hkeys Message.sameDomains_toAnn
      (some 1) 3 (.start [])⟩

end MailFilter
