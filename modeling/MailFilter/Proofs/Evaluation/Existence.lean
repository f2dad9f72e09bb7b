import MailFilter.Host.Reader
import MailFilter.Proofs.Evaluation.Combinators
import MailFilter.Proofs.Evaluation.Resolution
import MailFilter.Proofs.Mail.Addresses

/-!
# Tests of headers and addresses ask whether something is there

A `header` test holds if under some name that it lists something is found that some key of it
accepts, and so does an `address` test. They differ in what they look for, and in a header that is
absent: it has no mailbox, but its text still contains the empty one. So names and keys are sets to
these tests, and a test of several is `anyof` of the tests of one name and one key.
-/

namespace MailFilter

/-- A text under a name that a message offers to a match type: that of a field of the name, which is
empty if its value spells none, or the empty text if there is no such field and containment is asked
for. Names agree if they differ in the case of ASCII letters alone. -/
inductive Message.Offers [MailReader] (mail : Message) (matchType : MatchType) (name : String) :
    String → Prop
  | field {field : HeaderField} {text : String} (hfield : field ∈ mail.fields)
    (hname : Ascii.Recased field.name name) (htext : MailReader.text? field.value = some text) :
    Offers mail matchType name (Text.trim text)
  | noText {field : HeaderField} (hfield : field ∈ mail.fields)
    (hname : Ascii.Recased field.name name) (htext : MailReader.text? field.value = none) :
    Offers mail matchType name ""
  | absent (habsent : ∀ field ∈ mail.fields, ¬Ascii.Recased field.name name)
    (hcontains : matchType = .contains) : Offers mail matchType name ""

/-- An address under a name: a field of the name holds an address list, and an entry of it has a
text that spells the address once the blanks at its ends are gone. Blanks alone spell none. -/
inductive Message.Lists [MailReader] (mail : Message) (name : String) (address : Address) : Prop
  | entry {field : HeaderField} {entries : List (Option String)} {written : String}
    (hfield : field ∈ mail.fields) (hname : Ascii.Recased field.name name)
    (hentries : MailReader.entries? field.value = some entries) (hwritten : some written ∈ entries)
    (hblank : Text.trim written ≠ "") (hspelled : address.IsSpelledBy (Text.trim written))

namespace MatchArguments

/-- The form in which the chosen part of an address and a key are compared. -/
def addressForm (sought : MatchArguments) (text : String) : String :=
  if sought.addressPart = .domain then Ascii.lower text else text

/-- Whether the text of the chosen part of an address is accepted for a key. -/
def AcceptsKey (sought : MatchArguments) (comparator : Comparator) (address : Address)
    (key : String) : Prop :=
  ∃ text, address.HasPart sought.addressPart text ∧
    comparator.compare sought.matchType (sought.addressForm text) (sought.addressForm key) = true

/-- Whether something under a name is accepted for a key: an address or a text. -/
def Finds [MailReader] (sought : MatchArguments) (addresses : Bool) (comparator : Comparator)
    (mail : Message) (name key : String) : Prop :=
  if addresses then ∃ address, mail.Lists name address ∧ sought.AcceptsKey comparator address key
  else ∃ value, mail.Offers sought.matchType name value ∧
    comparator.compare sought.matchType value key = true

/-- The answer of a test of addresses or of texts. -/
def accepts [MailReader] (sought : MatchArguments) (addresses : Bool) (comparator : Comparator)
    (mail : Message) : Bool :=
  if addresses then sought.acceptsAddresses comparator mail
  else sought.acceptsHeaders comparator mail

variable {sought : MatchArguments} {comparator : Comparator} {mail : Message} {addresses : Bool}

/-- A field has a name if the two differ in the case of ASCII letters alone. -/
theorem mem_values_iff {name : String} {value : Bytes} :
    value ∈ mail.values name ↔
      ∃ field ∈ mail.fields, Ascii.Recased field.name name ∧ field.value = value := by
  simp [Message.values, Ascii.eqIgnoreCase_iff_recased, and_assoc]

/-- The values that a header test compares are the texts that the message offers. -/
theorem mem_headerValues_iff [MailReader] {name value : String} :
    value ∈ sought.headerValues mail name ↔ mail.Offers sought.matchType name value := by
  have hheader : ∀ text, text ∈ mail.header name ↔ ∃ field ∈ mail.fields,
      Ascii.Recased field.name name ∧ Message.headerText field.value = text := by
    simp [Message.header, mem_values_iff, and_assoc]
  -- With a field of the name there is a text, whatever its value is.
  have hoffers : ∀ text, text ∈ mail.header name → mail.Offers sought.matchType name text := by
    intro text htext
    obtain ⟨field, hfield, hname, rfl⟩ := (hheader text).mp htext
    rw [Message.headerText]
    cases hread : MailReader.text? field.value with
    | none => exact .noText hfield hname hread
    | some text => exact .field hfield hname hread
  have hfound : ∀ {text}, mail.Offers sought.matchType name text →
      text ∈ mail.header name ∨
        mail.header name = [] ∧ sought.matchType = .contains ∧ text = "" := by
    rintro text (⟨hfield, hname, hread⟩ | ⟨hfield, hname, hread⟩ | ⟨habsent, hcontains⟩)
    · exact .inl ((hheader _).mpr ⟨_, hfield, hname, by rw [Message.headerText, hread]; rfl⟩)
    · exact .inl ((hheader _).mpr ⟨_, hfield, hname, by rw [Message.headerText, hread]; rfl⟩)
    · refine .inr ⟨List.eq_nil_iff_forall_not_mem.mpr fun text htext => ?_, hcontains, rfl⟩
      obtain ⟨field, hfield, hname, -⟩ := (hheader text).mp htext
      exact habsent field hfield hname
  rw [headerValues]
  split
  · next hnone =>
    have habsent : ∀ field ∈ mail.fields, ¬Ascii.Recased field.name name := by
      intro field hfield hname
      have hmem := (hheader _).mpr ⟨field, hfield, hname, rfl⟩
      rw [hnone] at hmem
      cases hmem
    split
    · next hcontains =>
      rw [List.mem_singleton]
      constructor
      · rintro rfl
        exact .absent habsent hcontains
      · intro h
        obtain hmem | ⟨-, -, rfl⟩ := hfound h
        · rw [hnone] at hmem
          cases hmem
        · rfl
    · next hcontains =>
      refine iff_of_false List.not_mem_nil fun h => ?_
      obtain hmem | ⟨-, hother, -⟩ := hfound h
      · rw [hnone] at hmem
        cases hmem
      · exact hcontains hother
  · next hsome =>
    refine ⟨hoffers value, fun h => ?_⟩
    obtain hmem | ⟨hnone, -⟩ := hfound h
    · exact hmem
    · exact absurd hnone hsome

/-- The addresses that an address test compares are those that the message lists. -/
theorem mem_addresses_iff [MailReader] {name : String} {address : Address} :
    address ∈ mail.addresses name ↔ mail.Lists name address := by
  simp only [Message.addresses, List.mem_flatMap, mem_values_iff, Address.ofList, List.mem_map,
    List.mem_filter, List.mem_filterMap, decide_eq_true_eq, id_eq]
  constructor
  · rintro ⟨_, ⟨field, hfield, hname, rfl⟩, _, ⟨⟨written, ⟨_, hentry, rfl⟩, rfl⟩, hblank⟩, rfl⟩
    obtain ⟨entries, hentries, hwritten⟩ : ∃ entries,
        MailReader.entries? field.value = some entries ∧ some written ∈ entries := by
      cases hread : MailReader.entries? field.value with
      | none => simp [hread] at hentry
      | some entries => exact ⟨entries, rfl, by simpa [hread] using hentry⟩
    exact .entry hfield hname hentries hwritten hblank (Address.isSpelledBy_iff.mpr rfl)
  · rintro ⟨hfield, hname, hentries, hwritten, hblank, hspelled⟩
    exact ⟨_, ⟨_, hfield, hname, rfl⟩, _,
      ⟨⟨_, ⟨_, by simpa [hentries] using hwritten, rfl⟩, rfl⟩, hblank⟩,
      Address.isSpelledBy_iff.mp hspelled⟩

/-- An address is accepted if the text of its chosen part is, for some key. -/
theorem acceptsAddress_eq_true_iff {address : Address} :
    sought.acceptsAddress comparator address = true ↔
      ∃ key ∈ sought.keys, sought.AcceptsKey comparator address key := by
  simp only [acceptsAddress, AcceptsKey, addressForm, Address.hasPart_iff, exists_eq_left']
  split <;> exact List.any_eq_true

/-- The answer is yes if something is found for some of the names and some of the keys. -/
theorem accepts_eq_true_iff [MailReader] :
    sought.accepts addresses comparator mail = true ↔
      ∃ name ∈ sought.names, ∃ key ∈ sought.keys,
        sought.Finds addresses comparator mail name key := by
  cases addresses with
  | false =>
    simp only [accepts, acceptsHeaders, Finds, List.any_eq_true, mem_headerValues_iff,
      Bool.false_eq_true, if_false]
    refine exists_congr fun name => and_congr_right' ?_
    constructor
    · rintro ⟨value, hvalue, key, hkey, hcompare⟩
      exact ⟨key, hkey, value, hvalue, hcompare⟩
    · rintro ⟨key, hkey, value, hvalue, hcompare⟩
      exact ⟨value, hvalue, key, hkey, hcompare⟩
  | true =>
    simp only [accepts, acceptsAddresses, Finds, List.any_eq_true, mem_addresses_iff,
      acceptsAddress_eq_true_iff, if_true]
    refine exists_congr fun name => and_congr_right' ?_
    constructor
    · rintro ⟨address, haddress, key, hkey, haccepts⟩
      exact ⟨key, hkey, address, haddress, haccepts⟩
    · rintro ⟨key, hkey, address, haddress, haccepts⟩
      exact ⟨address, haddress, key, hkey, haccepts⟩

/-- The same question about other names and keys. -/
def about (sought : MatchArguments) (names keys : List String) : MatchArguments :=
  { sought with names := names, keys := keys }

/-- What is found for a name and a key does not depend on the others. -/
theorem accepts_about_eq_true_iff [MailReader] {names keys : List String} :
    (sought.about names keys).accepts addresses comparator mail = true ↔
      ∃ name ∈ names, ∃ key ∈ keys, sought.Finds addresses comparator mail name key :=
  accepts_eq_true_iff

/-- The answers for one name and one key each make up the answer for all of them. -/
theorem any_accepts_about [MailReader] (names keys : List String) :
    (names.any fun name => keys.any fun key =>
        (sought.about [name] [key]).accepts addresses comparator mail) =
      (sought.about names keys).accepts addresses comparator mail := by
  rw [Bool.eq_iff_iff]
  simp [accepts_about_eq_true_iff]

/-- As many lists are read as there are arguments. -/
theorem length_readLists {arguments : List Argument} {lists : List (List String)}
    (hlists : readLists arguments = .ok lists) : lists.length = arguments.length := by
  induction arguments generalizing lists with
  | nil => cases hlists; rfl
  | cons argument arguments ih =>
    cases argument with
    | tag | number => cases hlists
    | string | strings =>
      obtain ⟨others, hothers, hlists⟩ := exists_of_bind_eq_ok hlists
      cases hlists
      rw [List.length_cons, List.length_cons, ih hothers]

/-- The two lists at the end of the arguments can be exchanged for one name and one key. -/
theorem ofArguments_narrowed {arguments : List Argument}
    (hsought : ofArguments addresses arguments = .ok sought) (name key : String) :
    ofArguments addresses
        (arguments.take (arguments.length - 2) ++ [.string name, .string key]) =
      .ok (sought.about [name] [key]) := by
  obtain ⟨⟨tags, rest⟩, hread, hbehind⟩ := exists_of_bind_eq_ok hsought
  obtain ⟨lists, hlists, hchosen⟩ := exists_of_bind_eq_ok hbehind
  obtain ⟨front, rfl, hfront⟩ := MatchTags.exists_read_append hread
  have hlength := length_readLists hlists
  split at hchosen
  · next names keys =>
    cases hchosen
    have hrest : rest.length = 2 := hlength.symm
    have htake : (front ++ rest).take ((front ++ rest).length - 2) = front := by
      rw [List.length_append, hrest, Nat.add_sub_cancel, List.take_left]
    rw [htake, ofArguments, hfront [.string name, .string key] (by simp)]
    rfl
  · cases hchosen

end MatchArguments

namespace Test

/-- The test for one name and one key, asked as the test is otherwise. -/
def narrowed (test : Test) (name key : String) : Test :=
  { test with
    arguments := test.arguments.take (test.arguments.length - 2) ++
      [.string name, .string key] }

/-- A test that is narrowed to one name and one key is asked as before, but about these. -/
theorem ofTest_narrowed {test : Test} {addresses : Bool} {sought : MatchArguments}
    (hsought : MatchArguments.ofTest test addresses = .ok sought) (name key : String) :
    MatchArguments.ofTest (test.narrowed name key) addresses =
      .ok (sought.about [name] [key]) := by
  have harguments := eq_ok_of_mapError_eq_ok hsought
  rw [MatchArguments.ofTest]
  split at harguments
  · cases harguments
  · next htests =>
    have hnarrowed : (test.narrowed name key).tests = test.tests := rfl
    rw [hnarrowed, if_neg htests, narrowed, MatchArguments.ofArguments_narrowed harguments]
    rfl

/-- The tests of one name and one key each that a test consists of. -/
def narrowings (test : Test) (names keys : List String) : List Test :=
  names.flatMap fun name => keys.map fun key => test.narrowed name key

variable {environment : Environment} {addresses : Bool} {test : Test} {sought : MatchArguments}
  {comparator : Comparator}

/-- A `header` test with a known comparator comes to whether a text is accepted. -/
theorem header_eq_of_ofTest [MailReader] (environment : Environment)
    (hsought : MatchArguments.ofTest test false = .ok sought)
    (hcomparator : environment.registries.comparators.lookup sought.comparator = .ok comparator) :
    test.header environment = .ok (sought.acceptsHeaders comparator environment.mail) := by
  rw [header, hsought]
  simp only [bind, Except.bind, hcomparator]
  rfl

/-- A test of headers or addresses is settled once its arguments have been read and its comparator
found. -/
theorem verdict_of_sought [MailReader]
    (hname : environment.registries.tests.lookup test.name =
      .ok (if addresses then .address else .header))
    (hsought : MatchArguments.ofTest test addresses = .ok sought)
    (hcomparator : environment.registries.comparators.lookup sought.comparator = .ok comparator) :
    test.verdict environment = .ok (sought.accepts addresses comparator environment.mail) := by
  cases addresses with
  | false =>
    have hheader := header_eq_of_ofTest environment hsought hcomparator
    obtain ⟨name, arguments, tests, line⟩ := test
    rw [verdict.eq_def]
    dsimp only
    rw [hname]
    exact hheader
  | true =>
    have haddress := address_eq_of_ofTest environment hsought hcomparator
    obtain ⟨name, arguments, tests, line⟩ := test
    rw [verdict.eq_def]
    dsimp only
    rw [hname]
    exact haddress

/-- Without faults the first result that is true is true if any of them is. -/
theorem firstOther_false_map_ok (results : List Bool) :
    firstOther false (results.map .ok) = .ok (results.any id) := by
  induction results with
  | nil => rfl
  | cons result results ih =>
    cases result with
    | false => simpa [firstOther] using ih
    | true => rfl

/-- The tests of one name and one key, joined by `anyof`, come to what the test of all of them comes
to. -/
theorem verdict_anyof_narrowings [MailReader] {anyof : Test} {names keys : List String}
    (hname : environment.registries.tests.lookup test.name =
      .ok (if addresses then .address else .header))
    (hsought : MatchArguments.ofTest test addresses = .ok sought)
    (hcomparator : environment.registries.comparators.lookup sought.comparator = .ok comparator)
    (hanyof : environment.registries.tests.lookup anyof.name = .ok .anyof)
    (harguments : anyof.arguments = []) (htests : anyof.tests = some (test.narrowings names keys))
    (hnames : names ≠ []) (hkeys : keys ≠ []) :
    anyof.verdict environment =
      .ok ((sought.about names keys).accepts addresses comparator environment.mail) := by
  have hpart : ∀ name key, (test.narrowed name key).verdict environment =
      .ok ((sought.about [name] [key]).accepts addresses comparator environment.mail) :=
    fun name key => verdict_of_sought hname (ofTest_narrowed hsought name key) hcomparator
  have hparts : test.narrowings names keys ≠ [] := by
    obtain ⟨name, others, rfl⟩ := List.exists_cons_of_ne_nil hnames
    obtain ⟨key, others, rfl⟩ := List.exists_cons_of_ne_nil hkeys
    exact List.cons_ne_nil _ _
  have hresults : (test.narrowings names keys).map (verdict environment) =
      (names.flatMap fun name => keys.map fun key =>
        (sought.about [name] [key]).accepts addresses comparator environment.mail).map .ok := by
    simp [narrowings, List.map_flatMap, Function.comp_def, hpart]
  rw [verdict_usual hanyof rfl harguments htests hparts, hresults, firstOther_false_map_ok,
    List.any_flatMap]
  simp only [List.any_map, Function.comp_def, id_eq, MatchArguments.any_accepts_about]

/-- A test of headers or of addresses, if its arguments are right and its comparator is known,
holds if under some name that it lists something is found for some of its keys, and is false
otherwise. It holds just as well with other lists of the same names and keys, and it comes to what
`anyof` of the tests of one name and one key comes to, if it lists any. -/
theorem evaluate_finds [MailReader] (hbudget : environment.maxSteps = none)
    (hname : environment.registries.tests.lookup test.name =
      .ok (if addresses then .address else .header))
    (hsought : MatchArguments.ofTest test addresses = .ok sought)
    (hcomparator : environment.registries.comparators.lookup sought.comparator = .ok comparator)
    (session : Session) :
    let result := ((test.evaluate environment).apply session).1
    let found := ∃ name ∈ sought.names, ∃ key ∈ sought.keys,
      sought.Finds addresses comparator environment.mail name key
    ((result = .ok true ↔ found) ∧ (result = .ok false ↔ ¬found)) ∧
    (∀ (other : Test) (names keys : List String),
      environment.registries.tests.lookup other.name =
        .ok (if addresses then .address else .header) →
      MatchArguments.ofTest other addresses = .ok (sought.about names keys) →
      (∀ name, name ∈ names ↔ name ∈ sought.names) → (∀ key, key ∈ keys ↔ key ∈ sought.keys) →
      ∀ session', ((other.evaluate environment).apply session').1 = result) ∧
    (∀ name key, MatchArguments.ofTest (test.narrowed name key) addresses =
      .ok (sought.about [name] [key])) ∧
    (∀ anyof : Test, environment.registries.tests.lookup anyof.name = .ok .anyof →
      anyof.arguments = [] → anyof.tests = some (test.narrowings sought.names sought.keys) →
      sought.names ≠ [] → sought.keys ≠ [] →
      ∀ session', ((anyof.evaluate environment).apply session').1 = result) := by
  intro result found
  have hresult : result = .ok (sought.accepts addresses comparator environment.mail) :=
    (result_apply_evaluate hbudget test session).trans
      (verdict_of_sought hname hsought hcomparator)
  have hfound : sought.accepts addresses comparator environment.mail = true ↔ found :=
    MatchArguments.accepts_eq_true_iff
  refine ⟨⟨?_, ?_⟩, ?_, ofTest_narrowed hsought, ?_⟩
  · rw [hresult, Except.ok.injEq, hfound]
  · rw [hresult, Except.ok.injEq, ← hfound, Bool.not_eq_true]
  · intro other names keys hother hotherSought hnames hkeys session'
    rw [result_apply_evaluate hbudget, verdict_of_sought hother hotherSought hcomparator, hresult]
    congr 1
    rw [Bool.eq_iff_iff, MatchArguments.accepts_about_eq_true_iff, hfound]
    simp only [hnames, hkeys, found]
  · intro anyof hanyof harguments htests hnames hkeys session'
    rw [result_apply_evaluate hbudget, hresult]
    exact verdict_anyof_narrowings hname hsought hcomparator hanyof harguments htests hnames hkeys

/-- A message to one mailbox, whose domain is found under the second name and for the second key,
in other letters, but not as its local part. Of headers that are absent the text contains the empty
one, but they list no address. -/
theorem evaluate_finds_mailbox :
    let environment : Environment :=
      ⟨.builtin, none, .ofBytes (Utf8.encode "To: Ann <ann@Example.org>\r\n\r\n") none none⟩
    let ann : Address := ⟨"ann", some "Example.org"⟩
    let asking (name tag : String) (names keys : List String) : Test :=
      ⟨name, [.tag tag, .strings names, .strings keys], none, 1⟩
    let result (test : Test) := ((test.evaluate environment).apply (.start [])).1
    let domain := asking "address" ":domain" ["cc", "to"] ["zz", "example.org"]
    let anyof : Test :=
      ⟨"anyof", [], some (domain.narrowings ["cc", "to"] ["zz", "example.org"]), 2⟩
    (environment.mail.Lists "to" ann ∧ ann.HasPart .domain "Example.org") ∧
      result domain = .ok true ∧
      result (asking "address" ":domain" ["to", "cc", "to"] ["example.org", "zz"]) = .ok true ∧
      result anyof = .ok true ∧
      result (asking "address" ":localpart" ["cc", "to"] ["zz", "example.org"]) = .ok false ∧
      result (asking "header" ":contains" ["cc", "bcc"] ["zz", ""]) = .ok true ∧
      result (asking "address" ":contains" ["cc", "bcc"] ["zz", ""]) = .ok false := by
  intro environment ann asking result domain anyof
  have hcomparator : environment.registries.comparators.lookup "i;ascii-casemap" =
      .ok .asciiCasemap := Comparator.asciiCasemap.lookup_builtin
  have haddress : ∀ tag names keys,
      environment.registries.tests.lookup (asking "address" tag names keys).name =
        .ok (if true then .address else .header) := fun _ _ _ => TestKind.address.lookup_builtin
  have hheader : ∀ tag names keys,
      environment.registries.tests.lookup (asking "header" tag names keys).name =
        .ok (if false then .address else .header) := fun _ _ _ => TestKind.header.lookup_builtin
  have hfields : environment.mail.fields = [⟨"To", Utf8.encode " Ann <ann@Example.org>\r\n"⟩] := by
    decide +kernel
  have hentries : MailReader.entries? (Utf8.encode " Ann <ann@Example.org>\r\n") =
      some [some "ann@Example.org"] := by decide +kernel
  have hlists : environment.mail.Lists "to" ann := by
    refine .entry (hfields ▸ List.mem_singleton_self _)
      (Ascii.eqIgnoreCase_iff_recased.mp (by decide +kernel)) hentries (List.mem_singleton_self _)
      (by decide +kernel) (Address.isSpelledBy_iff.mpr (by decide +kernel))
  have hpart : ann.HasPart .domain "Example.org" := .domain _ _
  obtain ⟨⟨hfound, -⟩, hsame, -, hanyof⟩ :=
    evaluate_finds rfl (haddress ":domain" ["cc", "to"] ["zz", "example.org"]) rfl hcomparator
      (.start [])
  have hdomain : result domain = .ok true := hfound.mpr ⟨"to", by decide, "example.org", by decide,
    ann, hlists, "Example.org", hpart, by decide +kernel⟩
  refine ⟨⟨hlists, hpart⟩, hdomain, ?_, ?_, ?_, ?_, ?_⟩
  · refine (hsame (asking _ _ _ _) ["to", "cc", "to"] ["example.org", "zz"]
      (haddress _ _ _) rfl ?_ ?_ _).trans hdomain
    · simp [or_comm]
    · simp [or_comm]
  · have hsingles := hanyof anyof TestKind.anyof.lookup_builtin rfl rfl (List.cons_ne_nil _ _)
      (List.cons_ne_nil _ _) (.start [])
    exact hsingles.trans hdomain
  · obtain ⟨⟨-, hnotFound⟩, -⟩ :=
      evaluate_finds rfl (haddress ":localpart" _ _) rfl hcomparator (.start [])
    refine hnotFound.mpr (mt MatchArguments.accepts_eq_true_iff.mpr ?_)
    decide +kernel
  · obtain ⟨⟨hempty, -⟩, -⟩ :=
      evaluate_finds rfl (hheader ":contains" _ _) rfl hcomparator (.start [])
    have habsent : environment.mail.Offers .contains "cc" "" := by
      refine .absent (fun field hfield hname => ?_) rfl
      obtain rfl := List.mem_singleton.mp (hfields ▸ hfield)
      exact absurd (Ascii.eqIgnoreCase_iff_recased.mpr hname) (by decide +kernel)
    exact hempty.mpr ⟨"cc", by decide, "", by decide, "", habsent, by decide +kernel⟩
  · obtain ⟨⟨-, hnotFound⟩, -⟩ :=
      evaluate_finds rfl (haddress ":contains" _ _) rfl hcomparator (.start [])
    refine hnotFound.mpr (mt MatchArguments.accepts_eq_true_iff.mpr ?_)
    decide +kernel

end Test

end MailFilter
