import Mathlib.Data.List.Induction
import Mathlib.Data.List.Nodup
import MailFilter.Proofs.Evaluation.Existence

/-!
# The choices of a matching test

The tags of a matching test make choices, which may be spelled in any order but only one of a sort.
What the test is told is what it last chose of each sort, or a default, and the two lists behind
the tags. The reading of a test is compared here with that description: it fills one slot after
another and refuses a slot that is filled, while the description speaks of the choices as a whole.
-/

namespace MailFilter

section

variable {α β γ κ σ : Type}

/-- A slot that every member of a list either fills anew or leaves alone holds in the end what the
last member that fills it puts in. -/
theorem foldl_eq_elim_getLast? {get : σ → β} {step : σ → α → σ} {fill : α → Option γ} {put : γ → β}
    (hstep : ∀ state item, get (step state item) = (fill item).elim (get state) put)
    (items : List α) (state : σ) :
    get (items.foldl step state) = (items.filterMap fill).getLast?.elim (get state) put := by
  induction items using List.reverseRecOn with
  | nil => rfl
  | append_singleton items item ih =>
    rw [List.foldl_append, List.foldl_cons, List.foldl_nil, hstep, ih, List.filterMap_append]
    cases hfill : fill item with
    | none => rw [List.filterMap_cons_none hfill, List.filterMap_nil, List.append_nil]; rfl
    | some value =>
      rw [List.filterMap_cons_some hfill, List.filterMap_nil, List.getLast?_concat]
      rfl

/-- Two lists have the same members of each kind, in the same order. -/
def SameByKind [DecidableEq κ] (kind : α → κ) (items others : List α) : Prop :=
  ∀ k, items.filter (kind · = k) = others.filter (kind · = k)

variable [DecidableEq κ] {kind : α → κ} {items others : List α}

/-- What is read of the members of one kind only does not depend on where the others stand. -/
theorem SameByKind.filterMap_eq (h : SameByKind kind items others) {fill : α → Option β} {k : κ}
    (hfill : ∀ item, kind item ≠ k → fill item = none) :
    items.filterMap fill = others.filterMap fill := by
  have hfilter : ∀ list : List α,
      list.filterMap fill = (list.filter (kind · = k)).filterMap fill := by
    intro list
    rw [List.filterMap_filter]
    congr 1
    funext item
    by_cases hkind : kind item = k
    · simp [hkind]
    · simp [hkind, hfill item hkind]
  rw [hfilter items, hfilter others, h k]

/-- Where no two members are of one kind, every rearrangement keeps the order within each kind. -/
theorem sameByKind_of_perm (hperm : items.Perm others) (hnodup : (items.map kind).Nodup) :
    SameByKind kind items others := by
  intro k
  have hcount : (items.filter (kind · = k)).length ≤ 1 := by
    rw [← List.countP_eq_length_filter]
    have hle := List.nodup_iff_count_le_one.mp hnodup k
    rw [List.count, List.countP_map] at hle
    exact hle
  have hfilter : (items.filter (kind · = k)).Perm (others.filter (kind · = k)) := hperm.filter _
  match hlist : items.filter (kind · = k), hcount with
  | [], _ =>
    rw [hlist] at hfilter
    exact hfilter.nil_eq
  | [item], _ =>
    rw [hlist] at hfilter
    exact (List.singleton_perm.mp hfilter).symm ▸ rfl

end

/-- The sorts of choices that the tags of a matching test make. -/
inductive MatchChoiceKind where
  | comparator
  | matchType
  | addressPart
  deriving DecidableEq

/-- A choice that the tags of a matching test make. -/
inductive MatchChoice where
  | comparator (name : String)
  | matchType (way : MatchType)
  | addressPart (part : AddressPart)
  deriving DecidableEq

namespace MatchChoice

/-- The sort of a choice. -/
def kind : MatchChoice → MatchChoiceKind
  | comparator _ => .comparator
  | .matchType _ => .matchType
  | addressPart _ => .addressPart

/-- The arguments that spell a choice: a tag, and behind `:comparator` a name. -/
def written : MatchChoice → List Argument
  | comparator name => [.tag ":comparator", .string name]
  | .matchType way => [.tag way.text]
  | addressPart part => [.tag part.text]

/-- The name of a comparator that is chosen. -/
def comparator? : MatchChoice → Option String
  | comparator name => some name
  | _ => none

/-- The match type that is chosen. -/
def matchType? : MatchChoice → Option MatchType
  | .matchType way => some way
  | _ => none

/-- The address part that is chosen. -/
def addressPart? : MatchChoice → Option AddressPart
  | addressPart part => some part
  | _ => none

/-- Choices that a test may make together: at most one of each sort, and an address part only where
addresses are compared. -/
structure Compatible (addresses : Bool) (choices : List MatchChoice) : Prop where
  nodup : (choices.map kind).Nodup
  addresses : ∀ choice ∈ choices, choice.kind = .addressPart → addresses = true

end MatchChoice

/-- What some choices, names and keys come to. What is not chosen has its default. -/
def MatchArguments.ofChoices (choices : List MatchChoice) (names keys : List String) :
    MatchArguments where
  comparator :=
    (choices.filterMap MatchChoice.comparator?).getLast?.elim "i;ascii-casemap" Ascii.lower
  matchType := (choices.filterMap MatchChoice.matchType?).getLast?.getD .is
  addressPart := (choices.filterMap MatchChoice.addressPart?).getLast?.getD .all
  names := names
  keys := keys

/-- Some arguments spell choices and then two lists of strings, each of which may be a single
string. -/
inductive MatchArguments.IsSpelled (addresses : Bool) : List Argument → MatchArguments → Prop
  | intro {choices : List MatchChoice} {first second : Argument} {names keys : List String}
      (hcompatible : MatchChoice.Compatible addresses choices)
      (hnames : first.strings? = some names) (hkeys : second.strings? = some keys) :
      IsSpelled addresses (choices.flatMap MatchChoice.written ++ [first, second])
        (ofChoices choices names keys)

/-- The tag of a match type is read just where it is written. -/
theorem MatchType.ofTag?_eq_some_iff {tag : String} {matchType : MatchType} :
    MatchType.ofTag? tag = some matchType ↔ tag = matchType.text := by
  constructor
  · intro h
    unfold ofTag? at h
    split at h <;> cases h <;> rfl
  · rintro rfl
    cases matchType <;> rfl

/-- The tag of an address part is read just where it is written. -/
theorem AddressPart.ofTag?_eq_some_iff {tag : String} {part : AddressPart} :
    AddressPart.ofTag? tag = some part ↔ tag = part.text := by
  constructor
  · intro h
    unfold ofTag? at h
    split at h <;> cases h <;> rfl
  · rintro rfl
    cases part <;> rfl

attribute [ext] MatchTags

namespace MatchTags

/-- Whether a choice of a sort has been made. -/
def isChosen (tags : MatchTags) : MatchChoiceKind → Bool
  | .comparator => tags.comparator.isSome
  | .matchType => tags.matchType.isSome
  | .addressPart => tags.addressPart.isSome

/-- The choices after one more of them. -/
def add (tags : MatchTags) : MatchChoice → MatchTags
  | .comparator name => { tags with comparator := some (Ascii.lower name) }
  | .matchType way => { tags with matchType := some way }
  | .addressPart part => { tags with addressPart := some part }

/-- The last choice of a comparator counts, in lower case. -/
theorem comparator_foldl (tags : MatchTags) (choices : List MatchChoice) :
    (choices.foldl add tags).comparator =
      (choices.filterMap MatchChoice.comparator?).getLast?.elim tags.comparator
        fun name => some (Ascii.lower name) :=
  foldl_eq_elim_getLast? (fun _ choice => by cases choice <;> rfl) choices tags

/-- The last choice of a match type counts. -/
theorem matchType_foldl (tags : MatchTags) (choices : List MatchChoice) :
    (choices.foldl add tags).matchType =
      (choices.filterMap MatchChoice.matchType?).getLast?.elim tags.matchType some :=
  foldl_eq_elim_getLast? (fun _ choice => by cases choice <;> rfl) choices tags

/-- The last choice of an address part counts. -/
theorem addressPart_foldl (tags : MatchTags) (choices : List MatchChoice) :
    (choices.foldl add tags).addressPart =
      (choices.filterMap MatchChoice.addressPart?).getLast?.elim tags.addressPart some :=
  foldl_eq_elim_getLast? (fun _ choice => by cases choice <;> rfl) choices tags

variable {addresses : Bool} {tags : MatchTags} {choice : MatchChoice} {choices : List MatchChoice}

/-- A choice makes its kind chosen and no other. -/
theorem isChosen_add (tags : MatchTags) (choice : MatchChoice) (kind : MatchChoiceKind) :
    (tags.add choice).isChosen kind = (decide (choice.kind = kind) || tags.isChosen kind) := by
  cases choice <;> cases kind <;> rfl

/-- A choice of a new sort is added to those made before. -/
theorem read_written (hfree : tags.isChosen choice.kind = false)
    (haddresses : choice.kind = .addressPart → addresses = true) (rest : List Argument) :
    tags.read addresses (choice.written ++ rest) = (tags.add choice).read addresses rest := by
  have hslot : ¬tags.isChosen choice.kind = true := Bool.eq_false_iff.mp hfree
  cases choice with
  | comparator name =>
    have hchoose : tags.chooseComparator name = .ok (tags.add (.comparator name)) := if_neg hslot
    rw [MatchChoice.written, List.cons_append, List.singleton_append, read, if_pos rfl, hchoose]
  | matchType matchType =>
    have htag : matchType.text ≠ ":comparator" := by cases matchType <;> decide
    have hchoose :
        tags.choose addresses matchType.text = .ok (tags.add (.matchType matchType)) := by
      rw [choose, MatchType.ofTag?_eq_some_iff.mpr rfl]
      exact if_neg hslot
    rw [MatchChoice.written, List.singleton_append, read.eq_def]
    dsimp only
    rw [if_neg htag, hchoose]
  | addressPart part =>
    have htag : part.text ≠ ":comparator" := by cases part <;> decide
    have hother : MatchType.ofTag? part.text = .none := by cases part <;> rfl
    have hpart : (AddressPart.ofTag? part.text).filter (fun _ => addresses) = some part := by
      rw [AddressPart.ofTag?_eq_some_iff.mpr rfl, haddresses rfl]
      rfl
    have hchoose : tags.choose addresses part.text = .ok (tags.add (.addressPart part)) := by
      rw [choose, hother]
      dsimp only
      rw [hpart]
      exact if_neg hslot
    rw [MatchChoice.written, List.singleton_append, read.eq_def]
    dsimp only
    rw [if_neg htag, hchoose]

/-- A tag other than `:comparator` that is accepted spells a choice of a new sort. -/
theorem exists_choice_of_choose {tag : String} {next : MatchTags}
    (h : tags.choose addresses tag = .ok next) :
    ∃ choice : MatchChoice, choice.written = [.tag tag] ∧ tags.isChosen choice.kind = false ∧
      (choice.kind = .addressPart → addresses = true) ∧ next = tags.add choice := by
  rw [choose] at h
  split at h
  · next matchType htag =>
    split at h
    · cases h
    · next hfree =>
      cases h
      obtain rfl := MatchType.ofTag?_eq_some_iff.mp htag
      exact ⟨.matchType matchType, rfl, Bool.eq_false_iff.mpr hfree, (fun hkind => by cases hkind),
        rfl⟩
  · split at h
    · next part hpart =>
      split at h
      · cases h
      · next hfree =>
        cases h
        obtain ⟨htag, haddresses⟩ := Option.filter_eq_some_iff.mp hpart
        obtain rfl := AddressPart.ofTag?_eq_some_iff.mp htag
        exact ⟨.addressPart part, rfl, Bool.eq_false_iff.mpr hfree, fun _ => haddresses, rfl⟩
    · cases h

/-- Choices that may be made together, and of sorts that have not been chosen before. -/
structure Fits (addresses : Bool) (tags : MatchTags) (choices : List MatchChoice) : Prop
    extends MatchChoice.Compatible addresses choices where
  free : ∀ choice ∈ choices, tags.isChosen choice.kind = false

/-- Nothing fits behind any choices. -/
theorem fits_nil (addresses : Bool) (tags : MatchTags) : Fits addresses tags [] where
  nodup := List.nodup_nil
  addresses := List.forall_mem_nil _
  free := List.forall_mem_nil _

/-- Choices that are compatible fit where nothing has been chosen. -/
theorem fits_none (h : MatchChoice.Compatible addresses choices) : Fits addresses none choices where
  toCompatible := h
  free := by
    intro choice _
    cases choice <;> rfl

/-- Choices fit one by one, each behind those before it. -/
theorem fits_cons_iff : Fits addresses tags (choice :: choices) ↔
    tags.isChosen choice.kind = false ∧ (choice.kind = .addressPart → addresses = true) ∧
      Fits addresses (tags.add choice) choices := by
  constructor
  · rintro ⟨⟨hnodup, haddresses⟩, hfree⟩
    rw [List.map_cons, List.nodup_cons] at hnodup
    rw [List.forall_mem_cons] at haddresses hfree
    refine ⟨hfree.1, haddresses.1, ⟨hnodup.2, haddresses.2⟩, fun other hother => ?_⟩
    have hkind : choice.kind ≠ other.kind := fun hsame =>
      hnodup.1 (hsame ▸ List.mem_map_of_mem hother)
    rw [isChosen_add, hfree.2 other hother, Bool.or_false, decide_eq_false hkind]
  · rintro ⟨hchoice, hpart, ⟨hnodup, haddresses⟩, hfree⟩
    have hapart : ∀ other ∈ choices,
        choice.kind ≠ other.kind ∧ tags.isChosen other.kind = false := by
      intro other hother
      have hother := hfree other hother
      rw [isChosen_add, Bool.or_eq_false_iff, decide_eq_false_iff_not] at hother
      exact hother
    have hnew : choice.kind ∉ choices.map MatchChoice.kind := by
      intro hmem
      obtain ⟨other, hother, hsame⟩ := List.mem_map.mp hmem
      exact (hapart other hother).1 hsame.symm
    refine ⟨⟨?_, List.forall_mem_cons.mpr ⟨hpart, haddresses⟩⟩,
      List.forall_mem_cons.mpr ⟨hchoice, fun other hother => (hapart other hother).2⟩⟩
    rw [List.map_cons, List.nodup_cons]
    exact ⟨hnew, hnodup⟩

/-- Choices that fit are read one after the other. -/
theorem Fits.read_append (h : Fits addresses tags choices) (rest : List Argument) :
    tags.read addresses (choices.flatMap MatchChoice.written ++ rest) =
      (choices.foldl add tags).read addresses rest := by
  induction choices generalizing tags with
  | nil => rfl
  | cons choice choices ih =>
    obtain ⟨hfree, haddresses, hfits⟩ := fits_cons_iff.mp h
    rw [List.flatMap_cons, List.append_assoc, read_written hfree haddresses, ih hfits,
      List.foldl_cons]

/-- Whatever is read of tags is choices that fit, up to the first argument that is no tag. -/
theorem exists_choices_of_read {arguments rest : List Argument} {chosen : MatchTags}
    (h : tags.read addresses arguments = .ok (chosen, rest)) :
    ∃ choices : List MatchChoice, Fits addresses tags choices ∧
      arguments = choices.flatMap MatchChoice.written ++ rest ∧
      chosen = choices.foldl add tags := by
  fun_induction read addresses tags arguments with
  | case1 tags name arguments next hnext ih =>
    obtain ⟨choices, hfits, rfl, rfl⟩ := ih h
    rw [chooseComparator] at hnext
    split at hnext
    · cases hnext
    · next hfree =>
      cases hnext
      have hfits : Fits addresses tags (.comparator name :: choices) :=
        fits_cons_iff.mpr ⟨Bool.eq_false_iff.mpr hfree, (fun hkind => by cases hkind), hfits⟩
      refine ⟨.comparator name :: choices, hfits, ?_, rfl⟩
      rw [List.flatMap_cons, List.append_assoc]
      rfl
  | case4 tags tag arguments htag next hnext ih =>
    obtain ⟨choices, hfits, rfl, rfl⟩ := ih h
    obtain ⟨choice, hwritten, hfree, haddresses, rfl⟩ := exists_choice_of_choose hnext
    refine ⟨choice :: choices, fits_cons_iff.mpr ⟨hfree, haddresses, hfits⟩, ?_, rfl⟩
    rw [List.flatMap_cons, hwritten, List.append_assoc, List.singleton_append]
  | case6 tags arguments hplain =>
    cases h
    exact ⟨[], fits_nil _ _, rfl, rfl⟩
  | _ => cases h

/-- The reading of tags stops at the first list. -/
theorem read_of_strings? {first : Argument} {names : List String} (h : first.strings? = some names)
    (rest : List Argument) : tags.read addresses (first :: rest) = .ok (tags, first :: rest) := by
  cases first with
  | string | strings => rfl
  | tag | number => cases h

end MatchTags

namespace MatchArguments

/-- Lists are read one by one, and all of them must be lists. -/
theorem readLists_cons_eq_ok_iff {first : Argument} {rest : List Argument}
    {lists : List (List String)} : readLists (first :: rest) = .ok lists ↔
      ∃ names others, first.strings? = some names ∧ readLists rest = .ok others ∧
        lists = names :: others := by
  cases first with
  | tag | number => simp [readLists, Argument.strings?]
  | string | strings =>
    rw [readLists]
    cases readLists rest with
    | error cause => simp [bind, Except.bind]
    | ok others => simp [bind, Except.bind, pure, Except.pure, Argument.strings?, eq_comm]

/-- Two lists are read off two arguments that are strings or lists of strings. -/
theorem readLists_eq_pair_iff {arguments : List Argument} {names keys : List String} :
    readLists arguments = .ok [names, keys] ↔
      ∃ first second, first.strings? = some names ∧ second.strings? = some keys ∧
        arguments = [first, second] := by
  constructor
  · intro h
    have hlength := length_readLists h
    match arguments, hlength with
    | [first, second], _ =>
      obtain ⟨_, _, hnames, hrest, hlists⟩ := readLists_cons_eq_ok_iff.mp h
      cases hlists
      obtain ⟨_, _, hkeys, -, hlists⟩ := readLists_cons_eq_ok_iff.mp hrest
      cases hlists
      exact ⟨first, second, hnames, hkeys, rfl⟩
  · rintro ⟨first, second, hnames, hkeys, rfl⟩
    refine readLists_cons_eq_ok_iff.mpr ⟨names, [keys], hnames, ?_, rfl⟩
    exact readLists_cons_eq_ok_iff.mpr ⟨keys, [], hkeys, rfl, rfl⟩

/-- What tags choose from nothing is what the choices come to. -/
theorem ofChoices_eq (choices : List MatchChoice) (names keys : List String) :
    ofChoices choices names keys =
      { comparator :=
          (choices.foldl MatchTags.add .none).comparator.getD Comparator.asciiCasemap.name
        matchType := (choices.foldl MatchTags.add .none).matchType.getD .is
        addressPart := (choices.foldl MatchTags.add .none).addressPart.getD .all
        names := names
        keys := keys } := by
  rw [MatchTags.comparator_foldl, MatchTags.matchType_foldl, MatchTags.addressPart_foldl, ofChoices]
  congr 1
  · cases (choices.filterMap MatchChoice.comparator?).getLast? <;> rfl
  · cases (choices.filterMap MatchChoice.matchType?).getLast? <;> rfl
  · cases (choices.filterMap MatchChoice.addressPart?).getLast? <;> rfl

/-- Arguments are read where they spell choices and two lists, and as these. -/
theorem ofArguments_eq_ok_iff {addresses : Bool} {arguments : List Argument}
    {result : MatchArguments} :
    ofArguments addresses arguments = .ok result ↔ IsSpelled addresses arguments result := by
  constructor
  · intro h
    obtain ⟨⟨chosen, rest⟩, hread, hlists⟩ := exists_of_bind_eq_ok h
    obtain ⟨lists, hlists, hresult⟩ := exists_of_bind_eq_ok hlists
    obtain ⟨choices, hfits, rfl, rfl⟩ := MatchTags.exists_choices_of_read hread
    split at hresult
    · next names keys =>
      obtain ⟨first, second, hnames, hkeys, rfl⟩ := readLists_eq_pair_iff.mp hlists
      obtain rfl : ofChoices choices names keys = result :=
        (ofChoices_eq choices names keys).trans (Except.ok.inj hresult)
      exact .intro hfits.toCompatible hnames hkeys
    · cases hresult
  · rintro ⟨hcompatible, hnames, hkeys⟩
    rw [ofArguments, (MatchTags.fits_none hcompatible).read_append,
      MatchTags.read_of_strings? hnames]
    change (readLists _ >>= _) = _
    rw [readLists_eq_pair_iff.mpr ⟨_, _, hnames, hkeys, rfl⟩, ofChoices_eq]
    rfl

end MatchArguments

namespace MatchChoice.Compatible

variable {addresses : Bool} {choices others : List MatchChoice}

/-- Choices that are compatible are so in every order. -/
theorem perm (h : Compatible addresses choices) (hperm : choices.Perm others) :
    Compatible addresses others where
  nodup := (hperm.map kind).nodup_iff.mp h.nodup
  addresses choice hchoice := h.addresses choice (hperm.mem_iff.mpr hchoice)

/-- The order of choices that may be made together does not matter. -/
theorem foldl_add_perm (h : Compatible addresses choices) (hperm : choices.Perm others) :
    others.foldl MatchTags.add .none = choices.foldl MatchTags.add .none := by
  have hsame : SameByKind kind choices others := sameByKind_of_perm hperm h.nodup
  apply MatchTags.ext
  · rw [MatchTags.comparator_foldl, MatchTags.comparator_foldl,
      hsame.filterMap_eq (k := .comparator) fun choice _ => by cases choice <;> trivial]
  · rw [MatchTags.matchType_foldl, MatchTags.matchType_foldl,
      hsame.filterMap_eq (k := .matchType) fun choice _ => by cases choice <;> trivial]
  · rw [MatchTags.addressPart_foldl, MatchTags.addressPart_foldl,
      hsame.filterMap_eq (k := .addressPart) fun choice _ => by cases choice <;> trivial]

/-- Neither do the arguments behind them read differently for it. -/
theorem ofArguments_perm (h : Compatible addresses choices) (hperm : choices.Perm others)
    (rest : List Argument) :
    MatchArguments.ofArguments addresses (others.flatMap written ++ rest) =
      MatchArguments.ofArguments addresses (choices.flatMap written ++ rest) := by
  rw [MatchArguments.ofArguments, MatchArguments.ofArguments,
    (MatchTags.fits_none (h.perm hperm)).read_append, (MatchTags.fits_none h).read_append,
    h.foldl_add_perm hperm]

end MatchChoice.Compatible

/-- A matching test is told what to do exactly where it holds no further tests and its arguments
spell choices and two lists. The choices may be spelled in any order. Every other test is faulted
under its name and line. -/
theorem MatchArguments.ofTest_exact (test : Test) (addresses : Bool) :
    (∀ sought, ofTest test addresses = .ok sought ↔
      test.tests = none ∧ IsSpelled addresses test.arguments sought) ∧
    (∀ choices others rest, MatchChoice.Compatible addresses choices → choices.Perm others →
      test.arguments = choices.flatMap MatchChoice.written ++ rest →
      ofTest { test with arguments := others.flatMap MatchChoice.written ++ rest } addresses =
        ofTest test addresses) ∧
    ((test.tests ≠ none ∨ ∀ sought, ¬IsSpelled addresses test.arguments sought) →
      ∃ cause, ofTest test addresses = .error (.arguments test.name test.line cause)) := by
  have hread : ∀ sought, ofTest test addresses = .ok sought ↔
      test.tests = none ∧ IsSpelled addresses test.arguments sought := by
    intro sought
    rw [ofTest, ← ofArguments_eq_ok_iff]
    cases htests : test.tests with
    | none =>
      cases ofArguments addresses test.arguments <;> simp [Except.mapError]
    | some tests => simp [Except.mapError]
  refine ⟨hread, fun choices others rest hcompatible hperm harguments => ?_, fun h => ?_⟩
  · rw [ofTest, ofTest, harguments]
    dsimp only
    rw [hcompatible.ofArguments_perm hperm]
  · cases hresult : ofTest test addresses with
    | error fault =>
      obtain ⟨cause, rfl⟩ := test.failsOnly_matchArguments addresses fault hresult
      exact ⟨cause, rfl⟩
    | ok sought =>
      obtain ⟨htests, hspelled⟩ := (hread sought).mp hresult
      rcases h with h | h
      · exact absurd htests h
      · exact absurd hspelled (h sought)

/-- The test `address :domain :comparator "I;Octet" :contains ["From", "To"] "example.com"`, with
its tags in another order, and as a `header` test, which knows no `:domain`. -/
theorem MatchArguments.ofTest_exact_domain :
    let choices : List MatchChoice :=
      [.addressPart .domain, .comparator "I;Octet", .matchType .contains]
    let others : List MatchChoice :=
      [.comparator "I;Octet", .matchType .contains, .addressPart .domain]
    let lists : List Argument := [.strings ["From", "To"], .string "example.com"]
    let test : Test := ⟨"address", choices.flatMap MatchChoice.written ++ lists, none, 3⟩
    let sought : MatchArguments := ⟨"i;octet", .contains, .domain, ["From", "To"], ["example.com"]⟩
    MatchChoice.Compatible true choices ∧ choices.Perm others ∧
      (test.tests = none ∧ IsSpelled true test.arguments sought) ∧
      ofTest { test with arguments := others.flatMap MatchChoice.written ++ lists } true =
        .ok sought ∧
      (∀ sought, ¬IsSpelled false test.arguments sought) ∧
      ∃ cause, ofTest test false = .error (.arguments "address" 3 cause) := by
  intro choices others lists test sought
  have hcompatible : MatchChoice.Compatible true choices := ⟨by decide, fun _ _ _ => rfl⟩
  have hperm : choices.Perm others := by decide
  have hresult : ofTest test true = .ok sought := rfl
  obtain ⟨hread, hreorder, -⟩ := ofTest_exact test true
  obtain ⟨hreadPlain, -, hfault⟩ := ofTest_exact test false
  have hrefused : ∀ sought, ¬IsSpelled false test.arguments sought := fun sought hspelled =>
    nomatch (hreadPlain sought).mpr ⟨rfl, hspelled⟩
  refine ⟨hcompatible, hperm, (hread sought).mp hresult, ?_, hrefused, hfault (.inr hrefused)⟩
  exact (hreorder choices others lists hcompatible hperm rfl).trans hresult

end MailFilter
