import MailFilter.Proofs.Script.Induction
import MailFilter.Script.Validation

/-!
# What a checked script keeps to

The check of a script is one pass over its tree. Read backwards, a script that passes has every test
and command under a known name, with declared comparators only, and so have all tests and commands
inside them. The comparators declared on the way are always ones there are.
-/

namespace MailFilter.Script

/-- A check that consists of two passes if both pass. -/
theorem bind_eq_ok_iff {first second : Except Fault Unit} :
    (first >>= fun _ => second) = .ok () ↔ first = .ok () ∧ second = .ok () := by
  cases first with
  | error fault => exact ⟨nofun, nofun⟩
  | ok _ => exact ⟨fun h => ⟨rfl, h⟩, And.right⟩

/-- A check that begins by refusing what does not hold passes if that holds and the rest passes. -/
theorem guard_eq_ok_iff {holds : Bool} {fault : Fault} {next : Unit → Except Fault Unit} :
    (if (!holds) = true then throw fault >>= next else next ()) = .ok () ↔
      holds = true ∧ next () = .ok () := by
  cases holds with
  | false => exact ⟨nofun, nofun⟩
  | true => exact ⟨fun h => ⟨rfl, h⟩, And.right⟩

variable {registries : Registries} {declared : List String}

/-- A comparator among arguments must be declared, and so must those behind it. -/
theorem undeclared?_comparator {name : String} {arguments : List Argument} :
    undeclared? declared (.tag ":comparator" :: .string name :: arguments) = none ↔
      Ascii.lower name ∈ declared ∧ undeclared? declared arguments = none := by
  rw [undeclared?]
  split <;> simp_all

/-- Another tag among arguments declares nothing and needs nothing. -/
theorem undeclared?_tag {tag : String} (htag : tag ≠ ":comparator") (arguments : List Argument) :
    undeclared? declared (.tag tag :: arguments) = undeclared? declared arguments := by
  rw [undeclared?] <;> simp [htag]

/-- Arguments are right if no comparator among them is undeclared. -/
theorem checkArguments_eq_ok_iff {line : Nat} {arguments : List Argument} :
    checkArguments declared line arguments = .ok () ↔ undeclared? declared arguments = none := by
  rw [checkArguments]
  cases undeclared? declared arguments <;> simp

/-- Tests are right if each of them is. -/
theorem checkTests_eq_ok_iff {tests : List Test} :
    checkTests registries declared tests = .ok () ↔
      ∀ test ∈ tests, checkTest registries declared test = .ok () := by
  induction tests with
  | nil => simp [checkTests]
  | cons test tests ih => rw [checkTests, bind_eq_ok_iff, ih, List.forall_mem_cons]

/-- Tests that may be absent are right if each of them is. -/
theorem checkTests?_eq_ok_iff {tests : Option (List Test)} :
    checkTests? registries declared tests = .ok () ↔
      ∀ test ∈ tests.getD [], checkTest registries declared test = .ok () := by
  cases tests with
  | none => simp [checkTests?]
  | some tests => rw [checkTests?, checkTests_eq_ok_iff, Option.getD_some]

/-- A test passes if its name is known, its comparators are declared and the tests inside it
pass. -/
theorem checkTest_eq_ok_iff {test : Test} :
    checkTest registries declared test = .ok () ↔
      registries.tests.supports test.name = true ∧
        undeclared? declared test.arguments = none ∧
        ∀ inner ∈ test.nested, checkTest registries declared inner = .ok () := by
  obtain ⟨name, arguments, tests, line⟩ := test
  rw [checkTest]
  refine guard_eq_ok_iff.trans (and_congr_right' (bind_eq_ok_iff.trans ?_))
  exact and_congr checkArguments_eq_ok_iff checkTests?_eq_ok_iff

/-- A block is right if each of its commands is, and none is a requirement. -/
theorem checkBlock_eq_ok_iff {block : List Command} :
    checkBlock registries declared block = .ok () ↔
      ∀ command ∈ block,
        command.name ≠ "require" ∧ checkCommand registries declared command = .ok () := by
  induction block with
  | nil => simp [checkBlock]
  | cons command block ih =>
    rw [checkBlock, List.forall_mem_cons, ← ih, and_assoc]
    by_cases hname : command.name = "require"
    · rw [if_pos hname]
      exact ⟨nofun, fun h => absurd hname h.1⟩
    · rw [if_neg hname]
      exact bind_eq_ok_iff.trans (by simp [hname])

/-- A block that may be absent is right if each of its commands is, and none is a requirement. -/
theorem checkBlock?_eq_ok_iff {block : Option (List Command)} :
    checkBlock? registries declared block = .ok () ↔
      ∀ command ∈ block.getD [],
        command.name ≠ "require" ∧ checkCommand registries declared command = .ok () := by
  cases block with
  | none => simp [checkBlock?]
  | some block => rw [checkBlock?, checkBlock_eq_ok_iff, Option.getD_some]

/-- A command passes if its name is known, its comparators are declared, and the tests and the
commands inside it pass, none of which is a requirement. -/
theorem checkCommand_eq_ok_iff {command : Command} :
    checkCommand registries declared command = .ok () ↔
      registries.commands.supports command.name = true ∧
        undeclared? declared command.arguments = none ∧
        (∀ test ∈ command.nested, checkTest registries declared test = .ok ()) ∧
        ∀ inner ∈ command.inner,
          inner.name ≠ "require" ∧ checkCommand registries declared inner = .ok () := by
  obtain ⟨name, arguments, tests, block, line⟩ := command
  rw [checkCommand]
  refine guard_eq_ok_iff.trans (and_congr_right' (bind_eq_ok_iff.trans ?_))
  refine and_congr checkArguments_eq_ok_iff (bind_eq_ok_iff.trans ?_)
  exact and_congr checkTests?_eq_ok_iff checkBlock?_eq_ok_iff

/-- A feature can be declared if, in lower case, it is supported. A comparator is then declared in
front of the others. -/
theorem declareFeature_eq_ok_iff {line : Nat} {feature : String} {declared' : List String} :
    declareFeature registries line declared feature = .ok declared' ↔
      registries.supportsFeature (Ascii.lower feature) = true ∧
        (requiredComparator? (Ascii.lower feature)).toList ++ declared = declared' := by
  rw [declareFeature, Registries.supportsFeature]
  cases requiredComparator? (Ascii.lower feature) with
  | some comparator => dsimp only; split <;> simp_all
  | none => dsimp only; split <;> simp_all

/-- Features can be declared if all of them can. -/
theorem declareAll_eq_ok_iff {line : Nat} {features declared' : List String} :
    features.foldlM (declareFeature registries line) declared = .ok declared' ↔
      (∀ feature ∈ features, registries.supportsFeature (Ascii.lower feature) = true) ∧
        (features.filterMap fun feature => requiredComparator? (Ascii.lower feature)).reverse ++
          declared = declared' := by
  induction features generalizing declared with
  | nil => simp [pure, Except.pure]
  | cons feature features ih =>
    rw [List.foldlM_cons, List.forall_mem_cons, and_assoc]
    cases hfeature : declareFeature registries line declared feature with
    | error fault =>
      refine ⟨nofun, fun h => ?_⟩
      rw [declareFeature_eq_ok_iff.mpr ⟨h.1, rfl⟩] at hfeature
      cases hfeature
    | ok between =>
      obtain ⟨hsupported, rfl⟩ := declareFeature_eq_ok_iff.mp hfeature
      refine ih.trans ?_
      cases hcomparator : requiredComparator? (Ascii.lower feature) <;>
        simp [hsupported, hcomparator]

/-- A requirement at the top passes if none but requirements stand before it and every feature it
lists can be declared. -/
theorem checkScript_require_iff {prolog : Bool} {command : Command} {script : Script}
    (hname : command.name = "require") :
    checkScript registries declared prolog (command :: script) = .ok () ↔
      prolog = true ∧ ∃ declared',
        (requiredFeatures command).foldlM (declareFeature registries command.line) declared =
            .ok declared' ∧
          checkScript registries declared' true script = .ok () := by
  rw [checkScript, if_pos hname]
  refine guard_eq_ok_iff.trans (and_congr_right' ?_)
  cases (requiredFeatures command).foldlM (declareFeature registries command.line) declared with
  | error fault => exact ⟨nofun, nofun⟩
  | ok declared' =>
    exact ⟨fun h => ⟨declared', rfl, h⟩, fun ⟨_, h, hrest⟩ => by cases h; exact hrest⟩

/-- Any other command at the top passes as it would in a block, and closes the prolog. -/
theorem checkScript_other_iff {prolog : Bool} {command : Command} {script : Script}
    (hname : command.name ≠ "require") :
    checkScript registries declared prolog (command :: script) = .ok () ↔
      checkCommand registries declared command = .ok () ∧
        checkScript registries declared false script = .ok () := by
  rw [checkScript, if_neg hname]
  exact bind_eq_ok_iff

/-- A requirement at the top of a script that passes has only requirements before it, and features
that are supported in lower case. -/
theorem checkScript_requirement {prolog : Bool} {before after : Script} {command : Command}
    (hname : command.name = "require")
    (hcheck : checkScript registries declared prolog (before ++ command :: after) = .ok ()) :
    prolog = true ∧ (∀ earlier ∈ before, earlier.name = "require") ∧
      ∀ feature ∈ requiredFeatures command,
        registries.supportsFeature (Ascii.lower feature) = true := by
  induction before generalizing declared prolog with
  | nil =>
    obtain ⟨hprolog, declared', hfeatures, -⟩ := (checkScript_require_iff hname).mp hcheck
    exact ⟨hprolog, nofun, (declareAll_eq_ok_iff.mp hfeatures).1⟩
  | cons earlier before ih =>
    rw [List.cons_append] at hcheck
    by_cases hearlier : earlier.name = "require"
    · obtain ⟨hprolog, declared', -, hrest⟩ := (checkScript_require_iff hearlier).mp hcheck
      obtain ⟨-, hbefore, hfeatures⟩ := ih hrest
      exact ⟨hprolog, List.forall_mem_cons.mpr ⟨hearlier, hbefore⟩, hfeatures⟩
    · obtain ⟨-, hrest⟩ := (checkScript_other_iff hearlier).mp hcheck
      cases (ih hrest).1

/-- The comparators declared so far are ones there are. -/
def DeclaredSupported (registries : Registries) (declared : List String) : Prop :=
  ∀ name ∈ declared, registries.comparators.supports name = true

/-- What has been declared is supported, also behind further features. -/
theorem declareAll_supported {line : Nat} {features declared' : List String}
    (hdeclared : DeclaredSupported registries declared)
    (hfeatures : features.foldlM (declareFeature registries line) declared = .ok declared') :
    DeclaredSupported registries declared' := by
  obtain ⟨hsupported, rfl⟩ := declareAll_eq_ok_iff.mp hfeatures
  intro name hname
  rcases List.mem_append.mp hname with hname | hname
  · obtain ⟨feature, hfeature, hcomparator⟩ := List.mem_filterMap.mp (List.mem_reverse.mp hname)
    have hfeature := hsupported feature hfeature
    rw [Registries.supportsFeature, hcomparator] at hfeature
    exact hfeature
  · exact hdeclared name hname

end MailFilter.Script
