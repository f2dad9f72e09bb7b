import MailFilter.Proofs.Evaluation.Capabilities

/-!
# The scripts that pass the check

The check goes through a script once and collects the comparators that are required on the way. What
it comes to can be said without an order: requirements stand in front and ask for what there is,
every command and test outside of them is known, wherever it stands, and every comparator that one
of these cites is implicit or required. A feature that begins with the mark of a comparator is a
comparator, whatever commands and tests there are.
-/

namespace MailFilter

/-- A test lies within itself, and within every test that holds one it lies within. -/
inductive Test.Within (inner : Test) : Test → Prop
  | here : Within inner inner
  | nested {test held : Test} (hheld : held ∈ test.nested) (hinner : Within inner held) :
    Within inner test

/-- A command lies within itself, and within every command whose block has one it lies within. -/
inductive Command.Within (inner : Command) : Command → Prop
  | here : Within inner inner
  | block {command held : Command} (hheld : held ∈ command.inner) (hinner : Within inner held) :
    Within inner command

/-- Some arguments cite a comparator: its name stands behind the tag for it. The arguments are read
from left to right, and the tag takes the argument behind it with it, whatever that is. -/
inductive Argument.Cites : List Argument → String → Prop
  | here (name : String) (rest : List Argument) :
    Cites (.tag ":comparator" :: .string name :: rest) name
  | pair {behind : Argument} {rest : List Argument} {name : String} (hrest : Cites rest name) :
    Cites (.tag ":comparator" :: behind :: rest) name
  | next {argument : Argument} {rest : List Argument} {name : String}
    (hargument : argument ≠ .tag ":comparator") (hrest : Cites rest name) :
    Cites (argument :: rest) name

/-- Something holds of all tests within a test if it holds of that test and of all within the tests
inside it. -/
theorem Test.forall_within_iff {holds : Test → Prop} {test : Test} :
    (∀ inner : Test, inner.Within test → holds inner) ↔
      holds test ∧ ∀ held ∈ test.nested, ∀ inner : Test, inner.Within held → holds inner := by
  constructor
  · exact fun h => ⟨h test .here, fun held hheld inner hinner => h inner (.nested hheld hinner)⟩
  · rintro ⟨htest, hnested⟩ inner (_ | ⟨hheld, hinner⟩)
    · exact htest
    · exact hnested _ hheld inner hinner

/-- Something holds of all commands within a command if it holds of that command and of all within
the commands of its block. -/
theorem Command.forall_within_iff {holds : Command → Prop} {command : Command} :
    (∀ inner : Command, inner.Within command → holds inner) ↔
      holds command ∧
        ∀ held ∈ command.inner, ∀ inner : Command, inner.Within held → holds inner := by
  constructor
  · exact fun h => ⟨h command .here, fun held hheld inner hinner => h inner (.block hheld hinner)⟩
  · rintro ⟨hcommand, hblock⟩ inner (_ | ⟨hheld, hinner⟩)
    · exact hcommand
    · exact hblock _ hheld inner hinner

/-- The comparators that some arguments cite are all declared. -/
def Argument.CitesOnly (declared : List String) (arguments : List Argument) : Prop :=
  ∀ name, Cites arguments name → Ascii.lower name ∈ declared

/-- A test by itself keeps to the rules: it is known, and cites what is declared. -/
structure Test.Sound (registries : Registries) (declared : List String) (test : Test) : Prop where
  known : registries.tests.supports test.name = true
  cites : Argument.CitesOnly declared test.arguments

/-- A command by itself keeps to the rules, with the tests it was given: it is no requirement, is
known, and cites what is declared. -/
structure Command.Sound (registries : Registries) (declared : List String) (command : Command) :
    Prop where
  plain : command.name ≠ "require"
  known : registries.commands.supports command.name = true
  cites : Argument.CitesOnly declared command.arguments
  tests : ∀ held ∈ command.nested, ∀ test : Test, test.Within held → test.Sound registries declared

/-- A feature that a script may require: one that begins with the mark of a comparator has to name a
comparator, any other a command or a test. -/
def Registries.Requirable (registries : Registries) (feature : String) : Prop :=
  (∃ comparator, comparatorMark ++ comparator = feature ∧
      registries.comparators.supports comparator = true) ∨
    (∀ comparator, comparatorMark ++ comparator ≠ feature) ∧
      (registries.commands.supports feature = true ∨ registries.tests.supports feature = true)

/-- A feature that is registered as a comparator, behind the mark of one, or as a command or a
test. -/
def Registries.Named (registries : Registries) (feature : String) : Prop :=
  (∃ comparator, comparatorMark ++ comparator = feature ∧
      registries.comparators.supports comparator = true) ∨
    registries.commands.supports feature = true ∨ registries.tests.supports feature = true

namespace Script

/-- A requirement at the top of a script asks for a feature, by itself or in a list. -/
inductive Requires (script : Script) (feature : String) : Prop
  | single {command : Command} (hcommand : command ∈ script) (hname : command.name = "require")
    (hargument : .string feature ∈ command.arguments)
  | listed {command : Command} {features : List String} (hcommand : command ∈ script)
    (hname : command.name = "require") (hargument : .strings features ∈ command.arguments)
    (hfeature : feature ∈ features)

/-- A command lies within one at the top of a script that is no requirement. -/
def Runs (script : Script) (command : Command) : Prop :=
  ∃ top ∈ script, top.name ≠ "require" ∧ command.Within top

/-- A test lies within one that such a command was given. -/
def Asks (script : Script) (test : Test) : Prop :=
  ∃ command, Runs script command ∧ ∃ held ∈ command.nested, test.Within held

/-- The arguments of such a command or test cite a comparator. -/
inductive Cites (script : Script) (name : String) : Prop
  | command {command : Command} (hcommand : Runs script command)
    (hcites : Argument.Cites command.arguments name)
  | test {test : Test} (htest : Asks script test) (hcites : Argument.Cites test.arguments name)

/-- A script consists of requirements and, behind them, of other commands. -/
structure Split (script requirements others : Script) : Prop where
  split : script = requirements ++ others
  requirements : ∀ command ∈ requirements, command.name = "require"
  others : ∀ command ∈ others, command.name ≠ "require"

/-- The rules for a script, if it is given which features it may require. -/
structure Legal (requirable : String → Prop) (registries : Registries) (script : Script) :
    Prop where
  split : ∃ requirements others, Split script requirements others
  features : ∀ feature, Requires script feature → requirable (Ascii.lower feature)
  commands : ∀ command, Runs script command →
    command.name ≠ "require" ∧ registries.commands.supports command.name = true
  tests : ∀ test, Asks script test → registries.tests.supports test.name = true
  comparators : ∀ name, Cites script name →
    Ascii.lower name ∈ implicitComparators ∨
      ∃ feature, Requires script feature ∧
        Ascii.lower feature = comparatorMark ++ Ascii.lower name

variable {registries : Registries} {declared : List String} {script requirements others : Script}

/-- No comparator is undeclared if the arguments cite declared ones only. -/
theorem undeclared?_eq_none_iff {arguments : List Argument} :
    undeclared? declared arguments = none ↔ Argument.CitesOnly declared arguments := by
  fun_induction undeclared? declared arguments with
  | case1 name rest hdeclared ih =>
    have hname : Ascii.lower name ∈ declared := by simpa using hdeclared
    rw [ih]
    refine ⟨fun hrest other hother => ?_, fun h other hother => h other (.pair hother)⟩
    cases hother with
    | here => exact hname
    | pair hcites => exact hrest other hcites
    | next hargument => exact absurd rfl hargument
  | case2 name rest hdeclared =>
    refine iff_of_false nofun fun h => hdeclared ?_
    simpa using h name (.here name rest)
  | case3 behind rest hstring ih =>
    rw [ih]
    refine ⟨fun hrest other hother => ?_, fun h other hother => h other (.pair hother)⟩
    cases hother with
    | here => exact absurd rfl (hstring other)
    | pair hcites => exact hrest other hcites
    | next hargument => exact absurd rfl hargument
  | case4 argument rest hstring hpair ih =>
    -- The tag may also stand last, where it takes nothing with it and nothing behind it cites.
    have hnext : ∀ {name}, Argument.Cites rest name → argument ≠ .tag ":comparator" := by
      rintro name hcites rfl
      cases rest with
      | nil => cases hcites
      | cons behind rest => exact hpair behind rest rfl rfl
    rw [ih]
    refine ⟨fun hrest other hother => ?_, fun h other hother =>
      h other (.next (hnext hother) hother)⟩
    cases hother with
    | here => exact (hpair _ _ rfl rfl).elim
    | pair => exact (hpair _ _ rfl rfl).elim
    | next _ hcites => exact hrest other hcites
  | case5 => exact iff_of_true rfl nofun

/-- A test passes if it and all tests within it keep to the rules. -/
theorem checkTest_eq_ok_iff_within {test : Test} :
    checkTest registries declared test = .ok () ↔
      ∀ inner : Test, inner.Within test → inner.Sound registries declared := by
  induction test using Test.induction with
  | step test ih =>
    rw [checkTest_eq_ok_iff, undeclared?_eq_none_iff, Test.forall_within_iff]
    constructor
    · rintro ⟨hknown, hcites, hnested⟩
      exact ⟨⟨hknown, hcites⟩, fun held hheld => (ih held hheld).mp (hnested held hheld)⟩
    · rintro ⟨hsound, hnested⟩
      exact ⟨hsound.known, hsound.cites, fun held hheld => (ih held hheld).mpr (hnested held hheld)⟩

/-- A command other than a requirement passes if it and all commands within it keep to the rules. -/
theorem checkCommand_eq_ok_iff_within {command : Command} (hname : command.name ≠ "require") :
    checkCommand registries declared command = .ok () ↔
      ∀ inner : Command, inner.Within command → inner.Sound registries declared := by
  induction command using Command.induction with
  | step command ih =>
    rw [checkCommand_eq_ok_iff, undeclared?_eq_none_iff, Command.forall_within_iff]
    simp only [checkTest_eq_ok_iff_within]
    constructor
    · rintro ⟨hknown, hcites, htests, hblock⟩
      refine ⟨⟨hname, hknown, hcites, htests⟩, fun held hheld => ?_⟩
      obtain ⟨hplain, hcheck⟩ := hblock held hheld
      exact (ih held hheld hplain).mp hcheck
    · rintro ⟨hsound, hblock⟩
      refine ⟨hsound.known, hsound.cites, hsound.tests, fun held hheld => ?_⟩
      have hplain := (hblock held hheld held .here).plain
      exact ⟨hplain, (ih held hheld hplain).mpr (hblock held hheld)⟩

/-- The comparators that are declared behind some features, the last of them first. -/
def declaredBehind (declared features : List String) : List String :=
  (features.filterMap fun feature => requiredComparator? (Ascii.lower feature)).reverse ++ declared

/-- What two lists of features declare is declared one after the other. -/
theorem declaredBehind_append (features further : List String) :
    declaredBehind declared (features ++ further) =
      declaredBehind (declaredBehind declared features) further := by
  simp [declaredBehind]

/-- A comparator is declared behind some features if it was before or one of them requires it. -/
theorem mem_declaredBehind_iff {features : List String} {name : String} :
    name ∈ declaredBehind declared features ↔
      name ∈ declared ∨ ∃ feature ∈ features, Ascii.lower feature = comparatorMark ++ name := by
  simp only [declaredBehind, List.mem_append, List.mem_reverse, List.mem_filterMap,
    requiredComparator?_eq_some_iff]
  rw [or_comm]
  simp only [eq_comm]

/-- Behind the first command that is no requirement all have to be such commands. -/
theorem checkScript_behind_eq_ok_iff :
    checkScript registries declared false script = .ok () ↔
      ∀ command ∈ script,
        command.name ≠ "require" ∧ checkCommand registries declared command = .ok () := by
  induction script with
  | nil => exact iff_of_true rfl nofun
  | cons command script ih =>
    rw [List.forall_mem_cons, ← ih]
    by_cases hname : command.name = "require"
    · rw [checkScript_require_iff hname]
      exact iff_of_false nofun fun h => h.1.1 hname
    · rw [checkScript_other_iff hname, and_iff_right hname]

/-- A script of commands that are no requirements passes if each of them does. -/
theorem checkScript_others_eq_ok_iff {prolog : Bool}
    (hothers : ∀ command ∈ others, command.name ≠ "require") :
    checkScript registries declared prolog others = .ok () ↔
      ∀ command ∈ others, checkCommand registries declared command = .ok () := by
  cases others with
  | nil => exact iff_of_true rfl nofun
  | cons command others =>
    obtain ⟨hname, hothers⟩ := List.forall_mem_cons.mp hothers
    rw [checkScript_other_iff hname, checkScript_behind_eq_ok_iff, List.forall_mem_cons]
    exact and_congr_right' (forall₂_congr fun other hother => and_iff_right (hothers other hother))

/-- Requirements in front pass if there is all they ask for, and the commands behind them if they
do with the comparators that were declared. -/
theorem Split.checkScript_eq_ok_iff (h : Split script requirements others) :
    checkScript registries declared true script = .ok () ↔
      (∀ feature ∈ requirements.flatMap requiredFeatures,
        registries.supportsFeature (Ascii.lower feature) = true) ∧
      ∀ command ∈ others, checkCommand registries
        (declaredBehind declared (requirements.flatMap requiredFeatures)) command = .ok () := by
  obtain ⟨rfl, hrequirements, hothers⟩ := h
  induction requirements generalizing declared with
  | nil => simpa [declaredBehind] using checkScript_others_eq_ok_iff hothers
  | cons requirement requirements ih =>
    obtain ⟨hname, hrequirements⟩ := List.forall_mem_cons.mp hrequirements
    rw [List.cons_append, checkScript_require_iff hname, List.flatMap_cons, List.forall_mem_append,
      declaredBehind_append, and_assoc, ← ih hrequirements, and_iff_right rfl]
    simp only [declareAll_eq_ok_iff, and_assoc, exists_and_left, exists_eq_left']
    rfl

/-- A script that passes has its requirements in front. -/
theorem exists_split_of_checkScript {prolog : Bool}
    (hcheck : checkScript registries declared prolog script = .ok ()) :
    ∃ requirements others, Split script requirements others := by
  induction script generalizing declared prolog with
  | nil => exact ⟨[], [], rfl, nofun, nofun⟩
  | cons command script ih =>
    by_cases hname : command.name = "require"
    · obtain ⟨-, declared', -, hrest⟩ := (checkScript_require_iff hname).mp hcheck
      obtain ⟨requirements, others, rfl, hrequirements, hothers⟩ := ih hrest
      exact ⟨command :: requirements, others, rfl,
        List.forall_mem_cons.mpr ⟨hname, hrequirements⟩, hothers⟩
    · have hrest := ((checkScript_other_iff hname).mp hcheck).2
      refine ⟨[], command :: script, rfl, nofun, List.forall_mem_cons.mpr ⟨hname, ?_⟩⟩
      exact fun other hother => (checkScript_behind_eq_ok_iff.mp hrest other hother).1

/-- A requirement is of the strings among its arguments and in their lists. -/
theorem mem_requiredFeatures_iff {command : Command} {feature : String} :
    feature ∈ requiredFeatures command ↔
      .string feature ∈ command.arguments ∨
        ∃ features, .strings features ∈ command.arguments ∧ feature ∈ features := by
  rw [requiredFeatures, List.mem_flatMap]
  constructor
  · rintro ⟨argument, hargument, hfeature⟩
    cases argument with
    | tag | number => cases hfeature
    | string text =>
      obtain rfl := List.mem_singleton.mp hfeature
      exact .inl hargument
    | strings items => exact .inr ⟨items, hargument, hfeature⟩
  · rintro (hargument | ⟨features, hargument, hfeature⟩)
    · exact ⟨_, hargument, List.mem_singleton.mpr rfl⟩
    · exact ⟨_, hargument, hfeature⟩

/-- A script requires a feature if one of its requirements at the top does. -/
theorem requires_iff {feature : String} :
    Requires script feature ↔
      ∃ command ∈ script, command.name = "require" ∧ feature ∈ requiredFeatures command := by
  simp only [mem_requiredFeatures_iff]
  constructor
  · rintro (⟨hcommand, hname, hargument⟩ | ⟨hcommand, hname, hargument, hfeature⟩)
    · exact ⟨_, hcommand, hname, .inl hargument⟩
    · exact ⟨_, hcommand, hname, .inr ⟨_, hargument, hfeature⟩⟩
  · rintro ⟨command, hcommand, hname, hargument | ⟨features, hargument, hfeature⟩⟩
    · exact .single hcommand hname hargument
    · exact .listed hcommand hname hargument hfeature

namespace Split

/-- A script that is split requires what its requirements do. -/
theorem requires_iff (h : Split script requirements others) {feature : String} :
    Requires script feature ↔ feature ∈ requirements.flatMap requiredFeatures := by
  obtain ⟨rfl, hrequirements, hothers⟩ := h
  rw [Script.requires_iff, List.mem_flatMap]
  constructor
  · rintro ⟨command, hcommand, hname, hfeature⟩
    rcases List.mem_append.mp hcommand with hcommand | hcommand
    · exact ⟨command, hcommand, hfeature⟩
    · exact absurd hname (hothers command hcommand)
  · rintro ⟨command, hcommand, hfeature⟩
    exact ⟨command, List.mem_append_left others hcommand, hrequirements command hcommand, hfeature⟩

/-- A script that is split runs the commands within those behind its requirements. -/
theorem runs_iff (h : Split script requirements others) {command : Command} :
    Runs script command ↔ ∃ top ∈ others, command.Within top := by
  obtain ⟨rfl, hrequirements, hothers⟩ := h
  constructor
  · rintro ⟨top, htop, hname, hwithin⟩
    rcases List.mem_append.mp htop with htop | htop
    · exact absurd (hrequirements top htop) hname
    · exact ⟨top, htop, hwithin⟩
  · rintro ⟨top, htop, hwithin⟩
    exact ⟨top, List.mem_append_right requirements htop, hothers top htop, hwithin⟩

/-- The commands behind the requirements pass if whatever they consist of keeps to the rules. -/
theorem checkCommand_others_iff (h : Split script requirements others) :
    (∀ command ∈ others, checkCommand registries declared command = .ok ()) ↔
      ∀ command, Runs script command → command.Sound registries declared := by
  constructor
  · rintro hcheck command hruns
    obtain ⟨top, htop, hwithin⟩ := h.runs_iff.mp hruns
    exact (checkCommand_eq_ok_iff_within (h.others top htop)).mp (hcheck top htop) command hwithin
  · intro hrules top htop
    rw [checkCommand_eq_ok_iff_within (h.others top htop)]
    exact fun command hwithin => hrules command (h.runs_iff.mpr ⟨top, htop, hwithin⟩)

end Split

end Script

/-- A feature can be required if it is supported. -/
theorem Registries.requirable_iff {registries : Registries} {feature : String} :
    registries.Requirable feature ↔ registries.supportsFeature feature = true := by
  simp only [Requirable, ne_eq, ← requiredComparator?_eq_some_iff]
  rw [supportsFeature]
  cases requiredComparator? feature with
  | none => simp
  | some comparator => simp

namespace Script

variable {registries : Registries} {script requirements others : Script}

/-- A script of two such parts is legal if the requirements ask for what there is, and the rest
passes with what they declare. -/
theorem Split.legal_iff (h : Split script requirements others) :
    Legal registries.Requirable registries script ↔
      (∀ feature ∈ requirements.flatMap requiredFeatures,
        registries.supportsFeature (Ascii.lower feature) = true) ∧
      ∀ command ∈ others, checkCommand registries
        (declaredBehind implicitComparators (requirements.flatMap requiredFeatures)) command =
          .ok () := by
  have hdeclared : ∀ name,
      name ∈ declaredBehind implicitComparators (requirements.flatMap requiredFeatures) ↔
        name ∈ implicitComparators ∨ ∃ feature, Requires script feature ∧
          Ascii.lower feature = comparatorMark ++ name := by
    simp only [mem_declaredBehind_iff, h.requires_iff, implies_true]
  rw [h.checkCommand_others_iff]
  simp only [← h.requires_iff, ← Registries.requirable_iff]
  constructor
  · intro hlegal
    refine ⟨hlegal.features, fun command hruns => ?_⟩
    obtain ⟨hplain, hknown⟩ := hlegal.commands command hruns
    refine ⟨hplain, hknown, fun name hcites => ?_, fun held hheld test hwithin => ?_⟩
    · exact (hdeclared _).mpr (hlegal.comparators name (.command hruns hcites))
    · have hasks : Asks script test := ⟨command, hruns, held, hheld, hwithin⟩
      exact ⟨hlegal.tests test hasks, fun name hcites =>
        (hdeclared _).mpr (hlegal.comparators name (.test hasks hcites))⟩
  · rintro ⟨hfeatures, hcommands⟩
    have htests : ∀ test, Asks script test → test.Sound registries _ :=
      fun test ⟨command, hruns, held, hheld, hwithin⟩ =>
        (hcommands command hruns).tests held hheld test hwithin
    refine ⟨⟨requirements, others, h⟩, hfeatures, fun command hruns => ?_,
      fun test hasks => (htests test hasks).known, fun name hcites => (hdeclared _).mp ?_⟩
    · exact ⟨(hcommands command hruns).plain, (hcommands command hruns).known⟩
    · cases hcites with
      | command hruns hcites => exact (hcommands _ hruns).cites name hcites
      | test hasks hcites => exact (htests _ hasks).cites name hcites

/-- The scripts that pass the check are the legal ones. -/
theorem validate_eq_ok_iff_legal (script : Script) (registries : Registries) :
    validate script registries = .ok () ↔ Legal registries.Requirable registries script := by
  rw [validate]
  constructor
  · intro hcheck
    obtain ⟨requirements, others, hsplit⟩ := exists_split_of_checkScript hcheck
    exact hsplit.legal_iff.mpr (hsplit.checkScript_eq_ok_iff.mp hcheck)
  · intro hlegal
    obtain ⟨requirements, others, hsplit⟩ := hlegal.split
    exact hsplit.checkScript_eq_ok_iff.mpr (hsplit.legal_iff.mp hlegal)

/-- If any registered name could be required, the name of a command that begins with the mark could
be as well. It is refused, because there is no such comparator. -/
theorem validate_refuses_marked_name :
    let registries : Registries :=
      .ofRegistrations [.command "require" .require, .command "comparator-x" .keep]
    Legal registries.Named registries (requirement "comparator-x" 1) ∧
      validate (requirement "comparator-x" 1) registries =
        .error (.validation 1 (.unsupportedComparator "x")) := by
  intro registries
  have hsplit : Split (requirement "comparator-x" 1) (requirement "comparator-x" 1) [] :=
    ⟨rfl, by simp [requirement], nofun⟩
  have hruns : ∀ command, ¬Runs (requirement "comparator-x" 1) command := by
    intro command hruns
    obtain ⟨top, htop, -⟩ := hsplit.runs_iff.mp hruns
    cases htop
  refine ⟨⟨⟨_, _, hsplit⟩, fun feature hrequires => ?_, fun command h => absurd h (hruns command),
    ?_, ?_⟩, rfl⟩
  · have hfeature := hsplit.requires_iff.mp hrequires
    obtain rfl : feature = "comparator-x" := List.mem_singleton.mp hfeature
    exact .inr (.inl rfl)
  · rintro test ⟨command, h, -⟩
    exact absurd h (hruns command)
  · rintro name (⟨h, -⟩ | ⟨⟨command, h, -⟩, -⟩)
    · exact absurd h (hruns _)
    · exact absurd h (hruns command)

end Script

end MailFilter
