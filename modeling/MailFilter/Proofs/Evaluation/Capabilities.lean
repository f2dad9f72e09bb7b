import MailFilter.Host.Reader
import MailFilter.Proofs.Evaluation.Requirement
import MailFilter.Proofs.Evaluation.Resolution

/-!
# What is advertised can be required

The extensions of an engine are the names that its registries were given, less the implicit ones,
with a mark before those of comparators. A script that requires one of them is accepted and runs,
with one exception: a command or a test under a name that begins with the mark is taken for a
comparator as soon as it is required. In the other direction nothing is missing, for a feature that
a script may require is an extension or implicit.
-/

namespace MailFilter

namespace NameTable

variable {α : Type} {table : NameTable α} {name other : String} {value : α}

/-- A table contains the names that it has. -/
theorem contains_eq_true_iff : table.contains name = true ↔ name ∈ table.names := by
  rw [contains, find?, Option.isSome_map, List.isSome_find?, List.any_eq_true, names, List.mem_map]
  constructor
  · rintro ⟨entry, hentry, hname⟩
    exact ⟨entry, hentry, beq_iff_eq.mp hname⟩
  · rintro ⟨entry, hentry, hname⟩
    exact ⟨entry, hentry, beq_iff_eq.mpr hname⟩

/-- An insertion adds one name to those of a table. -/
theorem mem_names_insert :
    other ∈ (table.insert name value).names ↔ other = name ∨ other ∈ table.names := by
  have hfind : ((table.insert name value).find? other).isSome =
      (if name = other then some value else table.find? other).isSome := by
    rw [find?_insert]
  rw [← contains_eq_true_iff, ← contains_eq_true_iff, contains, contains, hfind]
  by_cases hname : name = other
  · simp [hname]
  · simp [hname, Ne.symm hname]

/-- A table that is made of a list has the names of the list. -/
theorem mem_names_ofList {entries : List (String × α)} :
    name ∈ (ofList entries).names ↔ name ∈ entries.map Prod.fst := by
  have hfold : ∀ table : NameTable α,
      name ∈ (entries.foldl (fun table entry => table.insert entry.1 entry.2) table).names ↔
        name ∈ table.names ∨ name ∈ entries.map Prod.fst := by
    induction entries with
    | nil => simp
    | cons entry entries ih =>
      intro table
      have hentry : name ∈ (table.insert entry.1 entry.2).names ↔ _ := mem_names_insert
      rw [List.foldl_cons, ih, hentry, List.map_cons, List.mem_cons]
      tauto
  have hempty : name ∉ (empty : NameTable α).names := List.not_mem_nil
  have h := hfold empty
  simpa only [ofList, hempty, false_or] using h

end NameTable

/-- Sorting loses no name and adds none. -/
theorem mem_sortedNames {name : String} {names : List String} :
    name ∈ sortedNames names ↔ name ∈ names := by
  rw [sortedNames, NameTable.mem_names_ofList, List.map_map]
  exact iff_of_eq (congrArg (name ∈ ·) (List.map_id names))

/-- A registry as registrations make it: its names are in lower case, and the names that are
implicit are the ones it began with. -/
structure Registry.Filled {κ : Type} (registry : Registry κ) (implicitNames : List String) :
    Prop where
  lower : ∀ name ∈ registry.bindings.names, Ascii.lower name = name
  implicit : registry.implicitNames = implicitNames

namespace Registry

variable {κ : Type} {registry : Registry κ} {implicitNames : List String} {name : String}

/-- An empty registry has its names in lower case. -/
theorem filled_empty (implicitNames : List String) :
    Filled (empty implicitNames : Registry κ) implicitNames :=
  ⟨nofun, rfl⟩

/-- A registration keeps the names of a registry in lower case. -/
theorem Filled.register (h : registry.Filled implicitNames) (name : String) (kind : κ) :
    (registry.register name kind).Filled implicitNames where
  lower other hother := by
    obtain rfl | hother := NameTable.mem_names_insert.mp hother
    · exact Ascii.lower_lower name
    · exact h.lower other hother
  implicit := h.implicit

/-- A registry supports what it has a name for in lower case. -/
theorem supports_eq_true_iff :
    registry.supports name = true ↔ Ascii.lower name ∈ registry.bindings.names :=
  NameTable.contains_eq_true_iff

/-- The extensions of a registry are the names that it was given and that are not implicit. -/
theorem mem_extensions_iff :
    name ∈ registry.extensions ↔
      name ∈ registry.bindings.names ∧ registry.isImplicit name = false := by
  rw [extensions, List.mem_filter, Bool.not_eq_true']

/-- An extension is a name in lower case that stands for something. -/
theorem Filled.supports_of_mem_extensions (h : registry.Filled implicitNames)
    (hname : name ∈ registry.extensions) :
    Ascii.lower name = name ∧ registry.supports name = true := by
  have hbound := (mem_extensions_iff.mp hname).1
  have hlower := h.lower name hbound
  exact ⟨hlower, supports_eq_true_iff.mpr (by rwa [hlower])⟩

/-- A name that stands for something is an extension or implicit, if it is in lower case as the
implicit names are. -/
theorem Filled.mem_extensions_or_implicit (h : registry.Filled implicitNames)
    (himplicit : ∀ name ∈ implicitNames, Ascii.lower name = name)
    (hsupports : registry.supports name = true) :
    Ascii.lower name ∈ registry.extensions ∨ Ascii.lower name ∈ implicitNames := by
  by_cases hname : registry.isImplicit (Ascii.lower name) = true
  · right
    rw [isImplicit, h.implicit, List.any_eq_true] at hname
    obtain ⟨other, hother, hequal⟩ := hname
    have hfold : other.toList.map Ascii.lowerChar =
        (Ascii.lower name).toList.map Ascii.lowerChar := beq_iff_eq.mp hequal
    have hlower : Ascii.lower other = Ascii.lower (Ascii.lower name) := by
      rw [Ascii.lower, hfold, ← Ascii.lower]
    rw [himplicit other hother, Ascii.lower_lower] at hlower
    exact hlower ▸ hother
  · left
    exact mem_extensions_iff.mpr
      ⟨supports_eq_true_iff.mp hsupports, Bool.eq_false_iff.mpr hname⟩

end Registry

namespace Registries

/-- The registries after some registrations, with nothing known before. -/
def ofRegistrations (registrations : List Registration) : Registries :=
  registrations.foldl register .empty

/-- Registries as registrations make them. -/
structure Filled (registries : Registries) : Prop where
  commands : registries.commands.Filled implicitCommands
  tests : registries.tests.Filled implicitTests
  comparators : registries.comparators.Filled implicitComparators

/-- Empty registries have their names in lower case. -/
theorem filled_empty : empty.Filled :=
  ⟨Registry.filled_empty _, Registry.filled_empty _, Registry.filled_empty _⟩

variable {registries : Registries}

/-- A registration keeps the names of the registries in lower case. -/
theorem Filled.register (h : registries.Filled) (registration : Registration) :
    (registries.register registration).Filled := by
  cases registration with
  | command name kind => exact { h with commands := h.commands.register name kind }
  | test name kind => exact { h with tests := h.tests.register name kind }
  | comparator name kind => exact { h with comparators := h.comparators.register name kind }

/-- However they were registered, the names of the registries are in lower case. -/
theorem filled_ofRegistrations (registrations : List Registration) :
    (ofRegistrations registrations).Filled := by
  have hfold : ∀ registries : Registries, registries.Filled →
      (registrations.foldl Registries.register registries).Filled := by
    induction registrations with
    | nil => exact fun _ h => h
    | cons registration registrations ih => exact fun _ h => ih _ (h.register registration)
  exact hfold empty filled_empty

/-- The extensions of all registries are those of the commands and the tests, and those of the
comparators behind their mark. -/
theorem mem_extensions_iff {feature : String} :
    feature ∈ registries.extensions ↔
      feature ∈ registries.commands.extensions ∨ feature ∈ registries.tests.extensions ∨
        ∃ comparator ∈ registries.comparators.extensions,
          comparatorMark ++ comparator = feature := by
  rw [extensions, mem_sortedNames, List.mem_append, List.mem_append, List.mem_map, or_assoc]

/-- An extension is in lower case, and there is something it asks for unless it is taken for a
comparator that there is not. -/
theorem Filled.supportsFeature_iff_of_mem_extensions (h : registries.Filled) {feature : String}
    (hfeature : feature ∈ registries.extensions) :
    Ascii.lower feature = feature ∧
      (registries.supportsFeature feature = true ↔ ∀ comparator,
        comparatorMark ++ comparator = feature →
          registries.comparators.supports comparator = true) := by
  have hnames : Ascii.lower feature = feature ∧ (requiredComparator? feature = none →
      (registries.commands.supports feature || registries.tests.supports feature) = true) := by
    obtain hcommand | htest | ⟨comparator, hcomparator, rfl⟩ := mem_extensions_iff.mp hfeature
    · obtain ⟨hlower, hsupports⟩ := h.commands.supports_of_mem_extensions hcommand
      exact ⟨hlower, fun _ => by rw [hsupports, Bool.true_or]⟩
    · obtain ⟨hlower, hsupports⟩ := h.tests.supports_of_mem_extensions htest
      exact ⟨hlower, fun _ => by rw [hsupports, Bool.or_true]⟩
    · have hlower := (h.comparators.supports_of_mem_extensions hcomparator).1
      refine ⟨by rw [lower_comparatorMark_append, hlower], fun hnone => ?_⟩
      rw [requiredComparator?_eq_some_iff.mpr rfl] at hnone
      cases hnone
  refine ⟨hnames.1, ?_⟩
  rw [supportsFeature]
  cases hrequired : requiredComparator? feature with
  | none =>
    refine iff_of_true (hnames.2 hrequired) fun comparator hmark => ?_
    rw [requiredComparator?_eq_some_iff.mpr hmark] at hrequired
    cases hrequired
  | some comparator =>
    have hmark := requiredComparator?_eq_some_iff.mp hrequired
    constructor
    · intro hsupports other hother
      have hsame := requiredComparator?_eq_some_iff.mpr hother
      rw [hrequired] at hsame
      exact Option.some.inj hsame ▸ hsupports
    · exact fun hsupports => hsupports comparator hmark

/-- What a script may require, be it in lower case or not, is an extension or implicit. -/
theorem Filled.mem_extensions_of_supportsFeature (h : registries.Filled) {feature : String}
    (hfeature : registries.supportsFeature (Ascii.lower feature) = true) :
    Ascii.lower feature ∈ registries.extensions ∨
      Ascii.lower feature ∈ implicitCommands ∨ Ascii.lower feature ∈ implicitTests ∨
        ∃ comparator ∈ implicitComparators, comparatorMark ++ comparator = Ascii.lower feature := by
  rw [supportsFeature] at hfeature
  cases hrequired : requiredComparator? (Ascii.lower feature) with
  | none =>
    rw [hrequired] at hfeature
    obtain hcommand | htest := (Bool.or_eq_true _ _).mp hfeature
    · have hname := h.commands.mem_extensions_or_implicit (by decide) hcommand
      rw [Ascii.lower_lower] at hname
      exact hname.imp (fun hname => mem_extensions_iff.mpr (.inl hname)) .inl
    · have hname := h.tests.mem_extensions_or_implicit (by decide) htest
      rw [Ascii.lower_lower] at hname
      exact hname.imp (fun hname => mem_extensions_iff.mpr (.inr (.inl hname))) (.inr ∘ .inl)
  | some comparator =>
    rw [hrequired] at hfeature
    have hmark := requiredComparator?_eq_some_iff.mp hrequired
    have hlower : comparatorMark ++ Ascii.lower comparator = Ascii.lower feature := by
      rw [← lower_comparatorMark_append, hmark, Ascii.lower_lower]
    obtain hname | hname := h.comparators.mem_extensions_or_implicit (by decide) hfeature
    · exact .inl (mem_extensions_iff.mpr (.inr (.inr ⟨_, hname, hlower⟩)))
    · exact .inr (.inr (.inr ⟨_, hname, hlower⟩))

end Registries

/-- The script that requires a feature and does nothing else. -/
def Script.requirement (feature : String) (line : Nat) : Script :=
  [⟨"require", [.string feature], none, none, line⟩]

/-- A script that only requires one feature is valid if the feature is supported once it is folded.
-/
theorem Script.validate_requirement_iff {registries : Registries} {feature : String} {line : Nat} :
    validate (requirement feature line) registries = .ok () ↔
      registries.supportsFeature (Ascii.lower feature) = true := by
  rw [validate, requirement, checkScript_require_iff rfl]
  have hfeatures : requiredFeatures ⟨"require", [.string feature], none, none, line⟩ =
      [feature] := rfl
  simp [hfeatures, declareFeature_eq_ok_iff, checkScript]

/-- A requirement of one feature fails for that feature if it is not supported. -/
theorem Engine.evaluate_requirement [MailReader] {engine : Engine}
    (hrequire : engine.registries.commands.lookup "require" = .ok .require)
    (hbudget : engine.maxSteps ≠ some 0) (feature : String) (line : Nat) (mail : Message)
    (actions : List Action) :
    (engine.evaluate (Script.requirement feature line) mail actions).1 =
      if engine.registries.supportsFeature feature then .ok () else .error (.feature feature) := by
  have hstep : (engine.environment mail).exceeded? 1 = none := by
    cases hlimit : engine.maxSteps with
    | none => exact Environment.exceeded?_of_unbounded hlimit 1
    | some limit =>
      have hpositive : ¬limit < 1 := by
        rintro hlt
        obtain rfl : limit = 0 := by omega
        exact hbudget hlimit
      rw [Environment.exceeded?_of_bounded hlimit, if_neg hpositive]
  have haccept : Command.accept (engine.environment mail)
      ((Session.start actions).noted (.started mail.size))
      ⟨"require", [.string feature], none, none, line⟩ = .ok (.require, .require [feature]) := by
    have hname : (engine.environment mail).registries.commands.lookup "require" =
        .ok .require := hrequire
    simp only [Command.accept, hname]
    rw [show ((Session.start actions).noted (.started mail.size)).steps + 1 = 1 from rfl, hstep]
    rfl
  have hrun : ((Command.run (engine.environment mail)
      ⟨"require", [.string feature], none, none, line⟩).apply
        ((Session.start actions).noted (.started mail.size))).1 =
      if engine.registries.supportsFeature feature then .ok .continue
      else .error (.feature feature) := by
    rw [Command.apply_run, haccept]
    dsimp only
    have hfeatures : requireFeatures (engine.environment mail).registries [feature] =
        if engine.registries.supportsFeature feature then .ok () else .error (.feature feature) :=
      rfl
    rw [Task.apply_require, hfeatures]
    cases engine.registries.supportsFeature feature <;> rfl
  rw [evaluate, apply_walk, Script.requirement, Command.apply_runAll_cons,
    show (engine.environment mail).mail = mail from rfl]
  generalize (Command.run _ _).apply _ = done at hrun ⊢
  obtain ⟨result, after⟩ := done
  obtain rfl : result = _ := hrun
  cases engine.registries.supportsFeature feature with
  | true => simp
  | false => simp

/-- A script that requires an extension is accepted, and runs if it has one step to do so, unless
the extension is a command or a test whose name asks for a comparator that there is not. And what an
accepted script requires is an extension, but for letter case, or needs no requirement. -/
theorem Engine.requirable_extensions [MailReader] (registrations : List Registration)
    (maxSteps : Option Nat) (inbox : String) (hbudget : maxSteps ≠ some 0)
    (hrequire : (Registries.ofRegistrations registrations).commands.lookup "require" =
      .ok .require) :
    let engine : Engine := ⟨.ofRegistrations registrations, maxSteps, inbox⟩
    (∀ feature ∈ engine.extensions, ∀ line mail actions,
      let asked := ∀ comparator, comparatorMark ++ comparator = feature →
        engine.registries.comparators.supports comparator = true
      (Script.validate (.requirement feature line) engine.registries = .ok () ↔ asked) ∧
        ((engine.evaluate (.requirement feature line) mail actions).1 = .ok () ↔ asked)) ∧
    ∀ before command after, command.name = "require" →
      Script.validate (before ++ command :: after) engine.registries = .ok () →
      ∀ feature ∈ Script.requiredFeatures command,
        Ascii.lower feature ∈ engine.extensions ∨
          Ascii.lower feature ∈ implicitCommands ∨ Ascii.lower feature ∈ implicitTests ∨
            ∃ comparator ∈ implicitComparators,
              comparatorMark ++ comparator = Ascii.lower feature := by
  intro engine
  have hfilled : engine.registries.Filled := Registries.filled_ofRegistrations registrations
  constructor
  · intro feature hfeature line mail actions asked
    obtain ⟨hlower, hasked⟩ := hfilled.supportsFeature_iff_of_mem_extensions hfeature
    constructor
    · rw [Script.validate_requirement_iff, hlower]
      exact hasked
    · have hresult : (engine.evaluate (.requirement feature line) mail actions).1 = _ :=
        evaluate_requirement hrequire hbudget feature line mail actions
      rw [hresult]
      refine Iff.trans ?_ hasked
      split
      · next hsupported => exact iff_of_true rfl hsupported
      · next hsupported => exact iff_of_false nofun hsupported
  · intro before command after hname hvalid feature hfeature
    obtain ⟨-, -, hsupported⟩ := Script.checkScript_requirement hname hvalid
    exact hfilled.mem_extensions_of_supportsFeature (hsupported feature hfeature)

/-- An engine with a comparator and a test of its own, and time for one step. -/
theorem Engine.requirable_extensions_topic :
    let engine : Engine :=
      ⟨.ofRegistrations [.command "Require" .require, .test "Topic" .header,
        .comparator "i;Loose" .asciiCasemap], some 1, "INBOX"⟩
    let mail : Message := .ofBytes [] none none
    engine.extensions = ["comparator-i;loose", "topic"] ∧
      Script.validate (.requirement "comparator-i;loose" 1) engine.registries = .ok () ∧
      (engine.evaluate (.requirement "comparator-i;loose" 1) mail []).1 = .ok () ∧
      Script.validate (.requirement "TOPIC" 1) engine.registries = .ok () ∧
      Ascii.lower "TOPIC" ∈ engine.extensions := by
  intro engine mail
  obtain ⟨hrequirable, hconverse⟩ := requirable_extensions
    [.command "Require" .require, .test "Topic" .header, .comparator "i;Loose" .asciiCasemap]
    (some 1) "INBOX" (by decide) rfl
  have hextensions : engine.extensions = ["comparator-i;loose", "topic"] := by decide +kernel
  have hvalid : Script.validate (.requirement "TOPIC" 1) engine.registries = .ok () := rfl
  have hfeature : "comparator-i;loose" ∈ engine.extensions :=
    hextensions ▸ List.mem_cons_self
  have hasked : ∀ comparator, comparatorMark ++ comparator = "comparator-i;loose" →
      engine.registries.comparators.supports comparator = true := by
    intro comparator hmark
    have hfound : requiredComparator? "comparator-i;loose" = some "i;loose" := rfl
    rw [requiredComparator?_eq_some_iff.mpr hmark] at hfound
    obtain rfl := Option.some.inj hfound
    rfl
  obtain ⟨haccepted, hevaluated⟩ := hrequirable _ hfeature 1 mail []
  refine ⟨hextensions, haccepted.mpr hasked, hevaluated.mpr hasked, hvalid, ?_⟩
  obtain h | h | h | h := hconverse [] _ [] rfl hvalid "TOPIC" List.mem_cons_self
  · exact h
  · exact absurd h (by decide)
  · exact absurd h (by decide)
  · exact absurd h (by decide)

/-- A command under a name that begins with the mark of comparators is advertised, but no script can
require it. -/
theorem Engine.advertises_marked_command :
    let engine : Engine :=
      ⟨.ofRegistrations [.command "require" .require, .command "comparator-x" .keep], none, "INBOX"⟩
    engine.extensions = ["comparator-x"] ∧
      Script.validate (.requirement "comparator-x" 1) engine.registries =
        .error (.validation 1 (.unsupportedComparator "x")) ∧
      (engine.evaluate (.requirement "comparator-x" 1) (.ofBytes [] none none) []).1 =
        .error (.feature "comparator-x") := by
  refine ⟨by decide +kernel, by rfl, by rfl⟩

end MailFilter
