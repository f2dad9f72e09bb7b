import Mathlib.Data.List.Find
import MailFilter.Host.Reader
import MailFilter.Proofs.Evaluation.Faults
import MailFilter.Proofs.Script.Validation
import MailFilter.Proofs.Text.Ascii

/-!
# A requirement is looked at twice

The check of a script folds a required feature to lower case before it looks for the mark of a
comparator, the command itself looks for the mark in the feature as it was written. So a comparator
whose mark has a capital letter in it passes the check, and is then taken for the name of a command
or a test. On every other feature the two agree.
-/

namespace MailFilter

/-- Names are supported in any case of their letters. -/
theorem Registry.supports_lower {κ : Type} (registry : Registry κ) (name : String) :
    registry.supports (Ascii.lower name) = registry.supports name := by
  rw [supports, supports, Ascii.lower_lower]

/-- A feature asks for a comparator if the name of the comparator stands behind the mark. -/
theorem requiredComparator?_eq_some_iff {feature comparator : String} :
    requiredComparator? feature = some comparator ↔ comparatorMark ++ comparator = feature := by
  rw [requiredComparator?, ← String.toList_inj, String.toList_append]
  split
  · next hmark =>
    obtain ⟨rest, hrest⟩ := List.isPrefixOf_iff_prefix.mp hmark
    rw [← hrest, List.drop_left, Option.some_inj, ← String.toList_inj, String.toList_ofList,
      List.append_cancel_left_eq, eq_comm]
  · next hmark =>
    refine ⟨nofun, fun h => absurd ?_ hmark⟩
    exact List.isPrefixOf_iff_prefix.mpr ⟨comparator.toList, h⟩

/-- The mark of a comparator is in lower case, so folding leaves it. -/
theorem lower_comparatorMark_append (comparator : String) :
    Ascii.lower (comparatorMark ++ comparator) = comparatorMark ++ Ascii.lower comparator := by
  have hmark : comparatorMark.toList.map Ascii.lowerChar = comparatorMark.toList := by decide
  rw [← String.toList_inj, Ascii.toList_lower, String.toList_append, String.toList_append,
    List.map_append, hmark, Ascii.toList_lower]

/-- Whether a feature asks for a comparator once it is in lower case, but not as it is written. -/
def hidesComparator (feature : String) : Bool :=
  (requiredComparator? feature).isNone && (requiredComparator? (Ascii.lower feature)).isSome

/-- No command and no test goes by a name that asks for a comparator. -/
def Registries.KeepMark (registries : Registries) : Prop :=
  ∀ comparator, registries.commands.supports (comparatorMark ++ comparator) = false ∧
    registries.tests.supports (comparatorMark ++ comparator) = false

/-- The command supports a feature if the check does and no capital letter hides a comparator. -/
theorem Registries.supportsFeature_eq {registries : Registries} (hmark : registries.KeepMark)
    (feature : String) :
    registries.supportsFeature feature =
      (registries.supportsFeature (Ascii.lower feature) && !hidesComparator feature) := by
  rw [hidesComparator]
  cases hwritten : requiredComparator? feature with
  | some comparator =>
    obtain rfl := requiredComparator?_eq_some_iff.mp hwritten
    have hfolded :=
      requiredComparator?_eq_some_iff.mpr (lower_comparatorMark_append comparator).symm
    simp [supportsFeature, hwritten, hfolded, Registry.supports_lower]
  | none =>
    cases hfolded : requiredComparator? (Ascii.lower feature) with
    | none => simp [supportsFeature, hwritten, hfolded, Registry.supports_lower]
    | some comparator =>
      have hname := requiredComparator?_eq_some_iff.mp hfolded
      have hcommand := (hmark comparator).1
      have htest := (hmark comparator).2
      rw [hname, Registry.supports_lower] at hcommand htest
      simp [supportsFeature, hwritten, hcommand, htest]

/-- A registry that has no name with the mark supports none. -/
theorem Registry.supports_mark_append {κ : Type} {registry : Registry κ}
    (hnames : ∀ entry ∈ registry.bindings.entries, requiredComparator? entry.1 = none)
    (comparator : String) : registry.supports (comparatorMark ++ comparator) = false := by
  rw [supports, NameTable.contains, NameTable.find?, Option.isSome_map,
    lower_comparatorMark_append, List.isSome_find?, List.any_eq_false]
  intro entry hentry hname
  have hfeature := requiredComparator?_eq_some_iff.mpr (beq_iff_eq.mp hname).symm
  rw [hnames entry hentry] at hfeature
  cases hfeature

/-- The built-in registries keep the mark for comparators. -/
theorem Registries.builtin_keepMark : Registries.builtin.KeepMark := fun comparator =>
  ⟨Registry.supports_mark_append (by decide) comparator,
    Registry.supports_mark_append (by decide) comparator⟩

/-- The features of a requirement fail at the first that is not supported. -/
theorem requireFeatures_eq_error_iff (registries : Registries) (features : List String)
    (fault : Fault) :
    requireFeatures registries features = .error fault ↔
      ∃ feature, features.find? (!registries.supportsFeature ·) = some feature ∧
        fault = .feature feature := by
  induction features with
  | nil => simp [requireFeatures]
  | cons feature features ih =>
    rw [requireFeatures, List.find?_cons]
    cases registries.supportsFeature feature with
    | true => simpa using ih
    | false => simp [eq_comm]

namespace Command

variable {environment : Environment} {command : Command} {session : Session}

/-- A requirement leaves what has been done to the message as it was, and the prolog open if it
was. -/
theorem command_apply_run_requirement [MailReader] (session : Session)
    (hrequire : environment.registries.commands.lookup command.name = .ok .require) :
    ((command.run environment).apply session).2.command = session.command := by
  rw [apply_run]
  cases haccept : command.accept environment session with
  | error fault => rfl
  | ok accepted =>
    obtain ⟨kind, task⟩ := accepted
    obtain ⟨hkind, htask, -⟩ := task_of_accept haccept
    obtain rfl : CommandKind.require = kind := Except.ok.inj (hrequire.symm.trans hkind)
    rw [task_require] at htask
    cases hfeatures : command.features with
    | error fault => rw [hfeatures] at htask; cases htask
    | ok features =>
      rw [hfeatures] at htask
      obtain rfl : Task.require features = task := Except.ok.inj htask
      dsimp only
      rw [Task.apply_require]
      cases requireFeatures environment.registries features <;> rfl

/-- In the prolog and without a bound on steps a requirement fails as its arguments or its features
do. -/
theorem result_apply_run_requirement [MailReader] (hbudget : environment.maxSteps = none)
    (hrequire : environment.registries.commands.lookup command.name = .ok .require)
    (hprolog : session.command.inProlog = true) :
    ((command.run environment).apply session).1 = (do
      requireFeatures environment.registries (← command.features)
      return .continue) := by
  have haccept := accept_of_lookup session hbudget hrequire
  have hplace : CommandKind.require.objection? session.command session.condition = none := by
    rw [CommandKind.objection?, if_pos hprolog]
  rw [taskIn, hplace, task_require] at haccept
  rw [apply_run, haccept]
  cases command.features with
  | error fault => rfl
  | ok features =>
    dsimp only [Except.map]
    rw [Task.apply_require]
    cases hsupported : requireFeatures environment.registries features <;>
      simp [hsupported, Except.map, bind, Except.bind, pure, Except.pure]

/-- In the prolog and without a bound on steps a requirement fails for its arguments, or for the
first of its features that is not supported. -/
theorem run_requirement_eq_error_iff [MailReader] (hbudget : environment.maxSteps = none)
    (hrequire : environment.registries.commands.lookup command.name = .ok .require)
    (hprolog : session.command.inProlog = true) {fault : Fault} :
    ((command.run environment).apply session).1 = .error fault ↔
      command.features = .error fault ∨ ∃ features feature, command.features = .ok features ∧
        features.find? (!environment.registries.supportsFeature ·) = some feature ∧
        fault = .feature feature := by
  rw [result_apply_run_requirement hbudget hrequire hprolog]
  cases command.features with
  | error cause => simp [bind, Except.bind]
  | ok features =>
    have hfails : _ ↔ _ := requireFeatures_eq_error_iff environment.registries features fault
    have hresult : (do requireFeatures environment.registries features; return Flow.continue) =
        .error fault ↔ requireFeatures environment.registries features = .error fault := by
      cases requireFeatures environment.registries features with
      | error cause => simp [bind, Except.bind]
      | ok _ => exact ⟨nofun, nofun⟩
    refine (hresult.trans hfails).trans ⟨?_, ?_⟩
    · rintro ⟨feature, hfound, rfl⟩
      exact .inr ⟨features, feature, rfl, hfound, rfl⟩
    · rintro (⟨⟨⟩⟩ | ⟨_, feature, ⟨⟩, hfound, rfl⟩)
      exact ⟨feature, hfound, rfl⟩

/-- Requirements one after the other leave the prolog open. -/
theorem command_afterEach_requirement [MailReader] {commands : List Command}
    (hrequire : environment.registries.commands.lookup "require" = .ok .require)
    (hname : ∀ command ∈ commands, command.name = "require") :
    (afterEach environment commands session).command = session.command := by
  induction commands generalizing session with
  | nil => rfl
  | cons command commands ih =>
    rw [List.forall_mem_cons] at hname
    have hfirst := command_apply_run_requirement session (hname.1 ▸ hrequire)
    exact (ih hname.2).trans hfirst

/-- The features of a well-formed requirement are those that are checked. -/
theorem requiredFeatures_of_features {features : List String}
    (h : command.features = .ok features) : Script.requiredFeatures command = features := by
  obtain ⟨_, -, h⟩ := exists_of_bind_eq_ok h
  obtain ⟨_, -, h⟩ := exists_of_bind_eq_ok h
  rw [Script.requiredFeatures]
  split at h
  · next feature harguments => cases h; rw [harguments]; rfl
  · next items harguments => cases h; rw [harguments]; simp [Argument.strings?]
  · cases h

end Command

/-- An engine accepts the text of a script that passes its check. -/
theorem Engine.parse_eq_ok_iff {engine : Engine} {text : String} {script : Script} :
    engine.parse text = .ok script ↔
      Script.parse text = .ok script ∧ Script.validate script engine.registries = .ok () := by
  rw [parse]
  constructor
  · intro h
    obtain ⟨read, hread, h⟩ := exists_of_bind_eq_ok h
    obtain ⟨_, hvalid, h⟩ := exists_of_bind_eq_ok h
    cases h
    exact ⟨hread, hvalid⟩
  · rintro ⟨hread, hvalid⟩
    simp only [hread, bind, Except.bind, hvalid]
    rfl

/-- A requirement at the top of a script that the default engine accepts is never out of place. It
fails for a feature just if a capital letter hides the mark of a comparator, and that is all the two
checks differ in. -/
theorem Engine.default_requirement [MailReader] {text : String} {script after : Script}
    (before : Script) {command : Command} (hparse : default.parse text = .ok script)
    (hscript : script = before ++ command :: after) (hname : command.name = "require")
    (mail : Message) (start : Session) (hstart : start.command = .initial) :
    let environment := default.environment mail
    let session := Command.afterEach environment before start
    let result := ((command.run environment).apply session).1
    (∀ name line, result ≠ .error (.command name line .requireAfterProlog)) ∧
      (∀ feature, result = .error (.feature feature) ↔
        ∃ features, command.features = .ok features ∧
          features.find? hidesComparator = some feature) ∧
      ∀ declared feature, environment.registries.supportsFeature feature = true ↔
        (∃ declared', Script.declareFeature environment.registries command.line declared feature =
          .ok declared') ∧ hidesComparator feature = false := by
  intro environment session result
  have hrequire : environment.registries.commands.lookup "require" = .ok .require := rfl
  have hcheck := (parse_eq_ok_iff.mp hparse).2
  rw [hscript] at hcheck
  obtain ⟨-, hbefore, hdeclared⟩ := Script.checkScript_requirement hname hcheck
  have hprolog : session.command.inProlog = true := by
    rw [Command.command_afterEach_requirement hrequire hbefore, hstart]
    rfl
  have hresult : result = _ :=
    Command.result_apply_run_requirement rfl (hname ▸ hrequire) hprolog
  have hsupports : ∀ feature, environment.registries.supportsFeature feature =
      (environment.registries.supportsFeature (Ascii.lower feature) && !hidesComparator feature) :=
    Registries.supportsFeature_eq Registries.builtin_keepMark
  have hfind : ∀ features, command.features = .ok features →
      features.find? (!environment.registries.supportsFeature ·) =
        features.find? hidesComparator := by
    intro features hfeatures
    rw [Command.requiredFeatures_of_features hfeatures] at hdeclared
    refine List.find?_congr fun feature hfeature => ?_
    have hfolded : environment.registries.supportsFeature (Ascii.lower feature) = true :=
      hdeclared feature hfeature
    rw [hsupports feature, hfolded, Bool.true_and, Bool.not_not]
  have hfault : ∀ fault, result = .error fault ↔ _ := fun fault =>
    Command.run_requirement_eq_error_iff rfl (hname ▸ hrequire) hprolog
  refine ⟨fun name line h => ?_, fun feature => ⟨fun h => ?_, ?_⟩, fun declared feature => ?_⟩
  · rcases (hfault _).mp h with h | ⟨features, feature, -, -, ⟨⟩⟩
    obtain ⟨cause, ⟨⟩⟩ := command.failsOnly_features _ h
  · rcases (hfault _).mp h with h | ⟨features, found, hfeatures, hfound, ⟨⟩⟩
    · obtain ⟨cause, ⟨⟩⟩ := command.failsOnly_features _ h
    · exact ⟨features, hfeatures, hfind features hfeatures ▸ hfound⟩
  · rintro ⟨features, hfeatures, hfound⟩
    rw [← hfind features hfeatures] at hfound
    exact (hfault _).mpr (.inr ⟨features, feature, hfeatures, hfound, rfl⟩)
  · simp only [Script.declareFeature_eq_ok_iff, exists_and_left, exists_eq', and_true]
    rw [hsupports feature, Bool.and_eq_true, Bool.not_eq_true']

/-- A requirement of `FileInto` is parsed and raises no feature fault. -/
theorem Engine.default_requirement_mixed_case :
    default.parse "require \"FileInto\";" =
        .ok [⟨"require", [.string "FileInto"], none, none, 1⟩] ∧
      ∀ feature, ((Command.run (default.environment (.ofBytes [] none none))
        ⟨"require", [.string "FileInto"], none, none, 1⟩).apply (.start [])).1 ≠
          .error (.feature feature) := by
  have htokens : Script.tokenize "require \"FileInto\";" =
      .ok [⟨.identifier "require", ⟨0, 1, 1⟩, 7⟩, ⟨.quoted "FileInto", ⟨8, 1, 9⟩, 10⟩,
        ⟨.semicolon, ⟨18, 1, 19⟩, 1⟩] := by decide +kernel
  have hparse : default.parse "require \"FileInto\";" =
      .ok [⟨"require", [.string "FileInto"], none, none, 1⟩] := by
    refine parse_eq_ok_iff.mpr ⟨?_, rfl⟩
    rw [Script.parse, Script.Node.parse, htokens]
    cbv
  refine ⟨hparse, fun feature hfault => ?_⟩
  obtain ⟨features, hfeatures, hfound⟩ := ((default_requirement [] hparse rfl rfl
    (.ofBytes [] none none) (.start []) rfl).2.1 feature).mp hfault
  cases hfeatures
  have hnone : ["FileInto"].find? hidesComparator = none := by decide
  rw [hnone] at hfound
  cases hfound

/-- A comparator that is required with a capital letter in its mark passes the check and fails at
once. -/
theorem Engine.default_refuses_capital_mark :
    default.parse "require \"Comparator-i;octet\";" =
        .ok [⟨"require", [.string "Comparator-i;octet"], none, none, 1⟩] ∧
      (default.evaluate [⟨"require", [.string "Comparator-i;octet"], none, none, 1⟩]
        (.ofBytes [] none none) []).1 = .error (.feature "Comparator-i;octet") := by
  have htokens : Script.tokenize "require \"Comparator-i;octet\";" =
      .ok [⟨.identifier "require", ⟨0, 1, 1⟩, 7⟩, ⟨.quoted "Comparator-i;octet", ⟨8, 1, 9⟩, 20⟩,
        ⟨.semicolon, ⟨28, 1, 29⟩, 1⟩] := by decide +kernel
  refine ⟨parse_eq_ok_iff.mpr ⟨?_, rfl⟩, rfl⟩
  rw [Script.parse, Script.Node.parse, htokens]
  cbv

end MailFilter
