import Mathlib.Data.List.Basic
import MailFilter.Host.Reader
import MailFilter.Proofs.Evaluation.Faults
import MailFilter.Proofs.Script.Validation

/-!
# A checked script finds every name it uses

The check of a script and the evaluator come across names in different ways: the check scans the
arguments of each test for comparators, the evaluator reads those arguments. Whatever the evaluator
may look up, the check has looked up before, so a script that passes never fails for want of an
implementation.
-/

namespace MailFilter

/-- A fault other than a name that stands for nothing. -/
def Fault.NotLookup (fault : Fault) : Prop := ∀ name, fault ≠ .lookup name

/-- A fault in the arguments of a command is not that a name was not found. -/
theorem Command.IsArgumentFault.notLookup {command : Command} {fault : Fault}
    (h : command.IsArgumentFault fault) : fault.NotLookup := by
  obtain ⟨cause, rfl⟩ := h
  exact nofun

/-- A fault in the arguments of a test is not that a name was not found. -/
theorem Test.IsArgumentFault.notLookup {test : Test} {fault : Fault}
    (h : test.IsArgumentFault fault) : fault.NotLookup := by
  obtain ⟨cause, rfl⟩ := h
  exact nofun

/-- A name is supported if it is found. -/
theorem Registry.supports_iff {κ : Type} {registry : Registry κ} {name : String} :
    registry.supports name = true ↔ ∃ kind, registry.lookup name = .ok kind := by
  rw [supports, NameTable.contains, lookup]
  cases registry.bindings.find? (Ascii.lower name) <;> simp

/-- A name that is supported is found, so looking it up raises nothing. -/
theorem Registry.failsOnly_lookup {κ : Type} {registry : Registry κ} {name : String}
    {allowed : Fault → Prop} (h : registry.supports name = true) :
    FailsOnly allowed (registry.lookup name) := by
  obtain ⟨kind, hkind⟩ := supports_iff.mp h
  rw [hkind]
  exact failsOnly_ok kind

namespace MatchTags

/-- A tag for something else leaves the comparator that was chosen. -/
theorem comparator_choose {addresses : Bool} {tag : String} {tags chosen : MatchTags}
    (hchosen : tags.choose addresses tag = .ok chosen) : chosen.comparator = tags.comparator := by
  rw [choose] at hchosen
  repeat' split at hchosen
  all_goals cases hchosen
  all_goals rfl

/-- The name behind the tag is the comparator that is chosen, in lower case. -/
theorem comparator_chooseComparator {name : String} {tags chosen : MatchTags}
    (hchosen : tags.chooseComparator name = .ok chosen) :
    chosen.comparator = some (Ascii.lower name) := by
  rw [chooseComparator] at hchosen
  split at hchosen
  · cases hchosen
  · cases hchosen
    rfl

/-- The comparator that the tags of a test choose is one that the scan for undeclared comparators
came across. -/
theorem comparator_read {declared : List String} {addresses : Bool}
    {arguments rest : List Argument} {tags chosen : MatchTags}
    (hread : tags.read addresses arguments = .ok (chosen, rest))
    (hdeclared : Script.undeclared? declared arguments = .none)
    (htags : ∀ name ∈ tags.comparator, name ∈ declared) :
    ∀ name ∈ chosen.comparator, name ∈ declared := by
  fun_induction MatchTags.read addresses tags arguments with
  | case1 tags name arguments chosen hchosen ih =>
    obtain ⟨hname, hdeclared⟩ := Script.undeclared?_comparator.mp hdeclared
    refine ih hread hdeclared ?_
    rw [comparator_chooseComparator hchosen]
    rintro _ ⟨⟩
    exact hname
  | case4 tags tag arguments htag chosen hchosen ih =>
    rw [Script.undeclared?_tag htag] at hdeclared
    exact ih hread hdeclared (comparator_choose hchosen ▸ htags)
  | case6 tags arguments hother =>
    cases hread
    exact htags
  | _ => cases hread

/-- The tags at the front of some arguments are read alike whatever follows them, as long as that
begins with no tag. -/
theorem exists_read_append {addresses : Bool} {tags chosen : MatchTags}
    {arguments rest : List Argument} (hread : tags.read addresses arguments = .ok (chosen, rest)) :
    ∃ front, arguments = front ++ rest ∧ ∀ other : List Argument,
      (∀ tag, other.head? ≠ some (.tag tag)) →
        tags.read addresses (front ++ other) = .ok (chosen, other) := by
  fun_induction MatchTags.read addresses tags arguments with
  | case1 tags name arguments between hbetween ih =>
    obtain ⟨front, rfl, hfront⟩ := ih hread
    refine ⟨.tag ":comparator" :: .string name :: front, rfl, fun other hother => ?_⟩
    rw [List.cons_append, List.cons_append, read, if_pos rfl, hbetween]
    exact hfront other hother
  | case4 tags tag arguments htag between hbetween ih =>
    obtain ⟨front, rfl, hfront⟩ := ih hread
    refine ⟨.tag tag :: front, rfl, fun other hother => ?_⟩
    rw [List.cons_append, read.eq_def]
    dsimp only
    rw [if_neg htag, hbetween]
    exact hfront other hother
  | case6 tags arguments hplain =>
    cases hread
    refine ⟨[], rfl, fun other hother => ?_⟩
    rw [List.nil_append]
    match other, hother with
    | [], _ | .number _ :: _, _ | .string _ :: _, _ | .strings _ :: _, _ => rfl
    | .tag tag :: _, hother => exact absurd rfl (hother tag)
  | _ => cases hread

end MatchTags

/-- The comparator of a test is declared, or none was named. -/
theorem MatchArguments.comparator_ofTest {declared : List String} {test : Test} {addresses : Bool}
    {sought : MatchArguments} (hsought : ofTest test addresses = .ok sought)
    (hdeclared : Script.undeclared? declared test.arguments = none) :
    sought.comparator ∈ declared ∨ sought.comparator = Comparator.asciiCasemap.name := by
  have harguments := eq_ok_of_mapError_eq_ok hsought
  split at harguments
  · cases harguments
  rw [ofArguments] at harguments
  obtain ⟨⟨tags, rest⟩, hread, hlists⟩ := exists_of_bind_eq_ok harguments
  obtain ⟨lists, -, hlists⟩ := exists_of_bind_eq_ok hlists
  have hcomparator := MatchTags.comparator_read hread hdeclared nofun
  split at hlists
  · cases hlists
    cases hname : tags.comparator with
    | none => exact .inr rfl
    | some name => exact .inl (hcomparator name hname)
  · cases hlists

section Evaluation

variable {environment : Environment} {declared : List String}

/-- What the tests and commands of a checked script can rely on: the comparators declared are there,
and so is the one that is used where none is named. -/
structure Resolves (registries : Registries) (declared : List String) : Prop where
  declared : Script.DeclaredSupported registries declared
  default : registries.comparators.supports Comparator.asciiCasemap.name = true

/-- The comparator of a test is found if it is implicit or has been declared. -/
theorem Resolves.failsOnly_comparator {allowed : Fault → Prop} {registries : Registries}
    {declared : List String} (h : Resolves registries declared) {test : Test} {addresses : Bool}
    {sought : MatchArguments} (hsought : MatchArguments.ofTest test addresses = .ok sought)
    (hdeclared : Script.undeclared? declared test.arguments = none) :
    FailsOnly allowed (registries.comparators.lookup sought.comparator) := by
  rcases MatchArguments.comparator_ofTest hsought hdeclared with hname | hname
  · exact Registry.failsOnly_lookup (h.declared _ hname)
  · exact Registry.failsOnly_lookup (hname ▸ h.default)

variable {test : Test}

/-- A `header` test finds its comparator if it has been declared. -/
theorem Test.header_resolves [MailReader] (h : Resolves environment.registries declared)
    (hdeclared : Script.undeclared? declared test.arguments = none) :
    FailsOnly Fault.NotLookup (test.header environment) :=
  failsOnly_header (fun _ => (·.notLookup)) fun _ hsought =>
    h.failsOnly_comparator hsought hdeclared

/-- An `address` test finds its comparator if it has been declared. -/
theorem Test.address_resolves [MailReader] (h : Resolves environment.registries declared)
    (hdeclared : Script.undeclared? declared test.arguments = none) :
    FailsOnly Fault.NotLookup (test.address environment) :=
  failsOnly_address (fun _ => (·.notLookup)) fun _ hsought =>
    h.failsOnly_comparator hsought hdeclared

/-- An `envelope` test finds its comparator if it has been declared. -/
theorem Test.envelope_resolves [MailReader] (h : Resolves environment.registries declared)
    (hdeclared : Script.undeclared? declared test.arguments = none) :
    FailsOnly Fault.NotLookup (test.envelope environment) := by
  refine failsOnly_envelope (fun _ => (·.notLookup))
    (fun _ hsought => h.failsOnly_comparator hsought hdeclared) ?_
  rintro _ ⟨header, cause, rfl⟩
  exact nofun

/-- A checked test never fails for want of an implementation. -/
theorem Test.evaluate_resolves [MailReader] (h : Resolves environment.registries declared)
    (test : Test) (hcheck : Script.checkTest environment.registries declared test = .ok ()) :
    (test.evaluate environment).FailsOnly Fault.NotLookup := by
  induction test using Test.induction with
  | step test ih =>
    obtain ⟨hname, hdeclared, hinner⟩ := Script.checkTest_eq_ok_iff.mp hcheck
    have hnested := fun inner hmem => ih inner hmem (hinner inner hmem)
    have hown := fun fault => @Test.IsArgumentFault.notLookup test fault
    have hcombinator : (throw test.combinatorFault : Eval Bool).FailsOnly Fault.NotLookup :=
      Eval.failsOnly_throw (hown _ test.isArgumentFault_combinatorFault)
    obtain ⟨name, arguments, tests, line⟩ := test
    rw [evaluate]
    refine (Eval.failsOnly_tick environment fun _ => nofun).bind fun _ => ?_
    refine (Eval.failsOnly_ofExcept (Registry.failsOnly_lookup hname)).bind fun kind => ?_
    cases kind with
    | not =>
      dsimp only
      split
      · exact ((hnested _ List.mem_cons_self).map _).noted _
      · exact hcombinator.noted _
    | allof =>
      dsimp only
      split
      · exact (evaluateAll_closed (Eval.closed_failsOnly _) hnested).noted _
      · exact hcombinator.noted _
    | anyof =>
      dsimp only
      split
      · exact (evaluateAny_closed (Eval.closed_failsOnly _) hnested).noted _
      · exact hcombinator.noted _
    | header => exact (Eval.failsOnly_ofExcept (header_resolves h hdeclared)).noted _
    | address => exact (Eval.failsOnly_ofExcept (address_resolves h hdeclared)).noted _
    | envelope => exact (Eval.failsOnly_ofExcept (envelope_resolves h hdeclared)).noted _
    | «exists» =>
      exact (Eval.failsOnly_ofExcept ((failsOnly_exists _ environment).mono hown)).noted _
    | size => exact (Eval.failsOnly_ofExcept ((failsOnly_size _ environment).mono hown)).noted _
    | true => exact (Eval.failsOnly_ofExcept ((failsOnly_constant _ true).mono hown)).noted _
    | false => exact (Eval.failsOnly_ofExcept ((failsOnly_constant _ false).mono hown)).noted _

namespace Command

variable {command : Command}

/-- The guard of a command is one of its tests. -/
theorem mem_nested_of_guard {test : Test} (hguard : command.guard = .ok test) :
    test ∈ command.nested := by
  obtain ⟨_, -, hsingle⟩ := exists_of_bind_eq_ok hguard
  rw [singleTest] at hsingle
  split at hsingle
  · split at hsingle
    · next hnested =>
      cases hsingle
      rw [hnested]
      exact List.mem_singleton_self test
    · cases hsingle
  · cases hsingle

/-- A command whose name stands for something resolves if its task does. -/
theorem run_resolves_of_task [MailReader]
    (hname : environment.registries.commands.supports command.name = true)
    (hperform : ∀ kind task,
      environment.registries.commands.lookup command.name = .ok kind →
        command.task kind = .ok task →
          (task.perform environment command.line
            (runBlock environment command.block)).FailsOnly Fault.NotLookup) :
    (command.run environment).FailsOnly Fault.NotLookup := by
  intro session
  have hrefused : FailsOnly Fault.NotLookup (command.accept environment session) :=
    command.failsOnly_accept (Registry.failsOnly_lookup hname) (fun _ => nofun)
      fun _ => (·.notLookup)
  rw [apply_run]
  cases haccept : command.accept environment session with
  | error fault => exact failsOnly_error (hrefused fault haccept)
  | ok accepted =>
    obtain ⟨kind, task⟩ := accepted
    obtain ⟨hkind, htask, -⟩ := task_of_accept haccept
    have hresult := hperform kind task hkind htask (command.ready session)
    dsimp only
    generalize (task.perform environment _ _).apply _ = done at hresult ⊢
    obtain ⟨fault | flow, after⟩ := done
    · exact hresult
    · exact failsOnly_ok flow

/-- A block finds all names if its commands do. -/
theorem runBlock_resolves [MailReader] {block : Option (List Command)}
    (hrun : ∀ command ∈ block.getD [], (command.run environment).FailsOnly Fault.NotLookup) :
    (runBlock environment block).FailsOnly Fault.NotLookup := by
  cases block with
  | none => exact Eval.failsOnly_pure Flow.continue
  | some commands =>
    rw [runBlock]
    exact (Eval.failsOnly_update _).bind fun _ => runAll_closed (Eval.closed_failsOnly _) hrun

/-- A branch finds all names if its test and its block do. -/
theorem runBranch_resolves [MailReader] {test : Test} {block : Eval Flow}
    (htest : (test.evaluate environment).FailsOnly Fault.NotLookup)
    (hblock : block.FailsOnly Fault.NotLookup) :
    (runBranch environment test block).FailsOnly Fault.NotLookup := by
  refine htest.bind fun result => ?_
  have hrecord : ∀ flow : Flow, Eval.FailsOnly Fault.NotLookup (do
      Eval.update fun session => { session with condition := session.condition.record result }
      return flow) :=
    fun flow => (Eval.failsOnly_update _).bind fun _ => Eval.failsOnly_pure flow
  cases result with
  | false => exact (Eval.failsOnly_pure Flow.continue).bind hrecord
  | true => exact hblock.bind hrecord

/-- A requirement of a feature that is not supported is a fault of its own kind. -/
theorem requireFeatures_resolves (registries : Registries) (features : List String) :
    FailsOnly Fault.NotLookup (requireFeatures registries features) := by
  induction features with
  | nil => exact failsOnly_ok ()
  | cons feature features ih =>
    rw [requireFeatures]
    split
    · exact ih
    · exact failsOnly_error nofun

variable [MailReader]

/-- A task without a block looks no name up. -/
theorem perform_resolves_of_closed {task : Task} (htask : task.runsBlock = false) (line : Nat)
    (block : Eval Flow) : (task.perform environment line block).FailsOnly Fault.NotLookup := by
  cases task with
  | branch | elseBranch | otherwise => cases htask
  | require features =>
    rw [Task.perform]
    exact (Eval.failsOnly_ofExcept (requireFeatures_resolves _ features)).bind
      fun _ => Eval.failsOnly_pure Flow.continue
  | stop => exact Eval.failsOnly_pure Flow.stop
  | discard =>
    exact (Eval.failsOnly_update _).bind fun _ => (Eval.failsOnly_update _).bind
      fun _ => Eval.failsOnly_pure Flow.continue
  | act action => exact (Eval.failsOnly_update _).bind fun _ => Eval.failsOnly_pure Flow.continue
  | log level text =>
    exact (Eval.failsOnly_update _).bind fun _ => Eval.failsOnly_pure Flow.continue

/-- A task resolves if the block and the test that it may need do. -/
theorem perform_resolves {kind : CommandKind} {task : Task} (htask : command.task kind = .ok task)
    (hguard : ∀ test, command.guard = .ok test →
      (test.evaluate environment).FailsOnly Fault.NotLookup)
    {block : Eval Flow} (hblock : block.FailsOnly Fault.NotLookup) (line : Nat) :
    (task.perform environment line block).FailsOnly Fault.NotLookup := by
  cases task with
  | branch test => exact runBranch_resolves (hguard test (guard_of_task htask (.inl rfl))) hblock
  | elseBranch test =>
    have htest := hguard test (guard_of_task htask (.inr rfl))
    intro session
    rw [Task.apply_elseBranch]
    split
    · exact runBranch_resolves htest hblock session
    · exact failsOnly_ok Flow.continue
  | otherwise =>
    intro session
    rw [Task.apply_otherwise]
    split
    · exact hblock session
    · exact failsOnly_ok Flow.continue
  | _ => exact perform_resolves_of_closed rfl line block

/-- A checked command never fails for want of an implementation. -/
theorem run_resolves (h : Resolves environment.registries declared) (command : Command)
    (hcheck : Script.checkCommand environment.registries declared command = .ok ()) :
    (command.run environment).FailsOnly Fault.NotLookup := by
  induction command using Command.induction with
  | step command ih =>
    obtain ⟨hname, -, htests, hinner⟩ := Script.checkCommand_eq_ok_iff.mp hcheck
    have hblock : (runBlock environment command.block).FailsOnly Fault.NotLookup :=
      runBlock_resolves fun inner hmem => ih inner hmem (hinner inner hmem).2
    have hguard := fun test hguard =>
      Test.evaluate_resolves h test (htests test (mem_nested_of_guard hguard))
    exact run_resolves_of_task hname fun kind task hkind htask =>
      perform_resolves htask hguard hblock command.line

/-- A requirement runs nothing inside it, so it needs no check of that. -/
theorem requirement_resolves
    (hrequire : environment.registries.commands.lookup command.name = .ok .require) :
    (command.run environment).FailsOnly Fault.NotLookup := by
  refine run_resolves_of_task (Registry.supports_iff.mpr ⟨.require, hrequire⟩) ?_
  intro kind task hkind htask
  obtain rfl : CommandKind.require = kind := Except.ok.inj (hrequire.symm.trans hkind)
  exact perform_resolves_of_closed (task_runsBlock htask nofun nofun nofun) command.line _

/-- The commands of a checked script never fail for want of an implementation, wherever the check
of the script has got to before them. -/
theorem runScript_resolves
    (hrequire : environment.registries.commands.lookup "require" = .ok .require) {script : Script}
    {prolog : Bool} (h : Resolves environment.registries declared)
    (hcheck : Script.checkScript environment.registries declared prolog script = .ok ()) :
    (runAll environment script).FailsOnly Fault.NotLookup := by
  refine runAll_closed (Eval.closed_failsOnly _) ?_
  induction script generalizing declared prolog with
  | nil => exact nofun
  | cons command script ih =>
    rw [List.forall_mem_cons]
    by_cases hname : command.name = "require"
    · obtain ⟨-, declared', hdeclared, hrest⟩ := (Script.checkScript_require_iff hname).mp hcheck
      have hsupported := Script.declareAll_supported h.declared hdeclared
      exact ⟨requirement_resolves (hname ▸ hrequire), ih ⟨hsupported, h.default⟩ hrest⟩
    · obtain ⟨hcommand, hrest⟩ := (Script.checkScript_other_iff hname).mp hcheck
      exact ⟨run_resolves h command hcommand, ih h hrest⟩

end Command

end Evaluation

/-- A script that passes the check of an engine never fails in it for want of an implementation,
whatever the names of the engine stand for, as long as `require` is a requirement and the implicit
comparators are there. -/
theorem Engine.evaluate_ne_lookup [MailReader] (engine : Engine) (script : Script) (mail : Message)
    (actions : List Action)
    (hrequire : engine.registries.commands.lookup "require" = .ok .require)
    (himplicit : ∀ name ∈ implicitComparators,
      engine.registries.comparators.supports name = true)
    (hvalid : Script.validate script engine.registries = .ok ()) (name : String) :
    (engine.evaluate script mail actions).1 ≠ .error (.lookup name) := by
  have hresolves : Resolves (engine.environment mail).registries implicitComparators :=
    ⟨himplicit, himplicit _ (by decide)⟩
  have hrequire : (engine.environment mail).registries.commands.lookup "require" = .ok .require :=
    hrequire
  have hrun := Command.runScript_resolves hrequire hresolves hvalid
    ((Session.start actions).noted (.started (engine.environment mail).mail.size))
  rw [evaluate, apply_walk]
  generalize (Command.runAll _ script).apply _ = done at hrun ⊢
  obtain ⟨fault | flow, after⟩ := done
  · intro hfault
    exact hrun fault rfl name (Except.error.inj hfault)
  · exact nofun

/-- An engine with a test and a comparator under names of its own. -/
def Engine.renaming : Engine where
  registries := (Registries.builtin.register (.comparator "Loose" .asciiCasemap)).register
    (.test "topic" .header)
  maxSteps := none
  inbox := Settings.defaultInbox

/-- A script that uses the names of that engine, in other cases of their letters, for a test inside
another one. -/
def Script.renamed : Script :=
  let topic : Test := ⟨"Topic", [.tag ":comparator", .string "LOOSE", .tag ":contains",
    .string "subject", .string "LISTS"], none, 2⟩
  [⟨"require", [.strings ["fileinto", "comparator-Loose"]], none, none, 1⟩,
    ⟨"if", [], some [⟨"allof", [], some [⟨"true", [], none, 2⟩, topic], 2⟩],
      some [⟨"fileinto", [.string "Lists"], none, none, 3⟩], 2⟩]

/-- The script passes the check, and its evaluation comes to the inner test, which finds the
comparator and with it the word in the subject. -/
theorem Engine.evaluate_renamed_ne_lookup :
    let mail := Message.ofBytes (Utf8.encode "Subject: [lists] Noon?\r\n\r\n") none none
    let evaluated := renaming.evaluate Script.renamed mail []
    Script.validate Script.renamed renaming.registries = .ok () ∧
      (∀ name, evaluated.1 ≠ .error (.lookup name)) ∧ evaluated.1 = .ok () ∧
      evaluated.2.actions = [.fileInto "Lists"] := by
  intro mail evaluated
  have hrequire : renaming.registries.commands.lookup "require" = .ok .require := rfl
  have himplicit : ∀ name ∈ implicitComparators,
      renaming.registries.comparators.supports name = true := by decide
  have hvalid : Script.validate Script.renamed renaming.registries = .ok () := rfl
  have hok : evaluated.1 = .ok () := by decide +kernel
  have hactions : evaluated.2.actions = [.fileInto "Lists"] := by decide +kernel
  exact ⟨hvalid, fun name => renaming.evaluate_ne_lookup Script.renamed mail [] hrequire himplicit
    hvalid name, hok, hactions⟩

end MailFilter
