import MailFilter.Host.Reader
import MailFilter.Proofs.Evaluation.Budget
import MailFilter.Proofs.Evaluation.Requirement
import MailFilter.Proofs.Evaluation.Resolution

/-!
# No node is visited twice

Every step of an evaluation is that of a command or a test of the script. A command evaluates its
test at most once and runs its block at most once, and a test evaluates each test inside it at most
once. So there are no more steps than nodes, and a bound on steps that leaves room for all nodes is
never exceeded: the bound fails an evaluation only behind more steps than it allows.
-/

namespace MailFilter

/-- A fault that says that the bound on steps has been exceeded. -/
def Fault.IsBudget (fault : Fault) : Prop :=
  ∃ name line limit, fault = .command name line (.budgetExceeded limit)

section

variable {α : Type} {environment : Environment}

/-- Looking a name up has nothing to do with the budget. -/
theorem Registry.failsOnly_lookup_not_isBudget {κ : Type} (registry : Registry κ) (name : String) :
    FailsOnly (¬·.IsBudget) (registry.lookup name) := by
  rw [lookup]
  split
  · exact failsOnly_ok _
  · refine failsOnly_error ?_
    rintro ⟨_, _, _, ⟨⟩⟩

/-- A fault in the arguments of a test has nothing to do with the budget. -/
theorem Test.IsArgumentFault.not_isBudget {test : Test} {fault : Fault}
    (h : test.IsArgumentFault fault) : ¬fault.IsBudget := by
  obtain ⟨cause, rfl⟩ := h
  exact nofun

/-- A fault in the arguments of a command has nothing to do with the budget. -/
theorem Command.IsArgumentFault.not_isBudget {command : Command} {fault : Fault}
    (h : command.IsArgumentFault fault) : ¬fault.IsBudget := by
  obtain ⟨cause, rfl⟩ := h
  exact nofun

/-- A run from a state has counted so many steps at most, and fails for the bound only if it has
counted more than that allows. -/
structure Session.Spends (environment : Environment) (cost : Nat) (before : Session)
    (run : Except Fault α × Session) : Prop where
  steps : run.2.steps ≤ before.steps + cost
  budget : ∀ fault, run.1 = .error fault → fault.IsBudget →
    ∃ limit ∈ environment.maxSteps, limit < run.2.steps

/-- From every state a step counts so many steps at most. -/
def Eval.Spends (environment : Environment) (cost : Nat) (step : Eval α) : Prop :=
  ∀ session : Session, session.Spends environment cost (step.apply session)

end

namespace Eval

variable {α β : Type} {environment : Environment} {cost further : Nat}

/-- A step that spends no more than a cost spends no more than a greater one. -/
theorem Spends.mono {step : Eval α} (h : step.Spends environment cost) (hcost : cost ≤ further) :
    step.Spends environment further :=
  fun session => ⟨Nat.le_trans (h session).steps (Nat.add_le_add_left hcost _), (h session).budget⟩

/-- A result that is known spends nothing. -/
theorem spends_ofExcept {result : Except Fault α}
    (h : MailFilter.FailsOnly (¬·.IsBudget) result) :
    (ofExcept result).Spends environment 0 :=
  fun _ => ⟨Nat.le_refl _, fun fault hfault hbudget => absurd hbudget (h fault hfault)⟩

/-- A value that is given back spends nothing. -/
theorem spends_pure (value : α) : (pure value : Eval α).Spends environment 0 :=
  spends_ofExcept (failsOnly_ok value)

/-- An update spends nothing. -/
theorem spends_update {change : Session → Session} (h : Session.Update change) :
    (update change).Spends environment 0 :=
  fun session => ⟨Nat.le_of_eq (h.steps_eq session), nofun⟩

/-- Counting a step spends one. -/
theorem spends_tick (name : String) (line : Nat) :
    (tick environment name line).Spends environment 1 := by
  intro session
  rw [apply_tick]
  cases hexceeded : environment.exceeded? (session.steps + 1) with
  | none => exact ⟨Nat.le_refl _, nofun⟩
  | some limit =>
    obtain ⟨hbound, hlimit⟩ := Option.filter_eq_some_iff.mp hexceeded
    exact ⟨Nat.le_refl _, fun _ _ _ => ⟨limit, hbound, of_decide_eq_true hlimit⟩⟩

/-- Two steps one after the other spend what both spend. -/
theorem Spends.bind {step : Eval α} {next : α → Eval β} (hstep : step.Spends environment cost)
    (hnext : ∀ value, (next value).Spends environment further) :
    (step >>= next).Spends environment (cost + further) := by
  intro session
  have hfirst := hstep session
  rw [apply_bind]
  generalize step.apply session = done at hfirst ⊢
  obtain ⟨fault | value, middle⟩ := done
  · refine ⟨Nat.le_trans hfirst.steps (by omega), fun other hother => hfirst.budget other ?_⟩
    cases hother
    rfl
  · have hsecond := hnext value middle
    have hmiddle : middle.steps ≤ session.steps + cost := hfirst.steps
    exact ⟨Nat.le_trans hsecond.steps (by omega), hsecond.budget⟩

/-- What costs nothing may come first. -/
theorem Spends.after_free {step : Eval α} {next : α → Eval β} (hstep : step.Spends environment 0)
    (hnext : ∀ value, (next value).Spends environment cost) :
    (step >>= next).Spends environment cost :=
  Nat.zero_add cost ▸ hstep.bind hnext

/-- What costs nothing may follow. -/
theorem Spends.bind_free {step : Eval α} {next : α → Eval β} (hstep : step.Spends environment cost)
    (hnext : ∀ value, (next value).Spends environment 0) :
    (step >>= next).Spends environment cost :=
  hstep.bind hnext

/-- Noting the result of a step spends nothing more. -/
theorem Spends.noted {step : Eval α} (hstep : step.Spends environment cost) (event : α → Event) :
    (do let value ← step; note (event value); return value).Spends environment cost :=
  hstep.bind_free fun value =>
    (spends_update (.noted (event value))).bind_free fun _ => spends_pure value

end Eval

variable {environment : Environment}

namespace Test

/-- A `header` test by itself never exceeds the budget. -/
theorem failsOnly_header_not_isBudget [MailReader] (test : Test) :
    FailsOnly (¬·.IsBudget) (test.header environment) :=
  failsOnly_header (fun _ => (·.not_isBudget)) fun _ _ =>
    Registry.failsOnly_lookup_not_isBudget _ _

/-- An `address` test by itself never exceeds the budget. -/
theorem failsOnly_address_not_isBudget [MailReader] (test : Test) :
    FailsOnly (¬·.IsBudget) (test.address environment) :=
  failsOnly_address (fun _ => (·.not_isBudget)) fun _ _ =>
    Registry.failsOnly_lookup_not_isBudget _ _

/-- An `envelope` test by itself never exceeds the budget. -/
theorem failsOnly_envelope_not_isBudget [MailReader] (test : Test) :
    FailsOnly (¬·.IsBudget) (test.envelope environment) := by
  refine failsOnly_envelope (fun _ => (·.not_isBudget))
    (fun _ _ => Registry.failsOnly_lookup_not_isBudget _ _) ?_
  rintro _ ⟨header, cause, rfl⟩
  exact nofun

/-- Asking for all of some tests spends no more than they have nodes. -/
theorem evaluateAll_spends [MailReader] {tests : List Test}
    (htests : ∀ test ∈ tests, (test.evaluate environment).Spends environment test.nodes) :
    (evaluateAll environment tests).Spends environment (nodesAll tests) := by
  induction tests with
  | nil => exact Eval.spends_pure true
  | cons test tests ih =>
    rw [List.forall_mem_cons] at htests
    rw [evaluateAll, nodesAll]
    refine htests.1.bind fun result => ?_
    cases result with
    | false => exact (Eval.spends_pure false).mono (Nat.zero_le _)
    | true => exact ih htests.2

/-- Asking for any of some tests spends no more than they have nodes. -/
theorem evaluateAny_spends [MailReader] {tests : List Test}
    (htests : ∀ test ∈ tests, (test.evaluate environment).Spends environment test.nodes) :
    (evaluateAny environment tests).Spends environment (nodesAll tests) := by
  induction tests with
  | nil => exact Eval.spends_pure false
  | cons test tests ih =>
    rw [List.forall_mem_cons] at htests
    rw [evaluateAny, nodesAll]
    refine htests.1.bind fun result => ?_
    cases result with
    | false => exact ih htests.2
    | true => exact (Eval.spends_pure true).mono (Nat.zero_le _)

/-- A test spends no more than it has nodes. -/
theorem evaluate_spends [MailReader] (test : Test) :
    (test.evaluate environment).Spends environment test.nodes := by
  induction test using Test.induction with
  | step test ih =>
    have hown := fun fault => @IsArgumentFault.not_isBudget test fault
    have hcombinator : (Eval.ofExcept (.error test.combinatorFault) : Eval Bool).Spends
        environment (nodes? test.tests) :=
      (Eval.spends_ofExcept (failsOnly_error (hown _ test.isArgumentFault_combinatorFault))).mono
        (Nat.zero_le _)
    have hsimple : ∀ {result : Except Fault Bool}, FailsOnly (¬·.IsBudget) result →
        (Eval.ofExcept result).Spends environment (nodes? test.tests) :=
      fun hresult => (Eval.spends_ofExcept hresult).mono (Nat.zero_le _)
    obtain ⟨name, arguments, tests, line⟩ := test
    rw [evaluate, nodes]
    refine (Eval.spends_tick name line).bind fun _ => ?_
    refine (Eval.spends_ofExcept (Registry.failsOnly_lookup_not_isBudget _ name)).after_free
      fun kind => ?_
    cases kind with
    | not =>
      dsimp only
      split
      · next inner =>
        have hinner := ih inner List.mem_cons_self
        rw [map_eq_pure_bind]
        exact (hinner.bind_free fun result => Eval.spends_pure (!result)).noted _
      · exact hcombinator.noted _
    | allof =>
      dsimp only
      split
      · exact (evaluateAll_spends ih).noted _
      · exact hcombinator.noted _
    | anyof =>
      dsimp only
      split
      · exact (evaluateAny_spends ih).noted _
      · exact hcombinator.noted _
    | header => exact (hsimple (failsOnly_header_not_isBudget _)).noted _
    | address => exact (hsimple (failsOnly_address_not_isBudget _)).noted _
    | envelope => exact (hsimple (failsOnly_envelope_not_isBudget _)).noted _
    | «exists» => exact (hsimple ((failsOnly_exists _ environment).mono hown)).noted _
    | size => exact (hsimple ((failsOnly_size _ environment).mono hown)).noted _
    | true => exact (hsimple ((failsOnly_constant _ true).mono hown)).noted _
    | false => exact (hsimple ((failsOnly_constant _ false).mono hown)).noted _

/-- A test that a command was given has no more nodes than all of them. -/
theorem nodes_le_of_mem_nested {test : Test} {command : Command} (h : test ∈ command.nested) :
    test.nodes ≤ nodes? command.tests := by
  rw [Command.nested] at h
  cases htests : command.tests with
  | none =>
    rw [htests] at h
    cases h
  | some tests =>
    rw [htests] at h
    obtain ⟨front, back, rfl⟩ := List.append_of_mem (show test ∈ tests from h)
    rw [nodes?]
    clear h htests
    induction front with
    | nil => exact Nat.le_add_right ..
    | cons first front ih => exact Nat.le_trans ih (Nat.le_add_left ..)

end Test

/-- The state never objects to a command for the bound on steps. -/
theorem CommandKind.objection?_ne_budgetExceeded (kind : CommandKind) (state : CommandState)
    (condition : ConditionState) (limit : Nat) :
    kind.objection? state condition ≠ some (.budgetExceeded limit) := by
  cases kind <;> simp [objection?]

/-- A branch spends no more than its test has nodes and its block spends. -/
theorem runBranch_spends [MailReader] {test : Test} {block : Eval Flow} {cost : Nat}
    (hblock : block.Spends environment cost) :
    (runBranch environment test block).Spends environment (test.nodes + cost) := by
  refine test.evaluate_spends.bind fun result => ?_
  have hrecord : ∀ flow : Flow, Eval.Spends environment 0 (do
      Eval.update fun session => { session with condition := session.condition.record result }
      return flow) :=
    fun flow => (Eval.spends_update (.recorded result)).bind_free fun _ => Eval.spends_pure flow
  cases result with
  | false =>
    exact ((Eval.spends_pure Flow.continue).bind_free hrecord).mono (Nat.zero_le _)
  | true => exact hblock.bind_free hrecord

namespace Command

variable {command : Command} {session : Session}

variable [MailReader]

/-- To find the task of a command never exceeds the budget. -/
theorem failsOnly_taskIn_not_isBudget (kind : CommandKind) :
    FailsOnly (¬·.IsBudget) (command.taskIn session kind) := by
  rw [taskIn]
  split
  · next cause hcause =>
    refine failsOnly_error ?_
    rintro ⟨name, line, limit, ⟨⟩⟩
    exact kind.objection?_ne_budgetExceeded _ _ limit hcause
  · exact (command.failsOnly_task kind).mono fun _ => (·.not_isBudget)

/-- A command is only refused for the bound if its step is one too many. -/
theorem exceeded_of_accept {fault : Fault}
    (h : command.accept environment session = .error fault) (hbudget : fault.IsBudget) :
    ∃ limit ∈ environment.maxSteps, limit < session.steps + 1 := by
  rw [accept] at h
  cases hexceeded : environment.exceeded? (session.steps + 1) with
  | some limit =>
    obtain ⟨hbound, hlimit⟩ := Option.filter_eq_some_iff.mp hexceeded
    exact ⟨limit, hbound, of_decide_eq_true hlimit⟩
  | none =>
    rw [hexceeded] at h
    have hname :=
      Registry.failsOnly_lookup_not_isBudget environment.registries.commands command.name
    cases hkind : environment.registries.commands.lookup command.name with
    | error unknown =>
      rw [hkind] at h
      cases h
      exact absurd hbudget (hname fault hkind)
    | ok kind =>
      rw [hkind] at h
      exact absurd hbudget ((failsOnly_taskIn_not_isBudget kind).map _ fault h)

/-- A task costs no more than the tests of its command and the block. -/
theorem perform_spends {kind : CommandKind} {task : Task} {block : Eval Flow} {cost : Nat}
    (htask : command.task kind = .ok task) (hblock : block.Spends environment cost) (line : Nat) :
    (task.perform environment line block).Spends environment
      (Test.nodes? command.tests + cost) := by
  have hbranch : ∀ test, task = .branch test ∨ task = .elseBranch test →
      (runBranch environment test block).Spends environment (Test.nodes? command.tests + cost) := by
    intro test htest
    have hnodes := Test.nodes_le_of_mem_nested (mem_nested_of_guard (guard_of_task htask htest))
    exact (runBranch_spends hblock).mono (Nat.add_le_add_right hnodes cost)
  have hpassed : (pure Flow.continue : Eval Flow).Spends environment
      (Test.nodes? command.tests + cost) :=
    (Eval.spends_pure _).mono (Nat.zero_le _)
  cases task with
  | branch test => exact hbranch test (.inl rfl)
  | elseBranch test =>
    intro session
    rw [Task.apply_elseBranch]
    split
    · exact hbranch test (.inr rfl) session
    · exact hpassed session
  | otherwise =>
    intro session
    rw [Task.apply_otherwise]
    split
    · exact hblock.mono (Nat.le_add_left ..) session
    · exact hpassed session
  | require features =>
    have hfeatures : FailsOnly (¬·.IsBudget)
        (requireFeatures environment.registries features) := by
      intro fault hfault
      obtain ⟨feature, -, rfl⟩ := (requireFeatures_eq_error_iff _ _ _).mp hfault
      exact nofun
    exact ((Eval.spends_ofExcept hfeatures).bind_free fun _ => Eval.spends_pure _).mono
      (Nat.zero_le _)
  | stop => exact (Eval.spends_pure _).mono (Nat.zero_le _)
  | discard =>
    exact ((Eval.spends_update (.noted _)).bind_free fun _ =>
      (Eval.spends_update .revoked).bind_free fun _ => Eval.spends_pure _).mono (Nat.zero_le _)
  | act action =>
    exact ((Eval.spends_update (.acted line action)).bind_free fun _ => Eval.spends_pure _).mono
      (Nat.zero_le _)
  | log level text =>
    exact ((Eval.spends_update (.noted _)).bind_free fun _ => Eval.spends_pure _).mono
      (Nat.zero_le _)

/-- Some commands spend no more than they have nodes. -/
theorem runAll_spends {commands : List Command}
    (hrun : ∀ command ∈ commands, (run environment command).Spends environment command.nodes) :
    (runAll environment commands).Spends environment (nodesAll commands) := by
  induction commands with
  | nil => exact Eval.spends_pure Flow.continue
  | cons command commands ih =>
    rw [List.forall_mem_cons] at hrun
    rw [runAll, nodesAll]
    refine hrun.1.bind fun flow => ?_
    cases flow with
    | stop => exact (Eval.spends_pure Flow.stop).mono (Nat.zero_le _)
    | «continue» => exact ih hrun.2

/-- A command spends no more than it has nodes. -/
theorem run_spends (command : Command) :
    (run environment command).Spends environment command.nodes := by
  induction command using Command.induction with
  | step command ih =>
    have hblock : (runBlock environment command.block).Spends environment
        (nodes? command.block) := by
      cases hcommands : command.block with
      | none => exact Eval.spends_pure Flow.continue
      | some commands =>
        have hinner : ∀ inner ∈ commands, (run environment inner).Spends environment inner.nodes :=
          fun inner hinner => ih inner (by rw [Command.inner, hcommands]; exact hinner)
        rw [runBlock, nodes?]
        exact (Eval.spends_update .entered).after_free fun _ => runAll_spends hinner
    have hnodes : command.nodes = 1 + Test.nodes? command.tests + nodes? command.block := by
      cases command
      rw [nodes]
    intro session
    rw [apply_run]
    cases haccept : command.accept environment session with
    | error fault =>
      refine ⟨?_, fun other hother hbudget => ?_⟩
      · exact Nat.add_le_add_left command.nodes_pos session.steps
      · cases hother
        exact exceeded_of_accept haccept hbudget
    | ok accepted =>
      obtain ⟨kind, task⟩ := accepted
      obtain ⟨-, htask, -⟩ := task_of_accept haccept
      have hperform := perform_spends htask hblock command.line (command.ready session)
      dsimp only
      generalize (task.perform environment _ _).apply _ = done at hperform ⊢
      have hsteps : done.2.steps ≤ session.steps + command.nodes := by
        have hready : (command.ready session).steps = session.steps + 1 := rfl
        have hspent := hperform.steps
        omega
      obtain ⟨fault | flow, after⟩ := done
      · exact ⟨hsteps, hperform.budget⟩
      · have hcommit : (kind.commit after).steps = after.steps :=
          Session.Update.steps_eq (.committed kind) after
        refine ⟨hcommit.trans_le hsteps, fun fault hfault => ?_⟩
        cases hfault

end Command

/-- An evaluation takes no more steps than the script has nodes, whatever it ends in. It never fails
for a bound on steps that allows as many. -/
theorem Engine.evaluate_steps_le [MailReader] (engine : Engine) (script : Script) (mail : Message)
    (actions : List Action) :
    let done := engine.evaluate script mail actions
    done.2.steps ≤ Command.nodesAll script ∧
      ((∀ limit ∈ engine.maxSteps, Command.nodesAll script ≤ limit) →
        ∀ name line limit, done.1 ≠ .error (.command name line (.budgetExceeded limit))) := by
  intro done
  have hrun : ∀ command ∈ script,
      (Command.run (engine.environment mail) command).Spends (engine.environment mail)
        command.nodes :=
    fun command _ => command.run_spends
  have hspends := Command.runAll_spends hrun (Session.opened mail actions)
  have hdone : done = ending ((Command.runAll (engine.environment mail) script).apply _) :=
    engine.evaluate_eq_ending script mail actions
  generalize (Command.runAll (engine.environment mail) script).apply _ = run at hspends hdone
  have hopened : (Session.opened mail actions).steps = 0 := rfl
  have hsteps : run.2.steps ≤ Command.nodesAll script := by
    have hcounted := hspends.steps
    omega
  rw [hdone, steps_ending]
  refine ⟨hsteps, fun hroom name line limit hfault => ?_⟩
  obtain ⟨fault | flow, after⟩ := run
  · cases hfault
    obtain ⟨bound, hbound, hexceeded⟩ := hspends.budget _ rfl ⟨name, line, limit, rfl⟩
    exact absurd (Nat.le_trans hsteps (hroom bound hbound)) (Nat.not_le.mpr hexceeded)
  · cases hfault

/-- The bound on steps allows the four nodes of the script, and its evaluation takes four steps. -/
theorem Engine.evaluate_steps_le_keepingTwice :
    Command.nodesAll Script.keepingTwice ≤ 4 ∧ (keepsTwice (some 4)).2.steps = 4 ∧
      ∀ name line limit,
        (keepsTwice (some 4)).1 ≠ .error (.command name line (.budgetExceeded limit)) := by
  have hnodes : Command.nodesAll Script.keepingTwice = 4 := by rfl
  have hroom : ∀ limit ∈ (some 4 : Option Nat), Command.nodesAll Script.keepingTwice ≤ limit := by
    rintro limit ⟨⟩
    exact hnodes.le
  exact ⟨hnodes.le, by decide +kernel,
    (evaluate_steps_le ⟨.builtin, some 4, "INBOX"⟩ _ (.ofBytes [10, 72] none none) []).2 hroom⟩

end MailFilter
