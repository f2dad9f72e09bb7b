import MailFilter.Proofs.Evaluation.Comparison
import MailFilter.Proofs.Evaluation.Faults

/-!
# What an evaluation is made of

An evaluation changes the state in a few elementary ways, one after the other: it counts a step,
leaves an event, enters a block, or commits what a command has done. A relation between states that
holds of these changes, and of two changes in a row if it holds of each, therefore holds between the
states before and after any command, test or script, whatever the result. What an invariant of the
evaluation needs is shown once for each elementary change.
-/

namespace MailFilter

/-- Whether an event is one that an evaluation leaves while it runs. The others are left by
dispatch, or by the engine at the two ends of an evaluation. -/
def Event.isStep : Event → Bool
  | commandReady .. | testDone .. | acted .. | vacationActed .. | discarded .. | logged .. => true
  | started .. | finished .. | failed _ | implicitKeep | dispatched .. | loopDetected ..
  | rejectSkipped _ | vacationSkipped _ | vacationReplied .. => false

/-- The state after the message has been discarded by a command on a line. -/
def Session.discard (session : Session) (line : Nat) : Session :=
  { session.noted (.discarded line) with
    command := { session.command with implicitKeep := false } }

/-- The state after the result of a test has been remembered. -/
def Session.recorded (session : Session) (result : Bool) : Session :=
  { session with condition := session.condition.record result }

/-- What a branch does: it evaluates its test, and runs its block if the test holds. -/
theorem apply_runBranch [MailReader] (environment : Environment) (test : Test) (block : Eval Flow)
    (session : Session) :
    (runBranch environment test block).apply session =
      match (test.evaluate environment).apply session with
      | (.error fault, after) => (.error fault, after)
      | (.ok false, after) => (.ok .continue, after.recorded false)
      | (.ok true, after) =>
        match block.apply after with
        | (.error fault, after) => (.error fault, after)
        | (.ok flow, after) => (.ok flow, after.recorded true) := by
  rw [runBranch, Eval.apply_bind]
  generalize (test.evaluate environment).apply session = tested
  obtain ⟨fault | _ | _, middle⟩ := tested
  · rfl
  · rfl
  · dsimp only
    rw [if_pos rfl, Eval.apply_bind]
    generalize block.apply middle = done
    obtain ⟨fault | flow, after⟩ := done <;> rfl

/-- A relation between states that holds of every elementary change of an evaluation. -/
structure StepRelation (change : Session → Session → Prop) : Prop where
  refl : ∀ session, change session session
  trans : ∀ {first second third}, change first second → change second third → change first third
  counted : ∀ session, change session session.counted
  noted : ∀ session (event : Event), event.isStep → change session (session.noted event)
  entered : ∀ session, change session session.enterBlock
  required : ∀ session : Session, session.command.inProlog = true →
    change session (CommandKind.require.commit session)
  acted : ∀ (session : Session) line (action : Action), session.command.rejected = false →
    change session (CommandKind.keep.commit (session.act line action))
  discarded : ∀ session line, change session (CommandKind.discard.commit (session.discard line))
  branched : ∀ session result,
    change session (CommandKind.branch.commit (session.recorded result))
  passed : ∀ session, change session (CommandKind.branch.commit session)
  closed : ∀ session, change session (CommandKind.stop.commit session)

/-- The tasks that a command of each kind can have. -/
inductive CommandKind.Does : CommandKind → Task → Prop where
  | branch (test : Test) : Does .branch (.branch test)
  | elseBranch (test : Test) : Does .elseBranch (.elseBranch test)
  | otherwise : Does .otherwise .otherwise
  | require (features : List String) : Does .require (.require features)
  | stop : Does .stop .stop
  | keep : Does .keep (.act .keep)
  | discard : Does .discard .discard
  | fileinto (folder : String) : Does .fileinto (.act (.fileInto folder))
  | redirect (address : String) : Does .redirect (.act (.redirect address))
  | reject (text : String) : Does .reject (.act (.reject text))
  | vacation (reply : Vacation) : Does .vacation (.act (.vacation reply))
  | log (level : LogLevel) (text : String) : Does .log (.log level text)

/-- The task of a command is one that its kind can have. -/
theorem Command.does_of_task [MailReader] {command : Command} {kind : CommandKind} {task : Task}
    (htask : command.task kind = .ok task) : kind.Does task := by
  cases kind with
  | branch =>
    obtain ⟨_, -, htask⟩ := exists_of_bind_eq_ok htask
    obtain ⟨test, -, ⟨⟩⟩ := exists_of_bind_eq_ok htask
    exact .branch test
  | elseBranch =>
    obtain ⟨_, -, htask⟩ := exists_of_bind_eq_ok htask
    obtain ⟨test, -, ⟨⟩⟩ := exists_of_bind_eq_ok htask
    exact .elseBranch test
  | otherwise =>
    obtain ⟨_, -, htask⟩ := exists_of_bind_eq_ok htask
    obtain ⟨_, -, ⟨⟩⟩ := exists_of_bind_eq_ok htask
    exact .otherwise
  | require =>
    obtain ⟨features, -, ⟨⟩⟩ := exists_of_bind_eq_ok htask
    exact .require features
  | stop =>
    obtain ⟨_, -, htask⟩ := exists_of_bind_eq_ok htask
    obtain ⟨_, -, ⟨⟩⟩ := exists_of_bind_eq_ok htask
    exact .stop
  | keep =>
    obtain ⟨_, -, htask⟩ := exists_of_bind_eq_ok htask
    obtain ⟨_, -, ⟨⟩⟩ := exists_of_bind_eq_ok htask
    exact .keep
  | discard =>
    obtain ⟨_, -, htask⟩ := exists_of_bind_eq_ok htask
    obtain ⟨_, -, ⟨⟩⟩ := exists_of_bind_eq_ok htask
    exact .discard
  | fileinto =>
    obtain ⟨folder, -, ⟨⟩⟩ := exists_of_bind_eq_ok htask
    exact .fileinto folder
  | redirect =>
    obtain ⟨address, -, ⟨⟩⟩ := exists_of_bind_eq_ok htask
    exact .redirect address
  | reject =>
    obtain ⟨text, -, ⟨⟩⟩ := exists_of_bind_eq_ok htask
    exact .reject text
  | vacation =>
    obtain ⟨reply, -, ⟨⟩⟩ := exists_of_bind_eq_ok htask
    exact .vacation reply
  | log =>
    obtain ⟨⟨level, text⟩, -, ⟨⟩⟩ := exists_of_bind_eq_ok htask
    exact .log level text

namespace Eval

variable {α β : Type} {change : Session → Session → Prop}

/-- A step changes the state as the relation allows, whatever its result is. -/
def Within (change : Session → Session → Prop) (step : Eval α) : Prop :=
  ∀ session : Session, change session (step.apply session).2

/-- Two steps one after the other stay within a change that can be made twice in a row. -/
theorem Within.bind_of_trans {step : Eval α} {next : α → Eval β} (hstep : step.Within change)
    (hnext : ∀ value, (next value).Within change)
    (htrans : ∀ {first second third}, change first second → change second third →
      change first third) : (step >>= next).Within change := by
  intro session
  have hfirst := hstep session
  rw [apply_bind]
  generalize step.apply session = done at hfirst ⊢
  obtain ⟨_ | value, after⟩ := done
  · exact hfirst
  · exact htrans hfirst (hnext value after)

/-- Counting a step stays within a change that allows for it. -/
theorem within_tick_of_counted (hcounted : ∀ session, change session session.counted)
    (environment : Environment) (name : String) (line : Nat) :
    (tick environment name line).Within change := by
  intro session
  rw [apply_tick]
  cases environment.exceeded? (session.steps + 1) <;> exact hcounted session

/-- What tests do to the state is to count steps and to leave events about their results. -/
theorem testPair_within (hrefl : ∀ session, change session session)
    (htrans : ∀ {first second third}, change first second → change second third →
      change first third)
    (hcounted : ∀ session, change session session.counted)
    (hdone : ∀ session name line result,
      change session (session.noted (.testDone name line result)))
    (environment : Environment) :
    TestPair environment environment fun step _ => step.Within change where
  result _ := hrefl
  bind hstep hnext := hstep.bind_of_trans hnext htrans
  registries := rfl
  mail := rfl
  outcome _ := hrefl
  tick := within_tick_of_counted hcounted environment
  testDone name line result session := hdone session name line result

variable (h : StepRelation change)
include h

/-- A value that is given back changes nothing. -/
theorem within_pure (value : α) : (pure value : Eval α).Within change :=
  h.refl

/-- Two steps one after the other stay within a change if both do. -/
theorem Within.bind {step : Eval α} {next : α → Eval β} (hstep : step.Within change)
    (hnext : ∀ value, (next value).Within change) : (step >>= next).Within change :=
  hstep.bind_of_trans hnext h.trans

/-- Staying within a change is closed under all that an evaluation of tests is made of. -/
theorem closed_within : Closed fun step => step.Within change where
  result := within_pure h
  bind := Within.bind h

end Eval

section

variable {change : Session → Session → Prop} (h : StepRelation change) (environment : Environment)
include h

namespace Test

/-- A test stays within the change. -/
theorem evaluate_within [MailReader] (test : Test) : (test.evaluate environment).Within change :=
  test.evaluate_pair (Eval.testPair_within h.refl h.trans h.counted
    (fun session name line result => h.noted session (.testDone name line result) rfl) environment)

end Test

/-- A branch remembers the result of its test as the last thing it does. -/
theorem runBranch_within [MailReader] (test : Test) {block : Eval Flow}
    (hblock : block.Within change) (session : Session) :
    match (runBranch environment test block).apply session with
    | (.error _, after) => change session after
    | (.ok _, after) =>
      ∃ before result, change session before ∧ after = before.recorded result := by
  have htest := test.evaluate_within h environment session
  rw [apply_runBranch]
  generalize (test.evaluate environment).apply session = tested at htest ⊢
  obtain ⟨fault | _ | _, middle⟩ := tested
  · exact htest
  · exact ⟨middle, false, htest, rfl⟩
  · have hinner := h.trans htest (hblock middle)
    dsimp only
    generalize block.apply middle = done at hinner ⊢
    obtain ⟨fault | flow, after⟩ := done
    · exact hinner
    · exact ⟨after, true, hinner, rfl⟩

/-- A branch stays within the change, also once it has been committed. -/
theorem Task.runBranch_commit_within [MailReader] (test : Test) {block : Eval Flow}
    (hblock : block.Within change) (session : Session) :
    match (runBranch environment test block).apply session with
    | (.error _, after) => change session after
    | (.ok _, after) => change session (CommandKind.branch.commit after) := by
  have hrun := runBranch_within h environment test hblock session
  generalize (runBranch environment test block).apply session = done at hrun ⊢
  obtain ⟨fault | flow, after⟩ := done
  · exact hrun
  · obtain ⟨before, result, hbefore, rfl⟩ := hrun
    exact h.trans hbefore (h.branched before result)

/-- An action is only taken for a message that has not been rejected. -/
theorem Task.act_within {action : Action} {session : Session}
    (hplace : (if session.command.rejected then some CommandCause.messageRejected else none) = none)
    (line : Nat) :
    change session (CommandKind.keep.commit (session.act line action)) := by
  refine h.acted session line action ?_
  cases hrejected : session.command.rejected with
  | false => rfl
  | true =>
    rw [hrejected] at hplace
    cases hplace

variable [MailReader]

/-- What an admitted command does and then commits is a change that the relation allows. -/
theorem Task.perform_within {kind : CommandKind} {task : Task} (hdoes : kind.Does task) (line : Nat)
    {block : Eval Flow} (hblock : block.Within change) (session : Session)
    (hplace : kind.objection? session.command session.condition = none) :
    match (task.perform environment line block).apply session with
    | (.error _, after) => change session after
    | (.ok _, after) => change session (kind.commit after) := by
  cases hdoes with
  | branch test => exact runBranch_commit_within h environment test hblock session
  | elseBranch test =>
    rw [apply_elseBranch]
    by_cases hrunnable : session.condition.isElseRunnable = true
    · rw [if_pos hrunnable]
      exact runBranch_commit_within h environment test hblock session
    · rw [if_neg hrunnable]
      exact h.passed session
  | otherwise =>
    have hinner := hblock session
    rw [apply_otherwise]
    by_cases hrunnable : session.condition.isElseRunnable = true
    · rw [if_pos hrunnable]
      generalize block.apply session = done at hinner ⊢
      obtain ⟨fault | flow, after⟩ := done
      · exact hinner
      · exact h.trans hinner (h.closed after)
    · rw [if_neg hrunnable]
      exact h.closed session
  | require features =>
    rw [apply_require]
    cases requireFeatures environment.registries features with
    | error fault => exact h.refl session
    | ok _ =>
      refine h.required session ?_
      cases hprolog : session.command.inProlog with
      | true => rfl
      | false =>
        rw [CommandKind.objection?, hprolog] at hplace
        cases hplace
  | stop => exact h.closed session
  | discard => exact h.discarded session line
  | log level text => exact h.trans (h.noted session _ rfl) (h.closed _)
  | keep | fileinto | redirect | reject | vacation => exact act_within h hplace line

namespace Command

/-- A command stays within the change. -/
theorem run_within (command : Command) : (command.run environment).Within change := by
  induction command using Command.induction with
  | step command ih =>
    have hblock : (runBlock environment command.block).Within change := by
      intro session
      cases hcommands : command.block with
      | none =>
        rw [apply_runBlock_none]
        exact h.refl session
      | some commands =>
        rw [apply_runBlock_some]
        have hinner : ∀ inner ∈ commands, (inner.run environment).Within change :=
          fun inner hinner => ih inner (by rw [Command.inner, hcommands]; exact hinner)
        exact h.trans (h.entered session)
          (runAll_closed (Eval.closed_within h) hinner session.enterBlock)
    intro session
    rw [apply_run]
    cases haccept : command.accept environment session with
    | error fault => exact h.counted session
    | ok accepted =>
      obtain ⟨kind, task⟩ := accepted
      have hready : change session (command.ready session) :=
        h.trans (h.counted session) (h.noted session.counted _ rfl)
      -- What the state let through is what the relation is asked about, so the place comes along.
      obtain ⟨-, htask, hplace⟩ := task_of_accept haccept
      have hperform := Task.perform_within h environment (does_of_task htask) command.line hblock
        (command.ready session) hplace
      dsimp only
      generalize (task.perform environment _ _).apply _ = done at hperform ⊢
      obtain ⟨fault | flow, after⟩ := done
      · exact h.trans hready hperform
      · exact h.trans hready hperform

/-- Commands change the state as the relation allows, however they end. -/
theorem runAll_change (commands : List Command) : (runAll environment commands).Within change :=
  runAll_closed (Eval.closed_within h) fun command _ => command.run_within h environment

end Command

end

/-- An evaluation ends as the commands of its script do, and leaves an event about that. -/
theorem Engine.evaluate_eq [MailReader] (engine : Engine) (script : Script) (mail : Message)
    (actions : List Action) :
    engine.evaluate script mail actions =
      match (Command.runAll (engine.environment mail) script).apply
          ((Session.start actions).noted (.started mail.size)) with
      | (.error fault, after) => (.error fault, after.noted (.failed fault))
      | (.ok _, after) =>
        (.ok (), after.kept.noted (.finished after.kept.actions.length after.kept.steps)) := by
  have hmail : (engine.environment mail).mail = mail := rfl
  rw [evaluate, apply_walk, hmail]
  obtain ⟨fault | flow, after⟩ := (Command.runAll (engine.environment mail) script).apply
    ((Session.start actions).noted (.started mail.size)) <;> rfl

/-- The state in which the first command of a script runs. -/
def Session.opened (mail : Message) (actions : List Action) : Session :=
  (start actions).noted (.started mail.size)

namespace Engine

/-- How an evaluation ends, given how the commands of its script have ended. -/
def ending : Except Fault Flow × Session → Except Fault Unit × Session
  | (.error fault, after) => (.error fault, after.noted (.failed fault))
  | (.ok _, after) =>
    (.ok (), after.kept.noted (.finished after.kept.actions.length after.kept.steps))

/-- An evaluation is the run of all commands with the ending behind it. -/
theorem evaluate_eq_ending [MailReader] (engine : Engine) (script : Script) (mail : Message)
    (actions : List Action) :
    engine.evaluate script mail actions =
      ending ((Command.runAll (engine.environment mail) script).apply (.opened mail actions)) := by
  rw [evaluate_eq, Session.opened]
  generalize (Command.runAll (engine.environment mail) script).apply _ = done
  obtain ⟨fault | flow, after⟩ := done <;> rfl

/-- The ending takes no step. -/
theorem steps_ending (done : Except Fault Flow × Session) :
    (ending done).2.steps = done.2.steps := by
  obtain ⟨fault | flow, after⟩ := done
  · rfl
  · change after.kept.steps = after.steps
    rw [Session.kept]
    split <;> rfl

end Engine

end MailFilter
