import MailFilter.Proofs.Evaluation.Run
import MailFilter.Proofs.Script.Induction

/-!
# Two evaluations side by side

The same script can be evaluated in two environments that differ in their bound on steps only, or
from two states. If some relation holds between the elementary steps of the two evaluations, and
between sequences as soon as it holds between their parts, it holds between the whole evaluations.
The walk over the tree of a script is made once for all such relations.
-/

namespace MailFilter

/-- The changes that an evaluation makes to the state, the count of steps apart. -/
inductive Session.Update : (Session → Session) → Prop where
  | noted (event : Event) : Update fun session => session.noted event
  | entered : Update Session.enterBlock
  | recorded (result : Bool) :
    Update fun session => { session with condition := session.condition.record result }
  | revoked : Update fun session => { session with command.implicitKeep := false }
  | acted (line : Nat) (action : Action) : Update fun session => session.act line action
  | committed (kind : CommandKind) : Update kind.commit

namespace Eval

/-- A relation between the steps that tests are made of, in two environments that differ in the
bound on steps at most. -/
structure TestPair (first second : Environment) (R : ∀ {α : Type}, Eval α → Eval α → Prop) : Prop
    extends ClosedPair R where
  registries : first.registries = second.registries
  mail : first.mail = second.mail
  outcome : ∀ {α : Type} (result : Except Fault α), R (ofExcept result) (ofExcept result)
  tick : ∀ name line, R (tick first name line) (tick second name line)
  testDone : ∀ name line result,
    R (note (.testDone name line result)) (note (.testDone name line result))

/-- A relation between the steps that commands are made of. What a command reads of the state is
never more than the two parts that its kind may object to. -/
structure CommandPair (first second : Environment)
    (R : ∀ {α : Type}, Eval α → Eval α → Prop) : Prop extends TestPair first second R where
  update : ∀ {change : Session → Session}, Session.Update change → R (update change) (update change)
  get : ∀ {α : Type} {next further : Session → Eval α},
    (∀ session other : Session, session.command = other.command →
      session.condition = other.condition → R (next session) (further other)) →
    R (get >>= next) (get >>= further)

end Eval

variable {first second : Environment} {R : ∀ {α : Type}, Eval α → Eval α → Prop}

namespace Test

/-- A note of the result keeps the relation. -/
theorem testDone_pair (h : Eval.TestPair first second R) {step other : Eval Bool}
    (hstep : R step other) (name : String) (line : Nat) :
    R (do let result ← step; Eval.note (.testDone name line result); return result)
      (do let result ← other; Eval.note (.testDone name line result); return result) :=
  h.bind hstep fun result => h.bind (h.testDone name line result) fun _ => h.result result

/-- A test is related in the two environments, since all that it is made of is. -/
theorem evaluate_pair [MailReader] (h : Eval.TestPair first second R) (test : Test) :
    R (test.evaluate first) (test.evaluate second) := by
  obtain ⟨registries, bound, mail⟩ := first
  obtain ⟨_, other, _⟩ := second
  obtain rfl : registries = _ := h.registries
  obtain rfl : mail = _ := h.mail
  induction test using Test.induction with
  | step test ih =>
    obtain ⟨name, arguments, tests, line⟩ := test
    rw [evaluate, evaluate]
    refine h.bind (h.tick name line) fun _ => h.bind (h.outcome _) fun kind => ?_
    have hcombinator := h.outcome
      (.error (combinatorFault ⟨name, arguments, tests, line⟩) : Except Fault Bool)
    cases kind with
    | not =>
      dsimp only
      split
      · have hinner := ih _ List.mem_cons_self
        rw [map_eq_pure_bind, map_eq_pure_bind]
        exact testDone_pair h (h.bind hinner fun result => h.result (!result)) name line
      · exact testDone_pair h hcombinator name line
    | allof =>
      dsimp only
      split
      · exact testDone_pair h (evaluateAll_pair h.toClosedPair _ _ ih) name line
      · exact testDone_pair h hcombinator name line
    | anyof =>
      dsimp only
      split
      · exact testDone_pair h (evaluateAny_pair h.toClosedPair _ _ ih) name line
      · exact testDone_pair h hcombinator name line
    | _ => exact testDone_pair h (h.outcome _) name line

end Test

variable (h : Eval.CommandPair first second R)
include h

variable [MailReader]

/-- What comes before a command is related in the two environments. -/
theorem Command.prepare_pair (command : Command) :
    R (prepare first command) (prepare second command) := by
  rw [prepare, prepare, h.registries]
  refine h.bind (h.tick command.name command.line) fun _ => ?_
  refine h.bind (h.outcome _) fun kind => ?_
  refine h.get fun session other hcommand hcondition => ?_
  have hready := h.bind (h.outcome (command.task kind)) fun task =>
    h.bind (h.update (.noted (.commandReady command.name command.line))) fun _ =>
      h.result (kind, task)
  rw [hcommand, hcondition]
  cases kind.objection? other.command other.condition with
  | some cause => exact h.bind (h.outcome (.error _)) fun _ => hready
  | none => exact hready

/-- A branch is related in the two environments if its block is. -/
theorem runBranch_pair (test : Test) {block otherBlock : Eval Flow} (hblock : R block otherBlock) :
    R (runBranch first test block) (runBranch second test otherBlock) := by
  refine h.bind (test.evaluate_pair h.toTestPair) fun result => ?_
  have hrecord := fun flow : Flow => h.bind (h.update (.recorded result)) fun _ => h.result flow
  cases result with
  | false => exact h.bind (h.result Flow.continue) hrecord
  | true => exact h.bind hblock hrecord

/-- A task is related in the two environments if the block of its command is. -/
theorem Task.perform_pair (task : Task) (line : Nat) {block otherBlock : Eval Flow}
    (hblock : R block otherBlock) :
    R (task.perform first line block) (task.perform second line otherBlock) := by
  cases task with
  | branch test => exact runBranch_pair h test hblock
  | elseBranch test =>
    refine h.get fun session other _ hcondition => ?_
    rw [hcondition]
    split
    · exact runBranch_pair h test hblock
    · exact h.result Flow.continue
  | otherwise =>
    refine h.get fun session other _ hcondition => ?_
    rw [hcondition]
    split
    · exact hblock
    · exact h.result Flow.continue
  | require features =>
    rw [perform, perform, h.registries]
    exact h.bind (h.outcome _) fun _ => h.result Flow.continue
  | stop => exact h.result Flow.stop
  | discard =>
    exact h.bind (h.update (.noted _)) fun _ => h.bind (h.update .revoked)
      fun _ => h.result Flow.continue
  | act action => exact h.bind (h.update (.acted line action)) fun _ => h.result Flow.continue
  | log level text => exact h.bind (h.update (.noted _)) fun _ => h.result Flow.continue

namespace Command

/-- A command is related in the two environments. -/
theorem run_pair (command : Command) : R (command.run first) (command.run second) := by
  induction command using Command.induction with
  | step command ih =>
    obtain ⟨name, arguments, tests, block, line⟩ := command
    have hblock : R (runBlock first block) (runBlock second block) := by
      cases block with
      | none => exact h.result Flow.continue
      | some commands =>
        rw [runBlock, runBlock]
        exact h.bind (h.update .entered) fun _ => runAll_pair h.toClosedPair first second ih
    rw [run, run]
    refine h.bind (prepare_pair h _) fun prepared => ?_
    obtain ⟨kind, task⟩ := prepared
    exact h.bind (task.perform_pair h line hblock) fun flow =>
      h.bind (h.update (.committed kind)) fun _ => h.result flow

/-- Two evaluations of the same commands are related. -/
theorem runAll_related (commands : List Command) :
    R (runAll first commands) (runAll second commands) :=
  runAll_pair h.toClosedPair first second fun command _ => command.run_pair h

end Command

end MailFilter
