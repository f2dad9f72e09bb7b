import MailFilter.Proofs.Evaluation.Changes

/-!
# Actions that were there before

An evaluation appends to the actions of a message and never looks at them. Whatever stands in front
stays there, and the evaluation takes the course that it takes on a message without actions. Nothing
else is handed on from one evaluation to the next, so the same script does the same each time.
-/

namespace MailFilter

/-- A state with some earlier actions in front of its own. -/
def Session.behind (earlier : List Action) (session : Session) : Session :=
  { session with actions := earlier ++ session.actions }

/-- Whatever commands change, they change behind the earlier actions. -/
theorem Session.Update.behind {change : Session → Session} (h : Update change)
    (earlier : List Action) (session : Session) :
    change (session.behind earlier) = (change session).behind earlier := by
  cases h with
  | acted line action =>
    have happend : earlier ++ session.actions ++ [action] =
        earlier ++ (session.actions ++ [action]) := List.append_assoc ..
    simp only [act, Session.behind, happend]
  | committed kind => cases kind <;> rfl
  | noted | entered | recorded | revoked => rfl

/-- What the first step does from a state the second does from it behind some earlier actions, with
the same result. -/
def Eval.Follows {α : Type} (earlier : List Action) (step other : Eval α) : Prop :=
  ∀ session : Session,
    other.apply (session.behind earlier) =
      ((step.apply session).1, (step.apply session).2.behind earlier)

namespace Eval

variable {α β : Type} {earlier : List Action}

/-- A result that is known does not depend on earlier actions. -/
theorem follows_ofExcept (result : Except Fault α) :
    Follows earlier (ofExcept result) (ofExcept result) :=
  fun _ => rfl

/-- Two steps one after the other do not depend on earlier actions if neither does. -/
theorem Follows.bind {step other : Eval α} {next further : α → Eval β}
    (hstep : Follows earlier step other)
    (hnext : ∀ value, Follows earlier (next value) (further value)) :
    Follows earlier (step >>= next) (other >>= further) := by
  intro session
  rw [apply_bind, apply_bind, hstep session]
  obtain ⟨fault | value, after⟩ := step.apply session
  · rfl
  · exact hnext value after

/-- An update does not depend on earlier actions. -/
theorem follows_update {change : Session → Session} (h : Session.Update change) :
    Follows earlier (update change) (update change) := by
  intro session
  rw [apply_update, apply_update, h.behind]

/-- The count of steps is that of both states. -/
theorem follows_tick (environment : Environment) (name : String) (line : Nat) :
    Follows earlier (tick environment name line) (tick environment name line) := by
  intro session
  have hsteps : (session.behind earlier).steps = session.steps := rfl
  rw [apply_tick, apply_tick, hsteps]
  cases environment.exceeded? (session.steps + 1) <;> rfl

/-- No command depends on earlier actions. -/
theorem commandPair_follows (environment : Environment) (earlier : List Action) :
    CommandPair environment environment fun step other => Follows earlier step other where
  result value := follows_ofExcept (.ok value)
  bind := Follows.bind
  registries := rfl
  mail := rfl
  outcome := follows_ofExcept
  tick := follows_tick environment
  testDone name line result := follows_update (.noted (.testDone name line result))
  update := follows_update
  get hnext := fun session => hnext session (session.behind earlier) rfl rfl session

end Eval

namespace Engine

/-- The message is kept at the end behind the earlier actions as well. -/
theorem ending_behind (earlier : List Action) (done : Except Fault Flow × Session) :
    (ending (done.1, done.2.behind earlier)).1 = (ending done).1 ∧
      (ending (done.1, done.2.behind earlier)).2.actions = earlier ++ (ending done).2.actions := by
  obtain ⟨fault | flow, after⟩ := done
  · exact ⟨rfl, rfl⟩
  · refine ⟨rfl, ?_⟩
    change (after.behind earlier).kept.actions = earlier ++ after.kept.actions
    have hcommand : (after.behind earlier).command = after.command := rfl
    have hactions : (after.behind earlier).actions = earlier ++ after.actions := rfl
    rw [Session.actions_kept, Session.actions_kept, hcommand, hactions]
    split
    · exact List.append_assoc ..
    · rfl

/-- An evaluation comes to the same result behind some earlier actions, and appends the same. -/
theorem evaluate_behind [MailReader] (engine : Engine) (script : Script) (mail : Message)
    (earlier : List Action) :
    (engine.evaluate script mail earlier).1 = (engine.evaluate script mail []).1 ∧
      (engine.evaluate script mail earlier).2.actions =
        earlier ++ (engine.evaluate script mail []).2.actions := by
  have hopened : Session.opened mail earlier = (Session.opened mail []).behind earlier := by
    simp [Session.opened, Session.start, Session.noted, Session.behind]
  have hfollows := Command.runAll_related
    (Eval.commandPair_follows (engine.environment mail) earlier) script (.opened mail [])
  rw [evaluate_eq_ending, evaluate_eq_ending, hopened, hfollows]
  exact ending_behind earlier _

end Engine

/-- A message and the actions that have been decided for it. -/
structure Decided where
  message : Message
  actions : List Action

variable [MailReader]

namespace Engine

/-- Evaluates a script on a message that some actions have been decided for. -/
def evaluateOn (engine : Engine) (script : Script) (decided : Decided) :
    Except Fault Unit × Decided :=
  let (result, session) := engine.evaluate script decided.message decided.actions
  (result, { decided with actions := session.actions })

/-- Evaluates a script a number of times on the same message, and lists the results. -/
def evaluateTimes (engine : Engine) (script : Script) :
    Nat → Decided → List (Except Fault Unit) × Decided
  | 0, decided => ([], decided)
  | times + 1, decided =>
    let (result, once) := engine.evaluateOn script decided
    let (results, last) := engine.evaluateTimes script times once
    (result :: results, last)

/-- On a message that some actions have been decided for an evaluation comes to the result that it
has on the message alone, and appends what it appends there. The message itself stays as it is, so
each further evaluation of the script comes to that result and appends that again. -/
theorem evaluate_repeatable (engine : Engine) (script : Script) (decided : Decided) :
    let fresh := engine.evaluateOn script { decided with actions := [] }
    fresh.2.message = decided.message ∧
      engine.evaluateOn script decided =
        (fresh.1, { decided with actions := decided.actions ++ fresh.2.actions }) ∧
      ∀ times, engine.evaluateTimes script times decided =
        (List.replicate times fresh.1,
          { decided with
            actions := decided.actions ++ (List.replicate times fresh.2.actions).flatten }) := by
  intro fresh
  have honce : ∀ actions, engine.evaluateOn script { decided with actions := actions } =
      (fresh.1, { decided with actions := actions ++ fresh.2.actions }) := by
    intro actions
    obtain ⟨hresult, hactions⟩ := engine.evaluate_behind script decided.message actions
    simp only [evaluateOn, hresult, hactions, fresh]
  refine ⟨rfl, honce decided.actions, fun times => ?_⟩
  suffices h : ∀ actions, engine.evaluateTimes script times { decided with actions := actions } =
      (List.replicate times fresh.1,
        { decided with
          actions := actions ++ (List.replicate times fresh.2.actions).flatten }) from
    h decided.actions
  induction times with
  | zero =>
    intro actions
    simp [evaluateTimes]
  | succ times ih =>
    intro actions
    simp only [evaluateTimes, honce, ih, List.replicate_succ, List.flatten_cons, List.append_assoc]

end Engine

end MailFilter
