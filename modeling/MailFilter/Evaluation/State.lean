import MailFilter.Action
import MailFilter.Evaluation.Event
import MailFilter.Mail.Message
import MailFilter.Registry

/-!
# The state of an evaluation

An evaluation carries a small state: whether only requirements have run, whether the message has
been rejected or is still to be kept by default, whether anything has been done, and how the last
`if` came out for the branches that may continue it. Blocks run to their end before the command
around them commits its own change, so one flat copy is enough.

A failure ends a command but undoes nothing: the state of an evaluation is what the steps before the
failure have made it.
-/

namespace MailFilter

/-- What commands have done to the message so far. -/
structure CommandState where
  /-- Nothing but requirements has run. -/
  inProlog : Bool
  rejected : Bool
  /-- The message is to be kept although no command said so. -/
  implicitKeep : Bool
  hasActions : Bool
  deriving DecidableEq, Inhabited

/-- The state before the first command. -/
def CommandState.initial : CommandState := ⟨true, false, true, false⟩

/-- How the chain of branches at hand stands. -/
structure ConditionState where
  /-- The command before was a branch, so that another may continue it. -/
  elseAllowed : Bool
  /-- The last test of the chain held. -/
  lastTestResult : Bool
  deriving DecidableEq, Inhabited

namespace ConditionState

/-- No chain. -/
def initial : ConditionState := ⟨false, false⟩

/-- The chain after a branch whose test came out as given. -/
def record (_condition : ConditionState) (result : Bool) : ConditionState := ⟨true, result⟩

/-- Whether a further branch of the chain may run: none before it did. -/
def isElseRunnable (condition : ConditionState) : Bool :=
  condition.elseAllowed && !condition.lastTestResult

end ConditionState

/-- What an evaluation cannot change: the names it may use, its bound on steps, the message. -/
structure Environment where
  registries : Registries
  maxSteps : Option Nat
  mail : Message

/-- What an evaluation changes. Actions and events are in the order in which they came. -/
structure Session where
  steps : Nat
  command : CommandState
  condition : ConditionState
  actions : List Action
  events : List Event

/-- The state of an evaluation that begins with some actions already taken. -/
def Session.start (actions : List Action) : Session :=
  ⟨0, .initial, .initial, actions, []⟩

/-- A step of an evaluation, which may fail and keeps its changes if it does. -/
abbrev Eval (α : Type) := ExceptT Fault (StateM Session) α

namespace Eval

variable {α β : Type}

/-- The outcome of a step and the state behind it. -/
def apply (step : Eval α) (session : Session) : Except Fault α × Session :=
  step.run.run session

/-- A result that needs no state. -/
def ofExcept (result : Except Fault α) : Eval α :=
  ExceptT.mk (pure result)

/-- Changes the state. -/
def update (change : Session → Session) : Eval Unit :=
  modify change

/-- Leaves an event in the trace. -/
def note (event : Event) : Eval Unit :=
  update fun session => { session with events := session.events ++ [event] }

/-- Counts one more step of the named command or test, and fails if that is one too many. -/
def tick (environment : Environment) (name : String) (line : Nat) : Eval Unit := do
  update fun session => { session with steps := session.steps + 1 }
  match environment.maxSteps with
  | some limit =>
    if limit < (← get).steps then throw (.command name line (.budgetExceeded limit))
  | none => pure ()

/-- A value that is given back leaves the session as it was. -/
@[simp] theorem apply_pure (value : α) (session : Session) :
    (pure value : Eval α).apply session = (.ok value, session) := rfl

/-- A fault leaves the session as it was. -/
@[simp] theorem apply_throw (fault : Fault) (session : Session) :
    (throw fault : Eval α).apply session = (.error fault, session) := rfl

/-- A result that is known leaves the session as it was. -/
@[simp] theorem apply_ofExcept (result : Except Fault α) (session : Session) :
    (ofExcept result).apply session = (result, session) := rfl

/-- A change is all that an update does. -/
@[simp] theorem apply_update (change : Session → Session) (session : Session) :
    (update change).apply session = (.ok (), change session) := rfl

/-- The session can be looked at without a change. -/
@[simp] theorem apply_get (session : Session) :
    (get : Eval Session).apply session = (.ok session, session) := rfl

/-- A failure ends a sequence of steps and keeps the state it left. -/
theorem apply_bind (step : Eval α) (next : α → Eval β) (session : Session) :
    (step >>= next).apply session =
      match step.apply session with
      | (.ok value, session) => (next value).apply session
      | (.error fault, session) => (.error fault, session) := by
  change ExceptT.bindCont next (step.apply session).1 (step.apply session).2 = _
  rcases step.apply session with ⟨_ | _, _⟩ <;> rfl

end Eval

end MailFilter
