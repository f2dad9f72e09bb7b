import MailFilter.Delivery.Dispatch
import MailFilter.Evaluation.Commands
import MailFilter.Script.OfNode
import MailFilter.Script.Validation
import MailFilter.Settings

/-!
# The engine

An engine owns the registries and the few settings that matter at run time, and does not change once
it is built: it reads and checks scripts, evaluates them against messages, and dispatches what comes
of that.
-/

namespace MailFilter

/-- A filter ready for use. -/
structure Engine where
  registries : Registries
  maxSteps : Option Nat
  inbox : String

/-- A name bound to an implementation in addition to the settings. -/
inductive Registration where
  | command (name : String) (kind : CommandKind)
  | test (name : String) (kind : TestKind)
  | comparator (name : String) (kind : Comparator)

/-- The registries after one more name has been bound. -/
def Registries.register (registries : Registries) : Registration → Registries
  | .command name kind => { registries with commands := registries.commands.register name kind }
  | .test name kind => { registries with tests := registries.tests.register name kind }
  | .comparator name kind =>
    { registries with comparators := registries.comparators.register name kind }

namespace Engine

variable [MailReader]

/-- The engine of every implementation under its own name. -/
def default : Engine := ⟨.builtin, none, Settings.defaultInbox⟩

/-- The engine that settings and further registrations describe. -/
def ofSettings (settings : Settings) (registrations : List Registration) : Except Fault Engine := do
  let registries ← settings.bindings.registries
  return ⟨registrations.foldl Registries.register registries, settings.maxSteps, settings.inbox⟩

/-- Reads a script and checks it. -/
def parse (engine : Engine) (text : String) : Except Fault Script := do
  let script ← Script.parse text
  Script.validate script engine.registries
  return script

/-- What an evaluation of a message cannot change. -/
def environment (engine : Engine) (mail : Message) : Environment :=
  ⟨engine.registries, engine.maxSteps, mail⟩

/-- Runs the commands of a script, and keeps the message if no command has decided otherwise. -/
def walk (environment : Environment) (script : Script) : Eval Unit := do
  Eval.note (.started environment.mail.size)
  let _ ← Command.runAll environment script
  if (← get).command.implicitKeep then
    Eval.note .implicitKeep
    Eval.update fun session => { session with actions := session.actions ++ [.keep] }
  let session ← get
  Eval.note (.finished session.actions.length session.steps)

/-- Evaluates a script against a message that some actions have been decided for already. A failure
leaves the actions decided before it in place. -/
def evaluate (engine : Engine) (script : Script) (mail : Message) (actions : List Action) :
    Except Fault Unit × Session :=
  match (walk (engine.environment mail) script).apply (.start actions) with
  | (.ok (), session) => (.ok (), session)
  | (.error fault, session) =>
    (.error fault, { session with events := session.events ++ [.failed fault] })

/-- What a run leaves behind: how the evaluation ended, and the delivery after dispatch. -/
structure Outcome where
  result : Except Fault Unit
  session : Session
  transit : Transit

/-- Evaluates a script against a message that some actions have been decided for already, and
dispatches all its actions for a delivery. If the evaluation fails, nothing is dispatched. -/
def runFrom {m : Type → Type} [Monad m] (engine : Engine) (store : MailStore m) (script : Script)
    (mail : Message) (actions : List Action) (delivery : Delivery) : m Outcome :=
  match engine.evaluate script mail actions with
  | (.error fault, session) => return ⟨.error fault, session, ⟨delivery, session.events⟩⟩
  | (.ok (), session) => do
    let (result, transit) ← dispatch store engine.inbox ⟨delivery, session.events⟩ session.actions
    return ⟨result, session, transit⟩

/-- Evaluates a script against a message and dispatches the actions for a delivery. -/
def run {m : Type → Type} [Monad m] (engine : Engine) (store : MailStore m) (script : Script)
    (mail : Message) (delivery : Delivery) : m Outcome :=
  engine.runFrom store script mail [] delivery

/-- The features that a script may require. -/
def extensions (engine : Engine) : List String :=
  engine.registries.extensions

end Engine

end MailFilter
