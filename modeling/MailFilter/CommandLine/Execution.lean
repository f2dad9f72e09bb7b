import MailFilter.CommandLine.Help
import MailFilter.Engine
import MailFilter.Files.Load
import MailFilter.Store.Folder

/-!
# Carrying out requests

A request is carried out on a file system, whichever it is. What it would print and what it would
log are part of its report.
-/

namespace MailFilter.CommandLine

/-- What became of a request. -/
structure Report where
  output : String
  events : List Event
  result : Except Fault Unit

/-- An action as a line of output. -/
def describe : Action → String
  | .keep => "keep"
  | .fileInto folder => "fileinto \"" ++ folder ++ "\""
  | .redirect address => "redirect \"" ++ address ++ "\""
  | .reject text => "reject \"" ++ text ++ "\""
  | .vacation reply => "vacation :days " ++ toString reply.days ++ " \"" ++ reply.reason ++ "\""

/-- The output for some actions. -/
def showActions (json : Bool) (actions : List Action) : String :=
  if json then lines [(Json.array (actions.map Action.toJson)).pretty]
  else lines (actions.map describe)

/-- The recipients that a job delivers to. -/
def Job.recipients (job : Job) : List String :=
  if job.mailboxes = [] then job.recipient.toList else job.mailboxes

variable {m : Type → Type} [Monad m] [MailReader]

/-- The file of the user's own settings, in the directory for those of all programs. -/
def settingsFile (directory : String) : String :=
  Path.join (Path.join directory programName) "config.json"

/-- The engine that a request asks for. -/
def loadEngine (files : FileSystem m) (asked own : Option String) : ExceptT Fault m Engine := do
  let settings ← files.findSettings asked own
  Engine.ofSettings settings []

/-- A script from a file, checked. -/
def loadScript (files : FileSystem m) (engine : Engine) (path : String) :
    ExceptT Fault m Script := do
  let text ← files.loadScript path
  engine.parse text

/-- What a job works on. -/
def Job.load (files : FileSystem m) (engine : Engine) (job : Job) :
    ExceptT Fault m (Script × Message) := do
  let script ← loadScript files engine job.script
  let message ← files.loadMessage job.message job.sender job.recipient
  return (script, message)

/-- Runs a script on a message, shows the actions, and carries them out if that is asked for. The
actions are shown even if carrying them out fails. -/
def Job.execute (files : FileSystem m) (engine : Engine) (job : Job) : m Report := do
  match ← (job.load files engine).run with
  | .error fault => return ⟨"", [], .error fault⟩
  | .ok (script, message) =>
    match engine.evaluate script message [] with
    | (.error fault, session) => return ⟨"", session.events, .error fault⟩
    | (.ok (), session) =>
      let output := showActions job.json session.actions
      match job.directory with
      | none => return ⟨output, session.events, .ok ()⟩
      | some root =>
        let delivery := Delivery.ofMessage job.sender job.recipients message
        let (result, transit) ← dispatch (FolderStore.store files root) engine.inbox
          ⟨delivery, session.events⟩ session.actions
        return ⟨output, transit.events, result⟩

/-- Does a task. -/
def Task.execute (files : FileSystem m) (engine : Engine) : Task → m Report
  | .check path => do
    match ← (loadScript files engine path).run with
    | .error fault => return ⟨"", [], .error fault⟩
    | .ok _ => return ⟨lines [path ++ ": ok"], [], .ok ()⟩
  | .run job => job.execute files engine
  | .extensions => return ⟨lines engine.extensions, [], .ok ()⟩

/-- Carries out a request. The user's own settings are in the file `own`, if there is one. -/
def Request.execute (files : FileSystem m) (own : Option String) (request : Request) :
    m Report := do
  match ← (loadEngine files request.settings own).run with
  | .error fault => return ⟨"", [], .error fault⟩
  | .ok engine => request.task.execute files engine

/-- Whether events of a weight are logged. Each step of verbosity adds one more. -/
def isLogged (verbosity : Nat) : EventLevel → Bool
  | .trace => 2 ≤ verbosity
  | .debug => 1 ≤ verbosity
  | .info | .warn | .error => true

/-- The lines of the log: the events, and the failure in the end. -/
def Report.log (report : Report) (verbosity : Nat) : List String :=
  let events := (report.events.filter fun event => isLogged verbosity event.level).map fun event =>
    event.level.text ++ " " ++ (Json.object event.fields).compact
  match report.result with
  | .ok () => events
  | .error fault => events ++ [EventLevel.error.text ++ " " ++ fault.message]

/-- The exit code of a program that has done what it was asked for, or failed to. -/
def Report.exitCode (report : Report) : Nat :=
  match report.result with
  | .ok () => 0
  | .error _ => 1

end MailFilter.CommandLine
