import MailFilter.Evaluation.Tests
import MailFilter.Evaluation.VacationArguments

/-!
# Commands

A command runs in five phases: its step is counted and its name looked up, the state has to admit
it, its arguments have to be right, it does its task, and last it commits the change of state that
its kind makes. The arguments are read once, into a `Task`, before anything is done; so a command
whose arguments are wrong changes nothing but the count of steps.
-/

namespace MailFilter

variable [MailReader]

/-- Whether the walk over a script goes on. -/
inductive Flow where
  | continue
  | stop
  deriving DecidableEq, Inhabited

/-- What a command with right arguments is to do. The block of a branch is the command's own. -/
inductive Task where
  | branch (test : Test)
  | elseBranch (test : Test)
  | otherwise
  | require (features : List String)
  | stop
  | discard
  | act (action : Action)
  | log (level : LogLevel) (text : String)

namespace Command

/-- A fault in the arguments of a command. -/
def argumentFault (command : Command) (cause : ArgumentCause) : Fault :=
  .arguments command.name command.line cause

/-- Refuses a block. -/
def takesNoBlock (command : Command) : Except Fault Unit :=
  if command.block.isSome then .error (command.argumentFault .blockRefused) else .ok ()

/-- Refuses tests. -/
def takesNoTests (command : Command) : Except Fault Unit :=
  if command.tests.isSome then .error (command.argumentFault .testRefused) else .ok ()

/-- Refuses arguments and tests. -/
def takesNoArguments (command : Command) : Except Fault Unit :=
  if command.arguments.isEmpty ∧ command.tests.isNone then .ok ()
  else .error (command.argumentFault .argumentsRefused)

/-- Wants a block. -/
def takesBlock (command : Command) : Except Fault Unit :=
  if command.block.isSome then .ok () else .error (command.argumentFault .blockExpected)

/-- The only test of a command that takes one. -/
def singleTest (command : Command) : Except Fault Test :=
  if command.arguments.isEmpty then
    match command.nested with
    | [test] => .ok test
    | tests => .error (command.argumentFault (.oneTestExpected tests.length))
  else .error (command.argumentFault .testExpected)

/-- The only argument of a command that takes a string. -/
def singleString (command : Command) : Except Fault String := do
  command.takesNoBlock
  command.takesNoTests
  match command.arguments with
  | [.string text] => return text
  | [other] => throw (command.argumentFault (.stringExpected other))
  | arguments => throw (command.argumentFault (.oneStringExpected arguments.length))

/-- The features that a requirement lists. -/
def features (command : Command) : Except Fault (List String) := do
  command.takesNoBlock
  command.takesNoTests
  match command.arguments with
  | [.string feature] => return [feature]
  | [.strings features] => return features
  | _ => throw (command.argumentFault .featuresExpected)

/-- The address that a redirection names, exactly as it was written. -/
def redirection (command : Command) : Except Fault String := do
  let address ← command.singleString
  match Address.ofMailbox address with
  | .ok _ => return address
  | .error fault => throw (command.argumentFault (.invalidAddress address fault))

/-- The reply that a `vacation` command describes. -/
def vacation (command : Command) : Except Fault Vacation := do
  command.takesNoBlock
  command.takesNoTests
  (Vacation.plain.ofArguments command.arguments).mapError command.argumentFault

/-- The level and the text that a `log` command writes. -/
def logLine (command : Command) : Except Fault (LogLevel × String) := do
  command.takesNoBlock
  command.takesNoTests
  match command.arguments with
  | [.string text] => return (.info, text)
  | [.tag tag, .string text] =>
    match LogLevel.ofTag? tag with
    | some level => return (level, text)
    | none => throw (command.argumentFault (.unknownLogLevel tag))
  | _ => throw (command.argumentFault .logMessageExpected)

/-- What a command of a given kind is to do, if its arguments are right. -/
def task (command : Command) : CommandKind → Except Fault Task
  | .branch => do
    command.takesBlock
    return .branch (← command.singleTest)
  | .elseBranch => do
    command.takesBlock
    return .elseBranch (← command.singleTest)
  | .otherwise => do
    command.takesBlock
    command.takesNoArguments
    return .otherwise
  | .require => return .require (← command.features)
  | .stop => do
    command.takesNoBlock
    command.takesNoArguments
    return .stop
  | .keep => do
    command.takesNoBlock
    command.takesNoArguments
    return .act .keep
  | .discard => do
    command.takesNoBlock
    command.takesNoArguments
    return .discard
  | .fileinto => return .act (.fileInto (← command.singleString))
  | .redirect => return .act (.redirect (← command.redirection))
  | .reject => return .act (.reject (← command.singleString))
  | .vacation => return .act (.vacation (← command.vacation))
  | .log => do
    let (level, text) ← command.logLine
    return .log level text

end Command

namespace CommandKind

/-- Why the state does not admit a command of this kind, if it does not. -/
def objection? (state : CommandState) (condition : ConditionState) :
    CommandKind → Option CommandCause
  | elseBranch => if condition.elseAllowed then none else some .elsifWithoutIf
  | otherwise => if condition.elseAllowed then none else some .elseWithoutIf
  | require => if state.inProlog then none else some .requireAfterProlog
  | keep | fileinto | redirect | reject | vacation =>
    if state.rejected then some .messageRejected else none
  | branch | stop | discard | log => none

/-- The state after a command of this kind has done its task. A branch leaves its chain open, a
requirement leaves the prolog open, and every other command closes both. -/
def commit (kind : CommandKind) (session : Session) : Session :=
  match kind with
  | branch | elseBranch => { session with command.inProlog := false }
  | require => { session with condition := .initial }
  | keep | discard | fileinto | redirect | reject | vacation =>
    { session with
      command := { session.command with inProlog := false, hasActions := true }
      condition := .initial }
  | otherwise | stop | log =>
    { session with command.inProlog := false, condition := .initial }

end CommandKind

/-- The state after an action has been taken. A vacation reply leaves the message to be kept, every
other action replaces that; and a rejection is remembered. -/
def Session.act (session : Session) (line : Nat) (action : Action) : Session :=
  let event : Event := match action with
    | .vacation reply => .vacationActed reply.days line
    | _ => .acted action.name line
  let state : CommandState := match action with
    | .vacation _ => session.command
    | .reject _ => { session.command with rejected := true, implicitKeep := false }
    | _ => { session.command with implicitKeep := false }
  { session with
    command := state
    actions := session.actions ++ [action]
    events := session.events ++ [event] }

/-- The state at the beginning of a block: outside the prolog, and in no chain. -/
def Session.enterBlock (session : Session) : Session :=
  { session with command.inProlog := false, condition := .initial }

/-- Fails at the first feature there is not. -/
def requireFeatures (registries : Registries) : List String → Except Fault Unit
  | [] => .ok ()
  | feature :: features =>
    if registries.supportsFeature feature then requireFeatures registries features
    else .error (.feature feature)

/-- Begins a command: counts its step, looks its name up, asks the state and reads its arguments. -/
def Command.prepare (environment : Environment) (command : Command) :
    Eval (CommandKind × Task) := do
  Eval.tick environment command.name command.line
  let kind ← Eval.ofExcept (environment.registries.commands.lookup command.name)
  let session ← get
  match kind.objection? session.command session.condition with
  | some cause => throw (.command command.name command.line cause)
  | none => pure ()
  let task ← Eval.ofExcept (command.task kind)
  Eval.note (.commandReady command.name command.line)
  return (kind, task)

/-- Runs a block if a test holds, and remembers for the branches that may follow how the test came
out. -/
def runBranch (environment : Environment) (test : Test) (block : Eval Flow) : Eval Flow := do
  let result ← test.evaluate environment
  let flow ← if result then block else pure .continue
  Eval.update fun session => { session with condition := session.condition.record result }
  return flow

/-- Does the task of a command on the given line, whose block runs as `block`. A branch behind one
that ran is passed over without a look at its test. -/
def Task.perform (environment : Environment) (line : Nat) (block : Eval Flow) : Task → Eval Flow
  | branch test => runBranch environment test block
  | elseBranch test => do
    if (← get).condition.isElseRunnable then runBranch environment test block
    else return .continue
  | otherwise => do
    if (← get).condition.isElseRunnable then block else return .continue
  | require features => do
    Eval.ofExcept (requireFeatures environment.registries features)
    return .continue
  | stop => return .stop
  | discard => do
    Eval.note (.discarded line)
    Eval.update fun session => { session with command.implicitKeep := false }
    return .continue
  | act action => do
    Eval.update fun session => session.act line action
    return .continue
  | log level text => do
    Eval.note (.logged level line text)
    return .continue

mutual

/-- Runs a command. -/
def Command.run (environment : Environment) : Command → Eval Flow
  | ⟨name, arguments, tests, block, line⟩ => do
    let (kind, task) ← Command.prepare environment ⟨name, arguments, tests, block, line⟩
    let flow ← task.perform environment line (Command.runBlock environment block)
    Eval.update kind.commit
    return flow

/-- Runs the block of a command. -/
def Command.runBlock (environment : Environment) : Option (List Command) → Eval Flow
  | none => return .continue
  | some commands => do
    Eval.update Session.enterBlock
    Command.runAll environment commands

/-- Runs commands in order up to the first that stops the walk. -/
def Command.runAll (environment : Environment) : List Command → Eval Flow
  | [] => return .continue
  | command :: commands => do
    match ← Command.run environment command with
    | .stop => return .stop
    | .continue => Command.runAll environment commands

end

end MailFilter
