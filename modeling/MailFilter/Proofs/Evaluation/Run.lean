import MailFilter.Engine

/-!
# How a command runs

A command is accepted or refused before it does anything: its step has to fit the budget, its name
has to stand for something, the state has to let it through and its arguments have to be right. A
refused command leaves nothing behind but its step. An accepted one does its task, and commits the
change of state of its kind if the task came to an end. Whatever is shown of all commands follows
from these two cases. What every result has and every sequence inherits, the walk over a list of
tests or commands has if its members have it. A script is run by running its commands, and keeping
the message at the end if none of them has decided otherwise.
-/

namespace MailFilter

/-- The bound on steps, if so many steps exceed it. -/
def Environment.exceeded? (environment : Environment) (steps : Nat) : Option Nat :=
  environment.maxSteps.filter (· < steps)

/-- Without a budget no number of steps exceeds it. -/
theorem Environment.exceeded?_of_unbounded {environment : Environment}
    (hbudget : environment.maxSteps = none) (steps : Nat) : environment.exceeded? steps = none := by
  rw [exceeded?, hbudget, Option.filter_none]

/-- A budget is exceeded by more steps than it allows. -/
theorem Environment.exceeded?_of_bounded {environment : Environment} {limit : Nat}
    (hbudget : environment.maxSteps = some limit) (steps : Nat) :
    environment.exceeded? steps = if limit < steps then some limit else none := by
  rw [exceeded?, hbudget]
  by_cases hlimit : limit < steps <;> simp [Option.filter, hlimit]

/-- The state after one more step has been counted. -/
def Session.counted (session : Session) : Session :=
  { session with steps := session.steps + 1 }

/-- The state after one more event has been noted. -/
def Session.noted (session : Session) (event : Event) : Session :=
  { session with events := session.events ++ [event] }

/-- Counting a step leaves the state of the commands. -/
@[simp] theorem Session.counted_command (session : Session) :
    session.counted.command = session.command := rfl

/-- Counting a step leaves the condition. -/
@[simp] theorem Session.counted_condition (session : Session) :
    session.counted.condition = session.condition := rfl

/-- Noting an event is all that a note does. -/
@[simp] theorem Eval.apply_note (event : Event) (session : Session) :
    (Eval.note event).apply session = (.ok (), session.noted event) := rfl

/-- A step is counted even if it is one too many. -/
theorem Eval.apply_tick (environment : Environment) (name : String) (line : Nat)
    (session : Session) :
    (Eval.tick environment name line).apply session =
      match environment.exceeded? (session.steps + 1) with
      | some limit => (.error (.command name line (.budgetExceeded limit)), session.counted)
      | none => (.ok (), session.counted) := by
  cases hbudget : environment.maxSteps with
  | none => simp [tick, Environment.exceeded?, hbudget, Session.counted]
  | some limit =>
    by_cases hlimit : limit < session.steps + 1 <;>
      simp [tick, Environment.exceeded?, hbudget, hlimit, apply_bind, Session.counted,
        Option.filter]

namespace Command

/-- The test of a branch whose arguments are right. -/
def guard (command : Command) : Except Fault Test := do
  command.takesBlock
  command.singleTest

/-- Checks the arguments of an `else`. -/
def unguarded (command : Command) : Except Fault Unit := do
  command.takesBlock
  command.takesNoArguments

variable [MailReader]

/-- The task of a requirement is to require its features. -/
theorem task_require (command : Command) :
    command.task .require = command.features.map .require := by
  rw [task]
  cases command.features <;> rfl

/-- The task of a branch is to run its block if its test holds. -/
theorem task_branch (command : Command) : command.task .branch = command.guard.map .branch := by
  simp only [task, guard]
  cases command.takesBlock with
  | error fault => rfl
  | ok _ => cases command.singleTest <;> rfl

/-- The task of an alternative is to run its block if its turn has come and its test holds. -/
theorem task_elseBranch (command : Command) :
    command.task .elseBranch = command.guard.map .elseBranch := by
  simp only [task, guard]
  cases command.takesBlock with
  | error fault => rfl
  | ok _ => cases command.singleTest <;> rfl

/-- The task of the last alternative is to run its block if its turn has come. -/
theorem task_otherwise (command : Command) :
    command.task .otherwise = command.unguarded.map fun _ => .otherwise := by
  simp only [task, unguarded]
  cases command.takesBlock with
  | error fault => rfl
  | ok _ => cases command.takesNoArguments <;> rfl

end Command

/-- What a branch behind another one does: nothing, if that one or one before it has run. -/
theorem Task.apply_elseBranch [MailReader] (environment : Environment) (line : Nat)
    (block : Eval Flow) (test : Test) (session : Session) :
    (perform environment line block (.elseBranch test)).apply session =
      if session.condition.isElseRunnable then (runBranch environment test block).apply session
      else (.ok .continue, session) := by
  rw [perform, Eval.apply_bind, Eval.apply_get]
  dsimp only
  split <;> rfl

/-- The last alternative runs its block if the condition before it asks for that. -/
theorem Task.apply_otherwise [MailReader] (environment : Environment) (line : Nat)
    (block : Eval Flow) (session : Session) :
    (perform environment line block .otherwise).apply session =
      if session.condition.isElseRunnable then block.apply session
      else (.ok .continue, session) := by
  rw [perform, Eval.apply_bind, Eval.apply_get]
  dsimp only
  split <;> rfl

/-- A requirement comes to whether all its features are supported, and changes nothing. -/
theorem Task.apply_require [MailReader] (environment : Environment) (line : Nat) (block : Eval Flow)
    (features : List String) (session : Session) :
    (perform environment line block (.require features)).apply session =
      ((requireFeatures environment.registries features).map fun _ => .continue, session) := by
  rw [perform, Eval.apply_bind, Eval.apply_ofExcept]
  cases requireFeatures environment.registries features <;> rfl

/-- The tasks of the members of a chain, which are those that run a block. -/
def Task.runsBlock : Task → Bool
  | branch _ | elseBranch _ | otherwise => true
  | require _ | stop | discard | act _ | log .. => false

/-- A command that is no member of a chain has no task that runs a block. -/
theorem Command.task_runsBlock [MailReader] {command : Command} {kind : CommandKind} {task : Task}
    (htask : command.task kind = .ok task)
    (hbranch : kind ≠ .branch) (helsif : kind ≠ .elseBranch) (helse : kind ≠ .otherwise) :
    task.runsBlock = false := by
  cases kind with
  | branch | elseBranch | otherwise => contradiction
  | _ =>
    simp only [Command.task, bind, Except.bind, pure, Except.pure] at htask
    repeat' split at htask
    all_goals first | (cases htask; rfl) | cases htask

/-- The test that a task may evaluate is the guard of its command. -/
theorem Command.guard_of_task [MailReader] {command : Command} {kind : CommandKind} {task : Task}
    {test : Test} (htask : command.task kind = .ok task)
    (htest : task = .branch test ∨ task = .elseBranch test) :
    command.guard = .ok test := by
  cases kind with
  | branch =>
    rw [task_branch] at htask
    cases hguard : command.guard with
    | error fault => rw [hguard] at htask; cases htask
    | ok found => rw [hguard] at htask; cases htask; simpa using htest
  | elseBranch =>
    rw [task_elseBranch] at htask
    cases hguard : command.guard with
    | error fault => rw [hguard] at htask; cases htask
    | ok found => rw [hguard] at htask; cases htask; simpa using htest
  | otherwise =>
    rw [task_otherwise] at htask
    cases hcheck : command.unguarded with
    | error fault => rw [hcheck] at htask; cases htask
    | ok _ => rw [hcheck] at htask; cases htask; simp at htest
  | _ =>
    have hblock := task_runsBlock htask nofun nofun nofun
    rcases htest with rfl | rfl <;> cases hblock

namespace Command

variable [MailReader]

/-- The task of a command of a given kind, if the state lets it through and its arguments are
right. -/
def taskIn (session : Session) (command : Command) (kind : CommandKind) : Except Fault Task :=
  match kind.objection? session.command session.condition with
  | some cause => .error (.command command.name command.line cause)
  | none => command.task kind

/-- The kind and the task of a command that is accepted, or why it is not. -/
def accept (environment : Environment) (session : Session) (command : Command) :
    Except Fault (CommandKind × Task) :=
  match environment.exceeded? (session.steps + 1) with
  | some limit => .error (.command command.name command.line (.budgetExceeded limit))
  | none =>
    match environment.registries.commands.lookup command.name with
    | .error fault => .error fault
    | .ok kind => (command.taskIn session kind).map fun task => (kind, task)

variable {environment : Environment} {command : Command} {session : Session}

/-- Without a bound on steps a command whose name is known is accepted if its task is. -/
theorem accept_of_lookup (session : Session) (hbudget : environment.maxSteps = none)
    {kind : CommandKind} (hkind : environment.registries.commands.lookup command.name = .ok kind) :
    command.accept environment session =
      (command.taskIn session kind).map fun task => (kind, task) := by
  simp only [accept, Environment.exceeded?_of_unbounded hbudget, hkind]

/-- Without a bound on steps a command whose name is unknown fails for that reason. -/
theorem accept_of_lookup_error (session : Session) (hbudget : environment.maxSteps = none)
    {fault : Fault} (hfault : environment.registries.commands.lookup command.name = .error fault) :
    command.accept environment session = .error fault := by
  simp only [accept, Environment.exceeded?_of_unbounded hbudget, hfault]

/-- An accepted command has a task of the kind its name stands for, and the state lets it
through. -/
theorem task_of_accept {kind : CommandKind} {task : Task}
    (haccept : command.accept environment session = .ok (kind, task)) :
    environment.registries.commands.lookup command.name = .ok kind ∧
      command.task kind = .ok task ∧
        kind.objection? session.command session.condition = none := by
  rw [accept] at haccept
  split at haccept
  · cases haccept
  split at haccept
  · cases haccept
  · next found hfound =>
    rw [taskIn] at haccept
    split at haccept
    · cases haccept
    · next hplace =>
      cases htask : command.task found with
      | error fault => rw [htask] at haccept; cases haccept
      | ok read => rw [htask] at haccept; cases haccept; exact ⟨hfound, htask, hplace⟩

/-- The state in which an accepted command does its task. -/
def ready (command : Command) (session : Session) : Session :=
  session.counted.noted (.commandReady command.name command.line)

/-- A command is counted, and it is made ready if it is accepted. -/
theorem apply_prepare (environment : Environment) (command : Command) (session : Session) :
    (prepare environment command).apply session =
      match command.accept environment session with
      | .error fault => (.error fault, session.counted)
      | .ok accepted => (.ok accepted, command.ready session) := by
  rw [prepare, accept, Eval.apply_bind, Eval.apply_tick]
  cases environment.exceeded? (session.steps + 1) with
  | some limit => rfl
  | none =>
    simp only [Eval.apply_bind, Eval.apply_ofExcept]
    cases environment.registries.commands.lookup command.name with
    | error fault => rfl
    | ok kind =>
      simp only [taskIn, Eval.apply_get, Session.counted_command, Session.counted_condition]
      cases kind.objection? session.command session.condition with
      | some cause => rfl
      | none =>
        cases command.task kind with
        | error fault => rfl
        | ok task => rfl

/-- What a command does, by whether it is accepted. -/
theorem apply_run (environment : Environment) (command : Command) (session : Session) :
    (run environment command).apply session =
      match command.accept environment session with
      | .error fault => (.error fault, session.counted)
      | .ok (kind, task) =>
        match (task.perform environment command.line
            (runBlock environment command.block)).apply (command.ready session) with
        | (.ok flow, after) => (.ok flow, kind.commit after)
        | (.error fault, after) => (.error fault, after) := by
  obtain ⟨name, arguments, tests, block, line⟩ := command
  rw [run, Eval.apply_bind, apply_prepare]
  cases accept environment session ⟨name, arguments, tests, block, line⟩ with
  | error fault => rfl
  | ok accepted =>
    simp only [Eval.apply_bind, Eval.apply_update, Eval.apply_pure]
    generalize (accepted.2.perform environment line (runBlock environment block)).apply _ = done
    obtain ⟨_ | _, after⟩ := done <;> rfl

/-- A walk goes on only behind a command that lets it. -/
theorem apply_runAll_cons (environment : Environment) (command : Command) (commands : List Command)
    (session : Session) :
    (runAll environment (command :: commands)).apply session =
      match (run environment command).apply session with
      | (.ok .continue, after) => (runAll environment commands).apply after
      | ended => ended := by
  rw [runAll, Eval.apply_bind]
  obtain ⟨_ | _ | _, after⟩ := (run environment command).apply session <;> rfl

/-- No commands do nothing. -/
@[simp] theorem apply_runAll_nil (environment : Environment) (session : Session) :
    (runAll environment []).apply session = (.ok .continue, session) := by
  rw [runAll, Eval.apply_pure]

/-- Without a block there is nothing to run. -/
@[simp] theorem apply_runBlock_none (environment : Environment) (session : Session) :
    (runBlock environment none).apply session = (.ok .continue, session) := by
  rw [runBlock, Eval.apply_pure]

/-- A block runs its commands within itself. -/
@[simp] theorem apply_runBlock_some (environment : Environment) (commands : List Command)
    (session : Session) :
    (runBlock environment (some commands)).apply session =
      (runAll environment commands).apply session.enterBlock := by
  rw [runBlock, Eval.apply_bind, Eval.apply_update]

/-- The state after each of some commands has been run in turn, going on after stops and faults. -/
def afterEach (environment : Environment) (commands : List Command) (session : Session) : Session :=
  commands.foldl (fun session command => ((command.run environment).apply session).2) session

end Command

/-- A relation between steps that the same result has to itself, and that sequences inherit from
their parts. It may compare what one walk does in two environments. -/
structure Eval.ClosedPair (R : ∀ {α : Type}, Eval α → Eval α → Prop) : Prop where
  result : ∀ {α : Type} (value : α), R (pure value : Eval α) (pure value)
  bind : ∀ {α β : Type} {step other : Eval α} {next further : α → Eval β},
    R step other → (∀ value, R (next value) (further value)) → R (step >>= next) (other >>= further)

/-- A property of steps that every result has and every sequence inherits from its parts. -/
structure Eval.Closed (P : ∀ {α : Type}, Eval α → Prop) : Prop where
  result : ∀ {α : Type} (value : α), P (pure value : Eval α)
  bind : ∀ {α β : Type} {step : Eval α} {next : α → Eval β},
    P step → (∀ value, P (next value)) → P (step >>= next)

/-- A property of steps that is closed is a closed relation of which the second step does not count.
-/
theorem Eval.Closed.pair {P : ∀ {α : Type}, Eval α → Prop} (h : Closed P) :
    ClosedPair fun step _ => P step where
  result := h.result
  bind := h.bind

section

variable {R : ∀ {α : Type}, Eval α → Eval α → Prop} (h : Eval.ClosedPair R)
  (first second : Environment)
include h

variable [MailReader]

/-- Asking for all of some tests is related in two environments if the tests are. -/
theorem Test.evaluateAll_pair {tests : List Test}
    (htests : ∀ test ∈ tests, R (test.evaluate first) (test.evaluate second)) :
    R (evaluateAll first tests) (evaluateAll second tests) := by
  induction tests with
  | nil => exact h.result true
  | cons test tests ih =>
    rw [List.forall_mem_cons] at htests
    simp only [evaluateAll]
    refine h.bind htests.1 fun result => ?_
    cases result with
    | false => exact h.result false
    | true => exact ih htests.2

/-- Asking for any of some tests is related in two environments if the tests are. -/
theorem Test.evaluateAny_pair {tests : List Test}
    (htests : ∀ test ∈ tests, R (test.evaluate first) (test.evaluate second)) :
    R (evaluateAny first tests) (evaluateAny second tests) := by
  induction tests with
  | nil => exact h.result false
  | cons test tests ih =>
    rw [List.forall_mem_cons] at htests
    simp only [evaluateAny]
    refine h.bind htests.1 fun result => ?_
    cases result with
    | false => exact ih htests.2
    | true => exact h.result true

/-- Some commands are related in two environments if each of them is. -/
theorem Command.runAll_pair {commands : List Command}
    (hrun : ∀ command ∈ commands, R (command.run first) (command.run second)) :
    R (runAll first commands) (runAll second commands) := by
  induction commands with
  | nil => exact h.result Flow.continue
  | cons command commands ih =>
    rw [List.forall_mem_cons] at hrun
    simp only [runAll]
    refine h.bind hrun.1 fun flow => ?_
    cases flow with
    | stop => exact h.result Flow.stop
    | «continue» => exact ih hrun.2

end

section

variable {P : ∀ {α : Type}, Eval α → Prop} (h : Eval.Closed P) {environment : Environment}
include h

variable [MailReader]

/-- Asking for all of some tests has a closed property if the tests have it. -/
theorem Test.evaluateAll_closed {tests : List Test}
    (htests : ∀ test ∈ tests, P (test.evaluate environment)) :
    P (evaluateAll environment tests) :=
  evaluateAll_pair h.pair environment environment htests

/-- Asking for any of some tests has a closed property if the tests have it. -/
theorem Test.evaluateAny_closed {tests : List Test}
    (htests : ∀ test ∈ tests, P (test.evaluate environment)) :
    P (evaluateAny environment tests) :=
  evaluateAny_pair h.pair environment environment htests

/-- Some commands have a closed property if each of them has it. -/
theorem Command.runAll_closed {commands : List Command}
    (hrun : ∀ command ∈ commands, P (command.run environment)) :
    P (runAll environment commands) :=
  runAll_pair h.pair environment environment hrun

end

/-- The state after the message has been kept if it was to be kept by default. -/
def Session.kept (session : Session) : Session :=
  if session.command.implicitKeep then
    { session.noted .implicitKeep with actions := session.actions ++ [.keep] }
  else session

/-- At the end a message is kept if nothing has revoked that. -/
theorem Session.actions_kept (session : Session) :
    session.kept.actions =
      if session.command.implicitKeep then session.actions ++ [.keep] else session.actions := by
  rw [kept]
  split <;> rfl

/-- A script ends as its commands do. -/
theorem Engine.apply_walk [MailReader] (environment : Environment) (script : Script)
    (session : Session) :
    (walk environment script).apply session =
      match (Command.runAll environment script).apply
          (session.noted (.started environment.mail.size)) with
      | (.error fault, after) => (.error fault, after)
      | (.ok _, after) =>
        (.ok (), after.kept.noted (.finished after.kept.actions.length after.kept.steps)) := by
  rw [walk, Eval.apply_bind, Eval.apply_note]
  dsimp only
  rw [Eval.apply_bind]
  obtain ⟨fault | flow, after⟩ := (Command.runAll environment script).apply
    (session.noted (.started environment.mail.size))
  · rfl
  · simp only [Eval.apply_bind, Eval.apply_get, Session.kept]
    split <;> rfl

end MailFilter
