import MailFilter.Host.Reader
import MailFilter.Proofs.Evaluation.Changes

/-!
# The commands that an evaluation executes

A command is executed once it has been accepted: its step is within the bound, its name stands for
something, its place and its arguments are right. This file lists the commands that a run executes,
in order and each before those of its block. The actions of an evaluation are those of the commands
on this list, one each, and the message is kept at the end unless one of them decided otherwise.
-/

namespace MailFilter

/-- A command that is executed, and what its name stands for. -/
structure Execution where
  command : Command
  kind : CommandKind

namespace CommandKind

/-- Whether commands of a kind take an action. -/
def takesAction : CommandKind → Bool
  | keep | fileinto | redirect | reject | vacation => true
  | branch | elseBranch | otherwise | require | stop | discard | log => false

/-- Whether commands of a kind end the keeping of the message by default. -/
def revokesKeep : CommandKind → Bool
  | keep | fileinto | redirect | reject | discard => true
  | branch | elseBranch | otherwise | require | stop | vacation | log => false

end CommandKind

namespace Execution

/-- The action that an executed command takes, as its arguments spell it out. -/
def action? (execution : Execution) : Option Action :=
  match execution.kind, execution.command.arguments with
  | .keep, _ => some .keep
  | .fileinto, [.string folder] => some (.fileInto folder)
  | .redirect, [.string address] => some (.redirect address)
  | .reject, [.string text] => some (.reject text)
  | .vacation, arguments => (Vacation.plain.ofArguments arguments).toOption.map .vacation
  | _, _ => none

/-- What the trace says of an executed command. -/
def mark (execution : Execution) : String × Nat :=
  (execution.command.name, execution.command.line)

end Execution

/-- The command that is about to be executed, if that is what an event says. -/
def Event.ready? : Event → Option (String × Nat)
  | .commandReady name line => some (name, line)
  | _ => none

/-- The state in which the block behind a test is entered, if the test holds. -/
def Test.entered? [MailReader] (environment : Environment) (test : Test) (session : Session) :
    Option Session :=
  match (test.evaluate environment).apply session with
  | (.ok true, after) => some after
  | _ => none

/-- The state in which a task enters the block of its command, if it does. -/
def Task.entered? [MailReader] (environment : Environment) (session : Session) : Task → Option
    Session
  | branch test => test.entered? environment session
  | elseBranch test =>
    if session.condition.isElseRunnable then test.entered? environment session else none
  | otherwise => if session.condition.isElseRunnable then some session else none
  | require _ | stop | discard | act _ | log .. => none

namespace Command

variable [MailReader]

mutual

/-- The commands executed when a command is run: itself, unless it is refused, and those of its
block, if it runs that. -/
def executions (environment : Environment) : Command → Session → List Execution
  | ⟨name, arguments, tests, block, line⟩, session =>
    let command : Command := ⟨name, arguments, tests, block, line⟩
    match command.accept environment session with
    | .error _ => []
    | .ok (kind, task) =>
      ⟨command, kind⟩ ::
        match task.entered? environment (command.ready session) with
        | none => []
        | some entered => blockExecutions environment block entered

/-- The commands executed when a block is run. -/
def blockExecutions (environment : Environment) : Option (List Command) → Session → List Execution
  | none, _ => []
  | some commands, session => allExecutions environment commands session.enterBlock

/-- The commands executed when commands are run in order, up to the first that ends the walk. -/
def allExecutions (environment : Environment) : List Command → Session → List Execution
  | [], _ => []
  | command :: commands, session =>
    executions environment command session ++
      match (command.run environment).apply session with
      | (.ok .continue, after) => allExecutions environment commands after
      | _ => []

end

/-- A command that is refused executes nothing; one that is accepted executes itself, and then what
its block does if it is entered. -/
theorem executions_eq (environment : Environment) (command : Command) (session : Session) :
    command.executions environment session =
      match command.accept environment session with
      | .error _ => []
      | .ok (kind, task) =>
        ⟨command, kind⟩ :: (task.entered? environment (command.ready session)).elim []
          (blockExecutions environment command.block) := by
  obtain ⟨name, arguments, tests, block, line⟩ := command
  rw [executions]
  cases accept environment session ⟨name, arguments, tests, block, line⟩ with
  | error fault => rfl
  | ok accepted =>
    dsimp only
    cases accepted.2.entered? environment _ <;> rfl

end Command

/-- The commands that an evaluation executes. -/
def Engine.executions [MailReader] (engine : Engine) (script : Script) (mail : Message)
    (actions : List Action) : List Execution :=
  Command.allExecutions (engine.environment mail) script (.opened mail actions)

namespace Command

variable {command : Command}

/-- A command that takes one text has that text as its arguments. -/
theorem arguments_of_singleString {text : String} (h : command.singleString = .ok text) :
    command.arguments = [.string text] := by
  obtain ⟨_, -, h⟩ := exists_of_bind_eq_ok h
  obtain ⟨_, -, h⟩ := exists_of_bind_eq_ok h
  split at h
  · next harguments => cases h; exact harguments
  · cases h
  · cases h

/-- A redirection takes its address as one text. -/
theorem singleString_of_redirection [MailReader] {address : String}
    (h : command.redirection = .ok address) :
    command.singleString = .ok address := by
  obtain ⟨text, htext, h⟩ := exists_of_bind_eq_ok h
  split at h
  · cases h; exact htext
  · cases h

/-- A reply is read from the arguments of its command. -/
theorem ofArguments_of_vacation {reply : Vacation} (h : command.vacation = .ok reply) :
    Vacation.plain.ofArguments command.arguments = .ok reply := by
  obtain ⟨_, -, h⟩ := exists_of_bind_eq_ok h
  obtain ⟨_, -, h⟩ := exists_of_bind_eq_ok h
  exact eq_ok_of_mapError_eq_ok h

end Command

/-- An action and the kinds of commands that take it agree on the keeping by default. -/
theorem Session.implicitKeep_act_of_does {kind : CommandKind} {action : Action}
    (hdoes : kind.Does (.act action)) (session : Session) (line : Nat) :
    (session.act line action).command.implicitKeep =
      (session.command.implicitKeep && !kind.revokesKeep) := by
  cases hdoes with
  | vacation reply => exact (Bool.and_true _).symm
  | keep | fileinto _ | redirect _ | reject _ => exact (Bool.and_false _).symm

/-- A kind that can add an action counts as one that takes it. -/
theorem CommandKind.takesAction_of_does {kind : CommandKind} {action : Action}
    (hdoes : kind.Does (.act action)) : kind.takesAction = true := by
  cases hdoes <;> rfl

/-- The action that a command takes is the one that its arguments spell out. -/
theorem Execution.action?_of_task [MailReader] {command : Command} {kind : CommandKind}
    {action : Action} (htask : command.task kind = .ok (.act action)) :
    (Execution.mk command kind).action? = some action := by
  have hdoes := Command.does_of_task htask
  cases hdoes with
  | keep => rfl
  | fileinto folder =>
    obtain ⟨text, htext, ⟨⟩⟩ := exists_of_bind_eq_ok htask
    rw [action?, Command.arguments_of_singleString htext]
  | redirect address =>
    obtain ⟨text, htext, ⟨⟩⟩ := exists_of_bind_eq_ok htask
    have htext := Command.singleString_of_redirection htext
    rw [action?, Command.arguments_of_singleString htext]
  | reject text =>
    obtain ⟨text, htext, ⟨⟩⟩ := exists_of_bind_eq_ok htask
    rw [action?, Command.arguments_of_singleString htext]
  | vacation reply =>
    obtain ⟨read, hread, ⟨⟩⟩ := exists_of_bind_eq_ok htask
    simp only [action?, Command.ofArguments_of_vacation hread]
    rfl

/-- What can be seen of some executed commands between two states: an event for each of them, the
actions of those that take one, and whether one of them has ended the keeping by default. -/
structure Session.Shows (registries : Registries) (before : Session) (executed : List Execution)
    (after : Session) : Prop where
  named : ∀ execution ∈ executed,
    registries.commands.lookup execution.command.name = .ok execution.kind
  events : after.events.filterMap Event.ready? =
    before.events.filterMap Event.ready? ++ executed.map Execution.mark
  actions : ∃ taken : List Action, after.actions = before.actions ++ taken ∧
    (executed.filter (·.kind.takesAction)).map Execution.action? = taken.map some
  keep : after.command.implicitKeep =
    (before.command.implicitKeep && !executed.any (·.kind.revokesKeep))

namespace Session

variable {registries : Registries} {before middle after : Session}
  {executed more : List Execution}

/-- A session shows nothing executed if it has the same commands ready, the same actions and the
same implicit keep as before. -/
theorem shows_nil (hevents : after.events.filterMap Event.ready? =
      before.events.filterMap Event.ready?)
    (hactions : after.actions = before.actions)
    (hkeep : after.command.implicitKeep = before.command.implicitKeep) :
    before.Shows registries [] after where
  named := nofun
  events := by rw [hevents, List.map_nil, List.append_nil]
  actions := ⟨[], by rw [hactions, List.append_nil], rfl⟩
  keep := by rw [hkeep, List.any_nil, Bool.not_false, Bool.and_true]

/-- A session that is left as it was shows nothing executed. -/
theorem shows_refl (session : Session) : session.Shows registries [] session :=
  shows_nil rfl rfl rfl

/-- What is executed in two steps is shown one after the other. -/
theorem Shows.trans (hfirst : before.Shows registries executed middle)
    (hsecond : middle.Shows registries more after) :
    before.Shows registries (executed ++ more) after := by
  obtain ⟨taken, htaken, hspelt⟩ := hfirst.actions
  obtain ⟨next, hnext, hnextSpelt⟩ := hsecond.actions
  refine ⟨fun execution h => ?_, ?_, ⟨taken ++ next, ?_, ?_⟩, ?_⟩
  · exact (List.mem_append.mp h).elim (hfirst.named execution) (hsecond.named execution)
  · rw [hsecond.events, hfirst.events, List.map_append, List.append_assoc]
  · rw [hnext, htaken, List.append_assoc]
  · rw [List.filter_append, List.map_append, List.map_append, hspelt, hnextSpelt]
  · rw [hsecond.keep, hfirst.keep, List.any_append, Bool.not_or, Bool.and_assoc]

/-- A change that shows nothing may follow. -/
theorem Shows.quiet (h : before.Shows registries executed middle)
    (hquiet : middle.Shows registries [] after) : before.Shows registries executed after :=
  List.append_nil executed ▸ h.trans hquiet

/-- An event other than that of a ready command makes no command ready. -/
theorem ready?_noted (session : Session) {event : Event} (hevent : event.ready? = none) :
    (session.noted event).events.filterMap Event.ready? =
      session.events.filterMap Event.ready? := by
  rw [noted, List.filterMap_append, List.filterMap_cons_none hevent, List.filterMap_nil,
    List.append_nil]

/-- An event that does not announce a command shows nothing. -/
theorem shows_noted (session : Session) {event : Event} (hevent : event.ready? = none) :
    session.Shows registries [] (session.noted event) :=
  shows_nil (session.ready?_noted hevent) rfl rfl

end Session

/-- Committing a command shows nothing executed. -/
theorem CommandKind.shows_commit (registries : Registries) (kind : CommandKind)
    (session : Session) : session.Shows registries [] (kind.commit session) := by
  cases kind <;> exact Session.shows_nil rfl rfl rfl

/-- A test executes no command. -/
theorem Test.evaluate_shows [MailReader] (registries : Registries) (environment : Environment)
    (test : Test) :
    (test.evaluate environment).Within fun before after => before.Shows registries [] after :=
  test.evaluate_pair (Eval.testPair_within Session.shows_refl Session.Shows.quiet
    (fun _ => Session.shows_nil rfl rfl rfl) (fun session _ _ _ => session.shows_noted rfl)
    environment)

section

variable {environment : Environment} {command : Command} {kind : CommandKind} {task : Task}

/-- What one executed command shows, given the actions it takes. -/
theorem Command.shows_single {registries : Registries} {session after : Session}
    (hkind : registries.commands.lookup command.name = .ok kind) (taken : List Action)
    (hevents : after.events.filterMap Event.ready? =
      (command.ready session).events.filterMap Event.ready?)
    (hactions : after.actions = session.actions ++ taken)
    (hspelt : ([Execution.mk command kind].filter (·.kind.takesAction)).map Execution.action? =
      taken.map some)
    (hkeep : after.command.implicitKeep =
      (session.command.implicitKeep && !kind.revokesKeep)) :
    session.Shows registries [⟨command, kind⟩] after where
  named := by
    rintro execution (_ | ⟨_, ⟨⟩⟩)
    exact hkind
  events := by
    rw [hevents, ready, Session.noted, List.filterMap_append]
    rfl
  actions := ⟨taken, hactions, hspelt⟩
  keep := by rw [hkeep, List.any_cons, List.any_nil, Bool.or_false]

/-- A command that decides nothing about the message shows no more than the event that announces
it. -/
theorem Command.shows_ready {registries : Registries}
    (hkind : registries.commands.lookup command.name = .ok kind)
    (htakes : kind.takesAction = false) (hrevokes : kind.revokesKeep = false) (session : Session) :
    session.Shows registries [⟨command, kind⟩] (command.ready session) := by
  refine shows_single hkind [] rfl (List.append_nil _).symm ?_ ?_
  · rw [List.filter_cons_of_neg (by simp [htakes])]
    rfl
  · rw [hrevokes, Bool.not_false, Bool.and_true]
    rfl

variable [MailReader]

/-- A command that takes an action shows this action and no other. -/
theorem Command.shows_act {registries : Registries} {action : Action}
    (hkind : registries.commands.lookup command.name = .ok kind)
    (htask : command.task kind = .ok (.act action)) (session : Session) (line : Nat) :
    session.Shows registries [⟨command, kind⟩] ((command.ready session).act line action) := by
  have hdoes := does_of_task htask
  refine shows_single hkind [action] ?_ rfl ?_ ?_
  · cases action <;> simp [Session.act, List.filterMap_append, Event.ready?]
  · simp [CommandKind.takesAction_of_does hdoes, Execution.action?_of_task htask]
  · exact Session.implicitKeep_act_of_does hdoes (command.ready session) line

variable {block : Eval Flow} {inner : Session → List Execution}
  (hblock : ∀ session : Session,
    session.Shows environment.registries (inner session) (block.apply session).2)
include hblock

/-- A branch shows the commands of its block if its test holds, and none if it does not. -/
theorem runBranch_shows (test : Test) (session : Session) :
    session.Shows environment.registries ((test.entered? environment session).elim [] inner)
      ((runBranch environment test block).apply session).2 := by
  have htest := test.evaluate_shows environment.registries environment session
  rw [apply_runBranch, Test.entered?]
  generalize (test.evaluate environment).apply session = tested at htest ⊢
  obtain ⟨fault | _ | _, middle⟩ := tested
  · exact htest
  · exact htest.quiet (Session.shows_nil rfl rfl rfl)
  · have hinner := htest.trans (hblock middle)
    dsimp only [Option.elim_some]
    generalize block.apply middle = done at hinner ⊢
    obtain ⟨fault | flow, after⟩ := done
    · exact hinner
    · exact hinner.quiet (Session.shows_nil rfl rfl rfl)

/-- An accepted command shows itself, and the commands of its block if its task enters that. -/
theorem Task.perform_shows
    (hkind : environment.registries.commands.lookup command.name = .ok kind)
    (htask : command.task kind = .ok task) (session : Session) :
    session.Shows environment.registries
      (⟨command, kind⟩ :: (task.entered? environment (command.ready session)).elim [] inner)
      ((task.perform environment command.line block).apply (command.ready session)).2 := by
  have hdoes := Command.does_of_task htask
  have hready := fun htakes hrevokes => Command.shows_ready hkind htakes hrevokes session
  cases hdoes with
  | branch test => exact (hready rfl rfl).trans (runBranch_shows hblock test _)
  | elseBranch test =>
    refine (hready rfl rfl).trans ?_
    rw [apply_elseBranch, entered?]
    by_cases hrunnable : (command.ready session).condition.isElseRunnable = true
    · rw [if_pos hrunnable, if_pos hrunnable]
      exact runBranch_shows hblock test _
    · rw [if_neg hrunnable, if_neg hrunnable]
      exact Session.shows_refl _
  | otherwise =>
    refine (hready rfl rfl).trans ?_
    rw [apply_otherwise, entered?]
    by_cases hrunnable : (command.ready session).condition.isElseRunnable = true
    · rw [if_pos hrunnable, if_pos hrunnable]
      exact hblock _
    · rw [if_neg hrunnable, if_neg hrunnable]
      exact Session.shows_refl _
  | require features =>
    rw [apply_require]
    exact hready rfl rfl
  | stop => exact hready rfl rfl
  | log level text => exact (hready rfl rfl).quiet (Session.shows_noted _ rfl)
  | discard =>
    have hevents := (command.ready session).ready?_noted
      (show (Event.discarded command.line).ready? = none from rfl)
    exact Command.shows_single hkind [] hevents (List.append_nil _).symm rfl
      (Bool.and_false _).symm
  | keep | fileinto _ | redirect _ | reject _ | vacation _ =>
    exact Command.shows_act hkind htask session command.line

end

namespace Command

variable (environment : Environment)

variable [MailReader]

/-- Commands run in order show the commands that they execute if each of them does. -/
theorem runAll_shows_of_run {commands : List Command}
    (hrun : ∀ command ∈ commands, ∀ session : Session,
      session.Shows environment.registries (command.executions environment session)
        ((command.run environment).apply session).2) (session : Session) :
    session.Shows environment.registries (allExecutions environment commands session)
      ((runAll environment commands).apply session).2 := by
  induction commands generalizing session with
  | nil =>
    rw [allExecutions, apply_runAll_nil]
    exact session.shows_refl
  | cons command commands ih =>
    rw [List.forall_mem_cons] at hrun
    have hfirst := hrun.1 session
    have hrest := ih hrun.2
    rw [allExecutions, apply_runAll_cons]
    generalize (command.run environment).apply session = done at hfirst ⊢
    obtain ⟨_ | _ | _, after⟩ := done
    · exact hfirst.trans after.shows_refl
    · exact hfirst.trans (hrest after)
    · exact hfirst.trans after.shows_refl

/-- Whatever becomes of a command, its run shows the commands that it executes. -/
theorem run_shows (command : Command) (session : Session) :
    session.Shows environment.registries (command.executions environment session)
      ((command.run environment).apply session).2 := by
  induction command using Command.induction generalizing session with
  | step command ih =>
    have hblock : ∀ session : Session, session.Shows environment.registries
        (blockExecutions environment command.block session)
        ((runBlock environment command.block).apply session).2 := by
      intro session
      cases hcommands : command.block with
      | none =>
        rw [blockExecutions, apply_runBlock_none]
        exact session.shows_refl
      | some commands =>
        have hinner : ∀ inner ∈ commands, inner ∈ command.inner := fun inner h => by
          rw [Command.inner, hcommands]
          exact h
        have hentered : session.Shows environment.registries [] session.enterBlock :=
          Session.shows_nil rfl rfl rfl
        rw [blockExecutions, apply_runBlock_some]
        exact hentered.trans (runAll_shows_of_run environment
          (fun inner h => ih inner (hinner inner h)) session.enterBlock)
    rw [apply_run, executions_eq]
    cases haccept : command.accept environment session with
    | error fault => exact Session.shows_nil rfl rfl rfl
    | ok accepted =>
      obtain ⟨kind, task⟩ := accepted
      obtain ⟨hkind, htask, -⟩ := task_of_accept haccept
      have hperform := Task.perform_shows hblock hkind htask session
      dsimp only
      generalize (task.perform environment _ _).apply _ = done at hperform ⊢
      obtain ⟨fault | flow, after⟩ := done
      · exact hperform
      · exact hperform.quiet (kind.shows_commit _ after)

/-- A session after some commands shows what they executed, in order. -/
theorem runAll_shows (commands : List Command) (session : Session) :
    session.Shows environment.registries (allExecutions environment commands session)
      ((runAll environment commands).apply session).2 :=
  runAll_shows_of_run environment (fun command _ => command.run_shows environment) session

end Command

/-- The end of an evaluation announces no command. -/
theorem Engine.ready?_ending (done : Except Fault Flow × Session) :
    (ending done).2.events.filterMap Event.ready? = done.2.events.filterMap Event.ready? := by
  obtain ⟨fault | flow, after⟩ := done
  · exact after.ready?_noted rfl
  · refine (after.kept.ready?_noted rfl).trans ?_
    rw [Session.kept]
    split
    · exact after.ready?_noted rfl
    · rfl

/-- The actions that an evaluation appends are those of the commands it executes, one each and in
their order. If it ends well the message is kept once more, unless one of these commands has decided
what becomes of it; if it fails nothing is added. -/
theorem Engine.evaluate_actions_exact [MailReader] (engine : Engine) (script : Script)
    (mail : Message) (actions : List Action) :
    let done := engine.evaluate script mail actions
    let executed := engine.executions script mail actions
    (∀ execution ∈ executed,
        engine.registries.commands.lookup execution.command.name = .ok execution.kind) ∧
      done.2.events.filterMap Event.ready? = executed.map Execution.mark ∧
        ∃ taken : List Action,
          (executed.filter (·.kind.takesAction)).map Execution.action? = taken.map some ∧
            done.2.actions = actions ++ taken ++
              match done.1 with
              | .ok _ => if executed.any (·.kind.revokesKeep) then [] else [.keep]
              | .error _ => [] := by
  intro done executed
  have hshows := Command.runAll_shows (engine.environment mail) script (.opened mail actions)
  have hdone : done = ending ((Command.runAll (engine.environment mail) script).apply _) :=
    engine.evaluate_eq_ending script mail actions
  obtain ⟨hnamed, hevents, ⟨taken, hactions, hspelt⟩, hkeep⟩ := hshows
  rw [hdone, ready?_ending]
  refine ⟨hnamed, hevents, taken, hspelt, ?_⟩
  generalize (Command.runAll (engine.environment mail) script).apply _ = run at hactions hkeep ⊢
  obtain ⟨fault | flow, after⟩ := run
  · exact hactions.trans (List.append_nil _).symm
  · have hkeep : after.command.implicitKeep = !executed.any (·.kind.revokesKeep) := hkeep
    have hactions : after.actions = actions ++ taken := hactions
    change after.kept.actions = _
    rw [Session.actions_kept, hkeep, hactions]
    cases executed.any (·.kind.revokesKeep) with
    | true => exact (List.append_nil _).symm
    | false => rfl

/-- The block of a test that fails is passed by. -/
example :
    (Engine.default.executions
      [⟨"if", [], some [⟨"false", [], none, 1⟩], some [⟨"keep", [], none, none, 2⟩], 1⟩,
        ⟨"else", [], none, some [⟨"fileinto", [.string "Rest"], none, none, 4⟩], 3⟩]
      (.ofBytes [10, 72] none none) []).map Execution.mark =
        [("if", 1), ("else", 3), ("fileinto", 4)] := by
  decide +kernel

end MailFilter
