import MailFilter.Proofs.Evaluation.Chain

/-!
# One flat condition is enough

The evaluator keeps a single pair of flags for all levels of nesting. Its commands overwrite the
flags, blocks reset them, and a stop or a fault leaves them as they are. This file proves that none
of this shows: run flat, every script ends as the walk over its chains does, and takes the same
actions.
-/

namespace MailFilter

/-- What a walk over chains knows of a session: nothing of its condition. -/
def Session.progress (session : Session) : Structured.Progress :=
  ⟨session.command.rejected, session.command.implicitKeep, session.actions⟩

/-- An action is part of the progress of a session. -/
theorem Session.progress_act (session : Session) (line : Nat) (action : Action) :
    (session.act line action).progress = session.progress.act action := by
  cases action <;> rfl

/-- An action does not say whether requirements may still follow. -/
theorem Session.inProlog_act (session : Session) (line : Nat) (action : Action) :
    (session.act line action).command.inProlog = session.command.inProlog := by
  cases action <;> rfl

namespace CommandKind

/-- Committing a command makes no progress. -/
@[simp] theorem progress_commit (kind : CommandKind) (session : Session) :
    (kind.commit session).progress = session.progress := by
  cases kind <;> rfl

/-- A command that opens no chain and continues none leaves no condition behind. -/
theorem condition_commit {kind : CommandKind} (hbranch : kind ≠ .branch)
    (helsif : kind ≠ .elseBranch) (session : Session) :
    (kind.commit session).condition = .initial := by
  cases kind <;> first | rfl | contradiction

/-- Requirements may follow a command only if it is one and they could stand before it. -/
theorem inProlog_commit (kind : CommandKind) (session : Session) :
    (kind.commit session).command.inProlog = (session.command.inProlog && kind == .require) := by
  cases kind with
  | require => exact (Bool.and_true _).symm
  | _ => exact (Bool.and_false _).symm

end CommandKind

namespace Structured

/-- A flat run ends as a structured one does, and leaves a session with a given property wherever it
lets the walk go on. -/
structure Agrees (flat : Except Fault Flow × Session) (outcome : Outcome)
    (after : Session → Prop) : Prop where
  result : flat.1 = outcome.1
  progress : flat.2.progress = outcome.2
  continues : flat.1 = .ok .continue → after flat.2

variable {environment : Environment} {command : Command} {session : Session}

/-- What holds after two evaluations that agree can be weakened. -/
theorem Agrees.mono {flat : Except Fault Flow × Session} {outcome : Outcome}
    {after weaker : Session → Prop} (h : Agrees flat outcome after)
    (hweaker : ∀ session, after session → weaker session) : Agrees flat outcome weaker :=
  ⟨h.result, h.progress, fun hflat => hweaker _ (h.continues hflat)⟩

/-- A fault on one side agrees with the same fault on the other. -/
theorem agrees_error (fault : Fault) (session : Session) (after : Session → Prop) :
    Agrees (.error fault, session) (.error fault, session.progress) after :=
  ⟨rfl, rfl, fun hflow => by cases hflow⟩

/-- Runs that agree on a command, and on what follows wherever the walk goes on, agree on the
list. -/
theorem Agrees.runAll_cons [MailReader] {commands : List Command} {outcome : Outcome}
    (next : Progress → Outcome) {between after : Session → Prop}
    (hrun : Agrees ((command.run environment).apply session) outcome between)
    (hnext : ∀ session, between session →
      Agrees ((Command.runAll environment commands).apply session) (next session.progress) after) :
    Agrees ((Command.runAll environment (command :: commands)).apply session)
      (outcome.andThen next) after := by
  rw [Command.apply_runAll_cons]
  obtain ⟨result, progress⟩ := outcome
  obtain ⟨hresult, hprogress, hcontinues⟩ := hrun
  generalize (Command.run environment command).apply session = flat at *
  obtain ⟨flatResult, flatSession⟩ := flat
  simp only at hresult hprogress hcontinues
  subst hresult hprogress
  match flatResult, hcontinues with
  | .error fault, _ => exact agrees_error fault flatSession after
  | .ok .stop, _ => exact ⟨rfl, rfl, nofun⟩
  | .ok .continue, hcontinues => exact hnext flatSession (hcontinues rfl)

/-- A fault of a command is the fault of the list it begins. -/
theorem Agrees.runAll_cons_error [MailReader] {commands : List Command} {fault : Fault}
    {progress : Progress} {between after : Session → Prop}
    (hrun : Agrees ((command.run environment).apply session) (.error fault, progress) between) :
    Agrees ((Command.runAll environment (command :: commands)).apply session)
      (.error fault, progress) after := by
  have hresult := hrun.result
  rw [Command.apply_runAll_cons]
  generalize (Command.run environment command).apply session = flat at *
  obtain ⟨flatResult, flatSession⟩ := flat
  obtain rfl : flatSession.progress = progress := hrun.progress
  subst hresult
  exact agrees_error fault flatSession after

/-- A refused command agrees with a fault. -/
theorem Agrees.of_refused [MailReader] {fault : Fault} {after : Session → Prop}
    (haccept : command.accept environment session = .error fault) :
    Agrees ((command.run environment).apply session) (.error fault, session.progress) after := by
  rw [Command.apply_run, haccept]
  exact agrees_error fault session.counted after

/-- An accepted command agrees with whatever its task agrees with. -/
theorem Agrees.of_accepted [MailReader] {kind : CommandKind} {task : Task} {outcome : Outcome}
    {between : Session → Prop} (haccept : command.accept environment session = .ok (kind, task))
    (hperform : Agrees ((task.perform environment command.line
      (Command.runBlock environment command.block)).apply (command.ready session))
      outcome between) :
    Agrees ((command.run environment).apply session) outcome
      (fun after => ∃ done, between done ∧ after = kind.commit done) := by
  rw [Command.apply_run, haccept]
  obtain ⟨hresult, hprogress, hcontinues⟩ := hperform
  dsimp only
  generalize (Task.perform environment _ _ task).apply _ = flat at *
  obtain ⟨_ | flow, done⟩ := flat
  · exact ⟨hresult, hprogress, nofun⟩
  · refine ⟨hresult, by simpa using hprogress, fun hflow => ⟨done, hcontinues ?_, rfl⟩⟩
    simpa using hflow

section OfTask

variable {kind : CommandKind} (hbudget : environment.maxSteps = none)
  (hkind : environment.registries.commands.lookup command.name = .ok kind)
  (hplace : kind.objection? session.command session.condition = none)

include hbudget hkind hplace

variable [MailReader]

/-- A command in its place whose arguments are wrong agrees with what is wrong about them. -/
theorem Agrees.of_task_error {fault : Fault} {after : Session → Prop}
    (htask : command.task kind = .error fault) :
    Agrees ((command.run environment).apply session) (.error fault, session.progress) after := by
  have haccept := Command.accept_of_lookup session hbudget hkind
  rw [Command.taskIn, hplace, htask] at haccept
  exact .of_refused haccept

/-- A command in its place whose arguments are right agrees with whatever its task agrees with. -/
theorem Agrees.of_task {task : Task} {outcome : Outcome} {between : Session → Prop}
    (htask : command.task kind = .ok task)
    (hperform : Agrees ((task.perform environment command.line
      (Command.runBlock environment command.block)).apply (command.ready session))
      outcome between) :
    Agrees ((command.run environment).apply session) outcome
      (fun after => ∃ done, between done ∧ after = kind.commit done) := by
  have haccept := Command.accept_of_lookup session hbudget hkind
  rw [Command.taskIn, hplace, htask] at haccept
  exact .of_accepted haccept hperform

end OfTask

/-- Tasks that need no block do the same in both walks. -/
theorem perform_agrees [MailReader] {task : Task} (htask : task.runsBlock = false) (line : Nat)
    (block : Eval Flow) (session : Session) :
    Agrees ((task.perform environment line block).apply session)
      (perform environment.registries session.progress task)
      (fun after => after.command.inProlog = session.command.inProlog) := by
  cases task with
  | branch | elseBranch | otherwise => cases htask
  | require features =>
    rw [Task.apply_require]
    exact ⟨rfl, rfl, fun _ => rfl⟩
  | act action =>
    exact ⟨rfl, session.progress_act line action, fun _ => session.inProlog_act line action⟩
  | _ => exact ⟨rfl, rfl, fun _ => rfl⟩

/-- A command is of a kind if its name is bound to that kind. -/
theorem isKind_eq_true_iff {registries : Registries} {kind : CommandKind} :
    isKind registries kind command = true ↔
      registries.commands.lookup command.name = .ok kind := by
  unfold isKind
  cases registries.commands.lookup command.name <;> simp

/-- The command at the head of some commands, if any, does not go on with a chain. -/
def NoBranchNext (registries : Registries) (commands : List Command) : Prop :=
  ∀ command ∈ commands.head?,
    isKind registries .elseBranch command = false ∧ isKind registries .otherwise command = false

/-- A chain has `elsif` commands only, then at most one `else`. If it has none, it ends before a
command that does not go on with it. -/
structure Chain.Proper (registries : Registries) (chain : Chain) : Prop where
  elsifs : ∀ branch ∈ chain.elsifs, isKind registries .elseBranch branch = true
  last : ∀ command ∈ chain.last, isKind registries .otherwise command = true
  rest : chain.last = none → NoBranchNext registries chain.rest

/-- The chain at the front of some commands is a proper one. -/
theorem chainOf_proper (registries : Registries) (commands : List Command) :
    (chainOf registries commands).Proper registries := by
  have helsifs : ∀ branch ∈ commands.takeWhile (isKind registries .elseBranch),
      isKind registries .elseBranch branch = true := List.all_eq_true.mp List.all_takeWhile
  have hhead := List.head?_dropWhile_not (isKind registries .elseBranch) commands
  simp only [chainOf]
  split
  · exact ⟨helsifs, nofun, fun _ => nofun⟩
  · next command rest hdrop =>
    rw [hdrop] at hhead
    split
    · next hlast => exact ⟨helsifs, by simpa using hlast, nofun⟩
    · next hlast => exact ⟨helsifs, nofun, fun _ => by simpa [NoBranchNext, hlast] using hhead⟩

/-- A proper chain stays proper without its first alternative. -/
theorem Chain.Proper.tail {registries : Registries} {elsifs : List Command}
    {last : Option Command} {rest : List Command}
    (h : (Chain.mk (command :: elsifs) last rest).Proper registries) :
    (Chain.mk elsifs last rest).Proper registries :=
  ⟨fun branch hbranch => h.elsifs branch (List.mem_cons_of_mem command hbranch), h.last, h.rest⟩

/-- Outside a chain a command is out of place in a flat walk when it is so in a structured one. -/
theorem objection?_eq {kind : CommandKind}
    (hchain : session.condition.elseAllowed = true → kind ≠ .elseBranch ∧ kind ≠ .otherwise) :
    kind.objection? session.command session.condition =
      objection? session.command.inProlog session.progress kind := by
  cases kind with
  | elseBranch | otherwise => simp_all [CommandKind.objection?, objection?]
  | _ => rfl

/-- A command that is no member of a chain does the same in both walks. -/
theorem single_agrees [MailReader] (command : Command) (session : Session)
    (hbudget : environment.maxSteps = none)
    (hbranch : isKind environment.registries .branch command = false)
    (hchain : session.condition.elseAllowed = true →
      isKind environment.registries .elseBranch command = false ∧
        isKind environment.registries .otherwise command = false) :
    Agrees ((command.run environment).apply session)
      (single environment.registries session.command.inProlog command session.progress)
      (fun after => after.condition = .initial ∧ after.command.inProlog =
        (session.command.inProlog && isKind environment.registries .require command)) := by
  simp only [isKind] at hbranch hchain ⊢
  rw [single]
  cases hkind : environment.registries.commands.lookup command.name with
  | error fault => exact .of_refused (Command.accept_of_lookup_error session hbudget hkind)
  | ok kind =>
    simp only [hkind, beq_eq_false_iff_ne, ne_eq] at hbranch hchain
    have hplace := objection?_eq hchain
    dsimp only
    cases hobjection : objection? session.command.inProlog session.progress kind with
    | some cause =>
      have haccept := Command.accept_of_lookup session hbudget hkind
      rw [Command.taskIn, hplace, hobjection] at haccept
      exact .of_refused haccept
    | none =>
      rw [hobjection] at hplace
      cases htask : command.task kind with
      | error fault => exact .of_task_error hbudget hkind hplace htask
      | ok task =>
        have helsif : kind ≠ .elseBranch := by rintro rfl; simp [objection?] at hobjection
        have helse : kind ≠ .otherwise := by rintro rfl; simp [objection?] at hobjection
        have hblock := Command.task_runsBlock htask hbranch helsif helse
        refine (Agrees.of_task hbudget hkind hplace htask (perform_agrees hblock _ _ _)).mono ?_
        rintro after ⟨done, hprolog, rfl⟩
        exact ⟨CommandKind.condition_commit hbranch helsif done,
          by rw [CommandKind.inProlog_commit, hprolog]; rfl⟩

/-- It does not matter in which order three outcomes are joined. -/
theorem Outcome.andThen_assoc (outcome : Outcome) (next further : Progress → Outcome) :
    (outcome.andThen next).andThen further =
      outcome.andThen fun progress => (next progress).andThen further := by
  obtain ⟨_ | _ | _, progress⟩ := outcome <;> rfl

/-- The flat and the structured walk agree on a block from every session. -/
def BlockAgrees [MailReader] (environment : Environment) (block : Option (List Command)) : Prop :=
  ∀ session : Session, Agrees ((Command.runBlock environment block).apply session)
    (walkBlock environment block session.progress) fun _ => True

/-- What a branch does that is reached before any branch of its chain has held. -/
def tryBranch [MailReader] (environment : Environment) (block : Option (List Command))
    (held : Except Fault Bool) (progress : Progress) : Outcome :=
  match held with
  | .error fault => (.error fault, progress)
  | .ok true => walkBlock environment block progress
  | .ok false => (.ok .continue, progress)

/-- A branch runs its block if its test holds, and records how the test came out. -/
theorem runBranch_agrees [MailReader] (hbudget : environment.maxSteps = none)
    {block : Option (List Command)} (hblock : BlockAgrees environment block) (test : Test)
    (session : Session) :
    Agrees ((runBranch environment test (Command.runBlock environment block)).apply session)
      (tryBranch environment block (test.verdict environment) session.progress)
      (fun after => ∃ result, test.verdict environment = .ok result ∧
        after.condition = ⟨true, result⟩) := by
  obtain ⟨steps, events, happly⟩ := Test.evaluate_settles hbudget test session
  rw [runBranch, Eval.apply_bind, happly]
  cases test.verdict environment with
  | error fault => exact agrees_error fault _ _
  | ok result =>
    cases result with
    | false => exact ⟨rfl, rfl, fun _ => ⟨false, rfl, rfl⟩⟩
    | true =>
      obtain ⟨hresult, hprogress, -⟩ := hblock { session with steps := steps, events := events }
      dsimp only
      rw [if_pos rfl, Eval.apply_bind]
      generalize (Command.runBlock environment block).apply _ = flat at *
      obtain ⟨_ | flow, done⟩ := flat
      · exact ⟨hresult, hprogress, nofun⟩
      · exact ⟨hresult, hprogress, fun _ => ⟨true, rfl, rfl⟩⟩

/-- The condition of a chain none of whose branches has held. -/
def openChain : ConditionState := ⟨true, false⟩

/-- The condition of a chain one of whose branches has held. -/
def spentChain : ConditionState := ⟨true, true⟩

/-- An alternative may stand behind an open or a spent condition. -/
theorem elseBranch_in_place {result : Bool} (hcondition : session.condition = ⟨true, result⟩) :
    CommandKind.elseBranch.objection? session.command session.condition = none := by
  rw [hcondition]
  rfl

/-- The last alternative may stand behind an open or a spent condition. -/
theorem otherwise_in_place {result : Bool} (hcondition : session.condition = ⟨true, result⟩) :
    CommandKind.otherwise.objection? session.command session.condition = none := by
  rw [hcondition]
  rfl

variable [MailReader]

/-- In an open chain an alternative runs like a branch of its own. -/
theorem apply_elseBranch_of_open (line : Nat) (block : Eval Flow) (test : Test)
    (hcondition : session.condition = openChain) :
    (Task.perform environment line block (.elseBranch test)).apply session =
      (runBranch environment test block).apply session := by
  rw [Task.apply_elseBranch, hcondition]
  exact if_pos rfl

/-- In a spent chain an alternative is passed over. -/
theorem apply_elseBranch_of_spent (line : Nat) (block : Eval Flow) (test : Test)
    (hcondition : session.condition = spentChain) :
    (Task.perform environment line block (.elseBranch test)).apply session =
      (.ok .continue, session) := by
  rw [Task.apply_elseBranch, hcondition]
  exact if_neg nofun

/-- In an open chain the last alternative runs its block. -/
theorem apply_otherwise_of_open (line : Nat) (block : Eval Flow)
    (hcondition : session.condition = openChain) :
    (Task.perform environment line block .otherwise).apply session = block.apply session := by
  rw [Task.apply_otherwise, hcondition]
  exact if_pos rfl

/-- In a spent chain the last alternative is passed over. -/
theorem apply_otherwise_of_spent (line : Nat) (block : Eval Flow)
    (hcondition : session.condition = spentChain) :
    (Task.perform environment line block .otherwise).apply session = (.ok .continue, session) := by
  rw [Task.apply_otherwise, hcondition]
  exact if_neg nofun

/-- An `if`, and an `elsif` of an open chain, tries its test. The flags it leaves tell the commands
behind it how the test came out. -/
theorem branch_agrees (hbudget : environment.maxSteps = none)
    (hkind : isKind environment.registries .branch command = true ∨
      isKind environment.registries .elseBranch command = true ∧ session.condition = openChain)
    (hblock : BlockAgrees environment command.block) :
    Agrees ((command.run environment).apply session)
      (tryBranch environment command.block (command.holds environment) session.progress)
      (fun after => after.command.inProlog = false ∧
        ∃ result, command.holds environment = .ok result ∧ after.condition = ⟨true, result⟩) := by
  rw [Command.holds]
  rcases hkind with hkind | ⟨hkind, hcondition⟩
  · have hlookup := isKind_eq_true_iff.mp hkind
    cases hguard : command.guard with
    | error fault =>
      exact .of_task_error hbudget hlookup rfl (by rw [Command.task_branch, hguard]; rfl)
    | ok test =>
      have hrun : command.task .branch = .ok (.branch test) := by
        rw [Command.task_branch, hguard]
        rfl
      have hperform := runBranch_agrees hbudget hblock test (command.ready session)
      refine (Agrees.of_task hbudget hlookup rfl hrun hperform).mono ?_
      rintro after ⟨done, hdone, rfl⟩
      exact ⟨rfl, hdone⟩
  · have hlookup := isKind_eq_true_iff.mp hkind
    have hplace := elseBranch_in_place hcondition
    have hready : (command.ready session).condition = openChain := hcondition
    cases hguard : command.guard with
    | error fault =>
      exact .of_task_error hbudget hlookup hplace (by rw [Command.task_elseBranch, hguard]; rfl)
    | ok test =>
      have hperform := runBranch_agrees hbudget hblock test (command.ready session)
      rw [← apply_elseBranch_of_open command.line _ _ hready] at hperform
      refine (Agrees.of_task hbudget hlookup hplace
        (by rw [Command.task_elseBranch, hguard]; rfl) hperform).mono ?_
      rintro after ⟨done, hdone, rfl⟩
      exact ⟨rfl, hdone⟩

/-- A branch of a spent chain has its arguments checked, and that is all. -/
theorem spent_branch_agrees (hbudget : environment.maxSteps = none)
    (hkind : isKind environment.registries .elseBranch command = true)
    (hcondition : session.condition = spentChain) :
    Agrees ((command.run environment).apply session)
      (.ofCheck (command.guard.map fun _ => ()) session.progress)
      (fun after => after.command.inProlog = false ∧ after.condition = spentChain) := by
  have hlookup := isKind_eq_true_iff.mp hkind
  have hplace := elseBranch_in_place hcondition
  have hready : (command.ready session).condition = spentChain := hcondition
  cases hguard : command.guard with
  | error fault =>
    exact .of_task_error hbudget hlookup hplace (by rw [Command.task_elseBranch, hguard]; rfl)
  | ok test =>
    have hperform : Agrees ((Task.perform environment command.line
        (Command.runBlock environment command.block) (.elseBranch test)).apply
          (command.ready session)) (.ofCheck (.ok ()) session.progress)
        (fun done => done.condition = spentChain) := by
      rw [apply_elseBranch_of_spent _ _ _ hready]
      exact ⟨rfl, rfl, fun _ => hcondition⟩
    refine (Agrees.of_task hbudget hlookup hplace
      (by rw [Command.task_elseBranch, hguard]; rfl) hperform).mono ?_
    rintro after ⟨done, hdone, rfl⟩
    exact ⟨rfl, hdone⟩

/-- What an `else` does that is reached before any branch of its chain has held. -/
def runLast (environment : Environment) (command : Command) (progress : Progress) : Outcome :=
  match command.unguarded with
  | .error fault => (.error fault, progress)
  | .ok () => walkBlock environment command.block progress

/-- An `else` runs its block if its chain is open, and ends the chain. -/
theorem last_agrees (hbudget : environment.maxSteps = none)
    (hkind : isKind environment.registries .otherwise command = true)
    (hcondition : session.condition = openChain) (hblock : BlockAgrees environment command.block) :
    Agrees ((command.run environment).apply session) (runLast environment command session.progress)
      (fun after => after.command.inProlog = false ∧ after.condition = .initial) := by
  have hlookup := isKind_eq_true_iff.mp hkind
  have hplace := otherwise_in_place hcondition
  have hready : (command.ready session).condition = openChain := hcondition
  rw [runLast]
  cases hcheck : command.unguarded with
  | error fault =>
    exact .of_task_error hbudget hlookup hplace (by rw [Command.task_otherwise, hcheck]; rfl)
  | ok _ =>
    have hperform := hblock (command.ready session)
    rw [← apply_otherwise_of_open command.line _ hready] at hperform
    refine (Agrees.of_task hbudget hlookup hplace
      (by rw [Command.task_otherwise, hcheck]; rfl) hperform).mono ?_
    rintro after ⟨done, -, rfl⟩
    exact ⟨rfl, rfl⟩

/-- An `else` of a spent chain has its arguments checked, and ends the chain. -/
theorem spent_last_agrees (hbudget : environment.maxSteps = none)
    (hkind : isKind environment.registries .otherwise command = true)
    (hcondition : session.condition = spentChain) :
    Agrees ((command.run environment).apply session) (.ofCheck command.unguarded session.progress)
      (fun after => after.command.inProlog = false ∧ after.condition = .initial) := by
  have hlookup := isKind_eq_true_iff.mp hkind
  have hplace := otherwise_in_place hcondition
  have hready : (command.ready session).condition = spentChain := hcondition
  cases hcheck : command.unguarded with
  | error fault =>
    exact .of_task_error hbudget hlookup hplace (by rw [Command.task_otherwise, hcheck]; rfl)
  | ok _ =>
    have hperform : Agrees ((Task.perform environment command.line
        (Command.runBlock environment command.block) .otherwise).apply
          (command.ready session)) (.ofCheck (.ok ()) session.progress) (fun _ => True) := by
      rw [apply_otherwise_of_spent _ _ hready]
      exact ⟨rfl, rfl, fun _ => trivial⟩
    refine (Agrees.of_task hbudget hlookup hplace
      (by rw [Command.task_otherwise, hcheck]; rfl) hperform).mono ?_
    rintro after ⟨done, -, rfl⟩
    exact ⟨rfl, rfl⟩

/-- What has to be known of the commands behind a chain: that the walks agree on them from every
session that the chain can leave. -/
def RestAgrees (environment : Environment) (rest : List Command) (next : Progress → Outcome)
    (after : Session → Prop) : Prop :=
  ∀ session : Session, session.command.inProlog = false →
    (session.condition.elseAllowed = true → NoBranchNext environment.registries rest) →
      Agrees ((Command.runAll environment rest).apply session) (next session.progress) after

variable {elsifs rest : List Command} {last : Option Command} {next : Progress → Outcome}
  {after : Session → Prop}

/-- The members of a spent chain are passed over. -/
theorem passOver_agrees (hbudget : environment.maxSteps = none)
    (hproper : (Chain.mk elsifs last rest).Proper environment.registries)
    (hrest : RestAgrees environment rest next after)
    (hprolog : session.command.inProlog = false) (hcondition : session.condition = spentChain) :
    Agrees ((Command.runAll environment (elsifs ++ last.toList ++ rest)).apply session)
      ((Outcome.ofCheck (passOver elsifs last) session.progress).andThen next) after := by
  induction elsifs generalizing session with
  | nil =>
    cases last with
    | none => exact hrest session hprolog fun _ => hproper.rest rfl
    | some command =>
      refine (spent_last_agrees hbudget (hproper.last command rfl) hcondition).runAll_cons _ ?_
      rintro session ⟨hprolog, hcondition⟩
      exact hrest session hprolog fun hallowed => by rw [hcondition] at hallowed; cases hallowed
  | cons branch elsifs ih =>
    have hrun := spent_branch_agrees hbudget (hproper.elsifs branch List.mem_cons_self) hcondition
    rw [passOver]
    cases hguard : branch.guard with
    | error fault =>
      rw [hguard] at hrun
      exact hrun.runAll_cons_error
    | ok test =>
      rw [hguard] at hrun
      refine hrun.runAll_cons (fun progress =>
        (Outcome.ofCheck (passOver elsifs last) progress).andThen next) ?_
      rintro session ⟨hprolog, hcondition⟩
      exact ih hproper.tail hprolog hcondition

/-- A branch that is tried decides how the walk goes on over the other members of its chain. -/
theorem walkChain_cons_agrees (hbudget : environment.maxSteps = none)
    (hkind : isKind environment.registries .branch command = true ∨
      isKind environment.registries .elseBranch command = true ∧ session.condition = openChain)
    (hblock : BlockAgrees environment command.block)
    (hproper : (Chain.mk elsifs last rest).Proper environment.registries)
    (hrest : RestAgrees environment rest next after)
    (hopen : ∀ session : Session,
      session.command.inProlog = false → session.condition = openChain →
        Agrees ((Command.runAll environment (elsifs ++ last.toList ++ rest)).apply session)
          ((walkChain environment elsifs last session.progress).andThen next) after) :
    Agrees
      ((Command.runAll environment (command :: (elsifs ++ last.toList ++ rest))).apply session)
      ((walkChain environment (command :: elsifs) last session.progress).andThen next) after := by
  have hrun := branch_agrees hbudget hkind hblock
  rw [walkChain]
  cases hholds : command.holds environment with
  | error fault =>
    rw [hholds] at hrun
    exact hrun.runAll_cons_error
  | ok held =>
    rw [hholds] at hrun
    cases held with
    | false =>
      refine hrun.runAll_cons (fun progress =>
        (walkChain environment elsifs last progress).andThen next) ?_
      rintro session ⟨hprolog, result, ⟨⟩, hcondition⟩
      exact hopen session hprolog hcondition
    | true =>
      rw [Outcome.andThen_assoc]
      refine hrun.runAll_cons _ ?_
      rintro session ⟨hprolog, result, ⟨⟩, hcondition⟩
      exact passOver_agrees hbudget hproper hrest hprolog hcondition

/-- The members of an open chain run the block of the first of them that holds. -/
theorem walkChain_agrees (hbudget : environment.maxSteps = none)
    (hproper : (Chain.mk elsifs last rest).Proper environment.registries)
    (helsifs : ∀ branch ∈ elsifs, BlockAgrees environment branch.block)
    (hlast : ∀ command ∈ last, BlockAgrees environment command.block)
    (hrest : RestAgrees environment rest next after)
    (hprolog : session.command.inProlog = false) (hcondition : session.condition = openChain) :
    Agrees ((Command.runAll environment (elsifs ++ last.toList ++ rest)).apply session)
      ((walkChain environment elsifs last session.progress).andThen next) after := by
  induction elsifs generalizing session with
  | nil =>
    rw [walkChain.eq_def]
    cases last with
    | none => exact hrest session hprolog fun _ => hproper.rest rfl
    | some command =>
      refine (last_agrees hbudget (hproper.last command rfl) hcondition
        (hlast command rfl)).runAll_cons _ ?_
      rintro session ⟨hprolog, hcondition⟩
      exact hrest session hprolog fun hallowed => by rw [hcondition] at hallowed; cases hallowed
  | cons branch elsifs ih =>
    have hkind := hproper.elsifs branch List.mem_cons_self
    refine walkChain_cons_agrees hbudget (.inr ⟨hkind, hcondition⟩)
      (helsifs branch List.mem_cons_self) hproper.tail hrest ?_
    intro session hprolog hcondition
    exact ih hproper.tail (fun inner hinner => helsifs inner (List.mem_cons_of_mem branch hinner))
      hprolog hcondition

/-- The flat walk over some commands and the walk over their chains agree from every session whose
condition does not let one of them go on with a chain that none of them began. -/
theorem runAll_agrees (hbudget : environment.maxSteps = none) (commands : List Command)
    (session : Session)
    (hbegin : session.condition.elseAllowed = true →
      NoBranchNext environment.registries commands) :
    Agrees ((Command.runAll environment commands).apply session)
      (walk environment session.command.inProlog commands session.progress) fun _ => True := by
  have hblocks : ∀ command ∈ commands, BlockAgrees environment command.block := by
    intro command hcommand session
    have hle := Command.nodes_le_nodesAll hcommand
    have hlt := command.nodes_block_lt
    cases hblock : command.block with
    | none =>
      rw [Command.apply_runBlock_none, walkBlock]
      exact ⟨rfl, rfl, fun _ => trivial⟩
    | some block =>
      have hnodes : Command.nodesAll block < Command.nodesAll commands := by
        rw [hblock, Command.nodes?] at hlt
        omega
      rw [Command.apply_runBlock_some, walkBlock]
      exact runAll_agrees hbudget block session.enterBlock fun hallowed => by cases hallowed
  cases commands with
  | nil =>
    rw [Command.apply_runAll_nil, walk]
    exact ⟨rfl, rfl, fun _ => trivial⟩
  | cons command commands =>
    have hpos := command.nodes_pos
    rw [walk]
    by_cases hbranch : isKind environment.registries .branch command = true
    · rw [if_pos hbranch]
      have hproper := chainOf_proper environment.registries commands
      have hcut := chainOf_append environment.registries commands
      generalize chainOf environment.registries commands = chain at hproper hcut
      obtain ⟨elsifs, last, rest⟩ := chain
      dsimp only at hcut ⊢
      subst hcut
      simp only [List.mem_cons, List.mem_append, Option.mem_toList] at hblocks
      have hrest : RestAgrees environment rest (walk environment false rest) fun _ => True := by
        intro session hprolog hbegin
        have hnodes : Command.nodesAll rest <
            Command.nodesAll (command :: (elsifs ++ last.toList ++ rest)) := by
          simp only [Command.nodesAll_append, Command.nodesAll]
          omega
        exact hprolog ▸ runAll_agrees hbudget rest session hbegin
      refine walkChain_cons_agrees hbudget (.inl hbranch) (hblocks command (.inl rfl)) hproper
        hrest ?_
      intro session hprolog hcondition
      exact walkChain_agrees hbudget hproper
        (fun branch hbranch => hblocks branch (.inr (.inl (.inl hbranch))))
        (fun command hcommand => hblocks command (.inr (.inl (.inr hcommand)))) hrest hprolog
        hcondition
    · rw [if_neg hbranch]
      have hsingle := single_agrees command session hbudget
        (Bool.eq_false_iff.mpr hbranch) fun hallowed => hbegin hallowed command rfl
      refine hsingle.runAll_cons _ ?_
      rintro after ⟨hcondition, hprolog⟩
      have hnodes : Command.nodesAll commands < Command.nodesAll (command :: commands) := by
        simp only [Command.nodesAll]
        omega
      exact hprolog ▸ runAll_agrees hbudget commands after fun hallowed => by
        rw [hcondition] at hallowed
        cases hallowed
termination_by Command.nodesAll commands

end Structured

/-- Without a bound on steps every evaluation ends as the walk over chains does, and takes the same
actions in the same order. -/
theorem Engine.evaluate_eq_structured [MailReader] (registries : Registries) (inbox : String)
    (script : Script) (mail : Message) (actions : List Action) :
    let engine : Engine := ⟨registries, none, inbox⟩
    ((engine.evaluate script mail actions).1, (engine.evaluate script mail actions).2.actions) =
      Structured.evaluate (engine.environment mail) script actions := by
  intro engine
  have hbudget : (engine.environment mail).maxSteps = none := rfl
  have hrun := Structured.runAll_agrees hbudget script
    ((Session.start actions).noted (.started (engine.environment mail).mail.size)) nofun
  obtain ⟨hresult, hprogress, -⟩ := hrun
  rw [Structured.evaluate, Engine.evaluate, Engine.apply_walk]
  change _ = (Structured.walk _ true _ ⟨false, true, actions⟩).1 at hresult
  change _ = (Structured.walk _ true _ ⟨false, true, actions⟩).2 at hprogress
  generalize (Command.runAll _ script).apply _ = flat at hresult hprogress ⊢
  generalize Structured.walk _ true script _ = outcome at hresult hprogress ⊢
  obtain ⟨flatResult, after⟩ := flat
  obtain ⟨result, progress⟩ := outcome
  dsimp only at hresult hprogress
  subst hresult hprogress
  cases flatResult with
  | error fault => rfl
  | ok flow => exact Prod.ext rfl after.actions_kept

end MailFilter
