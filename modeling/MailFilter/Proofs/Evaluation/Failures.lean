import Mathlib.Data.List.Basic
import MailFilter.Host.Reader
import MailFilter.Proofs.Evaluation.Executed

/-!
# What a failed command leaves behind

A command fails before it begins, at a test, at a feature that it requires, or in its block. Before
it begins nothing has happened but that its step was counted, tests do no more than count steps, and
features are looked up before anything is committed. So a command that fails leaves the message and
the flags as they were, unless it fails in its block: there other commands may have run before.
-/

namespace MailFilter

/-- Between two states steps have been counted and events left, and nothing else has changed. -/
structure Session.Unmoved (before after : Session) : Prop where
  actions : after.actions = before.actions
  command : after.command = before.command
  condition : after.condition = before.condition
  steps : before.steps ≤ after.steps
  events : before.events <+: after.events

namespace Session

/-- A session that is left as it was is unmoved. -/
theorem unmoved_refl (session : Session) : session.Unmoved session :=
  ⟨rfl, rfl, rfl, Nat.le_refl _, List.prefix_refl _⟩

/-- A session that is left unmoved twice is unmoved. -/
theorem Unmoved.trans {first second third : Session} (hfirst : first.Unmoved second)
    (hsecond : second.Unmoved third) : first.Unmoved third where
  actions := hsecond.actions.trans hfirst.actions
  command := hsecond.command.trans hfirst.command
  condition := hsecond.condition.trans hfirst.condition
  steps := Nat.le_trans hfirst.steps hsecond.steps
  events := hfirst.events.trans hsecond.events

/-- Counting a step leaves a session unmoved. -/
theorem unmoved_counted (session : Session) : session.Unmoved session.counted :=
  ⟨rfl, rfl, rfl, Nat.le_succ _, List.prefix_refl _⟩

/-- Noting an event leaves a session unmoved. -/
theorem unmoved_noted (session : Session) (event : Event) : session.Unmoved (session.noted event) :=
  ⟨rfl, rfl, rfl, Nat.le_refl _, List.prefix_append ..⟩

/-- Making a command ready leaves a session unmoved. -/
theorem unmoved_ready (command : Command) (session : Session) :
    session.Unmoved (command.ready session) :=
  session.unmoved_counted.trans (session.counted.unmoved_noted _)

end Session

/-- A test moves nothing, however it ends. -/
theorem Test.evaluate_unmoved [MailReader] (environment : Environment) (test : Test) :
    (test.evaluate environment).Within Session.Unmoved :=
  test.evaluate_pair (Eval.testPair_within Session.unmoved_refl Session.Unmoved.trans
    Session.unmoved_counted (fun session _ _ _ => session.unmoved_noted _) environment)

namespace Command

variable [MailReader]

/-- One of some commands that are run in order raises a fault and leaves a state: the commands
before it let the walk go on, and it fails. -/
inductive Raises (environment : Environment) (fault : Fault) (after : Session) :
    List Command → Session → Prop
  | here {command : Command} {commands : List Command} {session : Session}
    (hrun : (command.run environment).apply session = (.error fault, after)) :
    Raises environment fault after (command :: commands) session
  | later {command : Command} {commands : List Command} {session middle : Session}
    (hrun : (command.run environment).apply session = (.ok .continue, middle))
    (hrest : Raises environment fault after commands middle) :
    Raises environment fault after (command :: commands) session

/-- A fault is raised by a command that is executed inside the block of another one: this one is
accepted, its task enters the block, and there the fault is raised. -/
inductive RaisesInside (environment : Environment) (command : Command) (session : Session)
    (fault : Fault) (after : Session) : Prop
  | intro {kind : CommandKind} {task : Task} {entered : Session} {block : List Command}
    (haccept : command.accept environment session = .ok (kind, task))
    (hentered : task.entered? environment (command.ready session) = some entered)
    (hblock : command.block = some block)
    (hraises : Raises environment fault after block entered.enterBlock)

variable {environment : Environment} {fault : Fault} {after session : Session}

/-- Commands that are run in order fail as the first of them does that fails. -/
theorem apply_runAll_eq_error_iff {commands : List Command} :
    (runAll environment commands).apply session = (.error fault, after) ↔
      Raises environment fault after commands session := by
  induction commands generalizing session with
  | nil =>
    rw [apply_runAll_nil]
    exact ⟨nofun, nofun⟩
  | cons command commands ih =>
    rw [apply_runAll_cons]
    constructor
    · intro h
      cases hrun : (command.run environment).apply session with
      | mk result middle =>
        rw [hrun] at h
        obtain failed | _ | _ := result
        · cases h
          exact .here hrun
        · exact .later hrun (ih.mp h)
        · cases h
    · rintro (hrun | ⟨hrun, hrest⟩)
      · rw [hrun]
      · rw [hrun]
        exact ih.mpr hrest

/-- A block fails if one of its commands does, and so there is a block. -/
theorem apply_runBlock_eq_error_iff {block : Option (List Command)} :
    (runBlock environment block).apply session = (.error fault, after) ↔
      ∃ commands, block = some commands ∧
        Raises environment fault after commands session.enterBlock := by
  cases block with
  | none =>
    rw [apply_runBlock_none]
    exact ⟨nofun, nofun⟩
  | some commands =>
    rw [apply_runBlock_some, apply_runAll_eq_error_iff]
    simp

end Command

section

variable {environment : Environment} {block : Eval Flow} {session after entered : Session}
  {fault : Fault}

variable [MailReader]

/-- A branch whose test holds fails if its block does. -/
theorem apply_runBranch_eq_error_iff {test : Test}
    (h : test.entered? environment session = some entered) :
    (runBranch environment test block).apply session = (.error fault, after) ↔
      block.apply entered = (.error fault, after) := by
  rw [Test.entered?] at h
  rw [apply_runBranch]
  split at h
  · next middle htest =>
    cases h
    rw [htest]
    dsimp only
    generalize block.apply entered = done
    obtain ⟨failed | flow, last⟩ := done
    · exact Iff.rfl
    · constructor <;> intro hfault <;> cases hfault
  · cases h

/-- A branch whose test does not hold, or fails, moves nothing before it fails. -/
theorem runBranch_unmoved {test : Test} (h : test.entered? environment session = none)
    (hrun : (runBranch environment test block).apply session = (.error fault, after)) :
    session.Unmoved after := by
  have htest := test.evaluate_unmoved environment session
  rw [Test.entered?] at h
  rw [apply_runBranch] at hrun
  generalize (test.evaluate environment).apply session = tested at h htest hrun
  obtain ⟨failed | _ | _, middle⟩ := tested
  · cases hrun
    exact htest
  · cases hrun
  · cases h

/-- A task that enters the block of its command fails if the block does. -/
theorem Task.apply_perform_eq_error_iff {task : Task} {line : Nat}
    (h : task.entered? environment session = some entered) :
    (task.perform environment line block).apply session = (.error fault, after) ↔
      block.apply entered = (.error fault, after) := by
  cases task with
  | branch test => exact apply_runBranch_eq_error_iff h
  | elseBranch test =>
    rw [entered?] at h
    split at h
    · next hrunnable =>
      rw [apply_elseBranch, if_pos hrunnable]
      exact apply_runBranch_eq_error_iff h
    · cases h
  | otherwise =>
    rw [entered?] at h
    split at h
    · next hrunnable =>
      cases h
      rw [apply_otherwise, if_pos hrunnable]
    · cases h
  | require | stop | discard | act | log => cases h

/-- A task that stays outside the block of its command moves nothing before it fails. -/
theorem Task.perform_unmoved {task : Task} {line : Nat}
    (h : task.entered? environment session = none)
    (hrun : (task.perform environment line block).apply session = (.error fault, after)) :
    session.Unmoved after := by
  cases task with
  | branch test => exact runBranch_unmoved h hrun
  | elseBranch test =>
    rw [entered?] at h
    rw [apply_elseBranch] at hrun
    split at hrun
    · next hrunnable =>
      rw [if_pos hrunnable] at h
      exact runBranch_unmoved h hrun
    · cases hrun
  | otherwise =>
    rw [entered?] at h
    rw [apply_otherwise] at hrun
    split at hrun
    · next hrunnable =>
      rw [if_pos hrunnable] at h
      cases h
    · cases hrun
  | require features =>
    rw [apply_require] at hrun
    obtain rfl : session = after := congrArg Prod.snd hrun
    exact session.unmoved_refl
  | stop | discard | act | log => cases hrun

end

namespace Command

variable {environment : Environment} {command : Command} {session after : Session} {fault : Fault}

/-- A fault raised in the block of a command is the fault of the command, and the state is left as
it is there. -/
theorem RaisesInside.apply_run [MailReader]
    (h : RaisesInside environment command session fault after) :
    (command.run environment).apply session = (.error fault, after) := by
  obtain ⟨haccept, hentered, hblock, hraises⟩ := h
  have hinner := apply_runBlock_eq_error_iff.mpr ⟨_, hblock, hraises⟩
  rw [Command.apply_run, haccept]
  dsimp only
  rw [(Task.apply_perform_eq_error_iff hentered).mpr hinner]

/-- A command that fails, and not by a fault raised in its block, leaves the actions and the flags
of the state as they were: it has only counted steps and left events about them. -/
theorem run_failed_unmoved [MailReader]
    (hrun : (command.run environment).apply session = (.error fault, after))
    (hinside : ¬RaisesInside environment command session fault after) :
    session.Unmoved after := by
  rw [apply_run] at hrun
  cases haccept : command.accept environment session with
  | error refusal =>
    rw [haccept] at hrun
    cases hrun
    exact session.unmoved_counted
  | ok accepted =>
    obtain ⟨kind, task⟩ := accepted
    rw [haccept] at hrun
    have hperform : (task.perform environment command.line
        (runBlock environment command.block)).apply (command.ready session) =
          (.error fault, after) := by
      dsimp only at hrun
      generalize (task.perform environment _ _).apply _ = done at hrun ⊢
      obtain ⟨failed | flow, last⟩ := done
      · exact hrun
      · cases hrun
    cases hentered : task.entered? environment (command.ready session) with
    | none =>
      exact (Session.unmoved_ready command session).trans (Task.perform_unmoved hentered hperform)
    | some entered =>
      have hinner := (Task.apply_perform_eq_error_iff hentered).mp hperform
      obtain ⟨block, hblock, hraises⟩ := apply_runBlock_eq_error_iff.mp hinner
      exact absurd (.intro haccept hentered hblock hraises) hinside

/-- A branch that would discard the message if the second part of its test were not malformed. -/
def discardingUnlessMalformed : Command :=
  ⟨"if", [], some [⟨"allof", [], some [⟨"true", [], none, 1⟩, ⟨"not", [], none, 2⟩], 1⟩],
    some [⟨"discard", [], none, none, 3⟩], 1⟩

/-- The state that this branch leaves of one in which the message has been kept. -/
def discardingFailed : Session :=
  ((run (Engine.default.environment (.ofBytes [] none none))
    discardingUnlessMalformed).apply (.start [.keep])).2

/-- A branch whose test is malformed in its second part fails outside its block, and nothing is
moved although the first part has been evaluated. -/
theorem run_failed_unmoved_malformed :
    let environment := Engine.default.environment (.ofBytes [] none none)
    (run environment discardingUnlessMalformed).apply (.start [.keep]) =
        (.error (.arguments "not" 2 (.nestedTestCount 0)), discardingFailed) ∧
      (¬RaisesInside environment discardingUnlessMalformed (.start [.keep])
        (.arguments "not" 2 (.nestedTestCount 0)) discardingFailed) ∧
        (Session.start [.keep]).Unmoved discardingFailed := by
  intro environment
  have hrun : (run environment discardingUnlessMalformed).apply (.start [.keep]) =
      (.error (.arguments "not" 2 (.nestedTestCount 0)), discardingFailed) :=
    Prod.ext (by decide +kernel) rfl
  have hinside : ¬RaisesInside environment discardingUnlessMalformed (.start [.keep])
      (.arguments "not" 2 (.nestedTestCount 0)) discardingFailed := by
    rintro ⟨haccept, hentered, -, -⟩
    cases haccept
    have houtside : (Task.entered? environment (ready discardingUnlessMalformed (.start [.keep]))
        (.branch ⟨"allof", [], some [⟨"true", [], none, 1⟩, ⟨"not", [], none, 2⟩], 1⟩)).isNone := by
      decide +kernel
    rw [hentered] at houtside
    cases houtside
  exact ⟨hrun, hinside, run_failed_unmoved hrun hinside⟩

end Command

end MailFilter
