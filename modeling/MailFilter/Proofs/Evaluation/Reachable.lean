import MailFilter.Proofs.Evaluation.Changes

/-!
# The states an evaluation reaches

The flags of a state are not independent, and none of them is ever taken back: the prolog ends once,
the message stops being kept by default once, it is rejected once. Every elementary change respects
that, so it holds between any two commands, however the ones before have ended. One consequence is
that a rejection is the last thing that is decided about a message.
-/

namespace MailFilter

namespace Session

/-- What holds of a state between two commands. -/
structure Coherent (session : Session) : Prop where
  /-- In the prolog nothing has been done to the message, and no chain is open. -/
  prolog : session.command.inProlog = true → session.condition = .initial ∧
    session.command.implicitKeep = true ∧ session.command.rejected = false ∧
      session.command.hasActions = false
  rejected : session.command.rejected = true → session.command.implicitKeep = false
  /-- Keeping by default only ends with something that a command did. -/
  revoked : session.command.implicitKeep = false → session.command.hasActions = true
  acted : session.actions ≠ [] → session.command.hasActions = true
  chain : session.condition.lastTestResult = true → session.condition.elseAllowed = true

/-- The state that an evaluation starts in is coherent. -/
theorem coherent_start : (start []).Coherent where
  prolog _ := ⟨rfl, rfl, rfl, rfl⟩
  rejected := nofun
  revoked := nofun
  acted hactions := absurd rfl hactions
  chain := nofun

/-- Outside the prolog and with no chain open, the remaining parts are about what was done. -/
theorem coherent_of_closed {session : Session} (hprolog : session.command.inProlog = false)
    (hcondition : session.condition = .initial)
    (hrejected : session.command.rejected = true → session.command.implicitKeep = false)
    (hrevoked : session.command.implicitKeep = false → session.command.hasActions = true)
    (hacted : session.actions ≠ [] → session.command.hasActions = true) : session.Coherent where
  prolog h := by rw [hprolog] at h; cases h
  rejected := hrejected
  revoked := hrevoked
  acted := hacted
  chain h := by rw [hcondition] at h; cases h

/-- An action is only taken for a message that has not been rejected, and revokes the keeping by
default if it rejects the message. -/
theorem coherent_acted {session : Session} (line : Nat) (action : Action)
    (hrejected : session.command.rejected = false) :
    (CommandKind.keep.commit (session.act line action)).Coherent := by
  refine coherent_of_closed rfl rfl ?_ (fun _ => rfl) fun _ => rfl
  cases action with
  | vacation reply =>
    intro h
    change session.command.rejected = true at h
    rw [hrejected] at h
    cases h
  | keep | fileInto _ | redirect _ | reject _ => exact fun _ => rfl

/-- To stay coherent is a relation that every step of an evaluation keeps. -/
theorem stepRelation_coherent :
    StepRelation fun before after => before.Coherent → after.Coherent where
  refl _ := id
  trans hfirst hsecond := hsecond ∘ hfirst
  counted _ h := ⟨h.prolog, h.rejected, h.revoked, h.acted, h.chain⟩
  noted _ _ _ h := ⟨h.prolog, h.rejected, h.revoked, h.acted, h.chain⟩
  entered _ h := coherent_of_closed rfl rfl h.rejected h.revoked h.acted
  required _ _ h :=
    ⟨fun hprolog => ⟨rfl, (h.prolog hprolog).2⟩, h.rejected, h.revoked, h.acted, nofun⟩
  acted _ line action hrejected _ := coherent_acted line action hrejected
  discarded _ _ _ := coherent_of_closed rfl rfl (fun _ => rfl) (fun _ => rfl) fun _ => rfl
  branched _ _ h := ⟨nofun, h.rejected, h.revoked, h.acted, fun _ => rfl⟩
  passed _ h := ⟨nofun, h.rejected, h.revoked, h.acted, h.chain⟩
  closed _ h := coherent_of_closed rfl rfl h.rejected h.revoked h.acted

/-- No flag has been taken back between two states. -/
structure Onward (before after : Session) : Prop where
  prolog : after.command.inProlog = true → before.command.inProlog = true
  kept : after.command.implicitKeep = true → before.command.implicitKeep = true
  rejected : before.command.rejected = true → after.command.rejected = true
  acted : before.command.hasActions = true → after.command.hasActions = true

/-- A change that ends the prolog at most takes no flag back. -/
theorem onward_of_eq {before after : Session}
    (hprolog : after.command.inProlog = true → before.command.inProlog = true)
    (hkept : after.command.implicitKeep = before.command.implicitKeep)
    (hrejected : after.command.rejected = before.command.rejected)
    (hacted : after.command.hasActions = before.command.hasActions) : before.Onward after :=
  ⟨hprolog, hkept ▸ id, hrejected ▸ id, hacted ▸ id⟩

/-- An action that has been committed takes no flag back. -/
theorem onward_acted (session : Session) (line : Nat) (action : Action) :
    session.Onward (CommandKind.keep.commit (session.act line action)) := by
  cases action with
  | vacation reply => exact ⟨nofun, id, id, fun _ => rfl⟩
  | reject text => exact ⟨nofun, nofun, fun _ => rfl, fun _ => rfl⟩
  | keep | fileInto _ | redirect _ => exact ⟨nofun, nofun, id, fun _ => rfl⟩

/-- To take no flag back is a relation that every step of an evaluation keeps. -/
theorem stepRelation_onward : StepRelation Onward where
  refl _ := onward_of_eq id rfl rfl rfl
  trans hfirst hsecond :=
    ⟨hfirst.prolog ∘ hsecond.prolog, hfirst.kept ∘ hsecond.kept,
      hsecond.rejected ∘ hfirst.rejected, hsecond.acted ∘ hfirst.acted⟩
  counted _ := onward_of_eq id rfl rfl rfl
  noted _ _ _ := onward_of_eq id rfl rfl rfl
  entered _ := onward_of_eq nofun rfl rfl rfl
  required _ _ := onward_of_eq id rfl rfl rfl
  acted session line action _ := session.onward_acted line action
  discarded _ _ := ⟨nofun, nofun, id, fun _ => rfl⟩
  branched _ _ := onward_of_eq nofun rfl rfl rfl
  passed _ := onward_of_eq nofun rfl rfl rfl
  closed _ := onward_of_eq nofun rfl rfl rfl

end Session

namespace Command

variable [MailReader]

/-- What commands do to the state one by one, they do to it in a row, although none of them looks at
how the one before it ended. -/
theorem afterEach_change {change : Session → Session → Prop} (h : StepRelation change)
    (environment : Environment) (commands : List Command) (session : Session) :
    change session (afterEach environment commands session) := by
  induction commands generalizing session with
  | nil => exact h.refl session
  | cons command commands ih =>
    exact h.trans (command.run_within h environment session) (ih _)

/-- Whatever commands have run one after the other from the beginning, going on behind stops and
faults, the state is coherent, and none of its flags is taken back by the commands that follow. -/
theorem afterEach_reachable (environment : Environment) (commands further : List Command) :
    (afterEach environment commands (.start [])).Coherent ∧
      (afterEach environment commands (.start [])).Onward
        (afterEach environment (commands ++ further) (.start [])) := by
  have hcoherent := afterEach_change Session.stepRelation_coherent environment commands (.start [])
  have hsplit : afterEach environment (commands ++ further) (.start []) =
      afterEach environment further (afterEach environment commands (.start [])) :=
    List.foldl_append
  rw [hsplit]
  exact ⟨hcoherent Session.coherent_start,
    afterEach_change Session.stepRelation_onward environment further _⟩

end Command

/-- How the actions of a state stand to some actions that were there before: either none of those
appended rejects the message, or the last one does, and the state remembers that. -/
inductive Session.Standing (actions : List Action) (session : Session) : Prop where
  | unrejected (appended : List Action) (appends : session.actions = actions ++ appended)
      (free : ∀ text, Action.reject text ∉ appended)
  | rejected (front : List Action) (text : String)
      (appends : session.actions = actions ++ (front ++ [.reject text]))
      (free : ∀ other, Action.reject other ∉ front)
      (remembered : session.command.rejected = true)
      (revoked : session.command.implicitKeep = false)

namespace Session

variable {actions : List Action}

/-- A change that takes no action and no flag back leaves the standing as it is. -/
theorem Standing.mono {before after : Session} (h : before.Standing actions)
    (hactions : after.actions = before.actions) (honward : before.Onward after) :
    after.Standing actions := by
  cases h with
  | unrejected appended hbefore hnone => exact .unrejected appended (hactions.trans hbefore) hnone
  | rejected front text hbefore hnone hrejected hkeep =>
    refine .rejected front text (hactions.trans hbefore) hnone (honward.rejected hrejected) ?_
    exact Bool.eq_false_iff.mpr (Bool.eq_false_iff.mp hkeep ∘ honward.kept)

/-- The flags still stand for the actions once an action has been committed. -/
theorem standing_acted {session : Session} (h : session.Standing actions) (line : Nat)
    (action : Action) (hplace : session.command.rejected = false) :
    (CommandKind.keep.commit (session.act line action)).Standing actions := by
  cases h with
  | rejected front text _ _ hrejected _ =>
    rw [hplace] at hrejected
    cases hrejected
  | unrejected appended hbefore hnone =>
    have hactions : (CommandKind.keep.commit (session.act line action)).actions =
        actions ++ (appended ++ [action]) := by
      rw [← List.append_assoc, ← hbefore]
      rfl
    cases action with
    | reject text => exact .rejected appended text hactions hnone rfl rfl
    | keep | fileInto _ | redirect _ | vacation _ =>
      exact .unrejected _ hactions fun text => by simpa using hnone text

/-- That the flags stand for the actions is kept by every step of an evaluation. -/
theorem stepRelation_standing (actions : List Action) :
    StepRelation fun before after => before.Standing actions → after.Standing actions where
  refl _ := id
  trans hfirst hsecond := hsecond ∘ hfirst
  counted session h := h.mono rfl (stepRelation_onward.counted session)
  noted session event hevent h := h.mono rfl (stepRelation_onward.noted session event hevent)
  entered session h := h.mono rfl (stepRelation_onward.entered session)
  required session hprolog h := h.mono rfl (stepRelation_onward.required session hprolog)
  acted _ line action hplace h := standing_acted h line action hplace
  discarded session line h := h.mono rfl (stepRelation_onward.discarded session line)
  branched session result h := h.mono rfl (stepRelation_onward.branched session result)
  passed session h := h.mono rfl (stepRelation_onward.passed session)
  closed session h := h.mono rfl (stepRelation_onward.closed session)

/-- A rejected message is not kept at the end. -/
theorem Standing.kept {session : Session} (h : session.Standing actions) :
    session.kept.Standing actions := by
  rw [Session.kept]
  split
  · next hkeep =>
    cases h with
    | unrejected appended hbefore hnone =>
      refine .unrejected (appended ++ [.keep]) ?_ fun text => by simpa using hnone text
      rw [← List.append_assoc, ← hbefore]
    | rejected _ _ _ _ _ hrevoked =>
      rw [hkeep] at hrevoked
      cases hrevoked
  · exact h

end Session

/-- Among the actions that an evaluation appends at most one rejects the message, and it is the last
one, whatever the evaluation ends in. -/
theorem Engine.evaluate_rejects_last [MailReader] (engine : Engine) (script : Script)
    (mail : Message) (actions : List Action) :
    ∃ appended, (engine.evaluate script mail actions).2.actions = actions ++ appended ∧
      ((∀ text, .reject text ∉ appended) ∨
        ∃ front text, appended = front ++ [.reject text] ∧ ∀ other, .reject other ∉ front) := by
  have hopened : (Session.opened mail actions).Standing actions :=
    .unrejected [] (List.append_nil _).symm fun _ => List.not_mem_nil
  have hrun := Command.runAll_change (Session.stepRelation_standing actions)
    (engine.environment mail) script (.opened mail actions) hopened
  have hended : (engine.evaluate script mail actions).2.Standing actions := by
    rw [evaluate_eq_ending]
    generalize (Command.runAll _ script).apply _ = done at hrun ⊢
    obtain ⟨fault | flow, after⟩ := done
    · exact hrun.mono rfl (Session.onward_of_eq id rfl rfl rfl)
    · exact hrun.kept.mono rfl (Session.onward_of_eq id rfl rfl rfl)
  cases hended with
  | unrejected appended hactions hnone => exact ⟨appended, hactions, .inl hnone⟩
  | rejected front text hactions hnone _ _ =>
    exact ⟨front ++ [.reject text], hactions, .inr ⟨front, text, rfl, hnone⟩⟩

end MailFilter
