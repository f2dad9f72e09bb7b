import MailFilter.Host.Reader
import MailFilter.Proofs.Evaluation.Changes
import MailFilter.Proofs.Evaluation.Comparison

/-!
# A bound on steps cuts an evaluation short

Steps are counted one by one, and the count is all that a bound looks at. So an evaluation under a
bound does what the same evaluation does without one, up to the first step beyond the bound. There
it fails, wherever in a script that step is, and what it has done by then is the beginning of what
the other evaluation does.
-/

namespace MailFilter

namespace Session

/-- Steps are added to the count and actions to the end of the list, and nothing is taken back. -/
structure Grows (before after : Session) : Prop where
  steps : before.steps ≤ after.steps
  actions : before.actions <+: after.actions

/-- A session that has the same steps and actions as before has grown. -/
theorem grows_of_eq {before after : Session} (hsteps : after.steps = before.steps)
    (hactions : after.actions = before.actions) : before.Grows after :=
  ⟨Nat.le_of_eq hsteps.symm, hactions ▸ List.prefix_refl _⟩

/-- A session grows by an action. -/
theorem grows_act (session : Session) (line : Nat) (action : Action) :
    session.Grows (session.act line action) :=
  ⟨Nat.le_refl _, List.prefix_append ..⟩

/-- Growing is a relation that every step of an evaluation keeps. -/
theorem stepRelation_grows : StepRelation Grows where
  refl _ := grows_of_eq rfl rfl
  trans hfirst hsecond :=
    ⟨Nat.le_trans hfirst.steps hsecond.steps, hfirst.actions.trans hsecond.actions⟩
  counted _ := ⟨Nat.le_succ _, List.prefix_refl _⟩
  noted _ _ _ := grows_of_eq rfl rfl
  entered _ := grows_of_eq rfl rfl
  required _ _ := grows_of_eq rfl rfl
  acted session line action _ :=
    ⟨Nat.le_refl _, (session.grows_act line action).actions⟩
  discarded _ _ := grows_of_eq rfl rfl
  branched _ _ := grows_of_eq rfl rfl
  passed _ := grows_of_eq rfl rfl
  closed _ := grows_of_eq rfl rfl

/-- No change but the counting of a step touches the count. -/
theorem Update.steps_eq {change : Session → Session} (h : Update change) (session : Session) :
    (change session).steps = session.steps := by
  cases h with
  | committed kind => cases kind <;> rfl
  | _ => rfl

/-- An update takes no action back. -/
theorem Update.actions_prefix {change : Session → Session} (h : Update change)
    (session : Session) : session.actions <+: (change session).actions := by
  cases h with
  | acted line action => exact (session.grows_act line action).actions
  | committed kind => cases kind <;> exact List.prefix_refl _
  | _ => exact List.prefix_refl _

end Session

namespace Eval

variable {α β : Type} {limit : Nat}

/-- A run that has failed at the step after the last one allowed, with the beginning of the actions
of a given state. -/
structure Exceeds (limit : Nat) (free : Session) (run : Except Fault α × Session) : Prop where
  fault : ∃ name line, run.1 = .error (.command name line (.budgetExceeded limit))
  steps : run.2.steps = limit + 1
  actions : run.2.actions <+: free.actions

/-- A step without a bound, and the same step under one: they do the same if the bound is kept, and
the second fails where the first goes beyond it. -/
structure CutShort (limit : Nat) (free bounded : Eval α) : Prop where
  grows : free.Within Session.Grows
  within : ∀ session : Session, (free.apply session).2.steps ≤ limit →
    bounded.apply session = free.apply session
  beyond : ∀ session : Session, session.steps ≤ limit → limit < (free.apply session).2.steps →
    Exceeds limit (free.apply session).2 (bounded.apply session)

/-- A step that counts nothing is the same with and without a bound. -/
theorem cutShort_self {step : Eval α}
    (hsteps : ∀ session, (step.apply session).2.steps = session.steps)
    (hactions : ∀ session, session.actions <+: (step.apply session).2.actions) :
    CutShort limit step step where
  grows session := ⟨Nat.le_of_eq (hsteps session).symm, hactions session⟩
  within _ _ := rfl
  beyond session hkept hexceeded := by
    rw [hsteps] at hexceeded
    omega

/-- A result that is known does not depend on the budget. -/
theorem cutShort_ofExcept (result : Except Fault α) :
    CutShort limit (ofExcept result) (ofExcept result) :=
  cutShort_self (fun _ => rfl) fun _ => List.prefix_refl _

/-- An update does not depend on the budget. -/
theorem cutShort_update {change : Session → Session} (h : Session.Update change) :
    CutShort limit (update change) (update change) :=
  cutShort_self h.steps_eq h.actions_prefix

/-- A step either stays within the budget or is the one that is cut short. -/
theorem cutShort_tick (registries : Registries) (mail : Message) (name : String) (line : Nat) :
    CutShort limit (tick ⟨registries, none, mail⟩ name line)
      (tick ⟨registries, some limit, mail⟩ name line) where
  grows := within_tick_of_counted Session.stepRelation_grows.counted _ name line
  within session hkept := by
    have hlimit : session.steps + 1 ≤ limit := hkept
    rw [apply_tick, apply_tick, Environment.exceeded?_of_bounded rfl,
      Environment.exceeded?_of_unbounded rfl, if_neg (Nat.not_lt.mpr hlimit)]
  beyond session hkept hexceeded := by
    have hlimit : limit < session.steps + 1 := hexceeded
    have hcount : session.counted.steps = limit + 1 := by
      simp only [Session.counted]
      omega
    rw [apply_tick, apply_tick, Environment.exceeded?_of_unbounded rfl,
      Environment.exceeded?_of_bounded rfl, if_pos hlimit]
    exact ⟨⟨name, line, rfl⟩, hcount, List.prefix_refl _⟩

/-- If the first of two steps is cut short, so is the sequence; if it is not, the second decides. -/
theorem CutShort.bind {step other : Eval α} {next further : α → Eval β}
    (hstep : CutShort limit step other)
    (hnext : ∀ value, CutShort limit (next value) (further value)) :
    CutShort limit (step >>= next) (other >>= further) where
  grows := hstep.grows.bind Session.stepRelation_grows fun value => (hnext value).grows
  within session hkept := by
    have hfirst := hstep.within session
    rw [apply_bind] at hkept ⊢
    rw [apply_bind]
    generalize step.apply session = done at hkept hfirst ⊢
    obtain ⟨fault | value, middle⟩ := done
    · rw [hfirst hkept]
    · have hgrows := (hnext value).grows middle
      rw [hfirst (Nat.le_trans hgrows.steps hkept)]
      exact (hnext value).within middle hkept
  beyond session hkept hexceeded := by
    have hfirst := hstep.within session
    have hcut := hstep.beyond session hkept
    rw [apply_bind] at hexceeded ⊢
    rw [apply_bind]
    generalize step.apply session = done at hexceeded hfirst hcut ⊢
    obtain ⟨result, middle⟩ := done
    by_cases hmiddle : middle.steps ≤ limit
    · rw [hfirst hmiddle]
      cases result with
      | error fault => exact absurd hmiddle (Nat.not_le.mpr hexceeded)
      | ok value => exact (hnext value).beyond middle hmiddle hexceeded
    · obtain ⟨⟨name, line, hfault⟩, hsteps, hactions⟩ := hcut (Nat.not_le.mp hmiddle)
      generalize other.apply session = cut at hfault hsteps hactions
      obtain ⟨cutResult, cutSession⟩ := cut
      subst hfault
      refine ⟨⟨name, line, rfl⟩, hsteps, hactions.trans ?_⟩
      -- What the unbounded run does behind the cut adds to the actions only.
      cases result with
      | error fault => exact List.prefix_refl _
      | ok value => exact ((hnext value).grows middle).actions

/-- Whatever a command does, it does the same under a budget or is cut short. -/
theorem commandPair_cutShort (registries : Registries) (mail : Message) (limit : Nat) :
    CommandPair ⟨registries, none, mail⟩ ⟨registries, some limit, mail⟩
      fun free bounded => CutShort limit free bounded where
  result value := cutShort_ofExcept (.ok value)
  bind := CutShort.bind
  registries := rfl
  mail := rfl
  outcome := cutShort_ofExcept
  tick := cutShort_tick registries mail
  testDone name line result := cutShort_update (.noted (.testDone name line result))
  update := cutShort_update
  get hnext :=
    ⟨fun session => (hnext session session rfl rfl).grows session,
      fun session => (hnext session session rfl rfl).within session,
      fun session => (hnext session session rfl rfl).beyond session⟩

end Eval

/-- The actions at the end of an evaluation begin with those that its commands have left. -/
theorem Engine.actions_prefix_ending (done : Except Fault Flow × Session) :
    done.2.actions <+: (ending done).2.actions := by
  obtain ⟨fault | flow, after⟩ := done
  · exact List.prefix_refl _
  · change after.actions <+: after.kept.actions
    rw [Session.actions_kept]
    split
    · exact List.prefix_append ..
    · exact List.prefix_refl _

/-- Under a bound that it keeps anyway an evaluation is the same. Under any other it fails for the
bound, one step beyond it, and the actions that it has appended by then are the beginning of those
that it would have appended. -/
theorem Engine.evaluate_cut_short [MailReader] (registries : Registries) (inbox : String)
    (limit : Nat) (script : Script) (mail : Message) (actions : List Action) :
    let free := Engine.evaluate ⟨registries, none, inbox⟩ script mail actions
    let bounded := Engine.evaluate ⟨registries, some limit, inbox⟩ script mail actions
    (free.2.steps ≤ limit → bounded = free) ∧
      (limit < free.2.steps →
        (∃ name line, bounded.1 = .error (.command name line (.budgetExceeded limit))) ∧
          bounded.2.steps = limit + 1 ∧
            ∃ cut rest, bounded.2.actions = actions ++ cut ∧
              free.2.actions = actions ++ cut ++ rest) := by
  intro free bounded
  have hcut := Command.runAll_related (Eval.commandPair_cutShort registries mail limit) script
  have hwithin := hcut.within (.opened mail actions)
  have hbeyond := hcut.beyond (.opened mail actions) (Nat.zero_le limit)
  have hgrows := Command.runAll_change Session.stepRelation_grows
    ⟨registries, some limit, mail⟩ script (.opened mail actions)
  have hfree : free = ending ((Command.runAll ⟨registries, none, mail⟩ script).apply _) :=
    evaluate_eq_ending _ script mail actions
  have hbounded :
      bounded = ending ((Command.runAll ⟨registries, some limit, mail⟩ script).apply _) :=
    evaluate_eq_ending _ script mail actions
  generalize (Command.runAll ⟨registries, none, mail⟩ script).apply _ = done at *
  generalize (Command.runAll ⟨registries, some limit, mail⟩ script).apply _ = stopped at *
  rw [hfree, hbounded, steps_ending]
  refine ⟨fun hkept => by rw [hwithin hkept], fun hexceeded => ?_⟩
  obtain ⟨⟨name, line, hfault⟩, hsteps, hactions⟩ := hbeyond hexceeded
  obtain ⟨result, after⟩ := stopped
  subst hfault
  refine ⟨⟨name, line, rfl⟩, hsteps, ?_⟩
  obtain ⟨cut, hcut⟩ := hgrows.actions
  obtain ⟨rest, hrest⟩ := hactions.trans (actions_prefix_ending done)
  exact ⟨cut, rest, hcut.symm, by rw [← hrest, ← hcut]; rfl⟩

/-- A script of four steps, which keeps the message twice in one block. -/
def Script.keepingTwice : Script :=
  [⟨"if", [], some [⟨"true", [], none, 1⟩],
    some [⟨"keep", [], none, none, 2⟩, ⟨"keep", [], none, none, 3⟩], 1⟩]

/-- The run of this script under a bound. -/
def Engine.keepsTwice (bound : Option Nat) : Except Fault Unit × Session :=
  Engine.evaluate ⟨.builtin, bound, "INBOX"⟩ .keepingTwice (.ofBytes [10, 72] none none) []

/-- A script of four steps under budgets of four and of three: the one changes nothing, and the
other ends it with a fault at the fourth. -/
theorem Engine.evaluate_cut_short_keepingTwice :
    ((keepsTwice none).2.steps ≤ 4 ∧ keepsTwice (some 4) = keepsTwice none) ∧
      3 < (keepsTwice none).2.steps ∧
        (∃ name line,
          (keepsTwice (some 3)).1 = .error (.command name line (.budgetExceeded 3))) ∧
          (keepsTwice (some 3)).2.steps = 3 + 1 ∧
            ∃ cut rest, (keepsTwice (some 3)).2.actions = [] ++ cut ∧
              (keepsTwice none).2.actions = [] ++ cut ++ rest := by
  have hsteps : (keepsTwice none).2.steps = 4 := by decide +kernel
  have hkept : (keepsTwice none).2.steps ≤ 4 := Nat.le_of_eq hsteps
  have hexceeded : 3 < (keepsTwice none).2.steps := Nat.lt_of_lt_of_eq (by decide) hsteps.symm
  exact ⟨⟨hkept, (evaluate_cut_short .builtin "INBOX" 4 .keepingTwice (.ofBytes [10, 72] none none)
      []).1 hkept⟩,
    hexceeded, (evaluate_cut_short .builtin "INBOX" 3 .keepingTwice (.ofBytes [10, 72] none none)
      []).2 hexceeded⟩

end MailFilter
