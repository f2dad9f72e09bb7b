import MailFilter.Evaluation.Tests
import MailFilter.Proofs.Script.Induction

/-!
# What a test means

Without a bound on the number of steps the result of a test is settled by the message alone: `allof`
is the first result of its parts that is not true, `anyof` the first that is not false, and `not`
turns the result of its part around. The evaluator finds this result, and all that it changes is the
count of steps and the trace.
-/

namespace MailFilter

namespace Eval

variable {α β : Type}

/-- From every state a step comes to the same result, and changes the count of steps and the trace
only. -/
def Settles (step : Eval α) (result : Except Fault α) : Prop :=
  ∀ session : Session, ∃ steps events,
    step.apply session = (result, { session with steps := steps, events := events })

/-- A result that is known is settled. -/
theorem settles_ofExcept (result : Except Fault α) : (ofExcept result).Settles result :=
  fun session => ⟨session.steps, session.events, rfl⟩

/-- A value that is given back is settled. -/
theorem settles_pure (value : α) : (pure value : Eval α).Settles (.ok value) :=
  settles_ofExcept (.ok value)

/-- A fault that is raised is settled. -/
theorem settles_throw (fault : Fault) : (throw fault : Eval α).Settles (.error fault) :=
  settles_ofExcept (.error fault)

/-- Noting an event is settled to succeed. -/
theorem settles_note (event : Event) : (note event).Settles (.ok ()) :=
  fun session => ⟨session.steps, session.events ++ [event], rfl⟩

/-- Counting a step is settled to succeed if there is no budget. -/
theorem settles_tick {environment : Environment} (hbudget : environment.maxSteps = none)
    (name : String) (line : Nat) : (tick environment name line).Settles (.ok ()) := by
  intro session
  exact ⟨session.steps + 1, session.events, by simp [tick, hbudget]⟩

/-- A step that settles on a value hands it on. -/
theorem Settles.bind_ok {step : Eval α} {next : α → Eval β} {value : α} {result : Except Fault β}
    (hstep : step.Settles (.ok value)) (hnext : (next value).Settles result) :
    (step >>= next).Settles result := by
  intro session
  obtain ⟨steps, events, happly⟩ := hstep session
  obtain ⟨steps', events', happly'⟩ := hnext { session with steps := steps, events := events }
  exact ⟨steps', events', by rw [apply_bind, happly]; exact happly'⟩

/-- A step that settles on a fault ends what follows. -/
theorem Settles.bind_error {step : Eval α} {next : α → Eval β} {fault : Fault}
    (hstep : step.Settles (.error fault)) : (step >>= next).Settles (.error fault) := by
  intro session
  obtain ⟨steps, events, happly⟩ := hstep session
  exact ⟨steps, events, by rw [apply_bind, happly]⟩

/-- A note of the value leaves the result of a step as it is. -/
theorem Settles.noted {step : Eval α} {result : Except Fault α} (hstep : step.Settles result)
    (event : α → Event) :
    (do let value ← step; note (event value); return value).Settles result := by
  cases result with
  | error fault => exact hstep.bind_error
  | ok value => exact hstep.bind_ok ((settles_note _).bind_ok (settles_pure value))

/-- A step that is settled stays so if its value is changed. -/
theorem Settles.map {step : Eval α} {result : Except Fault α} (hstep : step.Settles result)
    (f : α → β) : (f <$> step).Settles (result.map f) := by
  rw [map_eq_pure_bind]
  cases result with
  | error fault => exact hstep.bind_error
  | ok value => exact hstep.bind_ok (settles_pure (f value))

end Eval

/-- The first of some results that is not the usual truth value, or that value if there is none. -/
def firstOther (usual : Bool) : List (Except Fault Bool) → Except Fault Bool
  | [] => .ok usual
  | .ok result :: results => if result = usual then firstOther usual results else .ok result
  | .error fault :: _ => .error fault

variable [MailReader]

namespace Test

mutual

/-- The result that a test stands for. -/
def verdict (environment : Environment) : Test → Except Fault Bool
  | ⟨name, arguments, tests, line⟩ =>
    let test : Test := ⟨name, arguments, tests, line⟩
    match environment.registries.tests.lookup name with
    | .error fault => .error fault
    | .ok .address => test.address environment
    | .ok .envelope => test.envelope environment
    | .ok .header => test.header environment
    | .ok .exists => test.exists environment
    | .ok .size => test.size environment
    | .ok .true => test.constant true
    | .ok .false => test.constant false
    | .ok .not =>
      match arguments, tests with
      | [], some [inner] => (verdict environment inner).map (!·)
      | _, _ => .error test.combinatorFault
    | .ok .allof =>
      match arguments, tests with
      | [], some (first :: others) => firstOther true (verdicts environment (first :: others))
      | _, _ => .error test.combinatorFault
    | .ok .anyof =>
      match arguments, tests with
      | [], some (first :: others) => firstOther false (verdicts environment (first :: others))
      | _, _ => .error test.combinatorFault

/-- The results that some tests stand for, in order. -/
def verdicts (environment : Environment) : List Test → List (Except Fault Bool)
  | [] => []
  | test :: tests => verdict environment test :: verdicts environment tests

end

variable {environment : Environment}

/-- Asking for all of some tests comes to their first verdict that is not true. -/
theorem evaluateAll_settles {tests : List Test}
    (htests : ∀ test ∈ tests, (test.evaluate environment).Settles (test.verdict environment)) :
    (evaluateAll environment tests).Settles (firstOther true (verdicts environment tests)) := by
  induction tests with
  | nil => exact Eval.settles_pure true
  | cons test tests ih =>
    have hhead := htests test List.mem_cons_self
    have htail := ih fun inner hinner => htests inner (List.mem_cons_of_mem test hinner)
    rw [evaluateAll, verdicts]
    cases hverdict : test.verdict environment with
    | error fault => exact (hverdict ▸ hhead).bind_error
    | ok result =>
      refine (hverdict ▸ hhead).bind_ok ?_
      cases result with
      | false => exact Eval.settles_pure false
      | true => exact htail

/-- Asking for any of some tests comes to their first verdict that is not false. -/
theorem evaluateAny_settles {tests : List Test}
    (htests : ∀ test ∈ tests, (test.evaluate environment).Settles (test.verdict environment)) :
    (evaluateAny environment tests).Settles (firstOther false (verdicts environment tests)) := by
  induction tests with
  | nil => exact Eval.settles_pure false
  | cons test tests ih =>
    have hhead := htests test List.mem_cons_self
    have htail := ih fun inner hinner => htests inner (List.mem_cons_of_mem test hinner)
    rw [evaluateAny, verdicts]
    cases hverdict : test.verdict environment with
    | error fault => exact (hverdict ▸ hhead).bind_error
    | ok result =>
      refine (hverdict ▸ hhead).bind_ok ?_
      cases result with
      | false => exact htail
      | true => exact Eval.settles_pure true

/-- Without a budget a test comes to its verdict, whatever the session is. -/
theorem evaluate_settles (hbudget : environment.maxSteps = none) (test : Test) :
    (test.evaluate environment).Settles (test.verdict environment) := by
  induction test using Test.induction with
  | step test ih =>
    obtain ⟨name, arguments, tests, line⟩ := test
    rw [evaluate, verdict.eq_def]
    refine (Eval.settles_tick hbudget name line).bind_ok ?_
    dsimp only
    cases environment.registries.tests.lookup name with
    | error fault => exact (Eval.settles_throw fault).bind_error
    | ok kind =>
      refine (Eval.settles_pure kind).bind_ok ?_
      cases kind with
      | not =>
        match arguments, tests, ih with
        | [], some [inner], ih => exact ((ih inner List.mem_cons_self).map _).noted _
        | _ :: _, _, _ | [], none, _ | [], some [], _ | [], some (_ :: _ :: _), _ =>
          exact (Eval.settles_throw _).noted _
      | allof =>
        match arguments, tests, ih with
        | [], some (_ :: _), ih => exact (evaluateAll_settles ih).noted _
        | _ :: _, _, _ | [], none, _ | [], some [], _ => exact (Eval.settles_throw _).noted _
      | anyof =>
        match arguments, tests, ih with
        | [], some (_ :: _), ih => exact (evaluateAny_settles ih).noted _
        | _ :: _, _, _ | [], none, _ | [], some [], _ => exact (Eval.settles_throw _).noted _
      | _ => exact (Eval.settles_ofExcept _).noted _

end Test

end MailFilter
