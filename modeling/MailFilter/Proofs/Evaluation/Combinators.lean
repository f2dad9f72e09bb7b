import MailFilter.Proofs.Evaluation.Domains
import MailFilter.Proofs.Evaluation.Run
import MailFilter.Proofs.Evaluation.Verdict

/-!
# Combinators look from left to right

A combinator evaluates the tests inside it one after the other and stops at the first that decides.
What that one comes to, be it a truth value or a fault, is the result, and the tests behind it are
not evaluated. So the state behind a combinator is the state behind the tests up to there, with one
more step counted and the result noted.
-/

namespace MailFilter

namespace TestKind

/-- The kinds that hold further tests and nothing else. -/
def isCombinator : TestKind → Bool
  | not | allof | anyof => Bool.true
  | address | envelope | header | «exists» | size | true | false => Bool.false

/-- Whether a combinator takes so many tests. -/
def takes : TestKind → Nat → Bool
  | not, count => count == 1
  | allof, count | anyof, count => 0 < count
  | address, _ | envelope, _ | header, _ | «exists», _ | size, _ | true, _ | false, _ => Bool.false

/-- The truth value of a test that decides nothing, for a combinator of several tests. -/
def usual? : TestKind → Option Bool
  | allof => some Bool.true
  | anyof => some Bool.false
  | address | envelope | header | «exists» | size | not | true | false => none

end TestKind

/-- The state after the result of a test has been noted. A fault is not. -/
def Session.concluded (session : Session) (test : Test) : Except Fault Bool → Session
  | .ok result => session.noted (.testDone test.name test.line result)
  | .error _ => session

namespace Test

/-- The evaluation of a test by a step: it is counted, and its result noted. -/
def enclose (environment : Environment) (test : Test) (step : Eval Bool) : Eval Bool := do
  Eval.tick environment test.name test.line
  let result ← step
  Eval.note (.testDone test.name test.line result)
  return result

/-- Evaluates tests in order up to the first that does not come to the usual truth value, which is
the result if there is none. -/
def evaluateUsual [MailReader] (environment : Environment) (usual : Bool) : List Test → Eval Bool
  | [] => return usual
  | test :: tests => do
    let result ← evaluate environment test
    if result = usual then evaluateUsual environment usual tests else return result

/-- The state after some tests have been evaluated one after the other. -/
def afterEach [MailReader] (environment : Environment) (tests : List Test) (session : Session) :
    Session :=
  tests.foldl (fun session test => ((test.evaluate environment).apply session).2) session

/-- What a test comes to, and the tests inside it that are evaluated for that. A combinator that was
not given just the tests it needs fails before any of them. `not` turns the result of its test
around. The others come to the first result that is not the usual one, if there is one. -/
inductive Course [MailReader] (environment : Environment) (test : Test) :
    List Test → Except Fault Bool → Prop
  | alone
    (hkind : ∀ kind, environment.registries.tests.lookup test.name = .ok kind →
      kind.isCombinator = false) :
    Course environment test [] (test.verdict environment)
  | positional {kind : TestKind}
    (hname : environment.registries.tests.lookup test.name = .ok kind)
    (hkind : kind.isCombinator = true) (harguments : test.arguments ≠ []) :
    Course environment test [] (.error (.arguments test.name test.line .onlyNestedTests))
  | miscounted {kind : TestKind}
    (hname : environment.registries.tests.lookup test.name = .ok kind)
    (hkind : kind.isCombinator = true) (harguments : test.arguments = [])
    (hcount : kind.takes test.nested.length = false) :
    Course environment test []
      (.error (.arguments test.name test.line (.nestedTestCount test.nested.length)))
  | negated {inner : Test}
    (hname : environment.registries.tests.lookup test.name = .ok .not)
    (harguments : test.arguments = []) (htests : test.tests = some [inner]) :
    Course environment test [inner] ((inner.verdict environment).map (!·))
  | decided {kind : TestKind} {usual : Bool} {before after : List Test} {part : Test}
    (hname : environment.registries.tests.lookup test.name = .ok kind)
    (hkind : kind.usual? = some usual) (harguments : test.arguments = [])
    (htests : test.tests = some (before ++ part :: after))
    (hbefore : ∀ earlier ∈ before, earlier.verdict environment = .ok usual)
    (hpart : part.verdict environment ≠ .ok usual) :
    Course environment test (before ++ [part]) (part.verdict environment)
  | undecided {kind : TestKind} {usual : Bool} {parts : List Test}
    (hname : environment.registries.tests.lookup test.name = .ok kind)
    (hkind : kind.usual? = some usual) (harguments : test.arguments = [])
    (htests : test.tests = some parts) (hparts : parts ≠ [])
    (husual : ∀ part ∈ parts, part.verdict environment = .ok usual) :
    Course environment test parts (.ok usual)

variable {environment : Environment} {test : Test}

/-- Without a budget a test that encloses a step counts itself, makes the step and notes what it
came to. -/
theorem apply_enclose (hbudget : environment.maxSteps = none) (test : Test) (step : Eval Bool)
    (session : Session) :
    (test.enclose environment step).apply session =
      ((step.apply session.counted).1,
        (step.apply session.counted).2.concluded test (step.apply session.counted).1) := by
  have hstep := Environment.exceeded?_of_unbounded hbudget (session.steps + 1)
  rw [enclose, Eval.apply_bind, Eval.apply_tick, hstep]
  dsimp only
  rw [Eval.apply_bind]
  obtain ⟨fault | result, after⟩ := step.apply session.counted <;> rfl

/-- Without a budget a test comes to its verdict. -/
theorem result_apply_evaluate [MailReader] (hbudget : environment.maxSteps = none) (test : Test)
    (session : Session) :
    ((test.evaluate environment).apply session).1 = test.verdict environment := by
  obtain ⟨steps, events, happly⟩ := evaluate_settles hbudget test session
  rw [happly]

/-- Asking for all of some tests is going on while they are true. -/
theorem evaluateAll_eq [MailReader] (environment : Environment) (tests : List Test) :
    evaluateAll environment tests = evaluateUsual environment true tests := by
  induction tests with
  | nil => rfl
  | cons test tests ih =>
    rw [evaluateAll, evaluateUsual, ih]
    congr 1
    funext result
    cases result <;> rfl

/-- Asking for any of some tests is going on while they are false. -/
theorem evaluateAny_eq [MailReader] (environment : Environment) (tests : List Test) :
    evaluateAny environment tests = evaluateUsual environment false tests := by
  induction tests with
  | nil => rfl
  | cons test tests ih =>
    rw [evaluateAny, evaluateUsual, ih]
    congr 1
    funext result
    cases result <;> rfl

/-- Tests that come to the usual truth value are evaluated, and the walk goes on behind them. -/
theorem apply_evaluateUsual_append [MailReader] (hbudget : environment.maxSteps = none)
    {usual : Bool} {before : List Test}
    (hbefore : ∀ earlier ∈ before, earlier.verdict environment = .ok usual) (tests : List Test)
    (session : Session) :
    (evaluateUsual environment usual (before ++ tests)).apply session =
      (evaluateUsual environment usual tests).apply (afterEach environment before session) := by
  induction before generalizing session with
  | nil => rfl
  | cons earlier before ih =>
    obtain ⟨hearlier, hbefore⟩ := List.forall_mem_cons.mp hbefore
    have hresult := result_apply_evaluate hbudget earlier session
    rw [hearlier] at hresult
    rw [List.cons_append, evaluateUsual, Eval.apply_bind, afterEach, List.foldl_cons]
    generalize (earlier.evaluate environment).apply session = done at hresult ⊢
    obtain ⟨result, after⟩ := done
    obtain rfl : result = .ok usual := hresult
    dsimp only
    rw [if_pos rfl]
    exact ih hbefore after

/-- The first test that does not come to the usual truth value is the last that is evaluated. -/
theorem apply_evaluateUsual_cons [MailReader] (hbudget : environment.maxSteps = none) {usual : Bool}
    {part : Test} (hpart : part.verdict environment ≠ .ok usual) (tests : List Test)
    (session : Session) :
    (evaluateUsual environment usual (part :: tests)).apply session =
      (part.evaluate environment).apply session := by
  have hresult := result_apply_evaluate hbudget part session
  rw [← hresult] at hpart
  rw [evaluateUsual, Eval.apply_bind]
  generalize (part.evaluate environment).apply session = done at hpart ⊢
  obtain ⟨fault | result, after⟩ := done
  · rfl
  · have hother : result ≠ usual := fun husual => hpart (congrArg Except.ok husual)
    dsimp only
    rw [if_neg hother, Eval.apply_pure]

/-- A combinator of several tests evaluates them for as long as they come to its usual result. -/
theorem evaluate_usual [MailReader] {kind : TestKind} {usual : Bool} {parts : List Test}
    (hname : environment.registries.tests.lookup test.name = .ok kind)
    (hkind : kind.usual? = some usual) (harguments : test.arguments = [])
    (htests : test.tests = some parts) (hparts : parts ≠ []) :
    test.evaluate environment =
      test.enclose environment (evaluateUsual environment usual parts) := by
  obtain ⟨name, arguments, tests, line⟩ := test
  obtain rfl : arguments = [] := harguments
  obtain rfl : tests = some parts := htests
  obtain ⟨first, others, rfl⟩ := List.exists_cons_of_ne_nil hparts
  rw [evaluate, hname]
  cases kind with
  | allof =>
    cases hkind
    rw [← evaluateAll_eq]
    rfl
  | anyof =>
    cases hkind
    rw [← evaluateAny_eq]
    rfl
  | _ => cases hkind

/-- A combinator with arguments, or with the wrong number of tests, evaluates none of them and
fails. -/
theorem evaluate_refused [MailReader] {kind : TestKind}
    (hname : environment.registries.tests.lookup test.name = .ok kind)
    (hkind : kind.isCombinator = true)
    (hrefused : test.arguments ≠ [] ∨ kind.takes test.nested.length = false) :
    test.evaluate environment = test.enclose environment (throw test.combinatorFault) := by
  obtain ⟨name, arguments, tests, line⟩ := test
  rw [evaluate, hname]
  cases kind with
  | not =>
    rcases arguments with _ | ⟨argument, arguments⟩
    · rcases tests with _ | _ | ⟨first, _ | ⟨second, others⟩⟩
      · rfl
      · rfl
      · simp [TestKind.takes, nested] at hrefused
      · rfl
    · rfl
  | allof | anyof =>
    rcases arguments with _ | ⟨argument, arguments⟩
    · rcases tests with _ | _ | ⟨first, others⟩
      · rfl
      · rfl
      · simp [TestKind.takes, nested] at hrefused
    · rfl
  | _ => cases hkind

/-- A negation evaluates the test inside it and turns the result round. -/
theorem evaluate_not [MailReader] {inner : Test}
    (hname : environment.registries.tests.lookup test.name = .ok .not)
    (harguments : test.arguments = []) (htests : test.tests = some [inner]) :
    test.evaluate environment =
      test.enclose environment ((!·) <$> inner.evaluate environment) := by
  obtain ⟨name, arguments, tests, line⟩ := test
  obtain rfl : arguments = [] := harguments
  obtain rfl : tests = some [inner] := htests
  rw [evaluate, hname]
  rfl

/-- Without a budget a test without tests inside counts itself and notes its verdict. -/
theorem apply_evaluate_alone [MailReader] (hbudget : environment.maxSteps = none)
    (hkind : ∀ kind, environment.registries.tests.lookup test.name = .ok kind →
      kind.isCombinator = false) (session : Session) :
    (test.evaluate environment).apply session =
      (test.verdict environment, session.counted.concluded test (test.verdict environment)) := by
  have hstep := Environment.exceeded?_of_unbounded hbudget (session.steps + 1)
  have halone := fun result : Except Fault Bool =>
    apply_enclose hbudget test (Eval.ofExcept result) session
  obtain ⟨name, arguments, tests, line⟩ := test
  rw [verdict.eq_def]
  dsimp only at hkind ⊢
  cases hname : environment.registries.tests.lookup name with
  | error fault =>
    rw [evaluate, hname, Eval.apply_bind, Eval.apply_tick, hstep]
    rfl
  | ok kind =>
    rw [evaluate, hname]
    cases kind with
    | not | allof | anyof => cases hkind _ hname
    | _ => exact halone _

/-- An evaluation counts a step, takes the course of the test and notes the result. -/
theorem Course.apply_evaluate [MailReader] (hbudget : environment.maxSteps = none)
    {parts : List Test} {result : Except Fault Bool} (h : test.Course environment parts result)
    (session : Session) :
    (test.evaluate environment).apply session =
      (result, (afterEach environment parts session.counted).concluded test result) := by
  cases h with
  | alone hkind => exact apply_evaluate_alone hbudget hkind session
  | positional hname hkind harguments =>
    have hfault : test.combinatorFault = .arguments test.name test.line .onlyNestedTests := by
      rw [combinatorFault, if_neg (by simpa using harguments), argumentFault]
    rw [evaluate_refused hname hkind (.inl harguments), apply_enclose hbudget, hfault]
    rfl
  | miscounted hname hkind harguments hcount =>
    have hfault : test.combinatorFault =
        .arguments test.name test.line (.nestedTestCount test.nested.length) := by
      rw [combinatorFault, if_pos (by simp [harguments]), argumentFault]
    rw [evaluate_refused hname hkind (.inr hcount), apply_enclose hbudget, hfault]
    rfl
  | @negated inner hname harguments htests =>
    have hresult := result_apply_evaluate hbudget inner session.counted
    rw [evaluate_not hname harguments htests, apply_enclose hbudget, map_eq_pure_bind,
      Eval.apply_bind, ← hresult, afterEach, List.foldl_cons, List.foldl_nil]
    generalize (inner.evaluate environment).apply session.counted = done
    obtain ⟨fault | result, after⟩ := done <;> rfl
  | @decided kind usual before after part hname hkind harguments htests hbefore hpart =>
    have hresult := result_apply_evaluate hbudget part
      (afterEach environment before session.counted)
    have hsteps : afterEach environment (before ++ [part]) session.counted =
        ((part.evaluate environment).apply (afterEach environment before session.counted)).2 := by
      rw [afterEach, List.foldl_append]
      rfl
    rw [evaluate_usual hname hkind harguments htests (by simp), apply_enclose hbudget,
      apply_evaluateUsual_append hbudget hbefore, apply_evaluateUsual_cons hbudget hpart, hresult,
      hsteps]
  | @undecided kind usual parts hname hkind harguments htests hparts husual =>
    have hwalk := apply_evaluateUsual_append hbudget husual [] session.counted
    rw [List.append_nil] at hwalk
    rw [evaluate_usual hname hkind harguments htests hparts, apply_enclose hbudget, hwalk]
    rfl

/-- A combinator of several tests takes a course through them. -/
theorem exists_course_usual [MailReader] {kind : TestKind} {usual : Bool} {parts : List Test}
    (hname : environment.registries.tests.lookup test.name = .ok kind)
    (hkind : kind.usual? = some usual) (harguments : test.arguments = [])
    (htests : test.tests = some parts) (hparts : parts ≠ []) :
    ∃ parts result, test.Course environment parts result := by
  -- The course is settled by the first part that decides, wherever a later one would have led.
  cases hdecides : parts.find? (fun part => part.verdict environment ≠ .ok usual) with
  | none =>
    have husual := List.find?_eq_none.mp hdecides
    exact ⟨parts, _, .undecided hname hkind harguments htests hparts (by simpa using husual)⟩
  | some part =>
    obtain ⟨hpart, before, after, rfl, hbefore⟩ := List.find?_eq_some_iff_append.mp hdecides
    exact ⟨_, _, .decided hname hkind harguments htests (by simpa using hbefore)
      (by simpa using hpart)⟩

/-- A combinator that has as many tests as it takes has some. -/
theorem exists_tests_of_takes {kind : TestKind} (hcount : kind.takes test.nested.length = true) :
    ∃ parts, test.tests = some parts := by
  cases htests : test.tests with
  | some parts => exact ⟨parts, rfl⟩
  | none =>
    rw [nested, htests] at hcount
    cases kind <;> cases hcount

/-- Every test has a course. -/
theorem exists_course [MailReader] (environment : Environment) (test : Test) :
    ∃ parts result, test.Course environment parts result := by
  by_cases hcombinator : ∃ kind, environment.registries.tests.lookup test.name = .ok kind ∧
      kind.isCombinator = true
  · obtain ⟨kind, hname, hkind⟩ := hcombinator
    by_cases harguments : test.arguments = []
    · cases hcount : kind.takes test.nested.length with
      | false => exact ⟨_, _, .miscounted hname hkind harguments hcount⟩
      | true =>
        obtain ⟨parts, htests⟩ := exists_tests_of_takes hcount
        have hnested : test.nested = parts := by rw [nested, htests, Option.getD_some]
        rw [hnested] at hcount
        cases kind with
        | not =>
          obtain ⟨inner, rfl⟩ := List.length_eq_one_iff.mp (beq_iff_eq.mp hcount)
          exact ⟨_, _, .negated hname harguments htests⟩
        | allof | anyof =>
          have hparts : parts ≠ [] := List.length_pos_iff.mp (of_decide_eq_true hcount)
          exact exists_course_usual hname rfl harguments htests hparts
        | _ => cases hkind
    · exact ⟨_, _, .positional hname hkind harguments⟩
  · refine ⟨_, _, .alone fun kind hname => ?_⟩
    exact Bool.eq_false_iff.mpr fun hkind => hcombinator ⟨kind, hname, hkind⟩

/-- The first result that is not the usual one turns round with all the results. -/
theorem firstOther_map_not (usual : Bool) (results : List (Except Fault Bool)) :
    (firstOther usual results).map (!·) =
      firstOther (!usual) (results.map (Except.map (!·))) := by
  induction results with
  | nil => rfl
  | cons result results ih =>
    cases result with
    | error fault => rfl
    | ok result =>
      by_cases husual : result = usual
      · simpa [firstOther, Except.map, husual] using ih
      · simp [firstOther, Except.map, husual]

variable [MailReader]

/-- Verdicts are given for each test by itself. -/
theorem verdicts_eq_map (environment : Environment) (tests : List Test) :
    verdicts environment tests = tests.map (verdict environment) := by
  induction tests with
  | nil => rfl
  | cons test tests ih => rw [verdicts, ih, List.map_cons]

/-- The verdict of a negation is that of the test inside turned round. -/
theorem verdict_not {inner : Test}
    (hname : environment.registries.tests.lookup test.name = .ok .not)
    (harguments : test.arguments = []) (htests : test.tests = some [inner]) :
    test.verdict environment = (inner.verdict environment).map (!·) := by
  obtain ⟨name, arguments, tests, line⟩ := test
  obtain rfl : arguments = [] := harguments
  obtain rfl : tests = some [inner] := htests
  rw [verdict, hname]

/-- The verdict of a combinator is that of the first test that does not come to the usual result. -/
theorem verdict_usual {kind : TestKind} {usual : Bool} {parts : List Test}
    (hname : environment.registries.tests.lookup test.name = .ok kind)
    (hkind : kind.usual? = some usual) (harguments : test.arguments = [])
    (htests : test.tests = some parts) (hparts : parts ≠ []) :
    test.verdict environment = firstOther usual (parts.map (verdict environment)) := by
  obtain ⟨name, arguments, tests, line⟩ := test
  obtain rfl : arguments = [] := harguments
  obtain rfl : tests = some parts := htests
  obtain ⟨first, others, rfl⟩ := List.exists_cons_of_ne_nil hparts
  rw [verdict.eq_def, ← verdicts_eq_map]
  dsimp only
  rw [hname]
  cases kind <;> cases hkind <;> rfl

/-- A combinator under the name of its kind. -/
def combination (kind : TestKind) (line : Nat) (parts : List Test) : Test :=
  ⟨kind.name, [], some parts, line⟩

/-- Whatever the tests come to, `not anyof` of them comes to what `allof` of their negations
does. -/
theorem verdict_not_anyof (hregistries : environment.registries = .builtin)
    {parts : List (Test × Nat)} (hparts : parts ≠ []) (line line' line'' : Nat) :
    (combination .not line [combination .anyof line' (parts.map Prod.fst)]).verdict environment =
      (combination .allof line''
        (parts.map fun part => combination .not part.2 [part.1])).verdict environment := by
  have hname : ∀ kind : TestKind, environment.registries.tests.lookup kind.name = .ok kind :=
    fun kind => hregistries ▸ kind.lookup_builtin
  have hnegated : ∀ line inner, (combination .not line [inner]).verdict environment =
      (inner.verdict environment).map (!·) := fun line inner => verdict_not (hname .not) rfl rfl
  have hanyof : (combination .anyof line' (parts.map Prod.fst)).verdict environment =
      firstOther false ((parts.map Prod.fst).map (verdict environment)) :=
    verdict_usual (hname .anyof) rfl rfl rfl (by simpa using hparts)
  have hallof : (combination .allof line''
      (parts.map fun part => combination .not part.2 [part.1])).verdict environment =
      firstOther true ((parts.map fun part => combination .not part.2 [part.1]).map
        (verdict environment)) :=
    verdict_usual (hname .allof) rfl rfl rfl (by simpa using hparts)
  rw [hnegated, hanyof, hallof, firstOther_map_not]
  simp only [List.map_map, Function.comp_def, hnegated, Bool.not_false]

/-- Every test takes one of the courses, and its evaluation is that course: it evaluates just the
tests that the course names, in their order, comes to what the test stands for and leaves the
message and the rest of the state alone. And a negated `anyof` comes to what the `allof` of the
negated tests comes to, be it a fault. -/
theorem evaluate_left_to_right (mail : Message) :
    let environment : Environment := ⟨.builtin, none, mail⟩
    (∀ test : Test, (∃ parts result, test.Course environment parts result) ∧
      ∀ parts result, test.Course environment parts result →
        result = test.verdict environment ∧
          ∀ session, (test.evaluate environment).apply session =
            (result, (afterEach environment parts session.counted).concluded test result)) ∧
    (∀ (test : Test) (session : Session),
      let after := ((test.evaluate environment).apply session).2
      after.actions = session.actions ∧ after.command = session.command ∧
        after.condition = session.condition) ∧
    ∀ (parts : List (Test × Nat)) (line line' line'' : Nat), parts ≠ [] →
      let negated := combination .not line [combination .anyof line' (parts.map Prod.fst)]
      let ofNegated :=
        combination .allof line'' (parts.map fun part => combination .not part.2 [part.1])
      ∀ session session', ((negated.evaluate environment).apply session).1 =
        ((ofNegated.evaluate environment).apply session').1 := by
  intro environment
  have hbudget : environment.maxSteps = none := rfl
  refine ⟨fun test => ⟨exists_course environment test, ?_⟩, ?_, ?_⟩
  · intro parts result hcourse
    have happly := hcourse.apply_evaluate hbudget
    have hresult := result_apply_evaluate hbudget test (.start [])
    rw [happly] at hresult
    exact ⟨hresult, happly⟩
  · intro test session
    obtain ⟨steps, events, happly⟩ := evaluate_settles hbudget test session
    rw [happly]
    exact ⟨rfl, rfl, rfl⟩
  · intro parts line line' line'' hparts negated ofNegated session session'
    rw [result_apply_evaluate hbudget, result_apply_evaluate hbudget]
    exact verdict_not_anyof rfl hparts line line' line''

end Test

end MailFilter
