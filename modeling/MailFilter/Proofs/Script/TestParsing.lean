import MailFilter.Proofs.Script.Readers

/-!
# The parser finds the tests of the grammar

A test takes the arguments that follow its name, and these may end in further tests. Tests inside
one another differ in the number of levels left for them, and a test that needs more levels than are
left is not found, so the induction is on that number.
-/

namespace MailFilter.Script

variable {last : Place} {span : Span} {tokens rest : List Span} {arguments : List Node}

/-- The next place before two lists of tokens is the one before the first, with the second behind
it. -/
theorem nextPlace_append (following : Place) (front back : List Span) :
    nextPlace following (front ++ back) = nextPlace (nextPlace following back) front := by
  cases front <;> rfl

/-- A reader takes the tests that have so many levels of nesting and no others. It takes all their
arguments, so it finds a test only before a token that ends them. -/
structure TestReader.ReadsTests (last : Place) (readTest : TestReader) (levels : Nat) : Prop where
  sound : ∀ {span : Span} {name : String} {tokens rest : List Span} {test : Node},
    span.token = .identifier name → Reads (readTest span name tokens) test rest →
      ∃ front, tokens = front ++ rest ∧ IsTest (nextPlace last rest) (span :: front) test ∧
        test.nesting ≤ levels
  complete : ∀ {span : Span} {name : String} {front rest : List Span} {test : Node},
    span.token = .identifier name → IsTest (nextPlace last rest) (span :: front) test →
      test.nesting ≤ levels → NextIs Token.endsArguments rest →
        Reads (readTest span name (front ++ rest)) test rest

/-- A test begins with an identifier. -/
theorem IsTest.exists_identifier {next : Place} {test : Node} (h : IsTest next tokens test) :
    ∃ span name back, tokens = span :: back ∧ span.token = .identifier name := by
  cases h with
  | intro hspan harguments => exact ⟨_, _, _, rfl, hspan⟩

section Tests

variable {readTest : TestReader} {levels : Nat} {name : String} {test node : Node}
  {tests : List Node}

/-- A test before a comma is read, and then the others. -/
theorem reads_testList_comma {middle : List Span} {comma : Span}
    (hspan : span.token = .identifier name) (hcomma : comma.token = .comma)
    (htest : Reads (readTest span name tokens) test (comma :: middle)) :
    Reads (testList last readTest (span :: tokens)) tests rest ↔
      ∃ others, Reads (testList last readTest middle) others rest ∧ test :: others = tests := by
  obtain ⟨token, place, size⟩ := span
  obtain rfl : token = .identifier name := hspan
  obtain ⟨token, place', size'⟩ := comma
  obtain rfl : token = .comma := hcomma
  obtain ⟨hmiddle, htest⟩ := htest
  rw [testList, htest]
  exact reads_map_iff _

/-- A test before the closing parenthesis is the last that is read. -/
theorem reads_testList_close {middle : List Span} {close : Span}
    (hspan : span.token = .identifier name) (hclose : close.token = .rightParen)
    (htest : Reads (readTest span name tokens) test (close :: middle)) :
    Reads (testList last readTest (span :: tokens)) tests rest ↔
      [test] = tests ∧ middle = rest := by
  obtain ⟨token, place, size⟩ := span
  obtain rfl : token = .identifier name := hspan
  obtain ⟨token, place', size'⟩ := close
  obtain rfl : token = .rightParen := hclose
  obtain ⟨hmiddle, htest⟩ := htest
  rw [testList, htest]
  exact reads_ok_iff

/-- A list of tests begins with a test, which a comma or the closing parenthesis follows. -/
theorem exists_of_reads_testList (h : Reads (testList last readTest tokens) tests rest) :
    ∃ span name back test next middle, tokens = span :: back ∧ span.token = .identifier name ∧
      Reads (readTest span name back) test (next :: middle) ∧
      (next.token = .comma ∨ next.token = .rightParen) := by
  cases tokens with
  | nil => rw [testList.eq_def] at h; exact absurd h not_reads_error
  | cons span tokens =>
    obtain ⟨token, place, size⟩ := span
    cases token with
    | identifier name =>
      rw [testList] at h
      obtain ⟨test, middle, hmiddle, htest, h⟩ := reads_bind_iff.mp h
      cases middle with
      | nil => exact absurd h not_reads_error
      | cons next middle =>
        refine ⟨_, name, tokens, test, next, middle, rfl, rfl, ⟨hmiddle, htest⟩, ?_⟩
        obtain ⟨token, place', size'⟩ := next
        cases token with
        | comma => exact .inl rfl
        | rightParen => exact .inr rfl
        | _ => exact absurd h not_reads_error
    | _ => rw [testList.eq_def] at h; exact absurd h not_reads_error

/-- What is read as a list of tests is one, and not nested too deeply. -/
theorem isTests_of_reads (hreads : readTest.ReadsTests last levels) {tokens rest : List Span}
    {tests : List Node} (h : Reads (testList last readTest tokens) tests rest) :
    ∃ front, tokens = front ++ rest ∧ IsTests front tests ∧ Node.nestingAll tests ≤ levels := by
  obtain ⟨span, name, back, test, next, middle, rfl, hspan, htest, hnext⟩ :=
    exists_of_reads_testList h
  obtain ⟨front, rfl, hfront, hlevels⟩ := hreads.sound hspan htest
  rcases hnext with hnext | hnext
  · obtain ⟨others, hothers, rfl⟩ := (reads_testList_comma hspan hnext htest).mp h
    have hlt : middle.length < (span :: (front ++ next :: middle)).length := by
      simp only [List.length_cons, List.length_append]
      omega
    obtain ⟨tail, rfl, htail, hall⟩ := isTests_of_reads hreads hothers
    refine ⟨span :: front ++ next :: tail, ?_, .more hfront hnext htail,
      Nat.max_le.mpr ⟨hlevels, hall⟩⟩
    simp only [List.cons_append, List.append_assoc]
  · obtain ⟨rfl, rfl⟩ := (reads_testList_close hspan hnext htest).mp h
    refine ⟨span :: front ++ [next], ?_, .last hfront hnext,
      Nat.max_le.mpr ⟨hlevels, Nat.zero_le _⟩⟩
    simp only [List.cons_append, List.nil_append, List.append_assoc]
termination_by tokens.length

/-- A list of tests is read up to its closing parenthesis. -/
theorem testList_iff (hreads : readTest.ReadsTests last levels) :
    Reads (testList last readTest tokens) tests rest ↔
      ∃ front, tokens = front ++ rest ∧ IsTests front tests ∧ Node.nestingAll tests ≤ levels := by
  refine ⟨isTests_of_reads hreads, ?_⟩
  rintro ⟨front, rfl, hfront, hlevels⟩
  induction tests generalizing front with
  | nil => cases hfront
  | cons test tests ih =>
    rw [Node.nestingAll_cons, Nat.max_le] at hlevels
    cases hfront with
    | @last close front _ htest hclose =>
      obtain ⟨span, name, back, rfl, hspan⟩ := htest.exists_identifier
      have hends : NextIs Token.endsArguments (close :: rest) := nextIs_cons hclose rfl rest
      have hread : Reads (readTest span name (back ++ close :: rest)) test (close :: rest) :=
        hreads.complete hspan htest hlevels.1 hends
      have hcut : span :: back ++ [close] ++ rest = span :: (back ++ close :: rest) := by simp
      rw [hcut]
      exact (reads_testList_close hspan hclose hread).mpr ⟨rfl, rfl⟩
    | @more comma front back _ _ htest hcomma htests =>
      obtain ⟨span, name, tail, rfl, hspan⟩ := htest.exists_identifier
      have hends : NextIs Token.endsArguments (comma :: (back ++ rest)) :=
        nextIs_cons hcomma rfl _
      have hread : Reads (readTest span name (tail ++ comma :: (back ++ rest))) test
          (comma :: (back ++ rest)) := hreads.complete hspan htest hlevels.1 hends
      have hcut : span :: tail ++ comma :: back ++ rest =
          span :: (tail ++ comma :: (back ++ rest)) := by simp
      rw [hcut]
      exact (reads_testList_comma hspan hcomma hread).mpr ⟨tests, ih back htests hlevels.2, rfl⟩

/-- Behind the positional arguments there is a test, a list of tests, or neither. -/
theorem reads_argumentsNode_test {middle : List Span} (hspan : span.token = .identifier name)
    (harguments : Reads (positional last tokens) arguments (span :: middle)) :
    Reads (argumentsNode last readTest tokens) node rest ↔
      ∃ test, Reads (readTest span name middle) test rest ∧
        (nextPlace last tokens).arguments (arguments ++ [test]) = node := by
  obtain ⟨token, place, size⟩ := span
  obtain rfl : token = .identifier name := hspan
  obtain ⟨hmiddle, harguments⟩ := harguments
  rw [argumentsNode.eq_def, harguments]
  exact reads_map_iff fun test => (nextPlace last tokens).arguments (arguments ++ [test])

/-- Arguments before a parenthesis are read with the list of tests behind it. -/
theorem reads_argumentsNode_tests {middle : List Span} (hspan : span.token = .leftParen)
    (harguments : Reads (positional last tokens) arguments (span :: middle)) :
    Reads (argumentsNode last readTest tokens) node rest ↔
      ∃ tests, Reads (testList last readTest middle) tests rest ∧
        (nextPlace last tokens).arguments (arguments ++ [span.node .testList none tests]) =
          node := by
  obtain ⟨token, place, size⟩ := span
  obtain rfl : token = .leftParen := hspan
  obtain ⟨hmiddle, harguments⟩ := harguments
  rw [argumentsNode.eq_def, harguments]
  exact reads_map_iff fun tests => (nextPlace last tokens).arguments
    (arguments ++ [Span.node ⟨.leftParen, place, size⟩ .testList none tests])

/-- Arguments before a token that ends them are read without a test. -/
theorem reads_argumentsNode_plain {middle : List Span} (hmiddle : NextIs Token.endsArguments middle)
    (harguments : Reads (positional last tokens) arguments middle) :
    Reads (argumentsNode last readTest tokens) node rest ↔
      (nextPlace last tokens).arguments arguments = node ∧ middle = rest := by
  obtain ⟨hlength, harguments⟩ := harguments
  rw [argumentsNode.eq_def, harguments]
  cases middle with
  | nil => exact reads_ok_iff
  | cons span middle =>
    obtain ⟨token, place, size⟩ := span
    have htoken : token.endsArguments = true := hmiddle _ rfl
    cases token with
    | identifier | leftParen => cases htoken
    | _ => exact reads_ok_iff

/-- Positional arguments are read before anything else. -/
theorem exists_of_reads_argumentsNode (h : Reads (argumentsNode last readTest tokens) node rest) :
    ∃ arguments middle, Reads (positional last tokens) arguments middle := by
  rw [argumentsNode.eq_def] at h
  obtain ⟨arguments, middle, hmiddle, harguments, -⟩ := reads_bind_iff.mp h
  exact ⟨arguments, middle, hmiddle, harguments⟩

/-- What is read as arguments is that, and not nested too deeply. -/
theorem isArguments_of_reads (hreads : readTest.ReadsTests last levels)
    (h : Reads (argumentsNode last readTest tokens) node rest) :
    ∃ front, tokens = front ++ rest ∧ IsArguments (nextPlace last rest) front node ∧
      node.nesting ≤ levels := by
  obtain ⟨arguments, middle, harguments⟩ := exists_of_reads_argumentsNode h
  obtain ⟨front, rfl, hfront, hmiddle⟩ := positional_iff.mp harguments
  have hzero := hfront.nestingAll_eq_zero
  rcases nextIs_not_beginsArgument hmiddle with
    ⟨span, name, back, rfl, hspan⟩ | ⟨span, back, rfl, hspan⟩ | hends
  · obtain ⟨test, htest, rfl⟩ := (reads_argumentsNode_test hspan harguments).mp h
    obtain ⟨tail, rfl, htail, hlevels⟩ := hreads.sound hspan htest
    have hcut : front ++ span :: (tail ++ rest) = front ++ span :: tail ++ rest := by simp
    rw [hcut, nextPlace_append]
    exact ⟨front ++ span :: tail, rfl, .test hfront htail, by simp [hzero, hlevels]⟩
  · obtain ⟨tests, htests, rfl⟩ := (reads_argumentsNode_tests hspan harguments).mp h
    obtain ⟨tail, rfl, htail, hlevels⟩ := (testList_iff hreads).mp htests
    have hcut : front ++ span :: (tail ++ rest) = front ++ span :: tail ++ rest := by simp
    rw [hcut, nextPlace_append]
    exact ⟨front ++ span :: tail, rfl, .tests hfront hspan htail, by simp [hzero, hlevels]⟩
  · obtain ⟨rfl, rfl⟩ := (reads_argumentsNode_plain hends harguments).mp h
    rw [nextPlace_append]
    exact ⟨front, rfl, .plain hfront, by simp [hzero]⟩

/-- Arguments that are not nested too deeply are read if a token that ends them follows. -/
theorem reads_of_isArguments (hreads : readTest.ReadsTests last levels) {front : List Span}
    (hnode : IsArguments (nextPlace last rest) front node) (hlevels : node.nesting ≤ levels)
    (hrest : NextIs Token.endsArguments rest) :
    Reads (argumentsNode last readTest (front ++ rest)) node rest := by
  cases hnode with
  | @plain _ _ arguments harguments =>
    have hpositional : Reads (positional last (front ++ rest)) arguments rest :=
      positional_iff.mpr
        ⟨front, rfl, harguments, hrest.mono Token.not_beginsArgument_of_endsArguments⟩
    rw [reads_argumentsNode_plain hrest hpositional, nextPlace_append]
    exact ⟨rfl, rfl⟩
  | @test _ front _ arguments test harguments htest =>
    obtain ⟨span, name, tail, rfl, hspan⟩ := htest.exists_identifier
    have hpositional : Reads (positional last (front ++ span :: (tail ++ rest))) arguments
        (span :: (tail ++ rest)) :=
      positional_iff.mpr ⟨front, rfl, harguments, nextIs_cons hspan rfl _⟩
    have hcut : front ++ span :: (tail ++ rest) = front ++ span :: tail ++ rest := by simp
    rw [hcut] at hpositional
    rw [reads_argumentsNode_test hspan hpositional, nextPlace_append]
    have hlevels : test.nesting ≤ levels := by
      have hzero := harguments.nestingAll_eq_zero
      simpa [hzero] using hlevels
    exact ⟨test, hreads.complete hspan htest hlevels hrest, rfl⟩
  | @tests _ front back span arguments tests harguments hspan htests =>
    have hpositional : Reads (positional last (front ++ span :: (back ++ rest))) arguments
        (span :: (back ++ rest)) :=
      positional_iff.mpr ⟨front, rfl, harguments, nextIs_cons hspan rfl _⟩
    have hcut : front ++ span :: (back ++ rest) = front ++ span :: back ++ rest := by simp
    rw [hcut] at hpositional
    rw [reads_argumentsNode_tests hspan hpositional, nextPlace_append]
    have hlevels : Node.nestingAll tests ≤ levels := by
      have hzero := harguments.nestingAll_eq_zero
      simpa [hzero] using hlevels
    exact ⟨tests, (testList_iff hreads).mpr ⟨back, rfl, htests, hlevels⟩, rfl⟩

/-- A test is read as its name and its arguments, which may be nested one level less. -/
theorem reads_testNode_succ :
    Reads (testNode last (levels + 1) span name tokens) test rest ↔
      ∃ arguments, Reads (argumentsNode last (testNode last levels) tokens) arguments rest ∧
        span.node .test (some name) [arguments] = test := by
  rw [testNode]
  exact reads_build_iff fun arguments => span.node .test (some name) [arguments]

/-- A test has a level of its own, so it is found where one more level is left than its arguments
need. -/
theorem testNode_readsTests (last : Place) (levels : Nat) :
    (testNode last levels).ReadsTests last levels := by
  induction levels with
  | zero =>
    constructor
    · intro span name tokens rest test hspan h
      rw [testNode] at h
      exact absurd h not_reads_error
    · intro span name front rest test hspan htest hlevels hrest
      cases htest with
      | intro hspan harguments =>
        rw [Node.nesting_test] at hlevels
        omega
  | succ levels ih =>
    constructor
    · intro span name tokens rest test hspan h
      obtain ⟨arguments, harguments, rfl⟩ := reads_testNode_succ.mp h
      obtain ⟨front, rfl, hfront, hlevels⟩ := isArguments_of_reads ih harguments
      refine ⟨front, rfl, .intro hspan hfront, ?_⟩
      rw [Node.nesting_test]
      omega
    · intro span name front rest test hspan htest hlevels hrest
      cases htest with
      | @intro _ _ name' _ arguments hspan' harguments =>
        obtain rfl : name = name' := Token.identifier.inj (hspan.symm.trans hspan')
        have hless : arguments.nesting ≤ levels := by
          rw [Node.nesting_test] at hlevels
          omega
        exact reads_testNode_succ.mpr
          ⟨arguments, reads_of_isArguments ih harguments hless hrest, rfl⟩

end Tests

end MailFilter.Script
