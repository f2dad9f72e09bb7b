import MailFilter.Match.Glob
import MailFilter.Proofs.Loop

/-!
# The loop of the matcher

The walk over a value can be made with positions alone: how many characters of the value and how
many elements of the pattern have been passed, and where the last star stands. Each round of that
loop is one step of the walk. When a star takes one character more, both positions may move back, so
neither of them tells how far the loop has come. What does is how much the last star may still take
and how much of the pattern is left behind it: every round brings that number down.
-/

namespace MailFilter.Glob

/-- A point of the loop: the characters of the value and the elements of the pattern that have been
passed, and for the last star the position behind it and the characters before which it ends. -/
structure Cursor where
  inValue : Nat
  inPattern : Nat
  star : Option (Nat × Nat)

/-- What a round of the loop comes to. An access beyond the end of the value would stop it. -/
inductive Round where
  | onward (cursor : Cursor)
  | refused
  | outside (position : Nat)

namespace Cursor

/-- The beginning of the loop. -/
def start : Cursor :=
  ⟨0, 0, none⟩

/-- The last star takes one character more. Without a star there is no match. -/
def retry (cursor : Cursor) : Round :=
  match cursor.star with
  | some (after, absorbed) => .onward ⟨absorbed + 1, after, some (after, absorbed + 1)⟩
  | none => .refused

/-- One round of the loop. The pattern may be at its end, the value must not be. -/
def round (value : List Char) (pattern : List Glob) (cursor : Cursor) : Round :=
  match pattern[cursor.inPattern]? with
  | some any =>
    .onward ⟨cursor.inValue, cursor.inPattern + 1, some (cursor.inPattern + 1, cursor.inValue)⟩
  | some one => .onward ⟨cursor.inValue + 1, cursor.inPattern + 1, cursor.star⟩
  | some (literal d) =>
    match value[cursor.inValue]? with
    | some c =>
      if d = c then .onward ⟨cursor.inValue + 1, cursor.inPattern + 1, cursor.star⟩
      else cursor.retry
    | none => .outside cursor.inValue
  | none => cursor.retry

/-- The slice of the pattern that is left behind the loop may hold stars only. A position beyond the
end of the pattern has no slice. -/
def conclude (pattern : List Glob) (cursor : Cursor) : ExceptT Nat Option Bool :=
  if cursor.inPattern ≤ pattern.length then
    return (pattern.drop cursor.inPattern).all (· == any)
  else throw cursor.inPattern

/-- One turn of the loop. The cursor is kept with those at which a turn began before, and the end of
the loop gives all of them and the answer. A position that is out of range halts the loop. -/
def turn (value : List Char) (pattern : List Glob) :
    List Cursor × Cursor → ExceptT Nat Option ((List Cursor × Cursor) ⊕ (List Cursor × Bool))
  | (before, cursor) => do
    if cursor.inValue < value.length then
      match cursor.round value pattern with
      | .onward next => return .inl (before ++ [cursor], next)
      | .refused => return .inr (before ++ [cursor], false)
      | .outside position => throw position
    else return .inr (before ++ [cursor], ← cursor.conclude pattern)

/-- Both positions are in range, and the last star stands behind neither of them. -/
structure Within (value : List Char) (pattern : List Glob) (cursor : Cursor) : Prop where
  inValue_le : cursor.inValue ≤ value.length
  inPattern_le : cursor.inPattern ≤ pattern.length
  after_le : ∀ after absorbed, cursor.star = some (after, absorbed) → after ≤ cursor.inPattern
  absorbed_le : ∀ after absorbed, cursor.star = some (after, absorbed) → absorbed ≤ cursor.inValue

/-- The positions of a cursor are those of a walk over the same value and pattern. -/
structure Locates (value : List Char) (pattern : List Glob) (cursor : Cursor) (walk : Walk) :
    Prop where
  value_eq : walk.value = value.drop cursor.inValue
  pattern_eq : walk.pattern = pattern.drop cursor.inPattern
  star_eq : walk.star = cursor.star.map fun star => (pattern.drop star.1, value.drop star.2)

/-- How many rounds can still be made: for each character that the last star may take, the elements
behind the star and one round to take it, and for now the elements left. -/
def reserve (value : List Char) (pattern : List Glob) (cursor : Cursor) : Nat :=
  match cursor.star with
  | some (after, absorbed) =>
    (value.length - absorbed) * (pattern.length - after + 1) + (pattern.length - cursor.inPattern)
  | none => (value.length - cursor.inValue + 1) * (pattern.length - cursor.inPattern)

variable {value : List Char} {pattern : List Glob} {cursor next : Cursor} {walk : Walk}

/-- A round of the loop takes the step of the walk and uses up some of the reserve. -/
def Follows (value : List Char) (pattern : List Glob) (cursor : Cursor) (step : Step) :
    Round → Prop
  | .onward next =>
    (∃ walk, step = .more walk ∧ next.Locates value pattern walk) ∧ next.Within value pattern ∧
      next.reserve value pattern < cursor.reserve value pattern
  | .refused => step = .done false
  | .outside _ => False

/-- A star that takes one character more gives up a whole pass over the elements behind it, which is
what the positions are moved back by. -/
theorem follows_retry (hlocates : cursor.Locates value pattern walk)
    (hwithin : cursor.Within value pattern) (hvalue : cursor.inValue < value.length) :
    cursor.Follows value pattern walk.retry cursor.retry := by
  have hstar := hlocates.star_eq
  rw [retry]
  cases hcursor : cursor.star with
  | none =>
    rw [hcursor, Option.map_none] at hstar
    show walk.retry = .done false
    rw [Walk.retry]
    split
    · rfl
    · next hsome => rw [hstar] at hsome; cases hsome
  | some star =>
    obtain ⟨after, absorbed⟩ := star
    have hafter := hwithin.after_le after absorbed hcursor
    have habsorbed := hwithin.absorbed_le after absorbed hcursor
    have hpattern := hwithin.inPattern_le
    rw [hcursor, Option.map_some] at hstar
    refine ⟨?_, ⟨by dsimp only; omega, by dsimp only; omega, ?_, ?_⟩, ?_⟩
    · rw [Walk.retry]
      split
      · next hnone => rw [hstar] at hnone; cases hnone
      · next hsome =>
        rw [hstar] at hsome
        cases hsome
        exact ⟨_, rfl, List.tail_drop, rfl, by simp⟩
    · rintro _ _ ⟨⟩
      exact Nat.le_refl _
    · rintro _ _ ⟨⟩
      exact Nat.le_refl _
    · obtain ⟨left, hleft⟩ : ∃ left, value.length - absorbed = left + 1 :=
        ⟨value.length - absorbed - 1, by omega⟩
      have hnext : value.length - (absorbed + 1) = left := by omega
      simp only [reserve, hcursor, hleft, hnext, Nat.succ_mul]
      omega

/-- The first item behind some others has an index in range, and the rest begins one further. -/
theorem drop_eq_cons {α : Type} {xs rest : List α} {n : Nat} {x : α} (h : xs.drop n = x :: rest) :
    n < xs.length ∧ rest = xs.drop (n + 1) := by
  refine ⟨Nat.lt_of_not_le fun hend => ?_, by rw [← List.tail_drop, h, List.tail_cons]⟩
  rw [List.drop_eq_nil_iff.mpr hend] at h
  cases h

/-- An element that stands for the next character is passed together with it. -/
theorem follows_advance {advanced : Walk} {element : Glob} {c : Char}
    (hlocates : cursor.Locates value pattern walk) (hwithin : cursor.Within value pattern)
    (hvalue : walk.value = c :: advanced.value)
    (hpattern : walk.pattern = element :: advanced.pattern) (hstar : advanced.star = walk.star) :
    cursor.Follows value pattern (.more advanced)
      (.onward ⟨cursor.inValue + 1, cursor.inPattern + 1, cursor.star⟩) := by
  obtain ⟨hinValue, hvalueLeft⟩ := drop_eq_cons (hlocates.value_eq.symm.trans hvalue)
  obtain ⟨hinPattern, hpatternLeft⟩ := drop_eq_cons (hlocates.pattern_eq.symm.trans hpattern)
  refine ⟨⟨advanced, rfl, hvalueLeft, hpatternLeft, hstar.trans hlocates.star_eq⟩,
    ⟨hinValue, hinPattern, ?_, ?_⟩, ?_⟩
  · exact fun after absorbed h => Nat.le_succ_of_le (hwithin.after_le after absorbed h)
  · exact fun after absorbed h => Nat.le_succ_of_le (hwithin.absorbed_le after absorbed h)
  · cases hcursor : cursor.star with
    | some star =>
      simp only [reserve, hcursor]
      omega
    | none =>
      simp only [reserve, hcursor]
      exact Nat.mul_lt_mul_of_le_of_lt (by omega) (by omega) (by omega)

/-- A star that is passed may take no more than the star before it, and fewer elements stand behind
it. -/
theorem follows_star {advanced : Walk}
    (hlocates : cursor.Locates value pattern walk) (hwithin : cursor.Within value pattern)
    (hvalue : advanced.value = walk.value) (hpattern : walk.pattern = any :: advanced.pattern)
    (hstar : advanced.star = some (advanced.pattern, advanced.value)) :
    cursor.Follows value pattern (.more advanced)
      (.onward ⟨cursor.inValue, cursor.inPattern + 1,
        some (cursor.inPattern + 1, cursor.inValue)⟩) := by
  have hvalueLeft := hvalue.trans hlocates.value_eq
  obtain ⟨hinPattern, hpatternLeft⟩ := drop_eq_cons (hlocates.pattern_eq.symm.trans hpattern)
  refine ⟨⟨advanced, rfl, hvalueLeft, hpatternLeft, ?_⟩, ⟨hwithin.inValue_le, hinPattern, ?_, ?_⟩,
    ?_⟩
  · rw [hstar, hvalueLeft, hpatternLeft, Option.map_some]
  · rintro _ _ ⟨⟩
    exact Nat.le_refl _
  · rintro _ _ ⟨⟩
    exact Nat.le_refl _
  · have hbehind : pattern.length - (cursor.inPattern + 1) + 1 =
        pattern.length - cursor.inPattern := by omega
    cases hcursor : cursor.star with
    | none =>
      simp only [reserve, hcursor, hbehind, Nat.succ_mul]
      omega
    | some star =>
      obtain ⟨after, absorbed⟩ := star
      have hafter := hwithin.after_le after absorbed hcursor
      have habsorbed := hwithin.absorbed_le after absorbed hcursor
      have hfewer : (value.length - cursor.inValue) * (pattern.length - cursor.inPattern) ≤
          (value.length - absorbed) * (pattern.length - after + 1) :=
        Nat.mul_le_mul (by omega) (by omega)
      simp only [reserve, hcursor, hbehind]
      omega

/-- Every round takes the step of the walk. -/
theorem follows_round (hlocates : cursor.Locates value pattern walk)
    (hwithin : cursor.Within value pattern) (hvalue : cursor.inValue < value.length) :
    cursor.Follows value pattern walk.step (cursor.round value pattern) := by
  have hchar : value[cursor.inValue]? = walk.value.head? := by
    rw [hlocates.value_eq, List.head?_drop]
  have helement : pattern[cursor.inPattern]? = walk.pattern.head? := by
    rw [hlocates.pattern_eq, List.head?_drop]
  unfold Walk.step
  split
  · next hnil =>
    rw [hlocates.value_eq, List.drop_eq_nil_iff] at hnil
    omega
  · next hvalues hpattern =>
    rw [hpattern] at helement
    rw [round, helement]
    exact follows_star hlocates hwithin hvalues.symm hpattern rfl
  · next hvalues hpattern =>
    rw [hpattern] at helement
    rw [round, helement]
    exact follows_advance hlocates hwithin hvalues hpattern rfl
  · next hvalues hpattern =>
    rw [hpattern] at helement
    rw [hvalues] at hchar
    rw [round, helement, hchar]
    dsimp only [List.head?_cons]
    split
    · exact follows_advance hlocates hwithin hvalues hpattern rfl
    · exact follows_retry hlocates hwithin hvalue
  · next hvalues hpattern =>
    rw [hpattern] at helement
    rw [round, helement]
    exact follows_retry hlocates hwithin hvalue

/-- Behind the loop the walk is at the end of the value and looks at the same rest of the
pattern. -/
theorem conclude_eq (hlocates : cursor.Locates value pattern walk)
    (hwithin : cursor.Within value pattern) (hvalue : ¬cursor.inValue < value.length) :
    ∃ matched, walk.step = .done matched ∧ cursor.conclude pattern = pure matched := by
  have hnil : walk.value = [] := by
    rw [hlocates.value_eq, List.drop_eq_nil_iff]
    omega
  refine ⟨walk.pattern.all (· == any), ?_, ?_⟩
  · unfold Walk.step
    split
    · rfl
    all_goals next hvalues _ => rw [hnil] at hvalues; cases hvalues
  · rw [conclude, if_pos hwithin.inPattern_le, hlocates.pattern_eq]

/-- Every turn takes the step of the walk: it ends the loop with the answer, or it goes on and uses
up some of the reserve. -/
theorem turn_cases (hlocates : cursor.Locates value pattern walk)
    (hwithin : cursor.Within value pattern) (before : List Cursor) :
    (∃ matched, walk.step = .done matched ∧
      turn value pattern (before, cursor) = pure (.inr (before ++ [cursor], matched))) ∨
    ∃ next advanced, walk.step = .more advanced ∧
      turn value pattern (before, cursor) = pure (.inl (before ++ [cursor], next)) ∧
      next.Locates value pattern advanced ∧ next.Within value pattern ∧
      next.reserve value pattern < cursor.reserve value pattern := by
  rw [turn]
  by_cases hvalue : cursor.inValue < value.length
  · have hround := follows_round hlocates hwithin hvalue
    rw [if_pos hvalue]
    cases hnext : cursor.round value pattern with
    | onward next =>
      rw [hnext] at hround
      obtain ⟨⟨advanced, hmore, hlocates⟩, hwithin, hreserve⟩ := hround
      exact .inr ⟨next, advanced, hmore, rfl, hlocates, hwithin, hreserve⟩
    | refused =>
      rw [hnext] at hround
      exact .inl ⟨false, hround, rfl⟩
    | outside position =>
      rw [hnext] at hround
      exact hround.elim
  · obtain ⟨matched, hdone, hconclude⟩ := conclude_eq hlocates hwithin hvalue
    rw [if_neg hvalue, hconclude]
    exact .inl ⟨matched, hdone, rfl⟩

/-- The loop ends within one turn more than the reserve allows, and comes to what the walk comes
to. -/
theorem exists_rounds {n : Nat} (hlocates : cursor.Locates value pattern walk)
    (hwithin : cursor.Within value pattern) (before : List Cursor)
    (hn : cursor.reserve value pattern < n) :
    ∃ heads,
      Loop.rounds (turn value pattern) n (before, cursor) = pure (before ++ heads, walk.run) ∧
      heads.length ≤ n ∧ ∀ head ∈ heads, head.Within value pattern := by
  obtain ⟨n, rfl⟩ := Nat.exists_eq_add_one_of_ne_zero (Nat.ne_zero_of_lt hn)
  fun_induction Walk.run walk generalizing cursor before n with
  | case1 walk matched hstep =>
    rcases turn_cases hlocates hwithin before with ⟨found, hdone, hturn⟩ | ⟨_, _, hmore, _⟩
    · obtain rfl : matched = found := Step.done.inj (hstep.symm.trans hdone)
      exact ⟨[cursor], Loop.rounds_of_inr hturn, Nat.le_add_left 1 n,
        List.forall_mem_singleton.mpr hwithin⟩
    · cases hstep.symm.trans hmore
  | case2 walk advanced hstep ih =>
    rcases turn_cases hlocates hwithin before with
      ⟨_, hdone, _⟩ | ⟨next, found, hmore, hturn, hlocates', hwithin', hreserve⟩
    · cases hstep.symm.trans hdone
    · obtain rfl : advanced = found := Step.more.inj (hstep.symm.trans hmore)
      obtain ⟨rest, rfl⟩ : ∃ rest, n = rest + 1 := Nat.exists_eq_add_one_of_ne_zero (by omega)
      obtain ⟨heads, hloop, hlength, hheads⟩ :=
        ih hlocates' hwithin' (before ++ [cursor]) rest (by omega)
      refine ⟨cursor :: heads, ?_, Nat.succ_le_succ hlength,
        List.forall_mem_cons.mpr ⟨hwithin, hheads⟩⟩
      rw [Loop.rounds_of_inl hturn, hloop, List.append_assoc, List.singleton_append]

end Cursor

/-- The loop over a value of `m` characters and a pattern of `n` elements ends within
`(m + 1) * (n + 1)` turns, with the answer of the walk. Its positions stay within the value and the
pattern, so that no access is out of range, and the last star ends no later than the value that has
been passed. -/
theorem loop_bounded (value pattern : String) :
    let chars := value.toList
    let elements := compile pattern.toList
    ∃ heads : List Cursor,
      (Loop.rounds (Cursor.turn chars elements) ((chars.length + 1) * (elements.length + 1))
        ([], .start)).run = some (.ok (heads, Glob.matches value pattern)) ∧
      heads.length ≤ (chars.length + 1) * (elements.length + 1) ∧
      ∀ head ∈ heads, head.inValue ≤ chars.length ∧ head.inPattern ≤ elements.length ∧
        ∀ after absorbed, head.star = some (after, absorbed) →
          after ≤ elements.length ∧ absorbed ≤ head.inValue := by
  intro chars elements
  have hlocates : Cursor.start.Locates chars elements (.start chars elements) := ⟨rfl, rfl, rfl⟩
  have hwithin : Cursor.start.Within chars elements :=
    ⟨Nat.zero_le _, Nat.zero_le _, nofun, nofun⟩
  have hreserve : Cursor.start.reserve chars elements <
      (chars.length + 1) * (elements.length + 1) := by
    calc
      Cursor.start.reserve chars elements = (chars.length + 1) * elements.length := rfl
      _ < (chars.length + 1) * elements.length + (chars.length + 1) := by omega
      _ = (chars.length + 1) * (elements.length + 1) := (Nat.mul_succ _ _).symm
  obtain ⟨heads, hloop, hlength, hheads⟩ := Cursor.exists_rounds hlocates hwithin [] hreserve
  refine ⟨heads, congrArg ExceptT.run hloop, hlength, fun head hhead => ?_⟩
  have hhead := hheads head hhead
  refine ⟨hhead.inValue_le, hhead.inPattern_le, fun after absorbed hstar => ⟨?_, ?_⟩⟩
  · exact Nat.le_trans (hhead.after_le after absorbed hstar) hhead.inPattern_le
  · exact hhead.absorbed_le after absorbed hstar

end MailFilter.Glob
