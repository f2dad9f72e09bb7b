/-!
# Patterns with wildcards

A pattern is a list of elements: literal characters, `?` for exactly one character and `*` for any
run of characters. In its written form a backslash makes the next character a literal.

The matcher walks over the value once and remembers only the last star: when an element does not
fit, that star takes one character more and the walk goes on behind it. An earlier star need not be
tried again, because the last one can take whatever the earlier one would have left. The two
suffix facts kept with a state say that the remembered place is never ahead of the walk, which is
why the walk ends.
-/

namespace MailFilter

/-- An element of a pattern. -/
inductive Glob where
  | literal (c : Char)
  | one
  | any
  deriving DecidableEq, Inhabited

namespace Glob

/-- The elements of a written pattern. A backslash at the end stands for itself. -/
def compile : List Char → List Glob
  | '\\' :: c :: rest => literal c :: compile rest
  | ['\\'] => [literal '\\']
  | '?' :: rest => one :: compile rest
  | '*' :: rest => any :: compile rest
  | c :: rest => literal c :: compile rest
  | [] => []

/-- A point of the walk: what is left of the value and of the pattern, and, once a star has been
passed, the pattern behind it and the value it has not taken. -/
structure Walk where
  value : List Char
  pattern : List Glob
  star : Option (List Glob × List Char)
  behind : ∀ after taken, star = some (after, taken) → pattern <:+ after ∧ value <:+ taken

/-- What one step of the walk comes to. -/
inductive Step where
  | more (walk : Walk)
  | done (matched : Bool)

namespace Walk

/-- The beginning of a walk, before any star. -/
def start (value : List Char) (pattern : List Glob) : Walk :=
  ⟨value, pattern, none, by simp⟩

/-- The walk after its last star has taken one character more. Without a star there is no match. -/
def retry (walk : Walk) : Step :=
  match walk.star with
  | none => .done false
  | some (after, taken) =>
    .more ⟨taken.tail, after, some (after, taken.tail), by
      intro after' taken' h
      cases h
      exact ⟨List.suffix_refl _, List.suffix_refl _⟩⟩

/-- One step of the walk. At the end of the value only stars may be left of the pattern. -/
def step (walk : Walk) : Step :=
  match hvalue : walk.value, hpattern : walk.pattern with
  | [], pattern => .done (pattern.all (· == any))
  | c :: value, any :: pattern =>
    .more ⟨c :: value, pattern, some (pattern, c :: value), by
      intro after taken h
      cases h
      exact ⟨List.suffix_refl _, List.suffix_refl _⟩⟩
  | _ :: value, one :: pattern =>
    .more ⟨value, pattern, walk.star, fun after taken h => by
      have hbehind := walk.behind after taken h
      rw [hvalue, hpattern] at hbehind
      exact ⟨(List.suffix_cons _ _).trans hbehind.1, (List.suffix_cons _ _).trans hbehind.2⟩⟩
  | c :: value, literal d :: pattern =>
    if d = c then
      .more ⟨value, pattern, walk.star, fun after taken h => by
        have hbehind := walk.behind after taken h
        rw [hvalue, hpattern] at hbehind
        exact ⟨(List.suffix_cons _ _).trans hbehind.1, (List.suffix_cons _ _).trans hbehind.2⟩⟩
    else walk.retry
  | _ :: _, [] => walk.retry

/-- The pattern behind the last star, or a bound above the whole pattern before any star. -/
def patternBound (walk : Walk) : Nat :=
  match walk.star with
  | some (after, _) => after.length
  | none => walk.pattern.length + 1

/-- The value the last star has not taken. -/
def valueBound (walk : Walk) : Nat :=
  match walk.star with
  | some (_, taken) => taken.length
  | none => 0

/-- `next` is nearer to its end than `walk`: it has passed a later star, or its last star has taken
more, or less of the pattern is left. -/
def Nearer (next walk : Walk) : Prop :=
  next.patternBound < walk.patternBound ∨
    next.patternBound = walk.patternBound ∧
      (next.valueBound < walk.valueBound ∨
        next.valueBound = walk.valueBound ∧ next.pattern.length < walk.pattern.length)

/-- To go back to the last star brings a walk nearer to its end. -/
theorem nearer_of_retry {walk next : Walk} (hvalue : walk.value ≠ [])
    (h : walk.retry = .more next) : next.Nearer walk := by
  unfold retry at h
  split at h
  · cases h
  · next after taken hstar =>
    cases h
    have hsuffix := (walk.behind after taken hstar).2
    have hpos : 0 < taken.length :=
      Nat.lt_of_lt_of_le (List.length_pos_iff.mpr hvalue) hsuffix.length_le
    refine .inr ⟨by simp [patternBound, hstar], .inl ?_⟩
    simp only [valueBound, hstar, List.length_tail]
    omega

/-- An element that fits brings the walk nearer to its end. -/
theorem nearer_of_advance {walk next : Walk} {element : Glob}
    (hpattern : walk.pattern = element :: next.pattern) (hstar : next.star = walk.star) :
    next.Nearer walk := by
  unfold Nearer patternBound valueBound
  rw [hstar, hpattern]
  cases walk.star <;> simp

/-- Every step brings the walk nearer to its end. -/
theorem nearer_of_step {walk next : Walk} (h : walk.step = .more next) : next.Nearer walk := by
  unfold step at h
  split at h
  · cases h
  · next c value pattern hvalue hpattern =>
    cases h
    refine .inl ?_
    simp only [patternBound]
    cases hstar : walk.star with
    | none =>
      simp only [hpattern, List.length_cons]
      omega
    | some star =>
      have hsuffix := (walk.behind star.1 star.2 hstar).1
      rw [hpattern] at hsuffix
      exact hsuffix.length_le
  · next hvalue hpattern => cases h; exact nearer_of_advance hpattern rfl
  · next hvalue hpattern =>
    split at h
    · cases h; exact nearer_of_advance hpattern rfl
    · exact nearer_of_retry (by simp [hvalue]) h
  · next hvalue hpattern => exact nearer_of_retry (by simp [hvalue]) h

/-- Whether the rest of the walk ends in a match. -/
def run (walk : Walk) : Bool :=
  match _h : walk.step with
  | .done matched => matched
  | .more next => next.run
termination_by (walk.patternBound, walk.valueBound, walk.pattern.length)
decreasing_by
  rcases nearer_of_step ‹_› with h | ⟨heq, h | ⟨heq', h⟩⟩
  · exact Prod.Lex.left _ _ h
  · rw [heq]; exact Prod.Lex.right _ (Prod.Lex.left _ _ h)
  · rw [heq, heq']; exact Prod.Lex.right _ (Prod.Lex.right _ h)

end Walk

end Glob

/-- Whether a written pattern matches the whole value. -/
def Glob.matches (value pattern : String) : Bool :=
  (Glob.Walk.start value.toList (Glob.compile pattern.toList)).run

end MailFilter
