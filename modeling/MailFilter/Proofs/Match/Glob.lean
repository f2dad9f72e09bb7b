import Mathlib.Data.List.Infix
import MailFilter.Match.Glob

/-!
# What patterns match

A pattern covers a value if its elements stand for the pieces of the value in order. This is said
without any search: a star takes whatever run of characters it takes. The walk that decides it goes
back to the last star only, and that is enough. Since the last star no other has been passed, so
the elements between it and the place of the walk stand for one character each, and whatever an
earlier star could leave to the last one is a tail of what the last one has before it now.
-/

namespace MailFilter.Glob

/-- The text is a written form of the pattern: a backslash makes the next character a literal and
is itself a literal at the end, and a question mark or a star is an element otherwise. -/
inductive Spells : List Char → List Glob → Prop
  | nil : Spells [] []
  | trailing : Spells ['\\'] [literal '\\']
  | escaped (c : Char) {text : List Char} {pattern : List Glob} :
    Spells text pattern → Spells ('\\' :: c :: text) (literal c :: pattern)
  | one {text : List Char} {pattern : List Glob} :
    Spells text pattern → Spells ('?' :: text) (one :: pattern)
  | any {text : List Char} {pattern : List Glob} :
    Spells text pattern → Spells ('*' :: text) (any :: pattern)
  | plain {c : Char} {text : List Char} {pattern : List Glob} :
    c ≠ '\\' → c ≠ '?' → c ≠ '*' → Spells text pattern → Spells (c :: text) (literal c :: pattern)

/-- The elements of the pattern stand for the pieces of the whole value, one after the other: a
literal for itself, `?` for one character and `*` for any run of them. -/
inductive Covers : List Glob → List Char → Prop
  | nil : Covers [] []
  | literal (c : Char) {pattern : List Glob} {value : List Char} :
    Covers pattern value → Covers (literal c :: pattern) (c :: value)
  | one (c : Char) {pattern : List Glob} {value : List Char} :
    Covers pattern value → Covers (one :: pattern) (c :: value)
  | any (run : List Char) {pattern : List Glob} {value : List Char} :
    Covers pattern value → Covers (any :: pattern) (run ++ value)

variable {text value : List Char} {pattern : List Glob} {c d : Char}

/-- A character that is not special stands for itself in a pattern. -/
theorem compile_plain (hbackslash : c ≠ '\\') (hone : c ≠ '?') (hany : c ≠ '*') :
    compile (c :: text) = literal c :: compile text := by
  rw [compile]
  · exact fun _ _ h _ => hbackslash h
  · exact fun h _ => hbackslash h
  · exact hone
  · exact hany

/-- What a pattern is compiled to is what it spells. -/
theorem spells_compile (text : List Char) : Spells text (compile text) := by
  fun_induction compile text with
  | case1 c rest ih => exact .escaped c ih
  | case2 => exact .trailing
  | case3 rest ih => exact .one ih
  | case4 rest ih => exact .any ih
  | case5 c rest hescape hbackslash hone hany ih =>
    refine .plain ?_ hone hany ih
    rintro rfl
    cases rest with
    | nil => exact hbackslash rfl rfl
    | cons next rest => exact hescape next rest rfl rfl
  | case6 => exact .nil

/-- A text is a written form of one pattern only. -/
theorem Spells.eq_compile (h : Spells text pattern) : pattern = compile text := by
  induction h with
  | nil => rfl
  | trailing => rfl
  | escaped c _ ih => rw [compile, ← ih]
  | one _ ih => rw [compile, ← ih]
  | any _ ih => rw [compile, ← ih]
  | plain hbackslash hone hany _ ih => rw [compile_plain hbackslash hone hany, ← ih]

/-- The empty pattern covers the empty value alone. -/
@[simp] theorem covers_nil_iff : Covers [] value ↔ value = [] := by
  constructor
  · rintro ⟨⟩
    rfl
  · rintro rfl
    exact .nil

/-- A character covers itself. -/
@[simp] theorem covers_literal_iff :
    Covers (literal d :: pattern) (c :: value) ↔ d = c ∧ Covers pattern value := by
  constructor
  · rintro ⟨⟩
    exact ⟨rfl, ‹_›⟩
  · rintro ⟨rfl, h⟩
    exact .literal d h

/-- A question mark covers any character. -/
@[simp] theorem covers_one_iff : Covers (one :: pattern) (c :: value) ↔ Covers pattern value := by
  constructor
  · rintro ⟨⟩
    assumption
  · exact .one c

/-- A star leaves some tail of the value to the pattern behind it. -/
theorem covers_any_iff :
    Covers (any :: pattern) value ↔ ∃ rest, rest <:+ value ∧ Covers pattern rest := by
  constructor
  · rintro ⟨⟩
    exact ⟨_, List.suffix_append _ _, ‹_›⟩
  · rintro ⟨rest, ⟨run, rfl⟩, h⟩
    exact .any run h

/-- A pattern that begins with a star covers every longer value too. -/
theorem Covers.any_of_suffix {rest : List Char} (h : Covers (Glob.any :: pattern) rest)
    (hrest : rest <:+ value) : Covers (Glob.any :: pattern) value := by
  obtain ⟨tail, htail, hcovers⟩ := covers_any_iff.mp h
  exact covers_any_iff.mpr ⟨tail, htail.trans hrest, hcovers⟩

/-- A star takes nothing, or one character and perhaps more. -/
theorem covers_any_iff_tail :
    Covers (any :: pattern) value ↔
      Covers pattern value ∨ value ≠ [] ∧ Covers (any :: pattern) value.tail := by
  rw [covers_any_iff, covers_any_iff]
  cases value with
  | nil => simp
  | cons c value => simp [List.suffix_cons_iff, or_and_right, exists_or]

/-- Only stars cover nothing. -/
theorem covers_nil_value_iff : Covers pattern [] ↔ pattern.all (· == any) = true := by
  induction pattern with
  | nil => simp
  | cons element pattern ih =>
    cases element with
    | any =>
      rw [covers_any_iff_tail, ih]
      simp
    | one =>
      have hnot : ¬ Covers (one :: pattern) [] := nofun
      simp [hnot]
    | literal d =>
      have hnot : ¬ Covers (literal d :: pattern) [] := nofun
      simp [hnot]

/-- The front of a value is covered by the front of the pattern. -/
theorem exists_of_covers_append {front : List Glob} (h : Covers (front ++ pattern) value) :
    ∃ run rest, value = run ++ rest ∧ Covers front run ∧ Covers pattern rest := by
  induction front generalizing value with
  | nil => exact ⟨[], value, rfl, .nil, h⟩
  | cons element front ih =>
    cases h with
    | literal c h =>
      obtain ⟨run, rest, rfl, hfront, hpattern⟩ := ih h
      exact ⟨c :: run, rest, rfl, .literal c hfront, hpattern⟩
    | one c h =>
      obtain ⟨run, rest, rfl, hfront, hpattern⟩ := ih h
      exact ⟨c :: run, rest, rfl, .one c hfront, hpattern⟩
    | any taken h =>
      obtain ⟨run, rest, rfl, hfront, hpattern⟩ := ih h
      exact ⟨taken ++ run, rest, by rw [List.append_assoc], .any taken hfront, hpattern⟩

/-- Without a star a pattern covers values of its own length only. -/
theorem Covers.length_eq (h : Covers pattern value) (hany : Glob.any ∉ pattern) :
    value.length = pattern.length := by
  induction h with
  | nil => rfl
  | literal c _ ih => simpa using ih (List.not_mem_of_not_mem_cons hany)
  | one c _ ih => simpa using ih (List.not_mem_of_not_mem_cons hany)
  | any run _ _ => exact absurd List.mem_cons_self hany

namespace Walk

/-- Since its last star the walk has passed elements that stand for one character each, and as many
characters. -/
def Aligned (walk : Walk) : Prop :=
  ∀ after taken, walk.star = some (after, taken) → ∃ passed run,
    after = passed ++ walk.pattern ∧ taken = run ++ walk.value ∧
      run.length = passed.length ∧ any ∉ passed

/-- There is a match ahead: from here, or after the last star has taken at least one character
more. Earlier stars do not count. -/
def Succeeds (walk : Walk) : Prop :=
  Covers walk.pattern walk.value ∨
    ∃ after taken, walk.star = some (after, taken) ∧ taken ≠ [] ∧ Covers (any :: after) taken.tail

/-- The walk is aligned at its start. -/
theorem aligned_start (value : List Char) (pattern : List Glob) : (start value pattern).Aligned :=
  nofun

/-- The walk succeeds from its start if the pattern covers the value. -/
theorem succeeds_start_iff : (start value pattern).Succeeds ↔ Covers pattern value := by
  simp [Succeeds, start]

variable {walk next : Walk}

/-- The walk is aligned at a star. -/
theorem aligned_of_star (hstar : walk.star = some (walk.pattern, walk.value)) : walk.Aligned := by
  intro after taken hsome
  rw [hstar] at hsome
  cases hsome
  exact ⟨[], [], rfl, rfl, rfl, List.not_mem_nil⟩

/-- Right behind its star a walk has the star's matches ahead. -/
theorem succeeds_of_star (hstar : walk.star = some (walk.pattern, walk.value)) :
    walk.Succeeds ↔ Covers (any :: walk.pattern) walk.value := by
  rw [covers_any_iff_tail]
  simp [Succeeds, hstar]

/-- If a match is ahead once the last star takes more, the pattern at hand covers a shorter tail
of the value at hand. This is why earlier stars can be given up. -/
theorem Aligned.exists_tail (h : walk.Aligned) {after : List Glob} {taken : List Char}
    (hstar : walk.star = some (after, taken)) (htaken : taken ≠ [])
    (hcovers : Covers (any :: after) taken.tail) :
    ∃ tail, tail <:+ walk.value ∧ tail.length < walk.value.length ∧ Covers walk.pattern tail := by
  obtain ⟨passed, run, rfl, rfl, hlength, hany⟩ := h after taken hstar
  -- The passed elements take as many characters again, now from one character later at least.
  obtain ⟨left, hleft, hleftCovers⟩ := covers_any_iff.mp hcovers
  obtain ⟨front, tail, rfl, hfront, htail⟩ := exists_of_covers_append hleftCovers
  have hfrontLength : front.length = run.length := by rw [hfront.length_eq hany, hlength]
  have htakenLength : 0 < (run ++ walk.value).length := List.length_pos_iff.mpr htaken
  have hleftLength := hleft.length_le
  have htailLength : tail.length < walk.value.length := by
    simp only [List.length_append, List.length_tail] at hleftLength htakenLength
    omega
  have htailSuffix : tail <:+ run ++ walk.value :=
    (List.suffix_append _ _).trans (hleft.trans (List.tail_suffix _))
  exact ⟨tail, List.suffix_of_suffix_length_le htailSuffix (List.suffix_append _ _)
    htailLength.le, htailLength, htail⟩

/-- What a step comes to says the truth about the walk before it: a walk that goes on has the same
matches ahead, and one that ends says whether there was one. -/
def IsTold (walk : Walk) : Step → Prop
  | .more next => next.Aligned ∧ (next.Succeeds ↔ walk.Succeeds)
  | .done matched => matched = true ↔ walk.Succeeds

/-- Where the walk is stuck, the only match left is that the last star takes one more. -/
theorem isTold_retry (hvalue : walk.value ≠ []) (h : walk.Aligned)
    (hstuck : ¬ Covers walk.pattern walk.value) : walk.IsTold walk.retry := by
  unfold retry
  split
  · next hstar => simp [IsTold, Succeeds, hstuck, hstar]
  · next after taken hstar =>
    have htaken : taken ≠ [] := by
      obtain ⟨_, run, _, rfl, _⟩ := h after taken hstar
      simp [hvalue]
    refine ⟨aligned_of_star rfl, ?_⟩
    rw [succeeds_of_star rfl]
    simp [Succeeds, hstuck, hstar, htaken]

/-- An element that stands for the next character is passed together with it. -/
theorem isTold_advance {element : Glob} (helement : element ≠ any)
    (hvalue : walk.value = c :: next.value) (hpattern : walk.pattern = element :: next.pattern)
    (hstar : next.star = walk.star) (h : walk.Aligned)
    (hcovers : Covers (element :: next.pattern) (c :: next.value) ↔
      Covers next.pattern next.value) : walk.IsTold (.more next) := by
  refine ⟨?_, ?_⟩
  · intro after taken hnext
    obtain ⟨passed, run, rfl, rfl, hlength, hany⟩ := h after taken (hstar ▸ hnext)
    refine ⟨passed ++ [element], run ++ [c], ?_, ?_, ?_, ?_⟩
    · rw [hpattern, List.append_assoc, List.singleton_append]
    · rw [hvalue, List.append_assoc, List.singleton_append]
    · simp [hlength]
    · simpa [hany] using helement.symm
  · rw [Succeeds, Succeeds, hvalue, hpattern, hstar, hcovers]

/-- A star becomes the last one, and no match is lost by it. -/
theorem isTold_star (hpattern : walk.pattern = any :: next.pattern)
    (hvalue : next.value = walk.value) (hstar : next.star = some (next.pattern, next.value))
    (h : walk.Aligned) : walk.IsTold (.more next) := by
  refine ⟨aligned_of_star hstar, ?_⟩
  rw [succeeds_of_star hstar, hvalue, ← hpattern, Succeeds, iff_self_or]
  -- What is left is that the star before this one had no other match to offer.
  rintro ⟨after, taken, hbefore, htaken, hcovers⟩
  obtain ⟨tail, hsuffix, _, htail⟩ := h.exists_tail hbefore htaken hcovers
  rw [hpattern] at htail ⊢
  exact htail.any_of_suffix hsuffix

/-- At the end of the value no star can take more. -/
theorem isTold_end (hvalue : walk.value = []) (h : walk.Aligned) :
    walk.IsTold (.done (walk.pattern.all (· == any))) := by
  have hno : ¬ ∃ after taken, walk.star = some (after, taken) ∧ taken ≠ [] ∧
      Covers (any :: after) taken.tail := by
    rintro ⟨after, taken, hstar, htaken, hcovers⟩
    obtain ⟨tail, _, hlength, _⟩ := h.exists_tail hstar htaken hcovers
    rw [hvalue, List.length_nil] at hlength
    omega
  rw [IsTold, Succeeds, or_iff_left hno, hvalue, covers_nil_value_iff]

/-- Every step keeps the matches ahead. -/
theorem isTold_step (h : walk.Aligned) : walk.IsTold walk.step := by
  unfold step
  split
  · next hvalue => exact isTold_end hvalue h
  · next hvalue hpattern => exact isTold_star hpattern hvalue.symm rfl h
  · next hvalue hpattern =>
    exact isTold_advance (by decide) hvalue hpattern rfl h covers_one_iff
  · next hvalue hpattern =>
    split
    · next hsame =>
      exact isTold_advance (by simp) hvalue hpattern rfl h (by simp [hsame])
    · next hother =>
      exact isTold_retry (by simp [hvalue]) h (by simp [hvalue, hpattern, hother])
  · next hvalue hpattern =>
    exact isTold_retry (by simp [hvalue]) h (by simp [hvalue, hpattern])

/-- The whole walk finds a match if and only if there is one ahead. -/
theorem run_eq_true_iff (h : walk.Aligned) : walk.run = true ↔ walk.Succeeds := by
  fun_induction run walk with
  | case1 walk matched hstep =>
    have htold := isTold_step h
    rw [hstep] at htold
    exact htold
  | case2 walk next hstep ih =>
    have htold := isTold_step h
    rw [hstep] at htold
    exact (ih htold.1).trans htold.2

end Walk

/-- A value matches a pattern if what the pattern compiles to covers it. -/
theorem matches_eq_true_iff {value pattern : String} :
    Glob.matches value pattern = true ↔ Covers (compile pattern.toList) value.toList := by
  rw [Glob.matches, Walk.run_eq_true_iff (Walk.aligned_start _ _), Walk.succeeds_start_iff]

/-- A written pattern is read in exactly one way, and matches just the values that the pattern it
spells covers as a whole. -/
theorem matches_iff_covers (value pattern : String) :
    (∃! elements, Spells pattern.toList elements) ∧
      (Glob.matches value pattern = true ↔
        ∃ elements, Spells pattern.toList elements ∧ Covers elements value.toList) := by
  have hspells := spells_compile pattern.toList
  refine ⟨⟨compile pattern.toList, hspells, fun _ h => h.eq_compile⟩, ?_⟩
  rw [matches_eq_true_iff]
  constructor
  · intro hcovers
    exact ⟨compile pattern.toList, hspells, hcovers⟩
  · rintro ⟨elements, hread, hcovers⟩
    rwa [← hread.eq_compile]

end MailFilter.Glob
