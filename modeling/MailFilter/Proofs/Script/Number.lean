import Mathlib.Data.List.Induction
import Mathlib.Data.Nat.Digits.Defs
import MailFilter.Proofs.Script.Seam
import MailFilter.Script.Number

/-!
# The value of a number literal

A number literal has a magnitude, however large: the number that its digits spell in base ten, times
the power of 1024 that its letter stands for. Such literals are all that the lexer makes numbers of,
and each is read as its magnitude if that fits in 64 bits and refused otherwise. The digits alone
are checked first, but they never exceed the bound if the whole does not.
-/

namespace MailFilter.Script

open Ascii (isSpace isDigit isLetter isWordChar)

/-- The power of 1024 that a scale letter stands for. -/
def scalePower (c : Char) : Nat :=
  if c = 'K' ∨ c = 'k' then 1
  else if c = 'M' ∨ c = 'm' then 2
  else if c = 'G' ∨ c = 'g' then 3
  else 0

/-- The value of a decimal digit. -/
def digitValue (c : Char) : Nat :=
  c.toNat - '0'.toNat

/-- The number that a literal spells: its digits in base ten, scaled by the letter behind them. -/
def magnitude (literal : String) : Nat :=
  Nat.ofDigits 10 ((literal.toList.takeWhile isDigit).map digitValue).reverse *
    1024 ^ ((literal.toList.dropWhile isDigit).head?.elim 0 scalePower)

section

variable {digits : List Char} {scale : Option Char}

/-- One more digit makes a number ten times as large and adds its value. -/
theorem ofDigits_append_singleton (digits : List Char) (c : Char) :
    ofDigits (digits ++ [c]) = ofDigits digits * 10 + digitValue c := by
  rw [ofDigits, List.foldl_append]
  rfl

/-- Digits are read in base ten, the last one lowest. -/
theorem ofDigits_eq (digits : List Char) :
    ofDigits digits = Nat.ofDigits 10 (digits.map digitValue).reverse := by
  induction digits using List.reverseRecOn with
  | nil => rfl
  | append_singleton digits c ih =>
    rw [ofDigits_append_singleton, ih, List.map_append, List.map_singleton, List.reverse_append,
      List.reverse_singleton, List.singleton_append, Nat.ofDigits_cons]
    ring

/-- A scale letter is no digit. -/
theorem isDigit_of_isScale {c : Char} (hc : isScale c = true) : isDigit c = false := by
  simp only [isScale, List.contains_eq_mem, List.mem_cons, List.not_mem_nil, or_false,
    decide_eq_true_eq] at hc
  rcases hc with rfl | rfl | rfl | rfl | rfl | rfl <;> rfl

/-- The factor of a scale letter is a power of 1024. -/
theorem scaleOf?_of_isScale {c : Char} (hc : isScale c = true) :
    scaleOf? c = some (1024 ^ scalePower c) := by
  simp only [isScale, List.contains_eq_mem, List.mem_cons, List.not_mem_nil, or_false,
    decide_eq_true_eq] at hc
  rcases hc with rfl | rfl | rfl | rfl | rfl | rfl <;> rfl

/-- A digit has no factor. -/
theorem scaleOf?_of_isDigit {c : Char} (hc : isDigit c = true) : scaleOf? c = none :=
  of_isWordChar (fun c => isDigit c = true → scaleOf? c = none) (by decide)
    (isWordChar_of_isDigit hc) hc

/-- The magnitude of digits with perhaps a scale letter behind them. -/
theorem magnitude_ofList (hdigits : ∀ c ∈ digits, isDigit c) (hscale : ∀ c ∈ scale, isScale c) :
    magnitude (String.ofList (digits ++ scale.toList)) =
      ofDigits digits * 1024 ^ scale.elim 0 scalePower := by
  rw [magnitude, String.toList_ofList, List.takeWhile_append_of_pos hdigits,
    List.dropWhile_append_of_pos hdigits, ofDigits_eq]
  cases scale with
  | none => rw [Option.toList_none, List.takeWhile_nil, List.append_nil]; rfl
  | some letter =>
    have hletter : ¬isDigit letter = true := by simp [isDigit_of_isScale (hscale letter rfl)]
    rw [Option.toList_some, List.takeWhile_cons_of_neg hletter, List.append_nil,
      List.dropWhile_cons_of_neg hletter]
    rfl

/-- Digits are split from the scale letter behind them. -/
theorem splitScale_append (hdigits : ∀ c ∈ digits, isDigit c) (hscale : ∀ c ∈ scale, isScale c) :
    splitScale (digits ++ scale.toList) = (digits, 1024 ^ scale.elim 0 scalePower) := by
  cases scale with
  | some letter =>
    rw [splitScale, Option.toList_some, List.getLast?_concat, Option.bind_some,
      scaleOf?_of_isScale (hscale letter rfl), List.dropLast_concat]
    rfl
  | none =>
    have hlast : digits.getLast?.bind scaleOf? = none := by
      rw [Option.bind_eq_none_iff]
      exact fun c hc => scaleOf?_of_isDigit (hdigits c (List.mem_of_getLast? hc))
    rw [splitScale, Option.toList_none, List.append_nil, hlast]
    rfl

/-- A plus sign is no digit, so digits are taken as they are. -/
theorem decimal?_of_isDigit (hne : digits ≠ []) (hdigits : ∀ c ∈ digits, isDigit c) :
    decimal? digits = if ofDigits digits < numberBound then some (ofDigits digits) else none := by
  have hall : digits.all isDigit = true := List.all_eq_true.mpr hdigits
  obtain ⟨first, others, rfl⟩ := List.exists_cons_of_ne_nil hne
  have hfirst : first ≠ '+' := by
    rintro rfl
    exact absurd (hdigits '+' List.mem_cons_self) (by decide)
  rw [decimal?]
  · simp only [hne, hall, ne_eq, not_false_eq_true, true_and]
  · simp [hfirst]

end

/-- A literal is read as its magnitude if that fits in 64 bits, and refused otherwise. -/
theorem parseNumber_eq {literal : String} (h : (Token.number literal).IsLexical) (line : Nat) :
    parseNumber literal line =
      if magnitude literal < 2 ^ 64 then .ok (magnitude literal)
      else .error (.arguments "number" line (.invalidNumber literal)) := by
  obtain ⟨digits, scale, hne, hdigits, hscale, rfl⟩ := h
  have hscaled : ofDigits digits ≤ ofDigits digits * 1024 ^ scale.elim 0 scalePower :=
    Nat.le_mul_of_pos_right _ (Nat.pow_pos (by decide))
  rw [magnitude_ofList hdigits hscale, parseNumber, String.toList_ofList,
    splitScale_append hdigits hscale]
  dsimp only
  have hbound : numberBound = 2 ^ 64 := rfl
  rw [decimal?_of_isDigit hne hdigits, hbound]
  by_cases hfits : ofDigits digits * 1024 ^ scale.elim 0 scalePower < 2 ^ 64
  · rw [if_pos (Nat.lt_of_le_of_lt hscaled hfits)]
  · rw [if_neg hfits]
    -- The digits may be too large by themselves, or only together with their scale.
    by_cases hplain : ofDigits digits < 2 ^ 64
    · rw [if_pos hplain]
      exact if_neg hfits
    · rw [if_neg hplain]

/-- The scale letters are `k`, `m` and `g` in either case. -/
theorem isScale_of_toLower {c : Char}
    (h : c.toLower = 'k' ∨ c.toLower = 'm' ∨ c.toLower = 'g') : isScale c = true := by
  by_cases hupper : c.val ≥ 'A'.val ∧ c.val ≤ 'Z'.val
  · have hletter : isLetter c = true := by
      simp only [isLetter, Bool.or_eq_true, Bool.and_eq_true, decide_eq_true_eq]
      exact .inr hupper
    have hword : isWordChar c = true := by simp [isWordChar, hletter]
    exact of_isWordChar (fun c => c.toLower = 'k' ∨ c.toLower = 'm' ∨ c.toLower = 'g' →
      isScale c = true) (by decide) hword h
  · have hsame : c.toLower = c := dif_neg hupper
    rw [hsame] at h
    rcases h with rfl | rfl | rfl <;> rfl

/-- A number that begins with a digit is a numeral. -/
theorem isLexical_of_numberPiece {c : Char} {cs : List Char} {literal : String}
    (hc : isDigit c = true) (h : (numberPiece (c :: cs)).token = some (.number literal)) :
    (Token.number literal).IsLexical := by
  have hne : (c :: cs).takeWhile isDigit ≠ [] := by
    rw [List.takeWhile_cons_of_pos hc]
    exact List.cons_ne_nil _ _
  have hdigits : ∀ d ∈ (c :: cs).takeWhile isDigit, isDigit d = true :=
    fun d => List.mem_takeWhile_imp
  rw [numberPiece] at h
  generalize (c :: cs).takeWhile isDigit = digits at *
  split at h
  · next letter rest hrest =>
    split at h
    · next hletter =>
      cases h
      have hscale : ∀ c ∈ some letter, isScale c := by
        rintro _ ⟨⟩
        exact isScale_of_toLower hletter
      exact ⟨digits, some letter, hne, hdigits, hscale, rfl⟩
    · cases h
      exact ⟨digits, none, hne, hdigits, by simp, by simp⟩
  · cases h
    exact ⟨digits, none, hne, hdigits, by simp, by simp⟩

/-- Punctuation is no number. -/
theorem punctuation?_ne_number (c : Char) (literal : String) :
    punctuation? c ≠ some (.number literal) := by
  unfold punctuation?
  split <;> exact nofun

/-- A piece is a number only where it begins with a digit. -/
theorem isLexical_of_firstPiece {c : Char} {cs : List Char} {piece : Piece} {literal : String}
    (h : firstPiece c cs = .ok piece) (htoken : piece.token = some (.number literal)) :
    (Token.number literal).IsLexical := by
  unfold firstPiece at h
  split at h
  · cases h; cases htoken
  split at h
  · next token hpunctuation =>
    cases h
    cases htoken
    exact absurd hpunctuation (punctuation?_ne_number c literal)
  split at h
  · cases h; cases htoken
  split at h
  · split at h
    · cases h; cases htoken
    · cases h
  split at h
  · split at h
    · cases h; cases htoken
    · cases h
  split at h
  · rw [multilineString] at h
    split at h
    · split at h
      · cases h; cases htoken
      · cases h
    · cases h
  split at h
  · split at h
    · cases h
    · cases h; cases htoken
  split at h
  · next hdigit =>
    cases h
    exact isLexical_of_numberPiece hdigit htoken
  split at h
  · cases h; cases htoken
  · cases h

/-- Every number among some tokens is written with digits and perhaps a scale letter. -/
def NumbersLexical (tokens : List Span) : Prop :=
  ∀ span ∈ tokens, ∀ literal, span.token = .number literal → (Token.number literal).IsLexical

/-- The lexer finds numerals only, if it has found no others before. -/
theorem numbersLexical_of_tokenizeFrom {found spans : List Span} {place : Place} {cs : List Char}
    (h : tokenizeFrom found place cs = .ok spans) (hfound : NumbersLexical found) :
    NumbersLexical spans := by
  induction cs using piece_induction generalizing found place with
  | nil =>
    rw [tokenizeFrom] at h
    cases h
    exact fun span hspan => hfound span (List.mem_reverse.mp hspan)
  | fault c cs fault hpiece =>
    rw [tokenizeFrom_cons_error hpiece] at h
    cases h
  | piece c cs piece hpiece ih =>
    rw [tokenizeFrom_cons_ok hpiece] at h
    cases htoken : piece.token with
    | none =>
      simp only [htoken] at h
      exact ih h hfound
    | some token =>
      simp only [htoken] at h
      refine ih h (List.forall_mem_cons.mpr ⟨fun literal hliteral => ?_, hfound⟩)
      exact isLexical_of_firstPiece hpiece (htoken.trans (congrArg some hliteral))

/-- The lexer makes a number of nothing but digits with perhaps a scale letter behind them. -/
theorem numbersLexical_of_tokenize {text : String} {spans : List Span}
    (h : tokenize text = .ok spans) : NumbersLexical spans :=
  numbersLexical_of_tokenizeFrom h nofun

end MailFilter.Script
