import MailFilter.Proofs.Script.Pieces

/-!
# Numerals are exact

A numeral is a run of digits, however long and with however many zeros in front, and perhaps a scale
letter. The lexer finds nothing else for a number, and a numeral that stands alone is one token. The
reader gives the number that a numeral spells or refuses it, with the bound for the number as a
whole: it is at most 64 bits long after scaling. So whatever is written below the bound is read
back.
-/

namespace MailFilter.Script

open Ascii (isDigit)

/-- The power of two that a scale letter stands for, the zeroth without one. -/
def scaleExponent (scale : Option Char) : Nat :=
  10 * scale.elim 0 scalePower

/-- The number that a numeral spells: its digits in base ten, the last one lowest, times the factor
of its scale letter. -/
def numeralValue (digits : List Char) (scale : Option Char) : Nat :=
  Nat.ofDigits 10 (digits.map digitValue).reverse * 2 ^ scaleExponent scale

variable {digits : List Char} {scale : Option Char}

/-- A numeral is a token that the lexer can find. -/
theorem IsNumeral.isLexical (h : IsNumeral digits scale) :
    (Token.number (numeral digits scale)).IsLexical :=
  ⟨digits, scale, h.digits_ne_nil, h.digits_decimal, h.scale_letter, rfl⟩

/-- The magnitude of a numeral is the number that it spells. -/
theorem IsNumeral.magnitude_eq (h : IsNumeral digits scale) :
    magnitude (numeral digits scale) = numeralValue digits scale := by
  have hfactor : 2 ^ scaleExponent scale = 1024 ^ scale.elim 0 scalePower := by
    rw [scaleExponent, Nat.pow_mul]
  rw [numeral, magnitude_ofList h.digits_decimal h.scale_letter, ofDigits_eq, numeralValue, hfactor]

/-- A text that is a numeral is one token. -/
theorem IsNumeral.tokenize_eq (h : IsNumeral digits scale) :
    tokenize (numeral digits scale) =
      .ok [⟨.number (numeral digits scale), .start, (numeral digits scale).utf8ByteSize⟩] := by
  obtain ⟨first, others, rfl⟩ := List.exists_cons_of_ne_nil h.digits_ne_nil
  have hpiece : firstPiece first (others ++ scale.toList) =
      .ok ⟨some (.number (numeral (first :: others) scale)),
        first :: others ++ scale.toList, []⟩ :=
    firstPiece_of_isPiece (.number h (by rintro - _ ⟨⟩)) (List.append_nil _)
  have hsize : (Place.start.advance (first :: others ++ scale.toList)).offset =
      (numeral (first :: others) scale).utf8ByteSize := by
    rw [Place.offset_advance, numeral, String.utf8ByteSize_ofList]
    exact Nat.zero_add _
  rw [tokenize, numeral, String.toList_ofList, List.cons_append, tokenizeFrom_cons_ok hpiece]
  dsimp only
  rw [tokenizeFrom, ← List.cons_append, hsize]
  rfl

/-- A natural number is written with digits that spell it. -/
theorem ofDigits_toString (n : Nat) :
    Nat.ofDigits 10 ((toString n).toList.map digitValue).reverse = n := by
  rw [← ofDigits_eq, Nat.toString_eq_ofList_toDigits, String.toList_ofList]
  have hfold : ∀ digits : List Char, ofDigits digits = Nat.ofDigitChars 10 digits 0 := by
    intro digits
    rw [ofDigits, Nat.ofDigitChars]
    congr 1
    funext value c
    rw [Nat.mul_comm]
  rw [hfold, Nat.ofDigitChars_ten_toDigits]

/-- A natural number is written as a numeral, with a scale letter or without. -/
theorem isNumeral_toString (n : Nat) (hscale : ∀ c ∈ scale, isScale c) :
    IsNumeral (toString n).toList scale where
  digits_ne_nil := by
    rw [Nat.toString_eq_ofList_toDigits, String.toList_ofList]
    exact Nat.toDigits_ne_nil
  digits_decimal := by
    intro c hc
    rw [Nat.toString_eq_ofList_toDigits, String.toList_ofList] at hc
    have hdigit : c.isDigit = true := Nat.isDigit_of_mem_toDigits (by decide) (by decide) hc
    simpa [Char.isDigit, isDigit, Char.le_def] using hdigit
  scale_letter := hscale

/-- The numbers of scripts are numerals, and every numeral is a number of some script. It is read as
the number that it spells if that takes at most 64 bits, and refused otherwise. So every natural
number below the bound is read back as it was, in decimal or as a multiple of a scale. -/
theorem parseNumber_exact (line : Nat) :
    (∀ text spans span literal, tokenize text = .ok spans → span ∈ spans →
        span.token = .number literal →
      ∃ digits scale, IsNumeral digits scale ∧ literal = numeral digits scale) ∧
    (∀ digits scale, IsNumeral digits scale →
      tokenize (numeral digits scale) =
          .ok [⟨.number (numeral digits scale), .start, (numeral digits scale).utf8ByteSize⟩] ∧
        parseNumber (numeral digits scale) line =
          if numeralValue digits scale < 2 ^ 64 then .ok (numeralValue digits scale)
          else .error (.arguments "number" line (.invalidNumber (numeral digits scale)))) ∧
    ∀ n scale, (∀ c ∈ scale, isScale c) → n * 2 ^ scaleExponent scale < 2 ^ 64 →
      let literal := toString n ++ String.ofList scale.toList
      tokenize literal = .ok [⟨.number literal, .start, literal.utf8ByteSize⟩] ∧
        parseNumber literal line = .ok (n * 2 ^ scaleExponent scale) := by
  have hread : ∀ digits scale, IsNumeral digits scale →
      parseNumber (numeral digits scale) line =
        if numeralValue digits scale < 2 ^ 64 then .ok (numeralValue digits scale)
        else .error (.arguments "number" line (.invalidNumber (numeral digits scale))) := by
    intro digits scale h
    rw [parseNumber_eq h.isLexical, h.magnitude_eq]
  refine ⟨?_, fun digits scale h => ⟨h.tokenize_eq, hread digits scale h⟩, ?_⟩
  · intro text spans span literal hspans hspan htoken
    obtain ⟨digits, scale, hne, hdigits, hscale, rfl⟩ :=
      numbersLexical_of_tokenize hspans span hspan literal htoken
    exact ⟨digits, scale, ⟨hne, hdigits, hscale⟩, rfl⟩
  · intro n scale hscale hfits literal
    have hnumeral : IsNumeral (toString n).toList scale := isNumeral_toString n hscale
    have hliteral : literal = numeral (toString n).toList scale := by
      rw [numeral, String.ofList_append, String.ofList_toList]
    have hvalue : numeralValue (toString n).toList scale = n * 2 ^ scaleExponent scale := by
      rw [numeralValue, ofDigits_toString]
    rw [hliteral]
    refine ⟨hnumeral.tokenize_eq, ?_⟩
    rw [hread _ _ hnumeral, hvalue, if_pos hfits]

/-- The last multiple of a scale that fits, written with zeros in front, the first one that does
not, and the last number of all. -/
theorem parseNumber_exact_limits :
    (∃ digits scale, IsNumeral digits scale ∧ "007k" = numeral digits scale) ∧
    parseNumber (numeral "0017179869183".toList (some 'G')) 1 = .ok 18446744072635809792 ∧
    parseNumber (numeral "17179869184".toList (some 'g')) 1 =
      .error (.arguments "number" 1
        (.invalidNumber (numeral "17179869184".toList (some 'g')))) ∧
    (∀ c ∈ (none : Option Char), isScale c) ∧
    18446744073709551615 * 2 ^ scaleExponent none < 2 ^ 64 ∧
    parseNumber (toString 18446744073709551615 ++ String.ofList (none : Option Char).toList) 1 =
      .ok (18446744073709551615 * 2 ^ scaleExponent none) := by
  have hspans : tokenize "size :over 007k;" =
      .ok [⟨.identifier "size", ⟨0, 1, 1⟩, 4⟩, ⟨.tag ":over", ⟨5, 1, 6⟩, 5⟩,
        ⟨.number "007k", ⟨11, 1, 12⟩, 4⟩, ⟨.semicolon, ⟨15, 1, 16⟩, 1⟩] := by decide +kernel
  have hlarge : IsNumeral "0017179869183".toList (some 'G') :=
    ⟨by decide, List.all_eq_true.mp rfl, by rintro _ ⟨⟩; rfl⟩
  have hbeyond : IsNumeral "17179869184".toList (some 'g') :=
    ⟨by decide, List.all_eq_true.mp rfl, by rintro _ ⟨⟩; rfl⟩
  have hplain : ∀ c ∈ (none : Option Char), isScale c := by rintro _ ⟨⟩
  have hlast : 18446744073709551615 * 2 ^ scaleExponent none < 2 ^ 64 := by decide
  obtain ⟨htokens, hread, hwritten⟩ := parseNumber_exact 1
  refine ⟨htokens _ _ ⟨.number "007k", ⟨11, 1, 12⟩, 4⟩ _ hspans (by simp) rfl, ?_, ?_, hplain,
    hlast, ?_⟩
  · rw [(hread _ _ hlarge).2]
    rfl
  · rw [(hread _ _ hbeyond).2]
    rfl
  · exact (hwritten 18446744073709551615 none hplain hlast).2

end MailFilter.Script
