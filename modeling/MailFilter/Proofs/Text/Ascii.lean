import Mathlib.Data.Char
import Mathlib.Data.List.Forall2
import MailFilter.Text.Ascii

/-!
# The case of letters

A letter that has been folded has no other case left in it, so folding a text again changes nothing,
and the last of two foldings decides. Two texts fold to the same text if and only if one is the
other with the case of some ASCII letters changed.
-/

namespace MailFilter.Ascii

variable {c d : Char} {s t : String}

/-- Characters are ordered by their codes. -/
theorem le_iff_toNat_le : c ≤ d ↔ c.toNat ≤ d.toNat :=
  UInt32.le_iff_toNat_le

/-- Folding adds 32 to the code of a capital letter, and leaves all other codes. -/
theorem toNat_lowerChar (c : Char) :
    (lowerChar c).toNat = if 65 ≤ c.toNat ∧ c.toNat ≤ 90 then c.toNat + 32 else c.toNat := by
  simp only [lowerChar, le_iff_toNat_le, Char.reduceToNat]
  split
  · next h =>
    have hvalid : (c.toNat + 32).isValidChar := .inl (by omega)
    rw [Char.ofNat, dif_pos hvalid]
    rfl
  · rfl

/-- Folding to upper case takes 32 from the code of a small letter, and leaves all other codes. -/
theorem toNat_upperChar (c : Char) :
    (upperChar c).toNat = if 97 ≤ c.toNat ∧ c.toNat ≤ 122 then c.toNat - 32 else c.toNat := by
  simp only [upperChar, le_iff_toNat_le, Char.reduceToNat]
  split
  · next h =>
    have hvalid : (c.toNat - 32).isValidChar := .inl (by omega)
    rw [Char.ofNat, dif_pos hvalid]
    rfl
  · rfl

/-- A folded character is folded to itself. -/
theorem lowerChar_lowerChar (c : Char) : lowerChar (lowerChar c) = lowerChar c := by
  rw [← Char.toNat_inj]
  simp only [toNat_lowerChar]
  split_ifs <;> omega

/-- The case that a character had does not matter for its capital. -/
@[simp] theorem upperChar_lowerChar (c : Char) : upperChar (lowerChar c) = upperChar c := by
  rw [← Char.toNat_inj]
  simp only [toNat_upperChar, toNat_lowerChar]
  split_ifs <;> omega

/-- The case that a character had does not matter once it is folded. -/
@[simp] theorem lowerChar_upperChar (c : Char) : lowerChar (upperChar c) = lowerChar c := by
  rw [← Char.toNat_inj]
  simp only [toNat_upperChar, toNat_lowerChar]
  split_ifs <;> omega

/-- Nothing is folded to a character outside ASCII but the character itself. -/
theorem lowerChar_eq_iff (hc : 128 ≤ c.toNat) : lowerChar d = c ↔ d = c := by
  rw [← Char.toNat_inj, ← Char.toNat_inj, toNat_lowerChar]
  split_ifs <;> omega

/-- A folded text is folded to itself. -/
@[simp] theorem lower_lower (s : String) : lower (lower s) = lower s := by
  rw [lower, toList_lower, List.map_map, lower]
  congr 2
  exact funext lowerChar_lowerChar

/-- The case of its letters does not matter for a text in capitals. -/
@[simp] theorem upper_lower (s : String) : upper (lower s) = upper s := by
  simp [upper, Function.comp_def]

/-- The case of its letters does not matter once a text is folded. -/
@[simp] theorem lower_upper (s : String) : lower (upper s) = lower s := by
  simp [lower, Function.comp_def]

/-- The same character, or the two cases of one ASCII letter, whose codes are 32 apart. -/
def SameLetter (c d : Char) : Prop :=
  c = d ∨ ('A' ≤ c ∧ c ≤ 'Z' ∧ d.toNat = c.toNat + 32) ∨
    ('A' ≤ d ∧ d ≤ 'Z' ∧ c.toNat = d.toNat + 32)

/-- Two characters are the same but for their case if they fold to the same character. -/
theorem sameLetter_iff : SameLetter c d ↔ lowerChar c = lowerChar d := by
  rw [SameLetter, ← Char.toNat_inj, ← Char.toNat_inj, toNat_lowerChar, toNat_lowerChar]
  simp only [le_iff_toNat_le, Char.reduceToNat]
  split_ifs <;> omega

/-- The texts are the same but for the case of ASCII letters. -/
def Recased (s t : String) : Prop :=
  List.Forall₂ SameLetter s.toList t.toList

/-- Two texts are the same but for the case of letters if they fold to the same text. -/
theorem recased_iff : Recased s t ↔ lower s = lower t := by
  have hsame : SameLetter = fun c d => lowerChar c = lowerChar d :=
    funext₂ fun _ _ => propext sameLetter_iff
  rw [Recased, hsame, ← String.toList_inj, toList_lower, toList_lower, ← List.forall₂_eq_eq_eq,
    List.forall₂_map_left_iff, List.forall₂_map_right_iff]

/-- Texts that are the same but for the case of letters have the same capitals. -/
theorem Recased.upper_eq (h : Recased s t) : upper s = upper t := by
  rw [← upper_lower s, recased_iff.mp h, upper_lower]

/-- Characters outside ASCII stay what and where they are. -/
theorem Recased.getElem?_eq_some_iff (h : Recased s t) (hc : 128 ≤ c.toNat) (i : Nat) :
    s.toList[i]? = some c ↔ t.toList[i]? = some c := by
  have hfolded : ∀ text : String, (lower text).toList[i]? = some c ↔ text.toList[i]? = some c := by
    intro text
    simp [lowerChar_eq_iff hc]
  rw [← hfolded s, ← hfolded t, recased_iff.mp h]

/-- Texts are equal for a comparison that ignores case if they differ in the case of letters. -/
theorem eqIgnoreCase_iff_recased : eqIgnoreCase s t = true ↔ Recased s t := by
  rw [recased_iff, eqIgnoreCase, beq_iff_eq, ← toList_lower, ← toList_lower, String.toList_inj]

/-- A comparison that ignores case finds texts equal if they are equal in upper case. -/
theorem eqIgnoreCase_iff_upper_eq : eqIgnoreCase s t = true ↔ upper s = upper t := by
  rw [eqIgnoreCase_iff_recased]
  constructor
  · exact Recased.upper_eq
  · intro h
    rw [recased_iff, ← lower_upper s, h, lower_upper]

/-- A text in capitals is the text but for the case of letters. -/
theorem recased_upper (s : String) : Recased s (upper s) :=
  recased_iff.mpr (lower_upper s).symm

end MailFilter.Ascii
