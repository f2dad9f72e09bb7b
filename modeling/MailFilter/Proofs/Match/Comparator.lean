import Mathlib.Data.List.Infix
import MailFilter.Match.Comparator
import MailFilter.Proofs.Match.Glob
import MailFilter.Proofs.Text.Ascii

/-!
# The comparisons agree with one another

Equality and containment are wildcard matches in disguise: the key, with a backslash before every
character that means something in a pattern, is compared as a whole pattern or between two stars.
And the case-folding comparator is the octet comparator on folded texts, whichever case they are
folded to. Folding can only turn different characters into equal ones, so what the octet comparator
accepts it still accepts when both texts are folded further.
-/

namespace MailFilter

namespace Glob

/-- The characters that mean something in a written pattern. -/
def isSpecial (c : Char) : Bool :=
  c == '*' || c == '?' || c == '\\'

/-- The written form of a character that is to be a literal. -/
def escapeChar (c : Char) : List Char :=
  if isSpecial c then ['\\', c] else [c]

/-- A backslash before every star, question mark and backslash of a text. -/
def escape (text : String) : String :=
  String.ofList (text.toList.flatMap escapeChar)

variable {text value : List Char} {pattern : List Glob} {c : Char} {f : Char → Char}

/-- All characters but backslash, question mark and star stand for themselves. -/
theorem isSpecial_eq_false_iff : isSpecial c = false ↔ c ≠ '\\' ∧ c ≠ '?' ∧ c ≠ '*' := by
  simp only [isSpecial, Bool.or_eq_false_iff, beq_eq_false_iff_ne]
  tauto

/-- An escaped text is read as its own characters, whatever follows it. -/
theorem compile_escape_append (text rest : List Char) :
    compile (text.flatMap escapeChar ++ rest) = text.map literal ++ compile rest := by
  induction text with
  | nil => rfl
  | cons c text ih =>
    rw [List.flatMap_cons, List.append_assoc, List.map_cons, List.cons_append, ← ih, escapeChar]
    cases hspecial : isSpecial c with
    | true => rw [if_pos rfl, List.cons_append, List.singleton_append, compile]
    | false =>
      obtain ⟨hbackslash, hone, hany⟩ := isSpecial_eq_false_iff.mp hspecial
      rw [if_neg (by simp), List.singleton_append, compile_plain hbackslash hone hany]

/-- A value is covered by a text and a pattern if it begins with the text and the pattern covers the
rest. -/
theorem covers_literals_append_iff :
    Covers (text.map literal ++ pattern) value ↔ ∃ rest, value = text ++ rest ∧
      Covers pattern rest := by
  induction text generalizing value with
  | nil => simp
  | cons c text ih =>
    cases value with
    | nil =>
      have hnot : ¬ Covers (literal c :: (text.map literal ++ pattern)) [] := nofun
      simpa using hnot
    | cons d value => simp [ih, eq_comm, and_assoc]

/-- A text without special characters covers itself alone. -/
theorem covers_literals_iff : Covers (text.map literal) value ↔ value = text := by
  rw [← List.append_nil (text.map literal), covers_literals_append_iff]
  simp

/-- Between two stars a text is covered wherever it stands. -/
theorem covers_any_literals_any_iff :
    Covers (any :: (text.map literal ++ [any])) value ↔ text <:+: value := by
  have hany : ∀ rest, Covers [any] rest := fun rest =>
    covers_any_iff.mpr ⟨[], List.nil_suffix, .nil⟩
  rw [covers_any_iff, List.infix_iff_prefix_suffix]
  simp only [covers_literals_append_iff, hany, and_true]
  constructor
  · rintro ⟨rest, hsuffix, tail, rfl⟩
    exact ⟨_, List.prefix_append _ _, hsuffix⟩
  · rintro ⟨rest, ⟨tail, htail⟩, hsuffix⟩
    exact ⟨rest, hsuffix, tail, htail.symm⟩

/-- Only characters that mean nothing in a pattern are changed, and only into such characters. -/
def KeepsSpecial (f : Char → Char) : Prop :=
  ∀ c, f c = c ∨ isSpecial c = false ∧ isSpecial (f c) = false

/-- Folding that keeps special characters leaves them as they are. -/
theorem KeepsSpecial.eq_of_special (h : KeepsSpecial f) (hc : isSpecial c = true) : f c = c := by
  rcases h c with hsame | ⟨hplain, _⟩
  · exact hsame
  · rw [hc] at hplain
    cases hplain

/-- Folding that keeps special characters makes no others special. -/
theorem KeepsSpecial.isSpecial_eq (h : KeepsSpecial f) (c : Char) :
    isSpecial (f c) = isSpecial c := by
  rcases h c with hsame | ⟨hplain, hmapped⟩
  · rw [hsame]
  · rw [hplain, hmapped]

/-- The codes of the three characters, none of which is a letter's. -/
theorem isSpecial_eq_false_iff_toNat :
    isSpecial c = false ↔ c.toNat ≠ 92 ∧ c.toNat ≠ 63 ∧ c.toNat ≠ 42 := by
  simp only [isSpecial_eq_false_iff, ne_eq, ← Char.toNat_inj, Char.reduceToNat]

/-- Folding to lower case keeps special characters. -/
theorem keepsSpecial_lowerChar : KeepsSpecial Ascii.lowerChar := by
  intro c
  simp only [← Char.toNat_inj, isSpecial_eq_false_iff_toNat, Ascii.toNat_lowerChar]
  split_ifs <;> omega

/-- Folding to upper case keeps special characters. -/
theorem keepsSpecial_upperChar : KeepsSpecial Ascii.upperChar := by
  intro c
  simp only [← Char.toNat_inj, isSpecial_eq_false_iff_toNat, Ascii.toNat_upperChar]
  split_ifs <;> omega

/-- It does not matter whether a text is folded before it is escaped or after. -/
theorem KeepsSpecial.flatMap_escapeChar (h : KeepsSpecial f) (text : List Char) :
    (text.flatMap escapeChar).map f = (text.map f).flatMap escapeChar := by
  have hchar : ∀ c, (escapeChar c).map f = escapeChar (f c) := by
    intro c
    rw [escapeChar, escapeChar, h.isSpecial_eq]
    split
    · have hbackslash : f '\\' = '\\' := h.eq_of_special rfl
      rw [List.map_cons, List.map_singleton, hbackslash]
    · rfl
  rw [List.map_flatMap, List.flatMap_map]
  exact congrArg (text.flatMap ·) (funext hchar)

/-- The element with its character mapped, if it is a literal. -/
def map (f : Char → Char) : Glob → Glob
  | literal c => literal (f c)
  | one => one
  | any => any

/-- A written form of a pattern is mapped to a written form of the mapped pattern. -/
theorem Spells.map (h : Spells text pattern) (hf : KeepsSpecial f) :
    Spells (text.map f) (pattern.map (Glob.map f)) := by
  have hbackslash : f '\\' = '\\' := hf.eq_of_special rfl
  have hone : f '?' = '?' := hf.eq_of_special rfl
  have hany : f '*' = '*' := hf.eq_of_special rfl
  induction h with
  | nil => exact .nil
  | trailing =>
    simpa [hbackslash, Glob.map] using Spells.trailing
  | escaped c _ ih =>
    rw [List.map_cons, hbackslash]
    exact .escaped (f c) ih
  | one _ ih =>
    rw [List.map_cons, hone]
    exact .one ih
  | any _ ih =>
    rw [List.map_cons, hany]
    exact .any ih
  | plain hnoBackslash hnoOne hnoAny _ ih =>
    have hplain := isSpecial_eq_false_iff.mpr ⟨hnoBackslash, hnoOne, hnoAny⟩
    rw [← hf.isSpecial_eq, isSpecial_eq_false_iff] at hplain
    exact .plain hplain.1 hplain.2.1 hplain.2.2 ih

/-- It does not matter whether a pattern is folded before it is compiled or after. -/
theorem compile_map (hf : KeepsSpecial f) (text : List Char) :
    compile (text.map f) = (compile text).map (map f) :=
  ((spells_compile text).map hf).eq_compile.symm

/-- What a pattern covers it still covers when both are mapped. -/
theorem Covers.map (h : Covers pattern value) (f : Char → Char) :
    Covers (pattern.map (Glob.map f)) (value.map f) := by
  induction h with
  | nil => exact .nil
  | literal c _ ih => exact .literal (f c) ih
  | one c _ ih => exact .one (f c) ih
  | any run _ ih =>
    rw [List.map_append]
    exact .any (run.map f) ih

end Glob

/-- A list is found in another if it is a run of it. -/
theorem containsList_eq_true_iff {whole part : List Char} :
    containsList whole part = true ↔ part <:+: whole := by
  induction whole with
  | nil => simp [containsList]
  | cons c whole ih => simp [containsList, ih, List.infix_cons_iff]

namespace Comparator

variable {comparator : Comparator} {value key : String} {f : Char → Char}

/-- Whole texts are compared as if they had been folded too. -/
theorem equals_eq_true_iff :
    comparator.equals value key = true ↔ comparator.fold value = comparator.fold key := by
  cases comparator with
  | octet => exact beq_iff_eq
  | asciiCasemap => exact Ascii.eqIgnoreCase_iff_upper_eq

/-- A key is contained if it is a run of the value once both have been folded. -/
theorem contains_eq_true_iff :
    comparator.contains value key = true ↔
      (comparator.fold key).toList <:+: (comparator.fold value).toList :=
  containsList_eq_true_iff

/-- A key matches if it covers the value once both have been folded. -/
theorem wildcard_eq_true_iff :
    comparator.wildcard value key = true ↔
      Glob.Covers (Glob.compile (comparator.fold key).toList) (comparator.fold value).toList :=
  Glob.matches_eq_true_iff

/-- Folding maps the characters of a text and keeps those with a meaning in patterns. -/
theorem exists_toList_fold (comparator : Comparator) :
    ∃ f, Glob.KeepsSpecial f ∧ ∀ text, (comparator.fold text).toList = text.toList.map f := by
  cases comparator with
  | octet => exact ⟨id, fun _ => .inl rfl, fun text => (List.map_id _).symm⟩
  | asciiCasemap => exact ⟨Ascii.upperChar, Glob.keepsSpecial_upperChar, Ascii.toList_upper⟩

/-- Folding and escaping can be exchanged. -/
theorem toList_fold_escape (comparator : Comparator) (key : String) :
    (comparator.fold (Glob.escape key)).toList =
      (comparator.fold key).toList.flatMap Glob.escapeChar := by
  obtain ⟨f, hf, hfold⟩ := comparator.exists_toList_fold
  rw [hfold, hfold, Glob.escape, String.toList_ofList, hf.flatMap_escapeChar]

/-- Folding a key between stars folds the escaped key between them. -/
theorem toList_fold_stars (comparator : Comparator) (key : String) :
    (comparator.fold ("*" ++ Glob.escape key ++ "*")).toList =
      '*' :: ((comparator.fold key).toList.flatMap Glob.escapeChar ++ ['*']) := by
  obtain ⟨f, hf, hfold⟩ := comparator.exists_toList_fold
  have hstar : f '*' = '*' := hf.eq_of_special rfl
  rw [← toList_fold_escape, hfold, hfold]
  simp [hstar]

/-- Equality is a match of the escaped key, containment one of the escaped key between two stars,
and so equal texts contain each other. -/
theorem match_types_coherent (comparator : Comparator) (value key : String) :
    (comparator.equals value key = true ↔
        comparator.wildcard value (Glob.escape key) = true) ∧
      (comparator.contains value key = true ↔
        comparator.wildcard value ("*" ++ Glob.escape key ++ "*") = true) ∧
      (comparator.equals value key = true → comparator.contains value key = true) := by
  refine ⟨?_, ?_, ?_⟩
  · have hkey := Glob.compile_escape_append (comparator.fold key).toList []
    rw [List.append_nil, Glob.compile, List.append_nil] at hkey
    rw [equals_eq_true_iff, wildcard_eq_true_iff, toList_fold_escape, hkey,
      Glob.covers_literals_iff, String.toList_inj]
  · have hkey := Glob.compile_escape_append (comparator.fold key).toList ['*']
    rw [contains_eq_true_iff, wildcard_eq_true_iff, toList_fold_stars, Glob.compile, hkey,
      Glob.compile, Glob.compile, Glob.covers_any_literals_any_iff]
  · rw [equals_eq_true_iff, contains_eq_true_iff]
    intro hequal
    rw [hequal]

/-- What the octet comparator accepts it accepts when characters of both texts are mapped alike. -/
theorem octet_compare_map (hf : Glob.KeepsSpecial f) {matchType : MatchType}
    (h : octet.compare matchType value key = true) :
    octet.compare matchType (String.ofList (value.toList.map f))
      (String.ofList (key.toList.map f)) = true := by
  cases matchType with
  | is =>
    have hequals : octet.equals value key = true := h
    have hequal : value = key := equals_eq_true_iff.mp hequals
    rw [hequal]
    exact beq_self_eq_true _
  | contains =>
    have hinfix : key.toList <:+: value.toList := contains_eq_true_iff.mp h
    have hmapped := hinfix.map f
    exact contains_eq_true_iff.mpr (by simpa [fold] using hmapped)
  | wildcard =>
    have hcovers : Glob.Covers (Glob.compile key.toList) value.toList := wildcard_eq_true_iff.mp h
    have hmapped := hcovers.map f
    rw [← Glob.compile_map hf] at hmapped
    exact wildcard_eq_true_iff.mpr (by simpa [fold] using hmapped)

/-- Texts in lower case compare as those in upper case do. -/
theorem octet_compare_lower (matchType : MatchType) (value key : String) :
    octet.compare matchType (Ascii.lower value) (Ascii.lower key) =
      octet.compare matchType (Ascii.upper value) (Ascii.upper key) := by
  rw [Bool.eq_iff_iff]
  constructor
  · intro h
    have hupper := octet_compare_map Glob.keepsSpecial_upperChar h
    rwa [← Ascii.upper, ← Ascii.upper, Ascii.upper_lower, Ascii.upper_lower] at hupper
  · intro h
    have hlower := octet_compare_map Glob.keepsSpecial_lowerChar h
    rwa [← Ascii.lower, ← Ascii.lower, Ascii.lower_upper, Ascii.lower_upper] at hlower

/-- To compare without regard to case is to compare the capitals exactly. -/
theorem asciiCasemap_compare (matchType : MatchType) (value key : String) :
    asciiCasemap.compare matchType value key =
      octet.compare matchType (Ascii.upper value) (Ascii.upper key) := by
  cases matchType with
  | is =>
    have hequals : asciiCasemap.equals value key =
        octet.equals (Ascii.upper value) (Ascii.upper key) := by
      rw [Bool.eq_iff_iff, equals_eq_true_iff, equals_eq_true_iff]
      rfl
    exact hequals
  | contains => rfl
  | wildcard => rfl

/-- The case of letters does not matter to the comparator without regard to case. -/
theorem asciiCasemap_compare_recased {value' key' : String} (hvalue : Ascii.Recased value value')
    (hkey : Ascii.Recased key key') (matchType : MatchType) :
    asciiCasemap.compare matchType value' key' = asciiCasemap.compare matchType value key := by
  rw [asciiCasemap_compare, asciiCasemap_compare, hvalue.upper_eq, hkey.upper_eq]

/-- The case-folding comparator is the octet comparator on texts that were folded to either case.
It does not see the case of ASCII letters, and it accepts nothing that the octet comparator does
not accept for some change of their case, which leaves all characters outside ASCII alone. -/
theorem asciiCasemap_eq_octet_folded (matchType : MatchType) (value key : String) :
    asciiCasemap.compare matchType value key =
        octet.compare matchType (Ascii.upper value) (Ascii.upper key) ∧
      asciiCasemap.compare matchType value key =
        octet.compare matchType (Ascii.lower value) (Ascii.lower key) ∧
      (∀ value' key', Ascii.Recased value value' → Ascii.Recased key key' →
        asciiCasemap.compare matchType value' key' = asciiCasemap.compare matchType value key) ∧
      (asciiCasemap.compare matchType value key = true ↔ ∃ value' key',
        Ascii.Recased value value' ∧ Ascii.Recased key key' ∧
          octet.compare matchType value' key' = true) ∧
      ∀ text other, Ascii.Recased text other → ∀ (i : Nat) (c : Char), 128 ≤ c.toNat →
        (text.toList[i]? = some c ↔ other.toList[i]? = some c) := by
  refine ⟨asciiCasemap_compare matchType value key, ?_, ?_, ?_, ?_⟩
  · rw [asciiCasemap_compare, octet_compare_lower]
  · exact fun value' key' hvalue hkey => asciiCasemap_compare_recased hvalue hkey matchType
  · constructor
    · intro h
      rw [asciiCasemap_compare] at h
      exact ⟨Ascii.upper value, Ascii.upper key, Ascii.recased_upper value,
        Ascii.recased_upper key, h⟩
    · rintro ⟨value', key', hvalue, hkey, h⟩
      have hupper := octet_compare_map Glob.keepsSpecial_upperChar h
      rw [← Ascii.upper, ← Ascii.upper, ← asciiCasemap_compare] at hupper
      rwa [asciiCasemap_compare_recased hvalue hkey] at hupper
  · exact fun text other h i c hc => h.getElem?_eq_some_iff hc i

end Comparator

end MailFilter
