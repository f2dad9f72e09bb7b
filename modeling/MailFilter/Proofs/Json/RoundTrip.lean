import Mathlib.Data.List.TakeWhile
import MailFilter.Json.Printer
import MailFilter.Json.Reader

/-!
# What is written as JSON is read back

A value that is written over several lines is read back as it was. Each part of it is taken off the
front of the text that begins with it, whatever is behind it, as long as a number does not go on
there. An escaped character is read back as that character, the blanks before a part are passed
over, and the parts of an array or an object are read one after the other.
-/

namespace MailFilter.Json

open Ascii (isDigit)

/-- A value whose numbers are natural. The program writes no others. -/
inductive IsNatural : Json → Prop
  | null : IsNatural null
  | bool (value : Bool) : IsNatural (bool value)
  | natural (value : Nat) : IsNatural (number (.natural value))
  | string (text : String) : IsNatural (string text)
  | array {items : List Json} (hitems : ∀ item ∈ items, IsNatural item) : IsNatural (array items)
  | object {fields : List (String × Json)} (hfields : ∀ field ∈ fields, IsNatural field.2) :
    IsNatural (object fields)

/-- Characters at which a value may end: there are none, or the first is a blank, a comma or a
closing bracket. -/
def Ends (rest : List Char) : Prop :=
  ∀ c ∈ rest.head?, isSpace c = true ∨ c = ',' ∨ c = ']' ∨ c = '\x7d'

/-- A reader takes a text off the front of any characters and gives its value. -/
def Takes {α : Type} (read : List Char → Option (α × List Char)) (text : List Char) (value : α) :
    Prop :=
  ∀ rest, Ends rest → read (text ++ rest) = some (value, rest)

/-- Characters that are all blanks. -/
def Blank (cs : List Char) : Prop :=
  ∀ c ∈ cs, isSpace c = true

variable {c : Char} {cs rest blank : List Char}

/-- Blanks are skipped, and nothing else. -/
theorem skipSpace_append (hblank : Blank blank) (hc : isSpace c = false) :
    skipSpace (blank ++ c :: cs) = c :: cs := by
  rw [skipSpace, List.dropWhile_append_of_pos hblank, List.dropWhile_cons, hc]
  rfl

/-- An escape of one letter is read as the character that it stands for. -/
theorem stringRest?_escape {letter : Char} (hletter : escape? letter = some c)
    (found cs : List Char) :
    stringRest? found ('\\' :: letter :: cs) = stringRest? (c :: found) cs := by
  rw [stringRest?, hletter]
  -- The letter is not the one before four digits.
  rintro a b c d rest rfl
  cases hletter

/-- A control character is spelled by the two hexadecimal digits of its code. -/
theorem codeUnit?_hexChar :
    ∀ n < 32, codeUnit? '0' '0' (hexChar (n / 16)) (hexChar (n % 16)) = some n := by
  decide

/-- An escaped character is read as that character. -/
theorem stringRest?_escapeChar (found : List Char) (c : Char) (cs : List Char) :
    stringRest? found (escapeChar c ++ cs) = stringRest? (c :: found) cs := by
  rw [escapeChar]
  split_ifs with hquote hbackslash hb hf hn hr ht hcontrol
  · subst hquote
    exact stringRest?_escape rfl found cs
  · subst hbackslash
    exact stringRest?_escape rfl found cs
  · subst hb
    exact stringRest?_escape rfl found cs
  · subst hf
    exact stringRest?_escape rfl found cs
  · subst hn
    exact stringRest?_escape rfl found cs
  · subst hr
    exact stringRest?_escape rfl found cs
  · subst ht
    exact stringRest?_escape rfl found cs
  · have hplane : c.toNat < 0xD800 ∨ 0xE000 ≤ c.toNat := .inl (by omega)
    simp [stringRest?, codeUnit?_hexChar _ hcontrol, hplane, Char.ofNat_toNat]
  · rw [List.singleton_append, stringRest?, if_neg]
    all_goals simp_all

/-- The rest of a string is read up to its closing quote. -/
theorem stringRest?_flatMap (found text rest : List Char) :
    stringRest? found (text.flatMap escapeChar ++ '"' :: rest) =
      some (String.ofList (found.reverse ++ text), rest) := by
  induction text generalizing found with
  | nil => simp [stringRest?]
  | cons c text ih =>
    rw [List.flatMap_cons, List.append_assoc, stringRest?_escapeChar, ih]
    simp

/-- A string is taken from its opening quote to the closing one. -/
theorem scalar?_quote (text : String) (rest : List Char) :
    scalar? ((quote text).toList ++ rest) = some (.string text, rest) := by
  have hrest := stringRest?_flatMap [] text.toList rest
  simp only [List.reverse_nil, List.nil_append, String.ofList_toList] at hrest
  simp [quote, scalar?, hrest]

/-- A positive number is not written with a zero in front. -/
theorem head?_toDigits_ne {n : Nat} (hn : 0 < n) : (Nat.toDigits 10 n).head? ≠ some '0' := by
  induction n using Nat.strongRecOn with
  | ind n ih =>
    rw [Nat.toDigits_eq_if (by decide)]
    split
    · next hdigit =>
      have hdigits : ∀ n < 10, 0 < n → [Nat.digitChar n].head? ≠ some '0' := by decide
      exact hdigits n hdigit hn
    · next htens =>
      have hfront : (Nat.toDigits 10 (n / 10)).head? ≠ some '0' := ih _ (by omega) (by omega)
      rwa [List.head?_append, Option.or_of_isSome (by simp [Nat.toDigits_ne_nil])]

/-- Digits are read as the number that was written with them. -/
theorem ofDigits_toDigits (n : Nat) : ofDigits (Nat.toDigits 10 n) = n := by
  have hfold : ∀ digits : List Char, ofDigits digits = Nat.ofDigitChars 10 digits 0 := by
    intro digits
    rw [ofDigits, Nat.ofDigitChars]
    congr 1
    funext value c
    rw [Nat.mul_comm]
    rfl
  rw [hfold, Nat.ofDigitChars_ten_toDigits]

/-- What a value may end at is no part of a number. -/
theorem Ends.not_number (h : Ends rest) :
    ∀ c ∈ rest.head?, isDigit c = false ∧ c ≠ '.' ∧ c ≠ 'e' ∧ c ≠ 'E' := by
  intro c hc
  rcases h c hc with hspace | rfl | rfl | rfl
  · simp only [isSpace, Bool.or_eq_true, beq_iff_eq] at hspace
    rcases hspace with ((rfl | rfl) | rfl) | rfl <;> decide
  all_goals decide

/-- A natural number is written with digits. -/
theorem isDigit_of_mem_toDigits {n : Nat} (h : c ∈ Nat.toDigits 10 n) : isDigit c = true := by
  have hdigit := Nat.isDigit_of_mem_toDigits (by decide) (by decide) h
  simpa [Char.isDigit, isDigit, Char.le_def] using hdigit

/-- A natural number is written with a digit in front. -/
theorem toDigits_append_ne {n : Nat} (hc : isDigit c = false) :
    Nat.toDigits 10 n ++ rest ≠ c :: cs := by
  intro hcs
  obtain ⟨first, digits, hdigits⟩ :=
    List.exists_cons_of_ne_nil (Nat.toDigits_ne_nil (n := n) (b := 10))
  have hdigit : isDigit first = true := isDigit_of_mem_toDigits (hdigits ▸ List.mem_cons_self)
  rw [hdigits, List.cons_append, List.cons.injEq] at hcs
  rw [hcs.1, hc] at hdigit
  cases hdigit

/-- The digits of a number are its whole part. -/
theorem wholePart?_toDigits (n : Nat) (hrest : ∀ c ∈ rest.head?, isDigit c = false) :
    wholePart? (Nat.toDigits 10 n ++ rest) = some (Nat.toDigits 10 n, rest) := by
  have hdigits : ∀ c ∈ Nat.toDigits 10 n, isDigit c = true := fun _ => isDigit_of_mem_toDigits
  have htake : (Nat.toDigits 10 n ++ rest).takeWhile isDigit = Nat.toDigits 10 n := by
    rw [List.takeWhile_append_of_pos hdigits]
    cases rest with
    | nil => simp
    | cons c cs => simp [hrest c rfl]
  have hdrop : (Nat.toDigits 10 n ++ rest).dropWhile isDigit = rest := by
    rw [List.dropWhile_append_of_pos hdigits]
    cases rest with
    | nil => rfl
    | cons c cs => simp [hrest c rfl]
  rw [wholePart?, htake, hdrop]
  rcases Nat.eq_zero_or_pos n with rfl | hn
  · rfl
  · have hzero := head?_toDigits_ne hn
    have hne : Nat.toDigits 10 n ≠ [] := Nat.toDigits_ne_nil
    split <;> simp_all

/-- A number is taken through its last digit. -/
theorem takes_number (n : Nat) :
    Takes scalar? (toString n).toList (.number (.natural n)) := by
  intro rest hrest
  have hfraction : fraction? rest = some ([], rest) := by
    rw [fraction?.eq_def]
    split
    · next cs => exact absurd rfl (hrest.not_number '.' rfl).2.1
    · rfl
  have hexponent : exponent? rest = some ([], rest) := by
    rw [exponent?.eq_def]
    split
    · next c cs =>
      obtain ⟨-, -, he, hE⟩ := hrest.not_number c rfl
      rw [if_neg (by simp [he, hE])]
    · rfl
  have hwhole := wholePart?_toDigits n fun c hc => (hrest.not_number c hc).1
  rw [Nat.toString_eq_ofList_toDigits, String.toList_ofList]
  -- The digit in front shows that this is no other value, and that there is no sign.
  have hfirst : ∀ c cs, isDigit c = false → Nat.toDigits 10 n ++ rest ≠ c :: cs := fun c cs hc =>
    toDigits_append_ne hc
  have hnumber : number? (Nat.toDigits 10 n ++ rest) = some (.natural n, rest) := by
    rw [number?, hwhole]
    · simp [hfraction, hexponent, ofDigits_toDigits]
    · exact fun cs => hfirst '-' cs rfl
  rw [scalar?, hnumber]
  · rfl
  · exact fun cs => hfirst '"' cs rfl
  · exact fun cs => hfirst 'n' _ rfl
  · exact fun cs => hfirst 't' _ rfl
  · exact fun cs => hfirst 'f' _ rfl

/-- A value may end where a bracket closes, with blanks before it or without. -/
theorem ends_append {closing : Char} (hclosing : closing = ']' ∨ closing = '\x7d')
    (hblank : Blank blank) (rest : List Char) : Ends (blank ++ closing :: rest) := by
  intro c hc
  cases blank with
  | nil =>
    obtain rfl := Option.some.inj hc
    exact .inr (.inr hclosing)
  | cons space blank =>
    obtain rfl := Option.some.inj hc
    exact .inl (hblank _ List.mem_cons_self)

/-- A part is read, and the next character but blanks decides how it goes on. -/
theorem parts?_append {α : Type} {read : List Char → Option (α × List Char)} {text : List Char}
    {part : α} (htakes : Takes read text part) (htext : text ≠ []) (hrest : Ends rest)
    (hskip : skipSpace rest = c :: cs) (closing : Char) (found : List α) :
    parts? closing read found (text ++ rest) =
      if c = ',' then parts? closing read (part :: found) cs
      else if c = closing then some ((part :: found).reverse, cs)
      else none := by
  have hlength : rest.length < (text ++ rest).length := by
    have hpos := List.length_pos_iff.mpr htext
    rw [List.length_append]
    omega
  have hchecked : checked (text ++ rest) (read (text ++ rest)) = some (part, ⟨rest, hlength⟩) := by
    rw [htakes rest hrest]
    exact dif_pos hlength
  rw [parts?, hchecked]
  dsimp only
  split
  · next next behind hbehind =>
    obtain ⟨rfl, rfl⟩ := List.cons.inj (hbehind.symm.trans hskip)
    rfl
  · next hnone => cases hnone.symm.trans hskip

/-- The parts of an array or an object, with commas between them, are read through the bracket that
closes it. -/
theorem parts?_eq {α : Type} {closing : Char} {read : List Char → Option (α × List Char)}
    {text : α → List Char} (hclosing : closing = ']' ∨ closing = '\x7d') (hblank : Blank blank)
    {first : α} {others : List α}
    (hparts : ∀ part ∈ first :: others, text part ≠ [] ∧ Takes read (text part) part)
    (found : List α) (rest : List Char) :
    parts? closing read found
        (text first ++ ((others.flatMap fun part => ',' :: text part) ++
          (blank ++ closing :: rest))) =
      some (found.reverse ++ first :: others, rest) := by
  have hplain : isSpace closing = false ∧ closing ≠ ',' := by
    rcases hclosing with rfl | rfl <;> decide
  induction others generalizing first found with
  | nil =>
    obtain ⟨htext, htakes⟩ := hparts first List.mem_cons_self
    rw [List.flatMap_nil, List.nil_append, parts?_append htakes htext
      (ends_append hclosing hblank rest) (skipSpace_append hblank hplain.1), if_neg hplain.2,
      if_pos rfl, List.reverse_cons]
  | cons second others ih =>
    obtain ⟨⟨htext, htakes⟩, hothers⟩ := List.forall_mem_cons.mp hparts
    have hends : ∀ cs, Ends (',' :: cs) := by
      rintro cs c hc
      exact .inr (.inl (Option.some.inj hc).symm)
    have hskip : ∀ cs, skipSpace (',' :: cs) = ',' :: cs := fun cs => rfl
    rw [List.flatMap_cons, List.cons_append, List.cons_append,
      parts?_append htakes htext (hends _) (hskip _), if_pos rfl, List.append_assoc,
      ih hothers, List.reverse_cons, List.append_assoc]
    rfl

/-- Characters of which the first is neither a blank nor a bracket that closes anything. -/
def Opens (text : List Char) : Prop :=
  ∃ c cs, text = c :: cs ∧ isSpace c = false ∧ c ≠ ']' ∧ c ≠ '\x7d'

/-- Blanks before what a reader takes are passed over. -/
theorem Takes.skipSpace {α : Type} {read : List Char → Option (α × List Char)} {text : List Char}
    {value : α} (h : Takes read text value) (htext : Opens text) (hblank : Blank blank) :
    Takes (fun cs => read (skipSpace cs)) (blank ++ text) value := by
  intro rest hrest
  obtain ⟨c, cs, rfl, hc, -⟩ := htext
  dsimp only
  rw [List.append_assoc, List.cons_append, skipSpace_append hblank hc, ← List.cons_append]
  exact h rest hrest

/-- A field is read with its name, the colon and its value. -/
theorem takes_field {read : ValueReader} {text : List Char} {value : Json}
    (h : Takes read text value) (htext : Opens text) (hblank : Blank blank) (name : String) :
    Takes (field? read) (blank ++ ((quote name).toList ++ ':' :: ' ' :: text)) (name, value) := by
  intro rest hrest
  have hspace : Blank [' '] := List.forall_mem_singleton.mpr rfl
  have hvalue := h.skipSpace htext hspace rest hrest
  have hquoted := stringRest?_flatMap [] name.toList (':' :: ' ' :: (text ++ rest))
  rw [List.reverse_nil, List.nil_append, String.ofList_toList] at hquoted
  have hname : fieldName? (blank ++ ((quote name).toList ++ ':' :: ' ' :: text) ++ rest) =
      some (name, ' ' :: (text ++ rest)) := by
    have hquote : blank ++ ((quote name).toList ++ ':' :: ' ' :: text) ++ rest =
        blank ++ '"' :: (name.toList.flatMap escapeChar ++
          '"' :: ':' :: ' ' :: (text ++ rest)) := by
      simp [quote]
    rw [fieldName?, hquote, skipSpace_append hblank rfl]
    simp only [hquoted]
    rfl
  rw [field?, hname]
  exact congrArg (Option.map _) hvalue

/-- Lines that end with a comma, all but the last, are lines that begin with one, all but the
first. -/
theorem intercalate_lines (first : List Char) (others : List (List Char)) :
    '\n' :: [',', '\n'].intercalate (first :: others) =
      '\n' :: first ++ others.flatMap fun line => ',' :: '\n' :: line := by
  induction others generalizing first with
  | nil => simp
  | cons second others ih =>
    rw [List.intercalate_cons_cons, List.append_assoc, List.cons_append, List.singleton_append,
      ih second, List.flatMap_cons]
    rfl

/-- A part of an array or an object stands on a line of its own. -/
def inset (indent text : String) : List Char :=
  '\n' :: (indent ++ "  ").toList ++ text.toList

/-- The parts between the brackets, with commas between them. -/
theorem toList_bracketed {α : Type} (opening closing indent : String) (text : α → String)
    (first : α) (others : List α) :
    (bracketed opening closing indent ((first :: others).map text)).toList =
      opening.toList ++ (inset indent (text first) ++
        ((others.flatMap fun part => ',' :: inset indent (text part)) ++
          ('\n' :: indent.toList ++ closing.toList))) := by
  let line (part : α) : List Char := (indent ++ "  ").toList ++ (text part).toList
  have hlines := intercalate_lines (line first) (others.map line)
  rw [List.flatMap_map] at hlines
  have hbody : (",\n".intercalate (((first :: others).map text).map (indent ++ "  " ++ ·))).toList =
      [',', '\n'].intercalate (line first :: others.map line) := by
    rw [String.toList_intercalate, List.map_map, List.map_map, List.map_cons]
    simp [line, Function.comp_def]
  have hbracketed : (bracketed opening closing indent ((first :: others).map text)).toList =
      opening.toList ++ '\n' :: [',', '\n'].intercalate (line first :: others.map line) ++
        '\n' :: indent.toList ++ closing.toList := by
    rw [← hbody]
    simp [bracketed]
  rw [hbracketed, hlines]
  simp [inset, line]

/-- The items of an array are written as they would be by themselves. -/
theorem prettyItems_eq (indent : String) (items : List Json) :
    prettyItems indent items = items.map (prettyAt indent) := by
  induction items with
  | nil => rfl
  | cons item items ih => rw [prettyItems, ih, List.map_cons]

/-- A field of an object is written as its name, a colon and a blank, and its value. -/
theorem prettyFields_eq (indent : String) (fields : List (String × Json)) :
    prettyFields indent fields =
      fields.map fun field => quote field.1 ++ ": " ++ prettyAt indent field.2 := by
  induction fields with
  | nil => rfl
  | cons field fields ih => rw [prettyFields, ih, List.map_cons]

/-- The text of a number begins with a digit. -/
theorem opens_toDigits (n : Nat) : Opens (Nat.toDigits 10 n) := by
  obtain ⟨first, digits, hdigits⟩ :=
    List.exists_cons_of_ne_nil (Nat.toDigits_ne_nil (n := n) (b := 10))
  have hfirst : ∀ c, isDigit c = false → first ≠ c := by
    rintro c hc rfl
    rw [isDigit_of_mem_toDigits (hdigits ▸ List.mem_cons_self)] at hc
    cases hc
  refine ⟨first, digits, hdigits, ?_, hfirst ']' rfl, hfirst '\x7d' rfl⟩
  simp [isSpace, hfirst ' ' rfl, hfirst '\n' rfl, hfirst '\r' rfl, hfirst '\t' rfl]

/-- The text of a value begins with a character that closes nothing. -/
theorem IsNatural.opens {json : Json} (h : IsNatural json) (indent : String) :
    Opens (prettyAt indent json).toList := by
  cases h with
  | null =>
    rw [prettyAt]
    exact ⟨'n', ['u', 'l', 'l'], rfl, by decide⟩
  | bool value =>
    rw [prettyAt]
    cases value with
    | false => exact ⟨'f', ['a', 'l', 's', 'e'], rfl, by decide⟩
    | true => exact ⟨'t', ['r', 'u', 'e'], rfl, by decide⟩
  | natural value =>
    rw [prettyAt, numberText, Nat.toString_eq_ofList_toDigits, String.toList_ofList]
    exact opens_toDigits value
  | string text =>
    rw [prettyAt, quote, String.toList_ofList]
    exact ⟨'"', _, rfl, by decide⟩
  | @array items =>
    rw [prettyAt, prettyItems_eq]
    cases items with
    | nil =>
      rw [List.map_nil, bracketed, String.toList_append]
      exact ⟨'[', [']'], rfl, by decide⟩
    | cons first others =>
      rw [toList_bracketed]
      exact ⟨'[', _, rfl, by decide⟩
  | @object fields =>
    rw [prettyAt, prettyFields_eq]
    cases fields with
    | nil =>
      rw [List.map_nil, bracketed, String.toList_append]
      exact ⟨'\x7b', ['\x7d'], rfl, by decide⟩
    | cons first others =>
      rw [toList_bracketed]
      exact ⟨'\x7b', _, rfl, by decide⟩

/-- What begins with no opening bracket is read as a value without parts. -/
theorem value?_succ_eq (hsquare : ∀ rest, cs ≠ '[' :: rest) (hbrace : ∀ rest, cs ≠ '\x7b' :: rest)
    (depth : Nat) : value? (depth + 1) cs = scalar? cs := by
  rw [value?]
  · exact hsquare
  · exact hbrace

/-- There are blanks at the front of a line. -/
theorem blank_line {indent : String} (hindent : Blank indent.toList) :
    Blank ('\n' :: (indent ++ "  ").toList) := by
  simpa [Blank, or_imp, forall_and] using ⟨rfl, hindent, rfl⟩

/-- What stands behind an opening bracket is read through the bracket that closes it, and begins
with none. -/
theorem exists_parts {α : Type} {closing : Char} {read : List Char → Option (α × List Char)}
    {text : α → String} {indent : String} (hclosing : closing = ']' ∨ closing = '\x7d')
    (hindent : Blank indent.toList) {first : α} {others : List α}
    (hparts : ∀ part ∈ first :: others,
      Opens (text part).toList ∧ Takes read (inset indent (text part)) part)
    (opening : String) (rest : List Char) :
    ∃ body, (bracketed opening (String.ofList [closing]) indent
        ((first :: others).map text)).toList ++ rest = opening.toList ++ body ∧
      Opens (skipSpace body) ∧ parts? closing read [] body = some (first :: others, rest) := by
  have hinset : ∀ part ∈ first :: others,
      inset indent (text part) ≠ [] ∧ Takes read (inset indent (text part)) part :=
    fun part hpart => ⟨by simp [inset], (hparts part hpart).2⟩
  have hblank : Blank ('\n' :: indent.toList) := List.forall_mem_cons.mpr ⟨rfl, hindent⟩
  refine ⟨_, ?_, ?_, parts?_eq hclosing hblank hinset [] rest⟩
  · rw [toList_bracketed]
    simp
  · obtain ⟨c, cs, hcs, hc, hplain⟩ := (hparts first List.mem_cons_self).1
    rw [inset, hcs, List.append_assoc]
    exact ⟨c, _, skipSpace_append (blank_line hindent) hc, hc, hplain⟩

/-- The items of an array are read one after the other. -/
theorem takes_array {items : List Json} {indent : String} (hindent : Blank indent.toList)
    {depth : Nat} (hitems : ∀ item ∈ items, Opens (prettyAt (indent ++ "  ") item).toList ∧
      Takes (value? depth) (prettyAt (indent ++ "  ") item).toList item) :
    Takes (value? (depth + 1)) (prettyAt indent (array items)).toList (array items) := by
  intro rest hrest
  rw [prettyAt, prettyItems_eq]
  cases items with
  | nil =>
    rw [List.map_nil, bracketed, String.toList_append]
    rfl
  | cons first others =>
    have hparts : ∀ item ∈ first :: others, Opens (prettyAt (indent ++ "  ") item).toList ∧
        Takes (fun cs => value? depth (skipSpace cs))
          (inset indent (prettyAt (indent ++ "  ") item)) item := by
      intro item hitem
      obtain ⟨hopens, htakes⟩ := hitems item hitem
      exact ⟨hopens, htakes.skipSpace hopens (blank_line hindent)⟩
    obtain ⟨body, htext, ⟨c, cs, hskip, -, hc, -⟩, hbody⟩ :=
      exists_parts (.inl rfl) hindent hparts "[" rest
    refine (congrArg _ htext).trans ?_
    show value? (depth + 1) ('[' :: body) = _
    rw [value?, hskip]
    split
    · next hclosed => exact absurd (List.cons.inj hclosed).1 hc
    · rw [hbody]
      rfl

/-- The fields of an object are read one after the other. -/
theorem takes_object {fields : List (String × Json)} {indent : String}
    (hindent : Blank indent.toList) {depth : Nat}
    (hfields : ∀ field ∈ fields, Opens (prettyAt (indent ++ "  ") field.2).toList ∧
      Takes (value? depth) (prettyAt (indent ++ "  ") field.2).toList field.2) :
    Takes (value? (depth + 1)) (prettyAt indent (object fields)).toList (object fields) := by
  intro rest hrest
  rw [prettyAt, prettyFields_eq]
  cases fields with
  | nil =>
    rw [List.map_nil, bracketed, String.toList_append]
    rfl
  | cons first others =>
    let text (field : String × Json) : String :=
      quote field.1 ++ ": " ++ prettyAt (indent ++ "  ") field.2
    have hparts : ∀ field ∈ first :: others, Opens (text field).toList ∧
        Takes (field? (value? depth)) (inset indent (text field)) field := by
      intro field hfield
      obtain ⟨hopens, htakes⟩ := hfields field hfield
      have htext : (text field).toList = (quote field.1).toList ++
          ':' :: ' ' :: (prettyAt (indent ++ "  ") field.2).toList := by simp [text]
      rw [inset, htext]
      refine ⟨?_, takes_field htakes hopens (blank_line hindent) field.1⟩
      rw [quote, String.toList_ofList]
      exact ⟨'"', _, rfl, by decide⟩
    obtain ⟨body, htext, ⟨c, cs, hskip, -, -, hc⟩, hbody⟩ :=
      exists_parts (.inr rfl) hindent hparts "\x7b" rest
    refine (congrArg _ htext).trans ?_
    show value? (depth + 1) ('\x7b' :: body) = _
    rw [value?, hskip]
    split
    · next hclosed => exact absurd (List.cons.inj hclosed).1 hc
    · rw [hbody]
      rfl

/-- A part is shorter than what it is a part of. -/
theorem length_lt_bracketed {α : Type} (opening closing indent : String) (text : α → String)
    {part : α} {parts : List α} (hpart : part ∈ parts) :
    (text part).toList.length <
      (bracketed opening closing indent (parts.map text)).toList.length := by
  obtain ⟨first, others, rfl⟩ := List.exists_cons_of_ne_nil (List.ne_nil_of_mem hpart)
  rw [toList_bracketed]
  have hinset : (text part).toList.length < (inset indent (text part)).length := by
    simp only [inset, List.length_append, List.length_cons]
    omega
  rcases List.mem_cons.mp hpart with rfl | hother
  · simp only [List.length_append]
    omega
  · have hsub := List.sublist_flatten_of_mem
      (List.mem_map_of_mem (f := fun part => ',' :: inset indent (text part)) hother)
    have hlength := hsub.length_le
    rw [← List.flatMap_def, List.length_cons] at hlength
    simp only [List.length_append]
    omega

/-- A value is taken off the front of a text that begins with it, whatever indent it was written
with. The length of its text bounds how deep it is nested. -/
theorem takes_prettyAt {depth : Nat} : ∀ {json : Json} {indent : String}, IsNatural json →
    Blank indent.toList → (prettyAt indent json).toList.length ≤ depth →
    Takes (value? depth) (prettyAt indent json).toList json := by
  induction depth with
  | zero =>
    intro json indent h hindent hdepth
    obtain ⟨c, cs, htext, -⟩ := h.opens indent
    rw [htext] at hdepth
    cases hdepth
  | succ depth ih =>
    intro json indent h hindent hdepth
    have hinner : Blank (indent ++ "  ").toList := by
      simpa [Blank, or_imp, forall_and] using ⟨hindent, rfl⟩
    cases h with
    | null =>
      intro rest hrest
      rw [prettyAt]
      rfl
    | bool value =>
      intro rest hrest
      cases value <;> (rw [prettyAt]; rfl)
    | natural value =>
      intro rest hrest
      have hfirst : ∀ c cs, isDigit c = false → (toString value).toList ++ rest ≠ c :: cs := by
        intro c cs hc
        rw [Nat.toString_eq_ofList_toDigits, String.toList_ofList]
        exact toDigits_append_ne hc
      rw [prettyAt, numberText, value?_succ_eq (fun _ => hfirst _ _ rfl) fun _ => hfirst _ _ rfl,
        takes_number value rest hrest]
    | string text =>
      intro rest hrest
      rw [prettyAt, value?_succ_eq, scalar?_quote]
      · simp [quote]
      · simp [quote]
    | @array items hitems =>
      refine takes_array hindent fun item hitem => ⟨(hitems item hitem).opens _, ?_⟩
      have hlength := length_lt_bracketed "[" "]" indent (prettyAt (indent ++ "  ")) hitem
      rw [← prettyItems_eq] at hlength
      rw [prettyAt] at hdepth
      exact ih (hitems item hitem) hinner (by omega)
    | @object fields hfields =>
      refine takes_object hindent fun field hfield => ⟨(hfields field hfield).opens _, ?_⟩
      have hlength := length_lt_bracketed "\x7b" "\x7d" indent
        (fun field => quote field.1 ++ ": " ++ prettyAt (indent ++ "  ") field.2) hfield
      rw [← prettyFields_eq] at hlength
      rw [prettyAt] at hdepth
      simp only [String.toList_append, List.length_append] at hlength
      exact ih (hfields field hfield) hinner (by omega)

/-- A value is read back from its text. -/
theorem parse?_pretty {json : Json} (h : IsNatural json) : parse? json.pretty = some json := by
  obtain ⟨c, cs, htext, hc, -⟩ := h.opens ""
  have hblank : Blank "".toList := nofun
  have hskip : skipSpace json.pretty.toList = json.pretty.toList := by
    rw [pretty, htext]
    exact skipSpace_append hblank hc
  have htakes := takes_prettyAt h hblank (Nat.le_succ _) [] nofun
  rw [List.append_nil] at htakes
  rw [parse?, hskip, pretty]
  simp only [htakes]
  rfl

end MailFilter.Json
