import MailFilter.Proofs.Script.Pieces

/-!
# Texts that differ in case

The case of letters does not count in words, tags and the scale letters of numbers, nor in the mark
of a multi-line string. A text in which letters have another case at such places is cut at the same
places, into tokens that are the same up to case, and the same strings.
-/

namespace MailFilter.Script

open Ascii (isSpace isDigit isLetter isWordChar lowerChar SameLetter)

/-- The bytes at the front of a token in which the case of letters does not count. Punctuation has
no letters. -/
def Span.caselessSize (span : Span) : Nat :=
  match span.token with
  | .identifier _ | .tag _ | .number _ => span.size
  | .multiline _ => 5
  | _ => 0

/-- An offset at which the case of a letter does not count. -/
def CaselessAt (spans : List Span) (offset : Nat) : Prop :=
  ∃ span ∈ spans, span.place.offset ≤ offset ∧ offset < span.place.offset + span.caselessSize

/-- A stretch of a text that begins at an offset, and the same stretch with other cases of letters
where case does not count. -/
inductive RecasedFrom (spans : List Span) : Nat → List Char → List Char → Prop where
  | nil {offset : Nat} : RecasedFrom spans offset [] []
  | keep {offset : Nat} {c : Char} {cs ds : List Char}
      (hrest : RecasedFrom spans (offset + c.utf8Size) cs ds) :
      RecasedFrom spans offset (c :: cs) (c :: ds)
  | change {offset : Nat} {c d : Char} {cs ds : List Char} (hat : CaselessAt spans offset)
      (hletter : SameLetter c d) (hrest : RecasedFrom spans (offset + c.utf8Size) cs ds) :
      RecasedFrom spans offset (c :: cs) (d :: ds)

/-- A text that is the same as another with the given tokens, but for the case of letters in words,
in tags, in scale letters and in the marks of multi-line strings. -/
def RecasedIn (spans : List Span) (text other : String) : Prop :=
  RecasedFrom spans 0 text.toList other.toList

/-- Whether case counts at an offset can be decided. -/
instance (spans : List Span) (offset : Nat) : Decidable (CaselessAt spans offset) :=
  inferInstanceAs (Decidable (∃ span ∈ spans, _))

/-- A text is recased character by character: each is the same, or the same letter where case does
not count. -/
theorem recasedFrom_cons_iff {spans : List Span} {offset : Nat} {c d : Char} {cs ds : List Char} :
    RecasedFrom spans offset (c :: cs) (d :: ds) ↔
      (c = d ∨ CaselessAt spans offset ∧ lowerChar c = lowerChar d) ∧
        RecasedFrom spans (offset + c.utf8Size) cs ds := by
  constructor
  · intro h
    cases h with
    | keep hrest => exact ⟨.inl rfl, hrest⟩
    | change hat hletter hrest => exact ⟨.inr ⟨hat, Ascii.sameLetter_iff.mp hletter⟩, hrest⟩
  · rintro ⟨rfl | ⟨hat, hletter⟩, hrest⟩
    · exact .keep hrest
    · exact .change hat (Ascii.sameLetter_iff.mpr hletter) hrest

/-- Texts can be compared letter by letter. -/
def decideRecasedFrom (spans : List Span) :
    ∀ (offset : Nat) (cs ds : List Char), Decidable (RecasedFrom spans offset cs ds)
  | _, [], [] => .isTrue .nil
  | _, [], _ :: _ => .isFalse (by rintro ⟨⟩)
  | _, _ :: _, [] => .isFalse (by rintro ⟨⟩)
  | offset, c :: cs, _ :: ds =>
    have := decideRecasedFrom spans (offset + c.utf8Size) cs ds
    decidable_of_iff _ recasedFrom_cons_iff.symm

/-- Whether a text is recased where case does not count can be decided. -/
instance (spans : List Span) (text other : String) : Decidable (RecasedIn spans text other) :=
  decideRecasedFrom spans 0 text.toList other.toList

/-- A token without the case of letters that do not have any. Tags have none to begin with. -/
def Token.folded : Token → Token
  | identifier text => identifier (Ascii.lower text)
  | number text => number (Ascii.lower text)
  | token => token

/-- Two tokens at one place that are the same up to case. -/
structure Span.SameButCase (span other : Span) : Prop where
  token : other.token.folded = span.token.folded
  place : other.place = span.place
  size : other.size = span.size

section Letters

variable {c d : Char} {cs ds : List Char}

/-- Characters that are the same but for case are the same, or letters. -/
theorem eq_or_isLetter_of_sameLetter (h : SameLetter c d) :
    d = c ∨ (isLetter c = true ∧ isLetter d = true) := by
  simp only [isLetter, Bool.or_eq_true, Bool.and_eq_true, decide_eq_true_eq,
    Ascii.le_iff_toNat_le, Char.reduceToNat]
  rcases h with rfl | ⟨hlow, hhigh, hcode⟩ | ⟨hlow, hhigh, hcode⟩
  · exact .inl rfl
  · rw [Ascii.le_iff_toNat_le] at hlow hhigh
    simp only [Char.reduceToNat] at hlow hhigh
    omega
  · rw [Ascii.le_iff_toNat_le] at hlow hhigh
    simp only [Char.reduceToNat] at hlow hhigh
    omega

/-- A character that is no letter has no other case. -/
theorem eq_of_sameLetter (hc : isLetter c = false) (h : SameLetter c d) : d = c := by
  rcases eq_or_isLetter_of_sameLetter h with hsame | ⟨hletter, -⟩
  · exact hsame
  · rw [hc] at hletter
    cases hletter

/-- What is the same for all letters does not depend on their case. -/
theorem class_eq_of_sameLetter {α : Type} {f : Char → α} {value : α}
    (hf : ∀ c, isLetter c = true → f c = value) (h : SameLetter c d) : f d = f c := by
  rcases eq_or_isLetter_of_sameLetter h with rfl | ⟨hc, hd⟩
  · rfl
  · rw [hf c hc, hf d hd]

/-- A letter is part of a word. -/
theorem isWordChar_of_isLetter (hc : isLetter c = true) : isWordChar c = true := by
  rw [isWordChar, hc]
  rfl

/-- A letter can begin a word. -/
theorem isWordStart_of_isLetter (hc : isLetter c = true) : isWordStart c = true := by
  rw [isWordStart, hc]
  rfl

/-- A letter is no digit. -/
theorem isDigit_of_isLetter (hc : isLetter c = true) : isDigit c = false :=
  isDigit_of_isWordStart (isWordStart_of_isLetter hc)

/-- A digit is no letter. -/
theorem isLetter_of_isDigit (hc : isDigit c = true) : isLetter c = false :=
  of_isWordChar (fun c => isDigit c = true → isLetter c = false) (by decide)
    (isWordChar_of_isDigit hc) hc

/-- A letter takes one byte. -/
theorem utf8Size_of_isLetter (hc : isLetter c = true) : c.utf8Size = 1 :=
  of_isWordChar (fun c => c.utf8Size = 1) (by decide) (isWordChar_of_isLetter hc)

/-- A scale letter is one in either case. -/
theorem isScale_of_sameLetter (h : SameLetter c d) : isScale d = isScale c := by
  have hlower : ∀ c, isLetter c = true → isScale c = ['k', 'm', 'g'].contains (lowerChar c) :=
    fun c hc => of_isWordChar (fun c => isScale c = ['k', 'm', 'g'].contains (lowerChar c))
      (by decide) (isWordChar_of_isLetter hc)
  rcases eq_or_isLetter_of_sameLetter h with rfl | ⟨hc, hd⟩
  · rfl
  · rw [hlower c hc, hlower d hd, Ascii.sameLetter_iff.mp h]

/-- A letter does not end a line. -/
theorem newline_ne_of_isLetter (hc : isLetter c = true) : c ≠ '\n' := by
  rintro rfl
  cases hc

/-- The case of a character does not matter for the place behind it. -/
theorem step_of_sameLetter (h : SameLetter c d) (place : Place) : place.step d = place.step c := by
  rcases eq_or_isLetter_of_sameLetter h with rfl | ⟨hc, hd⟩
  · rfl
  · rw [Place.step, Place.step, if_neg (newline_ne_of_isLetter hc),
      if_neg (newline_ne_of_isLetter hd), utf8Size_of_isLetter hc, utf8Size_of_isLetter hd]

/-- The case of its letters does not matter for the place behind a text. -/
theorem advance_of_sameLetter (h : List.Forall₂ SameLetter cs ds) (place : Place) :
    place.advance ds = place.advance cs := by
  induction h generalizing place with
  | nil => rfl
  | cons hletter _ ih => rw [Place.advance_cons, Place.advance_cons, step_of_sameLetter hletter, ih]

/-- The case of its letters does not matter for the size of a text. -/
theorem utf8Len_of_sameLetter (h : List.Forall₂ SameLetter cs ds) :
    String.utf8Len ds = String.utf8Len cs := by
  have hadvance := congrArg Place.offset (advance_of_sameLetter h .start)
  rw [Place.offset_advance, Place.offset_advance] at hadvance
  exact Nat.add_left_cancel hadvance

/-- Characters are the same but for case if they fold to the same characters. -/
theorem forall₂_sameLetter_iff :
    List.Forall₂ SameLetter cs ds ↔ cs.map lowerChar = ds.map lowerChar := by
  have hsame : SameLetter = fun c d => lowerChar c = lowerChar d :=
    funext₂ fun _ _ => propext Ascii.sameLetter_iff
  rw [hsame, ← List.forall₂_eq_eq_eq, List.forall₂_map_left_iff, List.forall₂_map_right_iff]

/-- Texts that are the same but for case fold to the same text. -/
theorem lower_of_sameLetter (h : List.Forall₂ SameLetter cs ds) :
    Ascii.lower (String.ofList ds) = Ascii.lower (String.ofList cs) := by
  rw [Ascii.lower, Ascii.lower, String.toList_ofList, String.toList_ofList,
    ← forall₂_sameLetter_iff.mp h]

/-- A class that does not tell cases apart has all of a recased text if it has all of the text. -/
theorem forall_of_sameLetter {p : Char → Bool} (hp : ∀ c d, SameLetter c d → p d = p c)
    (h : List.Forall₂ SameLetter cs ds) (hcs : ∀ c ∈ cs, p c = true) : ∀ d ∈ ds, p d = true := by
  induction h with
  | nil => exact hcs
  | cons hletter _ ih =>
    rw [List.forall_mem_cons] at hcs ⊢
    exact ⟨(hp _ _ hletter).trans hcs.1, ih hcs.2⟩

/-- A text without letters is the same if it is recased. -/
theorem eq_of_forall_sameLetter (h : List.Forall₂ SameLetter cs ds)
    (hcs : ∀ c ∈ cs, isLetter c = false) : ds = cs := by
  induction h with
  | nil => rfl
  | cons hletter _ ih =>
    rw [List.forall_mem_cons] at hcs
    rw [eq_of_sameLetter hcs.1 hletter, ih hcs.2]

/-- A class that does not tell cases apart stops at a recased text as well. -/
theorem Stops.recased {p : Char → Bool} (h : Stops p cs) (hp : ∀ c d, SameLetter c d → p d = p c)
    (hcs : List.Forall₂ SameLetter cs ds) : Stops p ds := by
  cases hcs with
  | nil => exact h
  | cons hletter _ =>
    rintro _ ⟨⟩
    rw [hp _ _ hletter]
    exact h _ rfl

end Letters

/-- The number of characters at the front of a piece in which the case of letters does not count. -/
def Piece.caseless (piece : Piece) : Nat :=
  match piece.token with
  | some (.identifier _) | some (.tag _) | some (.number _) => piece.text.length
  | some (.multiline _) => 5
  | _ => 0

section Pieces

variable {text rest more : List Char}

/-- What stands behind a multi-line string matters only if nothing does. -/
theorem IsBody.mono {body inner : List Char} (h : IsBody rest body inner)
    (hmore : rest = [] → more = []) : IsBody more body inner := by
  induction h with
  | dot hline hdot => exact .dot hline hdot
  | lastDot hline hdot hrest => exact .lastDot hline hdot (hmore hrest)
  | line hline hdot _ ih => exact .line hline hdot ih

/-- A recased text begins with no mark if the text does not. -/
theorem afterTextMark?_of_sameLetter {cs ds : List Char} (h : List.Forall₂ SameLetter cs ds)
    (hmark : afterTextMark? cs = none) : afterTextMark? ds = none := by
  have hsame : (ds.take 5).map lowerChar = (cs.take 5).map lowerChar := by
    rw [List.map_take, List.map_take, ← forall₂_sameLetter_iff.mp h]
  rw [afterTextMark?] at hmark ⊢
  rw [hsame]
  split at hmark
  · cases hmark
  · next hother => exact if_neg hother

/-- The mark of a multi-line string has five characters. -/
theorem length_of_isMark {mark : List Char}
    (hmark : mark.map lowerChar = ['t', 'e', 'x', 't', ':']) : mark.length = 5 := by
  rw [← List.length_map (f := lowerChar), hmark]
  rfl

/-- A string is the same string with another case of the letters in its mark. -/
theorem IsString.recased {token : Token} (h : IsString rest text token) {text' : List Char}
    (htext : List.Forall₂ SameLetter text text')
    (hkept : text'.drop (Piece.caseless ⟨some token, text, rest⟩) =
      text.drop (Piece.caseless ⟨some token, text, rest⟩))
    (hmore : rest = [] → more = []) : IsString more text' token := by
  cases h with
  | quoted hbody =>
    obtain rfl : text' = _ := hkept
    exact .quoted hbody
  | @multiline mark opener body inner hmark hopener hblank hbody =>
    have hlength := length_of_isMark hmark
    have hkept : text'.drop 5 = opener ++ '\n' :: body := by
      have hdrop : (mark ++ (opener ++ '\n' :: body)).drop 5 = opener ++ '\n' :: body :=
        List.drop_left' hlength
      rw [← hdrop]
      exact hkept
    have hmark' : (text'.take 5).map lowerChar = ['t', 'e', 'x', 't', ':'] := by
      rw [← hmark, List.map_take, ← forall₂_sameLetter_iff.mp htext, List.map_append,
        List.take_left' (by rw [List.length_map, hlength])]
    rw [← List.take_append_drop 5 text', hkept]
    exact .multiline hmark' hopener hblank (hbody.mono hmore)

/-- In a numeral only the scale letter has a case. -/
theorem exists_scale_of_sameLetter {digits : List Char} {scale : Option Char}
    (hdigits : ∀ c ∈ digits, isDigit c = true)
    (htext : List.Forall₂ SameLetter (digits ++ scale.toList) text) :
    ∃ other, text = digits ++ other.toList ∧ Option.Rel SameLetter scale other := by
  induction digits generalizing text with
  | nil =>
    cases scale with
    | none =>
      cases htext
      exact ⟨none, rfl, .none⟩
    | some letter =>
      obtain _ | ⟨hletter, hnil⟩ := htext
      cases hnil
      exact ⟨some _, rfl, .some hletter⟩
  | cons digit digits ih =>
    obtain _ | ⟨hdigit, hrest⟩ := htext
    rw [List.forall_mem_cons] at hdigits
    obtain ⟨other, rfl, hother⟩ := ih hdigits.2 hrest
    obtain rfl := eq_of_sameLetter (isLetter_of_isDigit hdigits.1) hdigit
    exact ⟨other, rfl, hother⟩

/-- A numeral with its scale letter recased is a numeral. -/
theorem IsNumeral.recased {digits : List Char} {scale other : Option Char}
    (h : IsNumeral digits scale) (hscale : Option.Rel SameLetter scale other) :
    IsNumeral digits other where
  digits_ne_nil := h.digits_ne_nil
  digits_decimal := h.digits_decimal
  scale_letter := by
    rintro _ ⟨⟩
    cases hscale with
    | some hletter =>
      rw [isScale_of_sameLetter hletter]
      exact h.scale_letter _ rfl

/-- Every piece with another case of its letters where case does not count is a piece as well, and
its token is the same up to case. -/
theorem IsPiece.recased {piece : Piece} (h : IsPiece piece)
    (htext : List.Forall₂ SameLetter piece.text text)
    (hkept : text.drop piece.caseless = piece.text.drop piece.caseless)
    (hrest : List.Forall₂ SameLetter piece.rest more) :
    ∃ token, IsPiece ⟨token, text, more⟩ ∧
      token.map Token.folded = piece.token.map Token.folded := by
  have hword : ∀ c d, SameLetter c d → isWordChar d = isWordChar c := fun _ _ =>
    class_eq_of_sameLetter fun _ => isWordChar_of_isLetter
  have hstart : ∀ c d, SameLetter c d → isWordStart d = isWordStart c := fun _ _ =>
    class_eq_of_sameLetter fun _ => isWordStart_of_isLetter
  have hdigit : ∀ c d, SameLetter c d → isDigit d = isDigit c := fun _ _ =>
    class_eq_of_sameLetter fun _ => isDigit_of_isLetter
  have hnil : piece.rest = [] → more = [] := by
    intro hnil
    rw [hnil] at hrest
    cases hrest
    rfl
  cases h with
  | space hspace =>
    obtain rfl : text = _ := hkept
    exact ⟨none, .space hspace, rfl⟩
  | punctuation htoken =>
    unfold punctuation? at htoken
    split at htoken <;> cases htoken
    all_goals
      obtain rfl : text = _ := hkept
      exact ⟨_, .punctuation rfl, rfl⟩
  | lineComment hcomment hstop =>
    obtain rfl : text = _ := hkept
    have hline : ∀ c d, SameLetter c d → (d != '\n') = (c != '\n') := fun _ _ =>
      class_eq_of_sameLetter fun c hc => bne_iff_ne.mpr (newline_ne_of_isLetter hc)
    exact ⟨none, .lineComment hcomment (hstop.recased hline hrest), rfl⟩
  | blockComment hbody =>
    obtain rfl : text = _ := hkept
    exact ⟨none, .blockComment hbody, rfl⟩
  | string hstring =>
    exact ⟨_, .string (hstring.recased htext hkept hnil), rfl⟩
  | tag hne hchars hstop =>
    obtain _ | ⟨hcolon, hchars'⟩ := htext
    obtain rfl := eq_of_sameLetter rfl hcolon
    refine ⟨_, .tag ?_ (forall_of_sameLetter hword hchars' hchars) (hstop.recased hword hrest), ?_⟩
    · rintro rfl
      cases hchars'
      exact hne rfl
    · exact congrArg (fun text => some (Token.tag text))
        (lower_of_sameLetter (.cons hcolon hchars'))
  | @number digits rest scale hnumeral hstop =>
    obtain ⟨other, rfl, hscale⟩ := exists_scale_of_sameLetter hnumeral.digits_decimal htext
    have hclass : ∀ c d, SameLetter c d → (isDigit d || isScale d) = (isDigit c || isScale c) :=
      fun c d h => by rw [hdigit c d h, isScale_of_sameLetter h]
    refine ⟨_, .number (hnumeral.recased hscale) fun hnone => ?_, ?_⟩
    · obtain rfl := hnone
      cases hscale
      exact (hstop rfl).recased hclass hrest
    · exact congrArg (fun text => some (Token.number text)) (lower_of_sameLetter htext)
  | identifier hc hchars hstop hmark =>
    obtain _ | ⟨hletter, hchars'⟩ := htext
    refine ⟨_, .identifier ((hstart _ _ hletter).trans hc)
      (forall_of_sameLetter hword hchars' hchars) (hstop.recased hword hrest) ?_, ?_⟩
    · exact afterTextMark?_of_sameLetter (.cons hletter (List.rel_append hchars' hrest)) hmark
    · exact congrArg (fun text => some (Token.identifier text))
        (lower_of_sameLetter (.cons hletter hchars'))

end Pieces

/-- Tokens begin where the text begins, or behind that. -/
theorem AreTokens.offset_le {place : Place} {cs : List Char} {spans : List Span}
    (h : AreTokens place cs spans) : ∀ span ∈ spans, place.offset ≤ span.place.offset := by
  induction h with
  | nil => exact List.forall_mem_nil _
  | @cons place _ _ piece later hpiece hcut hlater ih =>
    rw [List.forall_mem_append]
    refine ⟨fun span hspan => ?_, fun span hspan => ?_⟩
    · rw [Piece.spans] at hspan
      split at hspan
      · cases hspan
      · obtain rfl := List.mem_singleton.mp hspan
        exact Nat.le_refl _
    · have hnext := ih span hspan
      rw [Place.offset_advance] at hnext
      omega

section Recased

variable {spans : List Span} {offset : Nat} {cs ds : List Char}

/-- A recased text is the same but for case. -/
theorem RecasedFrom.sameLetter (h : RecasedFrom spans offset cs ds) :
    List.Forall₂ SameLetter cs ds := by
  induction h with
  | nil => exact .nil
  | keep _ ih => exact .cons (.inl rfl) ih
  | change _ hletter _ ih => exact .cons hletter ih

/-- Two stretches are recased each by itself. -/
theorem RecasedFrom.exists_of_append {front back : List Char}
    (h : RecasedFrom spans offset (front ++ back) ds) :
    ∃ front' back', ds = front' ++ back' ∧ RecasedFrom spans offset front front' ∧
      RecasedFrom spans (offset + String.utf8Len front) back back' := by
  induction front generalizing offset ds with
  | nil => exact ⟨[], ds, rfl, .nil, h⟩
  | cons c front ih =>
    have hoffset : offset + c.utf8Size + String.utf8Len front =
        offset + String.utf8Len (c :: front) := by
      rw [String.utf8Len_cons]
      omega
    cases h with
    | keep hrest =>
      obtain ⟨front', back', rfl, hfront, hback⟩ := ih hrest
      exact ⟨c :: front', back', rfl, .keep hfront, hoffset ▸ hback⟩
    | change hat hletter hrest =>
      obtain ⟨front', back', rfl, hfront, hback⟩ := ih hrest
      exact ⟨_ :: front', back', rfl, .change hat hletter hfront, hoffset ▸ hback⟩

/-- Only what the tokens are from the offset on matters. -/
theorem RecasedFrom.mono {others : List Span} (h : RecasedFrom spans offset cs ds)
    (hmono : ∀ o, offset ≤ o → CaselessAt spans o → CaselessAt others o) :
    RecasedFrom others offset cs ds := by
  induction h with
  | nil => exact .nil
  | keep _ ih => exact .keep (ih fun o ho => hmono o (by omega))
  | change hat hletter _ ih =>
    exact .change (hmono _ (Nat.le_refl _) hat) hletter (ih fun o ho => hmono o (by omega))

/-- Nothing changes in a stretch in which case counts. -/
theorem RecasedFrom.eq_of_not (h : RecasedFrom spans offset cs ds)
    (hnot : ∀ o, offset ≤ o → o < offset + String.utf8Len cs → ¬CaselessAt spans o) : ds = cs := by
  induction h with
  | nil => rfl
  | @keep offset c cs ds _ ih =>
    rw [String.utf8Len_cons] at hnot
    rw [ih fun o hle hlt => hnot o (by omega) (by omega)]
  | @change offset c d cs ds hat _ _ _ =>
    have hsize := c.utf8Size_pos
    rw [String.utf8Len_cons] at hnot
    exact absurd hat (hnot offset (Nat.le_refl _) (by omega))

/-- A multi-line string begins with a mark of five characters, which take five bytes. -/
theorem exists_mark {contents : String} {text rest : List Char}
    (h : IsPiece ⟨some (.multiline contents), text, rest⟩) :
    ∃ mark tail, text = mark ++ tail ∧ mark.length = 5 ∧ String.utf8Len mark = 5 := by
  generalize htoken : Token.multiline contents = token at h
  cases h with
  | punctuation hpunctuation =>
    subst htoken
    unfold punctuation? at hpunctuation
    split at hpunctuation <;> cases hpunctuation
  | string hstring =>
    cases hstring with
    | quoted => cases htoken
    | @multiline mark opener body inner hmark =>
      have hsame : List.Forall₂ SameLetter mark ['t', 'e', 'x', 't', ':'] :=
        forall₂_sameLetter_iff.mpr hmark
      exact ⟨mark, _, rfl, length_of_isMark hmark, (utf8Len_of_sameLetter hsame).symm⟩
  | tag | number | identifier => cases htoken

variable {piece : Piece} {place : Place} {later : List Span}

/-- The letters that have no case in a piece stand in it. -/
theorem caselessSize_le (h : IsPiece piece) : ∀ span ∈ piece.spans place,
    span.place.offset + span.caselessSize ≤ (place.advance piece.text).offset := by
  obtain ⟨token, text, rest⟩ := piece
  rw [Place.offset_advance]
  cases token with
  | none => exact List.forall_mem_nil _
  | some token =>
    intro span hspan
    obtain rfl := List.mem_singleton.mp hspan
    rw [Nat.add_le_add_iff_left]
    cases token with
    | identifier | tag | number => exact (Nat.sub_eq_of_eq_add' (Place.offset_advance _ _)).le
    | multiline contents =>
      obtain ⟨mark, tail, rfl, -, hmark⟩ := exists_mark h
      rw [String.utf8Len_append, hmark]
      exact Nat.le_add_right 5 _
    | _ => exact Nat.zero_le _

/-- Behind the bytes of a piece in which case does not count, case counts up to its end. -/
theorem not_caselessAt {bytes o : Nat}
    (hbytes : ∀ span ∈ piece.spans place,
      span.place.offset + span.caselessSize ≤ place.offset + bytes)
    (hlater : ∀ span ∈ later, (place.advance piece.text).offset ≤ span.place.offset)
    (hle : place.offset + bytes ≤ o) (hlt : o < place.offset + String.utf8Len piece.text) :
    ¬CaselessAt (piece.spans place ++ later) o := by
  rintro ⟨span, hspan, hfrom, hto⟩
  rcases List.mem_append.mp hspan with hspan | hspan
  · have hsize := hbytes span hspan
    omega
  · have hnext := hlater span hspan
    rw [Place.offset_advance] at hnext
    omega

/-- What is recased in a piece are letters whose case does not count. -/
theorem drop_caseless_of_recased (h : IsPiece piece)
    (hlater : ∀ span ∈ later, (place.advance piece.text).offset ≤ span.place.offset)
    (hrecased : RecasedFrom (piece.spans place ++ later) place.offset piece.text ds) :
    ds.drop piece.caseless = piece.text.drop piece.caseless := by
  obtain ⟨token, text, rest⟩ := piece
  have hlength := hrecased.sameLetter.length_eq
  have hkept : (∀ span ∈ Piece.spans ⟨token, text, rest⟩ place,
      span.place.offset + span.caselessSize ≤ place.offset + 0) → ds = text := fun hbytes =>
    hrecased.eq_of_not fun o hle hlt => not_caselessAt hbytes hlater hle hlt
  cases token with
  | none => exact hkept (List.forall_mem_nil _)
  | some token =>
    cases token with
    | identifier | tag | number =>
      rw [Piece.caseless, List.drop_length]
      exact List.drop_eq_nil_of_le hlength.symm.le
    | multiline contents =>
      obtain ⟨mark, tail, rfl, hmark, hbytes⟩ := exists_mark h
      obtain ⟨mark', tail', rfl, hfront, hback⟩ := hrecased.exists_of_append
      have htail : tail' = tail := by
        refine hback.eq_of_not fun o hle hlt => @not_caselessAt _ _ _ 5 _ ?_ hlater (by omega) ?_
        · intro span hspan
          obtain rfl := List.mem_singleton.mp hspan
          exact Nat.le_refl _
        · dsimp only
          rw [String.utf8Len_append]
          omega
      rw [Piece.caseless, List.drop_left' hmark, htail,
        List.drop_left' (hfront.sameLetter.length_eq.symm.trans hmark)]
    | _ =>
      refine hkept fun span hspan => ?_
      obtain rfl := List.mem_singleton.mp hspan
      exact Nat.le_refl _

end Recased

/-- Pieces whose tokens fold to the same token, and whose texts lead to the same place, give tokens
that are the same but for case. -/
theorem sameButCase_spans {piece other : Piece} {place : Place}
    (htoken : other.token.map Token.folded = piece.token.map Token.folded)
    (hadvance : place.advance other.text = place.advance piece.text) :
    List.Forall₂ Span.SameButCase (piece.spans place) (other.spans place) := by
  rw [Piece.spans, Piece.spans, hadvance]
  cases hpiece : piece.token with
  | none =>
    rw [hpiece, Option.map_none, Option.map_eq_none_iff] at htoken
    rw [htoken]
    exact .nil
  | some token =>
    rw [hpiece, Option.map_some, Option.map_eq_some_iff] at htoken
    obtain ⟨folded, hother, hfolded⟩ := htoken
    rw [hother]
    exact .cons ⟨hfolded, rfl, rfl⟩ .nil

/-- A text that is recased where case does not count has the same tokens up to case, at the same
places. -/
theorem AreTokens.recased {place : Place} {cs ds : List Char} {spans : List Span}
    (h : AreTokens place cs spans) (hrecased : RecasedFrom spans place.offset cs ds) :
    ∃ others, AreTokens place ds others ∧ List.Forall₂ Span.SameButCase spans others := by
  induction h generalizing ds with
  | nil =>
    cases hrecased
    exact ⟨[], .nil, .nil⟩
  | @cons place c cs piece later hpiece hcut hlater ih =>
    obtain ⟨d, tail, rfl⟩ : ∃ d tail, ds = d :: tail := by
      cases hrecased <;> exact ⟨_, _, rfl⟩
    rw [← hcut] at hrecased
    obtain ⟨text, more, hds, htext, hmore⟩ := hrecased.exists_of_append
    have hkept := drop_caseless_of_recased hpiece hlater.offset_le htext
    obtain ⟨token, hother, htoken⟩ := hpiece.recased htext.sameLetter hkept hmore.sameLetter
    -- Behind the piece only the tokens behind it count.
    have hbehind : RecasedFrom later (place.advance piece.text).offset piece.rest more := by
      rw [Place.offset_advance]
      refine hmore.mono fun o ho hat => ?_
      obtain ⟨span, hspan, hfrom, hto⟩ := hat
      rcases List.mem_append.mp hspan with hspan | hspan
      · have hsize := caselessSize_le hpiece span hspan
        rw [Place.offset_advance] at hsize
        omega
      · exact ⟨span, hspan, hfrom, hto⟩
    obtain ⟨others, hothers, hsame⟩ := ih hbehind
    have hadvance := advance_of_sameLetter htext.sameLetter place
    rw [← hadvance] at hothers
    exact ⟨_, .cons hother hds.symm hothers,
      List.rel_append (sameButCase_spans htoken hadvance) hsame⟩

end MailFilter.Script
