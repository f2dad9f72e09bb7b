import Mathlib.Data.List.TakeWhile
import Mathlib.Data.String.Basic
import MailFilter.Proofs.Script.Spelling

/-!
# Tokens on both sides of a seam

Two texts are put together with a newline between them. The newline ends whatever the first text
leaves open at its end, so the pieces of the first text are those that it has alone: only the last
line of a multi-line string takes the newline in. The second text is then read as it would be alone,
from a place further down.
-/

namespace MailFilter.Script

open Ascii (isSpace isDigit isLetter isWordChar)

/-- A piece cut from a text, and the piece cut from the same text with a newline and another text
behind it: the other text is left over as well, unless the piece ended the first text and takes the
newline for its own. -/
def SeamCut (back text rest text' rest' : List Char) : Prop :=
  (text' = text ∧ rest' = rest ++ '\n' :: back) ∨
    (rest = [] ∧ text' = text ++ ['\n'] ∧ rest' = back)

section Readers

variable {cs text rest : List Char}

/-- A block comment that is closed does not look at what follows it. -/
theorem blockComment_append_right {read : List Char}
    (h : blockComment read cs = some (text, rest)) (more : List Char) :
    blockComment read (cs ++ more) = some (text, rest ++ more) := by
  fun_induction blockComment read cs with
  | case1 read tail =>
    obtain ⟨rfl, rfl⟩ := Prod.mk.inj (Option.some.inj h)
    rw [List.cons_append, List.cons_append, blockComment]
  | case2 read c tail hopen ih =>
    have hopen : ∀ after, c = '*' → tail ++ more = '/' :: after → False := by
      intro after hc hafter
      cases tail with
      | nil => cases h
      | cons d tail =>
        obtain ⟨rfl, -⟩ := List.cons.inj hafter
        exact hopen tail hc rfl
    rw [List.cons_append, blockComment, ih h]
    exact hopen
  | case3 => cases h

/-- A quoted string that is closed does not look at what follows it either. -/
theorem quotedString_append_right {contents read string : List Char}
    (h : quotedString contents read cs = some (string, text, rest)) (more : List Char) :
    quotedString contents read (cs ++ more) = some (string, text, rest ++ more) := by
  fun_induction quotedString contents read cs with
  | case1 contents read tail =>
    obtain ⟨rfl, htail⟩ := Prod.mk.inj (Option.some.inj h)
    obtain ⟨rfl, rfl⟩ := Prod.mk.inj htail
    rw [List.cons_append, quotedString]
  | case2 contents read c tail ih =>
    rw [List.cons_append, List.cons_append, quotedString, ih h]
  | case3 contents read c tail hquote hescape ih =>
    have hescape : ∀ d after, c = '\\' → tail ++ more = d :: after → False := by
      intro d after hc hafter
      cases tail with
      | nil => cases h
      | cons d tail => exact hescape d tail hc rfl
    rw [List.cons_append, quotedString, ih h]
    · exact hquote
    · exact hescape
  | case4 => cases h

/-- The first line of a text ends at its first newline, or with the text. -/
theorem firstLine_cases (cs : List Char) :
    (∃ contents after, cs = contents ++ '\n' :: after ∧ '\n' ∉ contents ∧
      firstLine cs = ⟨contents, contents ++ ['\n'], after⟩) ∨
    ('\n' ∉ cs ∧ firstLine cs = ⟨cs, cs, []⟩) := by
  by_cases hnewline : '\n' ∈ cs
  · obtain ⟨contents, after, rfl, hcontents⟩ := List.eq_append_cons_of_mem hnewline
    exact .inl ⟨contents, after, rfl, hcontents, firstLine_append hcontents after⟩
  · have hall : ∀ c ∈ cs, (c != '\n') = true := fun c hc => by
      simpa using ne_of_mem_of_not_mem hc hnewline
    refine .inr ⟨hnewline, ?_⟩
    simp only [firstLine, List.takeWhile_eq_self_iff.mpr hall, List.dropWhile_eq_nil_iff.mpr hall]

/-- The first line of a text ends where it does without the seam, or at the seam. -/
theorem firstLine_seam (cs back : List Char) :
    let line := firstLine cs
    let longer := firstLine (cs ++ '\n' :: back)
    longer.contents = line.contents ∧ SeamCut back line.text line.rest longer.text longer.rest := by
  intro line longer
  rcases firstLine_cases cs with ⟨contents, after, rfl, hcontents, hline⟩ | ⟨hnewline, hline⟩
  · have hlonger : longer = ⟨contents, contents ++ ['\n'], after ++ '\n' :: back⟩ := by
      rw [← firstLine_append hcontents, ← List.cons_append, ← List.append_assoc]
    rw [show line = _ from hline, hlonger]
    exact ⟨rfl, .inl ⟨rfl, rfl⟩⟩
  · have hlonger : longer = ⟨cs, cs ++ ['\n'], back⟩ := firstLine_append hnewline back
    rw [show line = _ from hline, hlonger]
    exact ⟨rfl, .inr ⟨rfl, rfl, rfl⟩⟩

/-- A multi-line string that is closed has the contents that it has without the seam. -/
theorem multilineBody_seam {contents read string : List Char}
    (h : multilineBody contents read cs = some (string, text, rest)) (back : List Char) :
    ∃ text' rest', multilineBody contents read (cs ++ '\n' :: back) = some (string, text', rest') ∧
      SeamCut back text rest text' rest' := by
  fun_induction multilineBody contents read cs with
  | case1 => cases h
  | case2 contents read cs hne line read' hdot =>
    obtain ⟨hcontents, hcut⟩ := firstLine_seam cs back
    obtain ⟨rfl, htail⟩ := Prod.mk.inj (Option.some.inj h)
    obtain ⟨rfl, rfl⟩ := Prod.mk.inj htail
    have hdot : (firstLine (cs ++ '\n' :: back)).trimmed = ['.'] := by
      rw [Line.trimmed, hcontents]
      exact hdot
    rw [multilineBody, dif_neg (by simp), if_pos hdot]
    refine ⟨_, _, rfl, ?_⟩
    rcases hcut with ⟨htext, hrest⟩ | ⟨hend, htext, hrest⟩
    · rw [htext, hrest]
      exact .inl ⟨rfl, rfl⟩
    · rw [htext, hrest]
      refine .inr ⟨hend, ?_, rfl⟩
      simp [read', line, List.reverseAux_eq]
  | case3 contents read cs hne line read' hdot ih =>
    obtain ⟨hcontents, hcut⟩ := firstLine_seam cs back
    have hdot : (firstLine (cs ++ '\n' :: back)).trimmed ≠ ['.'] := by
      rw [Line.trimmed, hcontents]
      exact hdot
    rcases hcut with ⟨htext, hrest⟩ | ⟨hend, -, -⟩
    · rw [multilineBody, dif_neg (by simp), if_neg hdot, htext, hrest, Line.trimmed, hcontents]
      exact ih h
    · -- Where such a line ends the text, the string is not closed.
      rw [show line.rest = [] from hend, multilineBody] at h
      cases h

/-- The mark of a multi-line string is no longer than the text before the seam if there is one. -/
theorem afterTextMark?_seam (cs back : List Char) :
    afterTextMark? (cs ++ '\n' :: back) =
      (afterTextMark? cs).map fun found => (found.1, found.2 ++ '\n' :: back) := by
  by_cases hlength : 5 ≤ cs.length
  · rw [afterTextMark?, afterTextMark?, List.take_append_of_le_length hlength,
      List.drop_append_of_le_length hlength]
    split <;> rfl
  · have hshort : (cs.take 5).map Ascii.lowerChar ≠ ['t', 'e', 'x', 't', ':'] := by
      intro hmark
      have hlength := congrArg List.length hmark
      rw [List.length_map, List.length_take] at hlength
      simp only [List.length_cons, List.length_nil] at hlength
      omega
    have hnewline := take_ne_textMark (Nat.lt_of_not_le hlength) back
    rw [afterTextMark?, afterTextMark?, if_neg hshort, if_neg hnewline]
    rfl

/-- A stretch of characters of a class that the newline is not in does not reach over the seam. -/
theorem takeWhile_seam {p : Char → Bool} (hp : p '\n' = false) (cs back : List Char) :
    (cs ++ '\n' :: back).takeWhile p = cs.takeWhile p := by
  induction cs with
  | nil => simp [hp]
  | cons c cs ih => simp only [List.cons_append, List.takeWhile_cons, ih]

/-- A class without the newline drops nothing behind the seam. -/
theorem dropWhile_seam {p : Char → Bool} (hp : p '\n' = false) (cs back : List Char) :
    (cs ++ '\n' :: back).dropWhile p = cs.dropWhile p ++ '\n' :: back := by
  induction cs with
  | nil => simp [hp]
  | cons c cs ih =>
    simp only [List.cons_append, List.dropWhile_cons, ih]
    split <;> rfl

/-- A piece of characters of a class without the newline does not go beyond the seam. -/
theorem pieceWhile_seam {p : Char → Bool} (hp : p '\n' = false) (first : List Char)
    (token : List Char → Option Token) (cs back : List Char) :
    pieceWhile p first token (cs ++ '\n' :: back) =
      { pieceWhile p first token cs with
        rest := (pieceWhile p first token cs).rest ++ '\n' :: back } := by
  rw [pieceWhile, pieceWhile, takeWhile_seam hp, dropWhile_seam hp]

/-- A number does not go beyond the seam. -/
theorem numberPiece_seam (cs back : List Char) :
    numberPiece (cs ++ '\n' :: back) =
      { numberPiece cs with rest := (numberPiece cs).rest ++ '\n' :: back } := by
  have hnewline : isDigit '\n' = false := by decide
  rw [numberPiece, numberPiece, takeWhile_seam hnewline, dropWhile_seam hnewline]
  cases cs.dropWhile isDigit with
  | nil => rfl
  | cons c rest =>
    dsimp only [List.cons_append]
    split <;> rfl

/-- A multi-line string is the same if more follows it, and may take the newline of the seam at
most. -/
theorem multilineString_seam {mark after : List Char} {piece : Piece}
    (h : multilineString mark after = .ok piece) (back : List Char) :
    ∃ longer, multilineString mark (after ++ '\n' :: back) = .ok longer ∧
      longer.token = piece.token ∧ SeamCut back piece.text piece.rest longer.text longer.rest := by
  obtain ⟨hcontents, hcut⟩ := firstLine_seam after back
  rw [multilineString] at h
  rw [multilineString, hcontents]
  split at h
  · next hopener =>
    rw [if_pos hopener]
    split at h
    · next contents text rest hbody =>
      cases h
      rcases hcut with ⟨htext, hrest⟩ | ⟨hend, -, -⟩
      · obtain ⟨text', rest', hlonger, hcut⟩ := multilineBody_seam hbody back
        rw [htext, hrest, hlonger]
        exact ⟨_, rfl, rfl, hcut⟩
      · -- Where the opening line ends the text, the string is not closed.
        rw [hend, multilineBody] at hbody
        cases hbody
    · cases h
  · cases h

end Readers

/-- The first piece of a text is the same token with a seam behind the text as without. -/
theorem firstPiece_seam {c : Char} {cs : List Char} {piece : Piece}
    (h : firstPiece c cs = .ok piece) (back : List Char) :
    ∃ longer, firstPiece c (cs ++ '\n' :: back) = .ok longer ∧ longer.token = piece.token ∧
      SeamCut back piece.text piece.rest longer.text longer.rest := by
  rw [firstPiece] at h ⊢
  by_cases hspace : isSpace c = true
  · rw [if_pos hspace] at h ⊢
    cases h
    exact ⟨_, rfl, rfl, .inl ⟨rfl, rfl⟩⟩
  rw [if_neg hspace] at h ⊢
  cases hpunctuation : punctuation? c with
  | some token =>
    rw [hpunctuation] at h
    cases h
    exact ⟨_, rfl, rfl, .inl ⟨rfl, rfl⟩⟩
  | none =>
    rw [hpunctuation] at h
    dsimp only at h ⊢
    by_cases hhash : c = '#'
    · rw [if_pos hhash] at h ⊢
      cases h
      rw [pieceWhile_seam (p := (· != '\n')) rfl]
      exact ⟨_, rfl, rfl, .inl ⟨rfl, rfl⟩⟩
    rw [if_neg hhash] at h ⊢
    by_cases hcomment : c = '/' ∧ cs.head? = some '*'
    · obtain ⟨rfl, hstar⟩ := hcomment
      obtain ⟨inner, rfl⟩ := List.head?_eq_some_iff.mp hstar
      rw [if_pos ⟨rfl, rfl⟩] at h ⊢
      split at h
      · next text rest hread =>
        cases h
        have hlonger := blockComment_append_right hread ('\n' :: back)
        rw [List.tail_cons] at hlonger
        rw [List.cons_append, List.tail_cons, hlonger]
        exact ⟨_, rfl, rfl, .inl ⟨rfl, rfl⟩⟩
      · cases h
    have hcomment' : ¬(c = '/' ∧ (cs ++ '\n' :: back).head? = some '*') := by
      rintro ⟨hslash, hstar⟩
      cases cs with
      | nil => cases hstar
      | cons d cs => exact hcomment ⟨hslash, hstar⟩
    rw [if_neg hcomment] at h
    rw [if_neg hcomment']
    by_cases hquote : c = '"'
    · rw [if_pos hquote] at h ⊢
      split at h
      · next contents text rest hread =>
        cases h
        rw [quotedString_append_right hread]
        exact ⟨_, rfl, rfl, .inl ⟨rfl, rfl⟩⟩
      · cases h
    rw [if_neg hquote] at h ⊢
    rw [← List.cons_append, afterTextMark?_seam]
    cases hmark : afterTextMark? (c :: cs) with
    | some found =>
      rw [hmark] at h
      exact multilineString_seam h back
    | none =>
      rw [hmark] at h
      dsimp only [Option.map_none] at h ⊢
      by_cases hcolon : c = ':'
      · rw [if_pos hcolon] at h ⊢
        rw [takeWhile_seam (by decide), dropWhile_seam (by decide)]
        split at h
        · cases h
        · next hword =>
          cases h
          exact ⟨_, rfl, rfl, .inl ⟨rfl, rfl⟩⟩
      rw [if_neg hcolon] at h ⊢
      by_cases hdigit : isDigit c = true
      · rw [if_pos hdigit] at h ⊢
        cases h
        rw [numberPiece_seam]
        exact ⟨_, rfl, rfl, .inl ⟨rfl, rfl⟩⟩
      rw [if_neg hdigit] at h ⊢
      by_cases hletter : (isLetter c || c == '_') = true
      · rw [if_pos hletter] at h ⊢
        cases h
        rw [pieceWhile_seam (by decide)]
        exact ⟨_, rfl, rfl, .inl ⟨rfl, rfl⟩⟩
      · rw [if_neg hletter] at h
        cases h

/-- What holds of the empty text, of a text without a first piece, and of a text if it holds behind
its first piece, holds of every text. -/
theorem piece_induction {motive : List Char → Prop} (nil : motive [])
    (fault : ∀ c cs fault, firstPiece c cs = .error fault → motive (c :: cs))
    (piece : ∀ c cs piece, firstPiece c cs = .ok piece → motive piece.rest → motive (c :: cs))
    (cs : List Char) : motive cs :=
  match cs with
  | [] => nil
  | c :: cs =>
    match hpiece : firstPiece c cs with
    | .error cause => fault c cs cause hpiece
    | .ok found => piece c cs found hpiece (piece_induction nil fault piece found.rest)
termination_by cs.length
decreasing_by exact firstPiece_rest_length hpiece

/-- The lexer fails where the first piece does. -/
theorem tokenizeFrom_cons_error {c : Char} {cs : List Char} {fault : LexFault}
    (h : firstPiece c cs = .error fault) (found : List Span) (place : Place) :
    tokenizeFrom found place (c :: cs) =
      .error (.parse (place.advance fault.before).line (place.advance fault.before).column
        fault.cause) := by
  rw [tokenizeFrom]
  split
  · next other hfault =>
    obtain rfl : fault = other := Except.error.inj (h.symm.trans hfault)
    rfl
  · next hfound =>
    rw [h] at hfound
    cases hfound

/-- Two lists of tokens that differ at most in how many bytes the tokens are written with. -/
def SameTokens (spans others : List Span) : Prop :=
  spans.map (fun span => (span.token, span.place)) =
    others.map fun span => (span.token, span.place)

/-- Two lists of the same tokens stay so with one more token in front, whatever size it has. -/
theorem SameTokens.cons {spans others : List Span} (h : SameTokens spans others) (token : Token)
    (place : Place) (size size' : Nat) :
    SameTokens (⟨token, place, size⟩ :: spans) (⟨token, place, size'⟩ :: others) :=
  congrArg ((token, place) :: ·) h

/-- Two lists of the same tokens stay so in reverse. -/
theorem SameTokens.reverse {spans others : List Span} (h : SameTokens spans others) :
    SameTokens spans.reverse others.reverse := by
  rw [SameTokens, List.map_reverse, List.map_reverse, h]

/-- Whether a piece takes the newline of a seam or leaves it, the lexer goes on alike. -/
theorem tokenizeFrom_seamCut {back text rest text' rest' : List Char}
    (h : SeamCut back text rest text' rest') (found : List Span) (place : Place) :
    tokenizeFrom found (place.advance text') rest' =
      tokenizeFrom found (place.advance text) (rest ++ '\n' :: back) := by
  rcases h with ⟨rfl, rfl⟩ | ⟨rfl, rfl, rfl⟩
  · rfl
  · rw [Place.advance_append]
    exact (tokenizeFrom_newline found (place.advance text) rest').symm

/-- The tokens of a text are found as well with a seam behind the text, and what follows the seam is
read from the place that it has. -/
theorem tokenizeFrom_seam {found found' spans : List Span} {place : Place} {cs : List Char}
    (h : tokenizeFrom found place cs = .ok spans) (hfound : SameTokens found' found)
    (back : List Char) :
    ∃ front, SameTokens front spans ∧ tokenizeFrom found' place (cs ++ '\n' :: back) =
      tokenizeFrom front.reverse (place.advance (cs ++ ['\n'])) back := by
  induction cs using piece_induction generalizing found found' place with
  | nil =>
    rw [tokenizeFrom] at h
    cases h
    refine ⟨found'.reverse, hfound.reverse, ?_⟩
    rw [List.reverse_reverse]
    exact tokenizeFrom_newline found' place back
  | fault c cs fault hpiece =>
    rw [tokenizeFrom_cons_error hpiece] at h
    cases h
  | piece c cs piece hpiece ih =>
    obtain ⟨longer, hlonger, hsame, hcut⟩ := firstPiece_seam hpiece back
    have hplace : place.advance (c :: cs ++ ['\n']) =
        (place.advance piece.text).advance (piece.rest ++ ['\n']) := by
      rw [← Place.advance_append, ← List.append_assoc, firstPiece_append hpiece]
    rw [tokenizeFrom_cons_ok hpiece] at h
    rw [hplace, List.cons_append, tokenizeFrom_cons_ok hlonger, hsame]
    cases htoken : piece.token with
    | none =>
      simp only [htoken] at h
      dsimp only
      rw [tokenizeFrom_seamCut hcut]
      exact ih h hfound
    | some token =>
      simp only [htoken] at h
      dsimp only
      rw [tokenizeFrom_seamCut hcut]
      exact ih h (hfound.cons token place _ _)

/-- A place in a text that stands behind some bytes and some lines. -/
def Place.moved (bytes lines : Nat) (place : Place) : Place :=
  ⟨place.offset + bytes, place.line + lines, place.column⟩

/-- A token of a text that stands behind some bytes and some lines. -/
def Span.moved (bytes lines : Nat) (span : Span) : Span :=
  { span with place := span.place.moved bytes lines }

section Moved

variable (bytes lines : Nat)

/-- Moving a place commutes with passing a character. -/
theorem Place.step_moved (place : Place) (c : Char) :
    (place.moved bytes lines).step c = (place.step c).moved bytes lines := by
  by_cases hc : c = '\n'
  · rw [step, step, if_pos hc, if_pos hc]
    simp only [moved, mk.injEq, and_true]
    omega
  · rw [step, step, if_neg hc, if_neg hc]
    simp only [moved, mk.injEq, and_true]
    omega

/-- Moving a place commutes with passing a text. -/
theorem Place.advance_moved (place : Place) (text : List Char) :
    (place.moved bytes lines).advance text = (place.advance text).moved bytes lines := by
  induction text generalizing place with
  | nil => rfl
  | cons c text ih => rw [advance_cons, advance_cons, step_moved, ih]

/-- A text is cut into the same tokens at any place, and ends in the same fault if it has one. -/
theorem tokenizeFrom_moved (front found : List Span) (place : Place) (cs : List Char) :
    tokenizeFrom (found.map (Span.moved bytes lines) ++ front) (place.moved bytes lines) cs =
      match tokenizeFrom found place cs with
      | .ok spans => .ok (front.reverse ++ spans.map (Span.moved bytes lines))
      | .error (.parse line column cause) => .error (.parse (line + lines) column cause)
      | .error fault => .error fault := by
  induction cs using piece_induction generalizing found place with
  | nil =>
    rw [tokenizeFrom, tokenizeFrom]
    simp
  | fault c cs fault hpiece =>
    rw [tokenizeFrom_cons_error hpiece, tokenizeFrom_cons_error hpiece, Place.advance_moved]
    rfl
  | piece c cs piece hpiece ih =>
    have hsize : ∀ next : Place,
        (next.moved bytes lines).offset - (place.moved bytes lines).offset =
          next.offset - place.offset := fun next => Nat.add_sub_add_right _ _ _
    rw [tokenizeFrom_cons_ok hpiece, tokenizeFrom_cons_ok hpiece, Place.advance_moved]
    cases htoken : piece.token with
    | none => exact ih found _
    | some token =>
      dsimp only
      rw [hsize]
      exact ih (⟨token, place, _⟩ :: found) _

end Moved

/-- Every character takes up its bytes, and a newline is one byte. -/
theorem Place.offset_advance (place : Place) (text : List Char) :
    (place.advance text).offset = place.offset + String.utf8Len text := by
  induction text generalizing place with
  | nil => rfl
  | cons c text ih =>
    have hstep : (place.step c).offset = place.offset + c.utf8Size := by
      by_cases hc : c = '\n'
      · rw [step, if_pos hc, hc]
        rfl
      · rw [step, if_neg hc]
    rw [advance_cons, ih, hstep, String.utf8Len_cons]
    omega

/-- The place behind a text and a newline is the start of a line, so it is the start of the whole
text, moved. -/
theorem Place.start_advance_newline (text : String) :
    start.advance (text.toList ++ ['\n']) =
      start.moved (text.utf8ByteSize + 1) (text.toList.count '\n' + 1) := by
  have hadvance : ∀ (cs : List Char) (place : Place), place.advance (cs ++ ['\n']) =
      ⟨place.offset + String.utf8Len cs + 1, place.line + cs.count '\n' + 1, 1⟩ := by
    intro cs
    induction cs with
    | nil => intro place; rfl
    | cons c cs ih =>
      intro place
      rw [List.cons_append, advance_cons, ih, step]
      by_cases hc : c = '\n'
      · have hsize : c.utf8Size = 1 := by rw [hc]; rfl
        rw [if_pos hc, String.utf8Len_cons, hsize, hc, List.count_cons_self]
        congr 1 <;> (dsimp only; omega)
      · rw [if_neg hc, String.utf8Len_cons, List.count_cons_of_ne hc]
        congr 1
        dsimp only
        omega
  have hsize : text.utf8ByteSize = String.utf8Len text.toList := by
    rw [← String.utf8ByteSize_ofList, String.ofList_toList]
  rw [hadvance, hsize, start, moved, Nat.add_assoc, Nat.add_assoc]

/-- A text that cannot be cut into tokens has a place where it goes wrong. -/
theorem tokenizeFrom_eq_error {found : List Span} {place : Place} {cs : List Char} {fault : Fault}
    (h : tokenizeFrom found place cs = .error fault) :
    ∃ line column cause, fault = .parse line column cause := by
  induction cs using piece_induction generalizing found place with
  | nil =>
    rw [tokenizeFrom] at h
    cases h
  | fault c cs cause hpiece =>
    rw [tokenizeFrom_cons_error hpiece] at h
    cases h
    exact ⟨_, _, _, rfl⟩
  | piece c cs piece hpiece ih =>
    rw [tokenizeFrom_cons_ok hpiece] at h
    cases htoken : piece.token with
    | none =>
      simp only [htoken] at h
      exact ih h
    | some token =>
      simp only [htoken] at h
      exact ih h

/-- The tokens of two texts with a newline between them are those of the first and those of the
second, moved behind the first. -/
theorem tokenize_seam {text : String} {spans : List Span} (h : tokenize text = .ok spans)
    (other : String) :
    ∃ front, SameTokens front spans ∧ tokenize (text ++ "\n" ++ other) =
      match tokenize other with
      | .ok others => .ok (front ++
          others.map (Span.moved (text.utf8ByteSize + 1) (text.toList.count '\n' + 1)))
      | .error (.parse line column cause) =>
        .error (.parse (line + (text.toList.count '\n' + 1)) column cause)
      | .error fault => .error fault := by
  obtain ⟨front, hfront, htext⟩ := tokenizeFrom_seam h rfl other.toList
  have hmoved := tokenizeFrom_moved (text.utf8ByteSize + 1) (text.toList.count '\n' + 1)
    front.reverse [] .start other.toList
  have htoList : (text ++ "\n" ++ other).toList = text.toList ++ '\n' :: other.toList := by
    rw [String.toList_append, String.toList_append, List.append_assoc]
    rfl
  rw [List.reverse_reverse, List.map_nil, List.nil_append] at hmoved
  refine ⟨front, hfront, ?_⟩
  rw [tokenize, htoList, htext, Place.start_advance_newline, hmoved]
  rfl

end MailFilter.Script
