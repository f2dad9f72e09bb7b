import MailFilter.Fault
import MailFilter.Text.Ascii
import MailFilter.Text.Blank

/-!
# Cutting a script into tokens

The lexer reads the text from its front. `firstPiece` takes the first piece, which is either a
stretch to skip (white space or a comment) or one token, and says which characters it consists of
and which follow. The characters of the pieces, put one after the other, are the whole text
(`Piece.text_append_rest`), so the places of the tokens follow from the pieces alone.
-/

namespace MailFilter.Script

open Ascii (isSpace isDigit isLetter isWordChar)

/-- The front of a text: the token it spells, or none for a stretch to skip, the characters of
that piece, and those after it. -/
structure Piece where
  token : Option Token
  text : List Char
  rest : List Char

/-- Why no piece can be taken: the cause, and the characters before the place it points at. -/
structure LexFault where
  cause : ParseCause
  before : List Char

/-- The token of a character that is a token by itself. -/
def punctuation? : Char → Option Token
  | ';' => some .semicolon
  | ',' => some .comma
  | '(' => some .leftParen
  | ')' => some .rightParen
  | '{' => some .leftBrace
  | '}' => some .rightBrace
  | '[' => some .leftBracket
  | ']' => some .rightBracket
  | _ => none

/-- The rest of a block comment: what is read so far, in reverse, grows up to the closing mark. -/
def blockComment (read : List Char) : List Char → Option (List Char × List Char)
  | '*' :: '/' :: rest => some (('/' :: '*' :: read).reverse, rest)
  | c :: rest => blockComment (c :: read) rest
  | [] => none

/-- The rest of a quoted string: its contents and the characters read, both in reverse so far. A
backslash is dropped and what follows it is kept, even another backslash or a quote. -/
def quotedString (contents read : List Char) :
    List Char → Option (List Char × List Char × List Char)
  | '"' :: rest => some (contents.reverse, ('"' :: read).reverse, rest)
  | '\\' :: c :: rest => quotedString (c :: contents) (c :: '\\' :: read) rest
  | c :: rest => quotedString (c :: contents) (c :: read) rest
  | [] => none

/-- The first line of a text, its newline not counted, and the part of the text it takes up. -/
structure Line where
  contents : List Char
  text : List Char
  rest : List Char

/-- Cuts a text after its first newline, or at its end. -/
def firstLine (cs : List Char) : Line :=
  let contents := cs.takeWhile (· != '\n')
  match cs.dropWhile (· != '\n') with
  | [] => ⟨contents, contents, []⟩
  | c :: rest => ⟨contents, contents ++ [c], rest⟩

/-- A line of a multi-line string as it counts: carriage returns at its end are dropped. -/
def Line.trimmed (line : Line) : List Char :=
  Text.dropTrailing (· == '\r') line.contents

/-- A line without the dot that protects a dot at its front. -/
def unstuff : List Char → List Char
  | '.' :: '.' :: line => '.' :: line
  | line => line

/-- The first line and what is behind it are all of the text. -/
theorem firstLine_text_append_rest (cs : List Char) :
    (firstLine cs).text ++ (firstLine cs).rest = cs := by
  have h := List.takeWhile_append_dropWhile (p := (· != '\n')) (l := cs)
  unfold firstLine
  split <;> simp_all

/-- Behind the first line there is less text. -/
theorem firstLine_rest_length_lt {cs : List Char} (h : cs ≠ []) :
    (firstLine cs).rest.length < cs.length := by
  have happend := congrArg List.length (firstLine_text_append_rest cs)
  have htext : (firstLine cs).text ≠ [] := by
    intro hempty
    unfold firstLine at hempty
    split at hempty
    · next hdrop =>
      have hall := List.takeWhile_append_dropWhile (p := (· != '\n')) (l := cs)
      simp_all
    · simp at hempty
  have hpos := List.length_pos_iff.mpr htext
  simp only [List.length_append] at happend
  omega

/-- The lines of a multi-line string up to the one that holds a single dot: the contents and the
characters read, both in reverse so far. The last line needs no newline, but the dot must come. -/
def multilineBody (contents read : List Char) (cs : List Char) :
    Option (List Char × List Char × List Char) :=
  if _h : cs = [] then none
  else
    let line := firstLine cs
    let read := line.text.reverseAux read
    if line.trimmed = ['.'] then some (contents.reverse, read.reverse, line.rest)
    else
      multilineBody ('\n' :: '\r' :: (unstuff line.trimmed).reverseAux contents) read line.rest
termination_by cs.length
decreasing_by exact firstLine_rest_length_lt ‹_›

/-- The characters of the line that opens a multi-line string, after `text:`, up to the first that
is neither white space nor part of a comment. -/
def openerBlank (line : List Char) : List Char :=
  line.takeWhile isSpace

/-- Whether the rest of the line that opens a multi-line string may stand there: white space,
perhaps followed by a comment. -/
def isOpenerRest (line : List Char) : Bool :=
  match line.dropWhile isSpace with
  | [] => true
  | c :: _ => c == '#'

/-- The characters after `text:` if the text begins with that word, in any case of its letters. -/
def afterTextMark? (cs : List Char) : Option (List Char × List Char) :=
  let mark := cs.take 5
  if mark.map Ascii.lowerChar = ['t', 'e', 'x', 't', ':'] then some (mark, cs.drop 5) else none

/-- A multi-line string, given its mark and what follows that. -/
def multilineString (mark after : List Char) : Except LexFault Piece :=
  let line := firstLine after
  if isOpenerRest line.contents then
    match multilineBody [] (mark ++ line.text).reverse line.rest with
    | some (contents, text, rest) => .ok ⟨some (.multiline (String.ofList contents)), text, rest⟩
    | none => .error ⟨.openMultiline, []⟩
  else .error ⟨.textAfterOpener, mark ++ openerBlank line.contents⟩

/-- A piece that consists of the characters at the front that satisfy `p`. -/
def pieceWhile (p : Char → Bool) (first : List Char) (token : List Char → Option Token)
    (rest : List Char) : Piece :=
  let text := first ++ rest.takeWhile p
  ⟨token text, text, rest.dropWhile p⟩

/-- A number: digits and perhaps a scale letter. -/
def numberPiece (cs : List Char) : Piece :=
  let digits := cs.takeWhile isDigit
  match cs.dropWhile isDigit with
  | c :: rest =>
    if c.toLower = 'k' ∨ c.toLower = 'm' ∨ c.toLower = 'g' then
      ⟨some (.number (String.ofList (digits ++ [c]))), digits ++ [c], rest⟩
    else ⟨some (.number (String.ofList digits)), digits, c :: rest⟩
  | [] => ⟨some (.number (String.ofList digits)), digits, []⟩

/-- The first piece of the text `c :: cs`. -/
def firstPiece (c : Char) (cs : List Char) : Except LexFault Piece :=
  if isSpace c then .ok ⟨none, [c], cs⟩
  else
    match punctuation? c with
    | some token => .ok ⟨some token, [c], cs⟩
    | none =>
      if c = '#' then .ok (pieceWhile (· != '\n') [c] (fun _ => none) cs)
      else if c = '/' ∧ cs.head? = some '*' then
        match blockComment ['*', '/'] cs.tail with
        | some (text, rest) => .ok ⟨none, text, rest⟩
        | none => .error ⟨.openComment, []⟩
      else if c = '"' then
        match quotedString [] ['"'] cs with
        | some (contents, text, rest) => .ok ⟨some (.quoted (String.ofList contents)), text, rest⟩
        | none => .error ⟨.openString, []⟩
      else
        match afterTextMark? (c :: cs) with
        | some (mark, after) => multilineString mark after
        | none =>
          if c = ':' then
            match cs.takeWhile isWordChar with
            | [] => .error ⟨.emptyTag, []⟩
            | word =>
              .ok ⟨some (.tag (Ascii.lower (String.ofList (c :: word)))), c :: word,
                cs.dropWhile isWordChar⟩
          else if isDigit c then .ok (numberPiece (c :: cs))
          else if isLetter c || c == '_' then
            .ok (pieceWhile isWordChar [c] (fun text => some (.identifier (String.ofList text))) cs)
          else .error ⟨.unexpectedChar c, []⟩

/-- A comment and what is behind it are all of the text. -/
theorem blockComment_append {read cs text rest : List Char}
    (h : blockComment read cs = some (text, rest)) : text ++ rest = read.reverse ++ cs := by
  fun_induction blockComment read cs with
  | case1 read tail =>
    simp only [Option.some.injEq, Prod.mk.injEq] at h
    simp [← h.1, ← h.2]
  | case2 read c tail _ ih => simpa using ih h
  | case3 => simp at h

/-- A quoted string and what is behind it are all of the text. -/
theorem quotedString_append {contents read cs : List Char} {string text rest : List Char}
    (h : quotedString contents read cs = some (string, text, rest)) :
    text ++ rest = read.reverse ++ cs := by
  fun_induction quotedString contents read cs with
  | case1 contents read tail =>
    simp only [Option.some.injEq, Prod.mk.injEq] at h
    simp [← h.2.1, ← h.2.2]
  | case2 contents read c tail ih => simpa using ih h
  | case3 contents read c tail _ _ ih => simpa using ih h
  | case4 => simp at h

/-- The body of a multi-line string and what is behind it are all of the text. -/
theorem multilineBody_append {contents read cs : List Char} {string text rest : List Char}
    (h : multilineBody contents read cs = some (string, text, rest)) :
    text ++ rest = read.reverse ++ cs := by
  fun_induction multilineBody contents read cs with
  | case1 => simp at h
  | case2 contents read cs hne line read' hdot =>
    have happend : line.text ++ line.rest = cs := firstLine_text_append_rest cs
    simp only [Option.some.injEq, Prod.mk.injEq] at h
    simp [← h.2.1, ← h.2.2, read', List.reverseAux_eq, happend]
  | case3 contents read cs hne line read' hdot ih =>
    have happend : line.text ++ line.rest = cs := firstLine_text_append_rest cs
    rw [ih h]
    simp [read', List.reverseAux_eq, happend]

/-- The characters of the first piece and those after it are the whole text. -/
theorem firstPiece_append {c : Char} {cs : List Char} {piece : Piece}
    (h : firstPiece c cs = .ok piece) : piece.text ++ piece.rest = c :: cs := by
  unfold firstPiece at h
  split at h
  · cases h; rfl
  split at h
  · cases h; rfl
  split at h
  · cases h; simp [pieceWhile]
  split at h
  · next hslash =>
    split at h
    · next text rest hcomment =>
      cases h
      have happend := blockComment_append hcomment
      obtain ⟨hc, hhead⟩ := hslash
      cases cs with
      | nil => simp at hhead
      | cons d ds => simp_all
    · cases h
  split at h
  · next hquote =>
    split at h
    · next hstring =>
      cases h
      simpa [hquote] using quotedString_append hstring
    · cases h
  split at h
  · next mark after hmark =>
    have hcut : mark ++ after = c :: cs := by
      simp only [afterTextMark?] at hmark
      split at hmark
      · cases hmark; simp
      · cases hmark
    simp only [multilineString] at h
    split at h
    · split at h
      · next hbody =>
        cases h
        have happend := multilineBody_append hbody
        simp only [List.reverse_reverse, List.append_assoc, firstLine_text_append_rest] at happend
        rw [happend, hcut]
      · cases h
    · cases h
  split at h
  · split at h
    · cases h
    · next hword =>
      cases h
      simp only [List.cons_append, List.takeWhile_append_dropWhile]
  split at h
  · next hdigit =>
    cases h
    have happend := List.takeWhile_append_dropWhile (p := isDigit) (l := c :: cs)
    simp only [numberPiece]
    split
    · split <;> simp_all
    · simp_all
  split at h
  · cases h; simp [pieceWhile]
  · cases h

/-- Behind a comment there is less text. -/
theorem blockComment_length {read cs text rest : List Char}
    (h : blockComment read cs = some (text, rest)) : rest.length < cs.length := by
  fun_induction blockComment read cs with
  | case1 read tail =>
    simp only [Option.some.injEq, Prod.mk.injEq] at h
    simp only [← h.2, List.length_cons]
    omega
  | case2 read c tail _ ih => exact Nat.lt_succ_of_lt (ih h)
  | case3 => simp at h

/-- Behind a quoted string there is less text. -/
theorem quotedString_length {contents read cs : List Char} {string text rest : List Char}
    (h : quotedString contents read cs = some (string, text, rest)) : rest.length < cs.length := by
  fun_induction quotedString contents read cs with
  | case1 contents read tail =>
    simp only [Option.some.injEq, Prod.mk.injEq] at h
    simp [← h.2.2]
  | case2 contents read c tail ih => exact Nat.lt_succ_of_lt (Nat.lt_succ_of_lt (ih h))
  | case3 contents read c tail _ _ ih => exact Nat.lt_succ_of_lt (ih h)
  | case4 => simp at h

/-- Behind the body of a multi-line string there is less text. -/
theorem multilineBody_length {contents read cs : List Char} {string text rest : List Char}
    (h : multilineBody contents read cs = some (string, text, rest)) : rest.length < cs.length := by
  fun_induction multilineBody contents read cs with
  | case1 => simp at h
  | case2 contents read cs hne line read' hdot =>
    simp only [Option.some.injEq, Prod.mk.injEq] at h
    rw [← h.2.2]
    exact firstLine_rest_length_lt hne
  | case3 contents read cs hne line read' hdot ih =>
    exact Nat.lt_trans (ih h) (firstLine_rest_length_lt hne)

/-- The first piece takes at least one character, so that the lexer always moves on. -/
theorem firstPiece_rest_length {c : Char} {cs : List Char} {piece : Piece}
    (h : firstPiece c cs = .ok piece) : piece.rest.length < (c :: cs).length := by
  have hdrop (p : Char → Bool) : (cs.dropWhile p).length < (c :: cs).length :=
    Nat.lt_succ_of_le (List.dropWhile_sublist p).length_le
  unfold firstPiece at h
  split at h
  · cases h; simp
  split at h
  · cases h; simp
  split at h
  · cases h; exact hdrop _
  split at h
  · split at h
    · next hcomment =>
      cases h
      have hlength := blockComment_length hcomment
      simp only [List.length_tail, List.length_cons] at hlength ⊢
      omega
    · cases h
  split at h
  · split at h
    · next hstring =>
      cases h
      exact Nat.lt_succ_of_lt (quotedString_length hstring)
    · cases h
  split at h
  · next mark after hmark =>
    have hafter : after.length ≤ (c :: cs).length := by
      simp only [afterTextMark?] at hmark
      split at hmark
      · cases hmark; simp only [List.length_drop]; omega
      · cases hmark
    simp only [multilineString] at h
    split at h
    · split at h
      · next hbody =>
        cases h
        have hlength := multilineBody_length hbody
        have happend := congrArg List.length (firstLine_text_append_rest after)
        simp only [List.length_append] at happend
        simp only
        omega
      · cases h
    · cases h
  split at h
  · split at h
    · cases h
    · cases h; exact hdrop _
  split at h
  · next hdigit =>
    cases h
    have hrest : ((c :: cs).dropWhile isDigit).length < (c :: cs).length := by
      simpa [List.dropWhile_cons, hdigit] using hdrop isDigit
    simp only [numberPiece]
    split
    · next heq =>
      rw [heq] at hrest
      split
      · exact Nat.lt_of_succ_lt hrest
      · exact hrest
    · simp
  split at h
  · cases h; exact hdrop _
  · cases h

/-- The tokens of the text `cs`, which begins at `place`, after those found before it, which are
in reverse. -/
def tokenizeFrom (found : List Span) (place : Place) (cs : List Char) :
    Except Fault (List Span) :=
  match cs with
  | [] => .ok found.reverse
  | c :: cs =>
    match _h : firstPiece c cs with
    | .error fault =>
      let spot := place.advance fault.before
      .error (.parse spot.line spot.column fault.cause)
    | .ok piece =>
      let next := place.advance piece.text
      match piece.token with
      | none => tokenizeFrom found next piece.rest
      | some token =>
        tokenizeFrom (⟨token, place, next.offset - place.offset⟩ :: found) next piece.rest
termination_by cs.length
decreasing_by all_goals exact firstPiece_rest_length ‹_›

/-- The tokens of a script, each with its place. -/
def tokenize (text : String) : Except Fault (List Span) :=
  tokenizeFrom [] .start text.toList

end MailFilter.Script
