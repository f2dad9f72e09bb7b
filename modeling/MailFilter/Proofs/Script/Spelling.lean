import MailFilter.Script.Lexer

/-!
# Tokens as they are written

Every token can be written down: a word or a number as it is, a quoted string with a backslash
before each quote and each backslash, a multi-line string with one more dot before each line that
begins with a dot. Tokens that are written one below the other are read back as they were, so none
of them takes in a character of its neighbour and none breaks off early.
-/

namespace MailFilter.Script

open Ascii (isSpace isDigit isLetter isWordChar lowerChar)

/-- A character that an identifier may begin with. -/
def isWordStart (c : Char) : Bool :=
  isLetter c || c == '_'

/-- A character that a tag may hold behind its colon. -/
def isTagChar (c : Char) : Bool :=
  ('a' ≤ c && c ≤ 'z') || isDigit c || c == '_'

/-- A letter that scales the number before it. -/
def isScale (c : Char) : Bool :=
  ['k', 'K', 'm', 'M', 'g', 'G'].contains c

/-- A line of a multi-line string, without its line end. A newline in it would end it early, and a
carriage return at its end would be taken for a part of the line end. -/
structure IsBodyLine (line : List Char) : Prop where
  newline_not_mem : '\n' ∉ line
  getLast?_ne : line.getLast? ≠ some '\r'

/-- The contents of a multi-line string with the given lines. -/
def bodyOfLines (lines : List (List Char)) : List Char :=
  lines.flatMap (· ++ ['\r', '\n'])

/-- A character of a quoted string as it is written between the quotes. -/
def escapeChar (c : Char) : List Char :=
  if c = '"' ∨ c = '\\' then ['\\', c] else [c]

/-- The contents of a multi-line string with one more dot before each line that begins with one.
The flag says that a line begins here. -/
def stuff (atStart : Bool) : List Char → List Char
  | [] => []
  | c :: cs => (if atStart && c == '.' then ['.', c] else [c]) ++ stuff (c == '\n') cs

namespace Token

/-- Whether the text of a token is such as a script can hold for a token of its kind. -/
def IsLexical : Token → Prop
  | tag text => ∃ name, name ≠ [] ∧ (∀ c ∈ name, isTagChar c) ∧ text = String.ofList (':' :: name)
  | identifier text => ∃ first name, isWordStart first ∧ (∀ c ∈ name, isWordChar c) ∧
      text = String.ofList (first :: name)
  | number text => ∃ digits, ∃ scale : Option Char, digits ≠ [] ∧ (∀ c ∈ digits, isDigit c) ∧
      (∀ c ∈ scale, isScale c) ∧ text = String.ofList (digits ++ scale.toList)
  | quoted _ => True
  | multiline text => ∃ lines, (∀ line ∈ lines, IsBodyLine line) ∧
      text = String.ofList (bodyOfLines lines)
  | semicolon | comma | leftParen | rightParen | leftBrace | rightBrace | leftBracket
  | rightBracket => True

/-- The characters that a token is written with. -/
def spelling : Token → List Char
  | tag text | identifier text | number text => text.toList
  | quoted text => '"' :: text.toList.flatMap escapeChar ++ ['"']
  | multiline text => ['t', 'e', 'x', 't', ':', '\n'] ++ stuff true text.toList ++ ['.']
  | semicolon => [';']
  | comma => [',']
  | leftParen => ['(']
  | rightParen => [')']
  | leftBrace => ['{']
  | rightBrace => ['}']
  | leftBracket => ['[']
  | rightBracket => [']']

/-- A text that spells some tokens, one to a line. -/
def spellAll (tokens : List Token) : List Char :=
  tokens.flatMap fun token => token.spelling ++ ['\n']

end Token

/-- A character of a class is not one that is outside it. -/
theorem ne_of_class {p : Char → Bool} {c d : Char} (hc : p c = true) (hd : p d = false) :
    c ≠ d := by
  rintro rfl
  rw [hc] at hd
  cases hd

/-- Word characters are ASCII characters, and come before the braces. -/
theorem toNat_lt_of_isWordChar {c : Char} (hc : isWordChar c = true) : c.toNat < 123 := by
  have hle : ∀ d : Char, c ≤ d → d.toNat < 123 → c.toNat < 123 := fun d hcd hd =>
    Nat.lt_of_le_of_lt (UInt32.le_iff_toNat_le.mp hcd) hd
  simp only [isWordChar, isLetter, isDigit, Bool.or_eq_true, Bool.and_eq_true, decide_eq_true_eq,
    beq_iff_eq] at hc
  rcases hc with ((⟨-, hz⟩ | ⟨-, hz⟩) | ⟨-, hz⟩) | rfl
  · exact hle 'z' hz (by decide)
  · exact hle 'Z' hz (by decide)
  · exact hle '9' hz (by decide)
  · decide

/-- The characters of a word are ASCII characters, so what holds of them can be checked one by
one. -/
theorem of_isWordChar (p : Char → Prop)
    (hall : ∀ n < 123, isWordChar (Char.ofNat n) = true → p (Char.ofNat n)) {c : Char}
    (hc : isWordChar c = true) : p c := by
  have hlt := toNat_lt_of_isWordChar hc
  rw [← Char.ofNat_toNat c] at hc ⊢
  exact hall c.toNat hlt hc

/-- No word character folds to a colon. -/
theorem lowerChar_ne_colon {c : Char} (hc : isWordChar c = true) : lowerChar c ≠ ':' :=
  of_isWordChar (lowerChar · ≠ ':') (by decide) hc

/-- What can begin a word is part of one. -/
theorem isWordChar_of_isWordStart {c : Char} (hc : isWordStart c = true) : isWordChar c = true := by
  simp only [isWordStart, isWordChar, Bool.or_eq_true] at hc ⊢
  exact hc.imp_left .inl

/-- A digit is part of a word. -/
theorem isWordChar_of_isDigit {c : Char} (hc : isDigit c = true) : isWordChar c = true := by
  simp [isWordChar, hc]

/-- What is part of a tag is part of a word. -/
theorem isWordChar_of_isTagChar {c : Char} (hc : isTagChar c = true) : isWordChar c = true := by
  simp only [isTagChar, isWordChar, isLetter, Bool.or_eq_true] at hc ⊢
  exact hc.imp_left (·.imp_left .inl)

/-- What can begin a word is no digit. -/
theorem isDigit_of_isWordStart {c : Char} (hc : isWordStart c = true) : isDigit c = false :=
  of_isWordChar (fun c => isWordStart c = true → isDigit c = false) (by decide)
    (isWordChar_of_isWordStart hc) hc

/-- What is part of a tag is in lower case. -/
theorem lowerChar_of_isTagChar {c : Char} (hc : isTagChar c = true) : lowerChar c = c :=
  of_isWordChar (fun c => isTagChar c = true → lowerChar c = c) (by decide)
    (isWordChar_of_isTagChar hc) hc

section

variable {α : Type} {p : α → Bool} {front back : List α} {stop : α}

/-- Characters of a class are taken up to one that is outside it. -/
theorem takeWhile_append_stop (hfront : ∀ x ∈ front, p x) (hstop : p stop = false) :
    (front ++ stop :: back).takeWhile p = front := by
  rw [List.takeWhile_append_of_pos hfront, List.takeWhile_cons_of_neg (by simp [hstop]),
    List.append_nil]

/-- Characters of a class are dropped up to one that is outside it. -/
theorem dropWhile_append_stop (hfront : ∀ x ∈ front, p x) (hstop : p stop = false) :
    (front ++ stop :: back).dropWhile p = stop :: back := by
  rw [List.dropWhile_append_of_pos hfront, List.dropWhile_cons_of_neg (by simp [hstop])]

end

/-- The mark of a multi-line string does not reach over a newline. -/
theorem take_ne_textMark {cs : List Char} (hlength : cs.length < 5) (rest : List Char) :
    ((cs ++ '\n' :: rest).take 5).map lowerChar ≠ ['t', 'e', 'x', 't', ':'] := by
  intro hmark
  have hmem : '\n' ∈ (cs ++ '\n' :: rest).take 5 := by
    obtain ⟨n, hn⟩ := Nat.exists_eq_add_of_lt hlength
    rw [List.take_append, List.mem_append, show 5 - cs.length = n + 1 by omega]
    exact .inr List.mem_cons_self
  have hnewline := List.mem_map_of_mem (f := lowerChar) hmem
  rw [hmark] at hnewline
  revert hnewline
  decide

/-- A word is not the mark of a multi-line string, because the newline behind it comes too early or
a character of its own stands where the mark has its colon. -/
theorem afterTextMark?_word {word : List Char} (hword : ∀ c ∈ word, isWordChar c)
    (rest : List Char) : afterTextMark? (word ++ '\n' :: rest) = none := by
  refine if_neg fun hmark => ?_
  by_cases hlength : word.length < 5
  · exact take_ne_textMark hlength rest hmark
  · rw [List.take_append_of_le_length (by omega)] at hmark
    have hcolon : ':' ∈ (word.take 5).map lowerChar := by
      rw [hmark]
      decide
    obtain ⟨c, hc, hfold⟩ := List.mem_map.mp hcolon
    exact lowerChar_ne_colon (hword c (List.mem_of_mem_take hc)) hfold

/-- The mark of a multi-line string begins with a `t`. -/
theorem afterTextMark?_other {c : Char} (hc : lowerChar c ≠ 't') (cs : List Char) :
    afterTextMark? (c :: cs) = none :=
  if_neg fun hmark => hc (List.cons.inj hmark).1

/-- A character of a word begins a number or an identifier, unless it begins the mark of a
multi-line string. -/
theorem firstPiece_word {c : Char} {cs : List Char} (hc : isWordChar c = true)
    (hmark : afterTextMark? (c :: cs) = none) :
    firstPiece c cs =
      if isDigit c then .ok (numberPiece (c :: cs))
      else if isWordStart c then
        .ok (pieceWhile isWordChar [c] (fun text => some (.identifier (String.ofList text))) cs)
      else .error ⟨.unexpectedChar c, []⟩ := by
  have hspace : isSpace c = false := of_isWordChar (isSpace · = false) (by decide) hc
  have hpunctuation : punctuation? c = none := of_isWordChar (punctuation? · = none) (by decide) hc
  have hne : ∀ d, isWordChar d = false → c ≠ d := fun d hd => ne_of_class hc hd
  simp only [firstPiece, hspace, hpunctuation, hmark, hne '#' (by decide), hne '/' (by decide),
    hne '"' (by decide), hne ':' (by decide), false_and, if_false, Bool.false_eq_true]
  rfl

/-- A text begins with a token of the given characters: it is read off whatever stands before. -/
def Begins (token : Token) (front rest : List Char) : Prop :=
  ∃ c cs, front ++ rest = c :: cs ∧ firstPiece c cs = .ok ⟨some token, front, rest⟩

/-- An identifier before a newline is the first token. -/
theorem begins_identifier {first : Char} {name : List Char} (hfirst : isWordStart first = true)
    (hname : ∀ c ∈ name, isWordChar c) (rest : List Char) :
    Begins (.identifier (String.ofList (first :: name))) (first :: name) ('\n' :: rest) := by
  have hword : ∀ c ∈ first :: name, isWordChar c :=
    List.forall_mem_cons.mpr ⟨isWordChar_of_isWordStart hfirst, hname⟩
  refine ⟨first, name ++ '\n' :: rest, rfl, ?_⟩
  have hmark : afterTextMark? (first :: (name ++ '\n' :: rest)) = none :=
    afterTextMark?_word hword rest
  rw [firstPiece_word (hword first List.mem_cons_self) hmark, isDigit_of_isWordStart hfirst,
    if_neg Bool.false_ne_true, if_pos hfirst]
  simp only [pieceWhile, takeWhile_append_stop hname (show isWordChar '\n' = false by decide),
    dropWhile_append_stop hname (show isWordChar '\n' = false by decide), List.singleton_append]

/-- A number is read up to what is no digit, and with that if it is a scale letter. -/
theorem numberPiece_append {digits : List Char} {stop : Char} (hdigits : ∀ c ∈ digits, isDigit c)
    (hstop : isDigit stop = false) (rest : List Char) :
    numberPiece (digits ++ stop :: rest) =
      if stop.toLower = 'k' ∨ stop.toLower = 'm' ∨ stop.toLower = 'g' then
        ⟨some (.number (String.ofList (digits ++ [stop]))), digits ++ [stop], rest⟩
      else ⟨some (.number (String.ofList digits)), digits, stop :: rest⟩ := by
  simp only [numberPiece, takeWhile_append_stop hdigits hstop, dropWhile_append_stop hdigits hstop]

/-- A number before a newline is the first token. -/
theorem begins_number {digits : List Char} {scale : Option Char} (hne : digits ≠ [])
    (hdigits : ∀ c ∈ digits, isDigit c) (hscale : ∀ c ∈ scale, isScale c) (rest : List Char) :
    Begins (.number (String.ofList (digits ++ scale.toList))) (digits ++ scale.toList)
      ('\n' :: rest) := by
  obtain ⟨first, others, rfl⟩ := List.exists_cons_of_ne_nil hne
  have hfirst := hdigits first List.mem_cons_self
  have hmark : lowerChar first ≠ 't' :=
    of_isWordChar (fun c => isDigit c = true → lowerChar c ≠ 't') (by decide)
      (isWordChar_of_isDigit hfirst) hfirst
  refine ⟨first, others ++ scale.toList ++ '\n' :: rest, rfl, ?_⟩
  rw [firstPiece_word (isWordChar_of_isDigit hfirst) (afterTextMark?_other hmark _), if_pos hfirst]
  cases scale with
  | none =>
    have hpiece := numberPiece_append hdigits (show isDigit '\n' = false by decide) rest
    rw [if_neg (by decide)] at hpiece
    simpa using hpiece
  | some letter =>
    have hletter := hscale letter rfl
    have hdigit : isDigit letter = false ∧
        (letter.toLower = 'k' ∨ letter.toLower = 'm' ∨ letter.toLower = 'g') := by
      simp only [isScale, List.contains_eq_mem, List.mem_cons, List.not_mem_nil, or_false,
        decide_eq_true_eq] at hletter
      rcases hletter with rfl | rfl | rfl | rfl | rfl | rfl <;> decide
    have hpiece := numberPiece_append hdigits hdigit.1 ('\n' :: rest)
    rw [if_pos hdigit.2] at hpiece
    simpa using hpiece

/-- A tag before a newline is the first token. -/
theorem begins_tag {name : List Char} (hne : name ≠ []) (hname : ∀ c ∈ name, isTagChar c)
    (rest : List Char) :
    Begins (.tag (String.ofList (':' :: name))) (':' :: name) ('\n' :: rest) := by
  have hword : ∀ c ∈ name, isWordChar c := fun c hc => isWordChar_of_isTagChar (hname c hc)
  have hlower : Ascii.lower (String.ofList (':' :: name)) = String.ofList (':' :: name) := by
    rw [Ascii.lower, String.toList_ofList, List.map_cons,
      List.map_congr_left fun c hc => lowerChar_of_isTagChar (hname c hc), List.map_id']
    rfl
  have hmark := afterTextMark?_other (show lowerChar ':' ≠ 't' by decide) (name ++ '\n' :: rest)
  refine ⟨':', name ++ '\n' :: rest, rfl, ?_⟩
  have hspace : isSpace ':' = false := rfl
  have hpunctuation : punctuation? ':' = none := rfl
  simp only [firstPiece, hspace, hpunctuation, hmark,
    takeWhile_append_stop hword (show isWordChar '\n' = false by decide),
    dropWhile_append_stop hword (show isWordChar '\n' = false by decide)]
  cases name with
  | nil => exact absurd rfl hne
  | cons first others =>
    rw [hlower]
    rfl

/-- A quoted string ends at the quote behind its contents, since no other one is without its
backslash. -/
theorem quotedString_escaped (cs contents read rest : List Char) :
    quotedString contents read (cs.flatMap escapeChar ++ '"' :: rest) =
      some (contents.reverse ++ cs, read.reverse ++ cs.flatMap escapeChar ++ ['"'], rest) := by
  induction cs generalizing contents read with
  | nil => simp [quotedString]
  | cons c cs ih =>
    rw [List.flatMap_cons]
    by_cases hc : c = '"' ∨ c = '\\'
    · rw [escapeChar, if_pos hc]
      simp [quotedString, ih]
    · rw [escapeChar, if_neg hc]
      rw [not_or] at hc
      simp [quotedString, ih, hc]

/-- A quoted string before a newline is the first token, with its special characters escaped. -/
theorem begins_quoted (text : String) (rest : List Char) :
    Begins (.quoted text) ('"' :: text.toList.flatMap escapeChar ++ ['"']) ('\n' :: rest) := by
  refine ⟨'"', text.toList.flatMap escapeChar ++ '"' :: '\n' :: rest, by simp, ?_⟩
  have hread := quotedString_escaped text.toList [] ['"'] ('\n' :: rest)
  have hspace : isSpace '"' = false := rfl
  have hpunctuation : punctuation? '"' = none := rfl
  simp [firstPiece, hspace, hpunctuation, hread]

/-- A line of a multi-line string as it is written. -/
def stuffLine (line : List Char) : List Char :=
  if line.head? = some '.' then '.' :: line else line

/-- The lines of a multi-line string as they are written. -/
def stuffedLines (lines : List (List Char)) : List Char :=
  lines.flatMap fun line => stuffLine line ++ ['\r', '\n']

/-- In the middle of a line nothing is stuffed up to its end. -/
theorem stuff_false_append {line : List Char} (hline : '\n' ∉ line) (rest : List Char) :
    stuff false (line ++ '\n' :: rest) = line ++ '\n' :: stuff true rest := by
  induction line with
  | nil => simp [stuff]
  | cons c line ih =>
    rw [List.mem_cons, not_or] at hline
    obtain ⟨hc, hline⟩ := hline
    simp [stuff, ih hline, beq_false_of_ne (Ne.symm hc)]

/-- At the beginning of a line that line is stuffed, and the others behind it. -/
theorem stuff_true_append {line : List Char} (hline : '\n' ∉ line) (rest : List Char) :
    stuff true (line ++ '\n' :: rest) = stuffLine line ++ '\n' :: stuff true rest := by
  cases line with
  | nil => simp [stuff, stuffLine]
  | cons c line =>
    rw [List.mem_cons, not_or] at hline
    obtain ⟨hc, hline⟩ := hline
    by_cases hdot : c = '.' <;>
      simp [stuff, stuffLine, stuff_false_append hline, beq_false_of_ne (Ne.symm hc), hdot]

/-- A carriage return at the end of a line does not change how it is stuffed. -/
theorem stuffLine_append_return (line : List Char) :
    stuffLine (line ++ ['\r']) = stuffLine line ++ ['\r'] := by
  cases line with
  | nil => rfl
  | cons c line => by_cases hdot : c = '.' <;> simp [stuffLine, hdot]

/-- A body is stuffed line by line. -/
theorem stuff_bodyOfLines {lines : List (List Char)} (hlines : ∀ line ∈ lines, IsBodyLine line) :
    stuff true (bodyOfLines lines) = stuffedLines lines := by
  induction lines with
  | nil => rfl
  | cons line lines ih =>
    rw [List.forall_mem_cons] at hlines
    have hnewline : '\n' ∉ line ++ ['\r'] := by
      simpa using hlines.1.newline_not_mem
    have hcut : bodyOfLines (line :: lines) = (line ++ ['\r']) ++ '\n' :: bodyOfLines lines := by
      simp [bodyOfLines]
    rw [hcut, stuff_true_append hnewline, ih hlines.2, stuffLine_append_return]
    simp [stuffedLines]

/-- A stuffed line of a body is still one line. -/
theorem newline_not_mem_stuffLine {line : List Char} (hline : IsBodyLine line) :
    '\n' ∉ stuffLine line := by
  rw [stuffLine]
  split
  · rw [List.mem_cons, not_or]
    exact ⟨by decide, hline.newline_not_mem⟩
  · exact hline.newline_not_mem

/-- A stuffed line of a body does not end with a carriage return. -/
theorem getLast?_stuffLine {line : List Char} (hline : IsBodyLine line) :
    (stuffLine line).getLast? ≠ some '\r' := by
  cases line with
  | nil => exact hline.getLast?_ne
  | cons c line =>
    rw [stuffLine]
    split
    · rw [List.getLast?_cons_cons]
      exact hline.getLast?_ne
    · exact hline.getLast?_ne

/-- The line that holds a single dot ends the string, and no line of the contents is written so. -/
theorem stuffLine_ne_dot (line : List Char) : stuffLine line ≠ ['.'] := by
  rw [stuffLine]
  split
  · next hdot =>
    rintro ⟨⟩
    cases hdot
  · next hdot =>
    rintro rfl
    exact hdot rfl

/-- A stuffed line loses the dot again. -/
theorem unstuff_stuffLine (line : List Char) : unstuff (stuffLine line) = line := by
  rw [stuffLine]
  split
  · next hdot =>
    obtain ⟨rest, rfl⟩ := List.head?_eq_some_iff.mp hdot
    rfl
  · next hdot =>
    unfold unstuff
    split
    · exact absurd rfl hdot
    · rfl

/-- The first line of a text ends at the first newline. -/
theorem firstLine_append {contents : List Char} (hcontents : '\n' ∉ contents) (rest : List Char) :
    firstLine (contents ++ '\n' :: rest) = ⟨contents, contents ++ ['\n'], rest⟩ := by
  have hfront : ∀ c ∈ contents, (c != '\n') = true := fun c hc => by
    simpa using ne_of_mem_of_not_mem hc hcontents
  simp only [firstLine, takeWhile_append_stop hfront (show ('\n' != '\n') = false by decide),
    dropWhile_append_stop hfront (show ('\n' != '\n') = false by decide)]

/-- A stuffed line loses the carriage return at its end and nothing else. -/
theorem trimmed_stuffLine {line : List Char} (hline : IsBodyLine line) (text rest : List Char) :
    (Line.mk (stuffLine line ++ ['\r']) text rest).trimmed = stuffLine line := by
  have hlast := getLast?_stuffLine hline
  have hdrop : Text.dropTrailing (· == '\r') (stuffLine line ++ ['\r']) =
      Text.dropTrailing (· == '\r') (stuffLine line) := by
    simp [Text.dropTrailing]
  rw [Line.trimmed, hdrop]
  obtain hnil | ⟨front, last, hcut⟩ := List.eq_nil_or_concat (stuffLine line)
  · rw [hnil]
    rfl
  · rw [hcut, List.concat_eq_append] at hlast ⊢
    have hreturn : last ≠ '\r' := by simpa using hlast
    exact Text.dropTrailing_eq_self_of_last (beq_eq_false_iff_ne.mpr hreturn)

/-- The stuffed lines of a body are read back as the body, up to the dot that ends it. -/
theorem multilineBody_stuffedLines {lines : List (List Char)}
    (hlines : ∀ line ∈ lines, IsBodyLine line) (contents read rest : List Char) :
    multilineBody contents read (stuffedLines lines ++ '.' :: '\n' :: rest) =
      some (contents.reverse ++ bodyOfLines lines,
        read.reverse ++ stuffedLines lines ++ ['.', '\n'], rest) := by
  induction lines generalizing contents read with
  | nil =>
    -- Only the last line is a single dot: a line of the contents that is one has been stuffed.
    have hline : firstLine ('.' :: '\n' :: rest) = ⟨['.'], ['.', '\n'], rest⟩ :=
      @firstLine_append ['.'] (by decide) rest
    have hdot : (Line.mk ['.'] ['.', '\n'] rest).trimmed = ['.'] := rfl
    rw [multilineBody]
    simp [stuffedLines, bodyOfLines, hline, hdot, List.reverseAux_eq]
  | cons line lines ih =>
    rw [List.forall_mem_cons] at hlines
    have hnewline : '\n' ∉ stuffLine line ++ ['\r'] := by
      simpa using newline_not_mem_stuffLine hlines.1
    have hcut : stuffedLines (line :: lines) ++ '.' :: '\n' :: rest =
        (stuffLine line ++ ['\r']) ++ '\n' :: (stuffedLines lines ++ '.' :: '\n' :: rest) := by
      simp [stuffedLines]
    rw [hcut, multilineBody, dif_neg (by simp), firstLine_append hnewline]
    simp only [trimmed_stuffLine hlines.1, stuffLine_ne_dot, if_false, unstuff_stuffLine,
      ih hlines.2]
    simp [stuffedLines, bodyOfLines, List.reverseAux_eq]

/-- A multi-line string is the first token, with its lines stuffed. -/
theorem begins_multiline {lines : List (List Char)} (hlines : ∀ line ∈ lines, IsBodyLine line)
    (rest : List Char) :
    Begins (.multiline (String.ofList (bodyOfLines lines)))
      (['t', 'e', 'x', 't', ':', '\n'] ++ stuffedLines lines ++ ['.'] ++ ['\n']) rest := by
  refine ⟨'t', ['e', 'x', 't', ':', '\n'] ++ stuffedLines lines ++ '.' :: '\n' :: rest, by simp, ?_⟩
  have hmark : afterTextMark?
      ('t' :: (['e', 'x', 't', ':', '\n'] ++ stuffedLines lines ++ '.' :: '\n' :: rest)) =
        some (['t', 'e', 'x', 't', ':'], '\n' :: (stuffedLines lines ++ '.' :: '\n' :: rest)) := rfl
  have hopener : firstLine ('\n' :: (stuffedLines lines ++ '.' :: '\n' :: rest)) =
      ⟨[], ['\n'], stuffedLines lines ++ '.' :: '\n' :: rest⟩ :=
    firstLine_append List.not_mem_nil _
  have hspace : isSpace 't' = false := rfl
  have hpunctuation : punctuation? 't' = none := rfl
  have hblank : isOpenerRest [] = true := rfl
  simp only [firstPiece, hspace, hpunctuation, hmark]
  simp [multilineString, hopener, hblank, multilineBody_stuffedLines hlines]

/-- The lexer goes on behind the first piece of a text. -/
theorem tokenizeFrom_cons_ok {c : Char} {cs : List Char} {piece : Piece}
    (h : firstPiece c cs = .ok piece) (found : List Span) (place : Place) :
    tokenizeFrom found place (c :: cs) =
      let next := place.advance piece.text
      match piece.token with
      | none => tokenizeFrom found next piece.rest
      | some token =>
        tokenizeFrom (⟨token, place, next.offset - place.offset⟩ :: found) next piece.rest := by
  rw [tokenizeFrom]
  split
  · next hfault =>
    rw [h] at hfault
    cases hfault
  · next found hfound =>
    obtain rfl : piece = found := Except.ok.inj (h.symm.trans hfound)
    rfl

/-- The first token of a text is found first, and the others behind it. -/
theorem tokenizeFrom_of_begins {token : Token} {front rest : List Char}
    (h : Begins token front rest) (found : List Span) (place : Place) :
    ∃ span : Span, span.token = token ∧ tokenizeFrom found place (front ++ rest) =
      tokenizeFrom (span :: found) (place.advance front) rest := by
  obtain ⟨c, cs, hcut, hpiece⟩ := h
  refine ⟨⟨token, place, (place.advance front).offset - place.offset⟩, rfl, ?_⟩
  rw [hcut, tokenizeFrom_cons_ok hpiece]

/-- A newline between tokens is passed over. -/
theorem tokenizeFrom_newline (found : List Span) (place : Place) (rest : List Char) :
    tokenizeFrom found place ('\n' :: rest) = tokenizeFrom found (place.step '\n') rest := by
  have hpiece : firstPiece '\n' rest = .ok ⟨none, ['\n'], rest⟩ := rfl
  rw [tokenizeFrom_cons_ok hpiece]
  rfl

/-- What is written is the first token of the text. A multi-line string takes the newline behind it
for the end of its last line, every other token leaves the newline alone. -/
theorem begins_spelling {token : Token} (h : token.IsLexical) (rest : List Char) :
    Begins token token.spelling ('\n' :: rest) ∨ Begins token (token.spelling ++ ['\n']) rest := by
  cases token with
  | tag text =>
    obtain ⟨name, hne, hname, rfl⟩ := h
    rw [Token.spelling, String.toList_ofList]
    exact .inl (begins_tag hne hname rest)
  | identifier text =>
    obtain ⟨first, name, hfirst, hname, rfl⟩ := h
    rw [Token.spelling, String.toList_ofList]
    exact .inl (begins_identifier hfirst hname rest)
  | number text =>
    obtain ⟨digits, scale, hne, hdigits, hscale, rfl⟩ := h
    rw [Token.spelling, String.toList_ofList]
    exact .inl (begins_number hne hdigits hscale rest)
  | quoted text => exact .inl (begins_quoted text rest)
  | multiline text =>
    obtain ⟨lines, hlines, rfl⟩ := h
    rw [Token.spelling, String.toList_ofList, stuff_bodyOfLines hlines]
    exact .inr (begins_multiline hlines rest)
  | _ => exact .inl ⟨_, _, rfl, rfl⟩

/-- A token is found where it is spelled before a newline. -/
theorem tokenizeFrom_spelling {token : Token} (h : token.IsLexical) (found : List Span)
    (place : Place) (rest : List Char) :
    ∃ (span : Span) (next : Place), span.token = token ∧
      tokenizeFrom found place (token.spelling ++ '\n' :: rest) =
        tokenizeFrom (span :: found) next rest := by
  rcases begins_spelling h rest with hbegins | hbegins
  -- The newline is still there and is skipped, unless a multi-line string has taken it along.
  · obtain ⟨span, htoken, hread⟩ := tokenizeFrom_of_begins hbegins found place
    exact ⟨span, _, htoken, hread.trans (tokenizeFrom_newline _ _ rest)⟩
  · obtain ⟨span, htoken, hread⟩ := tokenizeFrom_of_begins hbegins found place
    rw [List.append_assoc, List.singleton_append] at hread
    exact ⟨span, _, htoken, hread⟩

/-- Tokens are found where they are spelled one on a line. -/
theorem tokenizeFrom_spellAll {tokens : List Token} (h : ∀ token ∈ tokens, token.IsLexical)
    (found : List Span) (place : Place) :
    ∃ spans, tokenizeFrom found place (Token.spellAll tokens) = .ok (found.reverse ++ spans) ∧
      spans.map Span.token = tokens := by
  induction tokens generalizing found place with
  | nil => exact ⟨[], by rw [Token.spellAll, List.flatMap_nil, tokenizeFrom, List.append_nil], rfl⟩
  | cons token tokens ih =>
    rw [List.forall_mem_cons] at h
    have hcut : Token.spellAll (token :: tokens) =
        token.spelling ++ '\n' :: Token.spellAll tokens := by
      simp [Token.spellAll]
    obtain ⟨span, next, htoken, hread⟩ :=
      tokenizeFrom_spelling h.1 found place (Token.spellAll tokens)
    obtain ⟨spans, hspans, hrest⟩ := ih h.2 (span :: found) next
    refine ⟨span :: spans, ?_, by rw [List.map_cons, htoken, hrest]⟩
    rw [hcut, hread, hspans, List.reverse_cons, List.append_assoc, List.singleton_append]

/-- Tokens that are written one below the other are read back as they were. -/
theorem tokenize_spellAll {tokens : List Token} (h : ∀ token ∈ tokens, token.IsLexical) :
    ∃ spans, tokenize (String.ofList (Token.spellAll tokens)) = .ok spans ∧
      spans.map Span.token = tokens := by
  rw [tokenize, String.toList_ofList]
  exact tokenizeFrom_spellAll h [] .start

/-- Tokens of every kind are read back, among them a word that is no mark, a string with special
characters and a text whose lines begin with dots. -/
theorem tokenize_spellAll_intricate :
    let tokens : List Token := [.identifier "text", .tag ":is", .number "010k", .semicolon,
      .quoted "a \"é\" \\", .multiline ".\r\n..a\r\n\r\nb\rc\r\n", .number "7", .rightBracket]
    (∀ token ∈ tokens, token.IsLexical) ∧
      ∃ spans, tokenize (String.ofList (Token.spellAll tokens)) = .ok spans ∧
        spans.map Span.token = tokens := by
  intro tokens
  have hlines : ∀ line ∈ [['.'], ['.', '.', 'a'], [], ['b', '\r', 'c']], IsBodyLine line := by
    simp only [List.forall_mem_cons]
    exact ⟨⟨by decide, by decide⟩, ⟨by decide, by decide⟩, ⟨by decide, by decide⟩,
      ⟨by decide, by decide⟩, nofun⟩
  have hlexical : ∀ token ∈ tokens, token.IsLexical := by
    simp only [tokens, List.forall_mem_cons]
    exact ⟨⟨'t', ['e', 'x', 't'], rfl, List.all_eq_true.mp rfl, rfl⟩,
      ⟨['i', 's'], nofun, List.all_eq_true.mp rfl, rfl⟩,
      ⟨['0', '1', '0'], some 'k', nofun, List.all_eq_true.mp rfl, fun | _, rfl => rfl, rfl⟩,
      trivial, trivial, ⟨_, hlines, rfl⟩,
      ⟨['7'], none, nofun, List.all_eq_true.mp rfl, nofun, rfl⟩, trivial, nofun⟩
  exact ⟨hlexical, tokenize_spellAll hlexical⟩

end MailFilter.Script
