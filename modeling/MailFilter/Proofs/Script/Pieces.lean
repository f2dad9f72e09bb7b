import MailFilter.Proofs.Script.Number
import MailFilter.Proofs.Script.Seam
import MailFilter.Proofs.Text.Ascii

/-!
# What the pieces of a text are

Each way to cut a piece from the front of a text is one rule below. A rule says of which characters
the piece consists, which token they spell and what may stand behind them, and nothing about how the
lexer finds the end. The lexer takes exactly the pieces of the rules (`firstPiece_eq_ok_iff`) and
finds exactly the tokens that they spell (`tokenizeFrom_eq_ok_iff`), so what is to be shown of its
tokens need only be shown rule by rule.
-/

namespace MailFilter.Script

open Ascii (isSpace isDigit isLetter isWordChar lowerChar)

/-- A text that does not go on with a character of a class. -/
def Stops (p : Char → Bool) (rest : List Char) : Prop :=
  ∀ c ∈ rest.head?, p c = false

/-- A numeral: digits, and perhaps a scale letter behind them. -/
structure IsNumeral (digits : List Char) (scale : Option Char) : Prop where
  digits_ne_nil : digits ≠ []
  digits_decimal : ∀ c ∈ digits, isDigit c
  scale_letter : ∀ c ∈ scale, isScale c

/-- The text of a numeral. -/
def numeral (digits : List Char) (scale : Option Char) : String :=
  String.ofList (digits ++ scale.toList)

/-- The inside of a block comment: no star in it stands before a slash. -/
inductive IsComment : List Char → Prop where
  | nil : IsComment []
  | cons {c : Char} {body : List Char} (hopen : c = '*' → body.head? ≠ some '/')
      (hbody : IsComment body) : IsComment (c :: body)

/-- The inside of a quoted string, and the contents that it spells. -/
inductive IsQuoted : List Char → List Char → Prop where
  | nil : IsQuoted [] []
  | plain {c : Char} {body inner : List Char} (hquote : c ≠ '"') (hslash : c ≠ '\\')
      (hbody : IsQuoted body inner) : IsQuoted (c :: body) (c :: inner)
  | escaped {c : Char} {body inner : List Char} (hbody : IsQuoted body inner) :
      IsQuoted ('\\' :: c :: body) (c :: inner)

/-- A line without the carriage returns at its end. -/
def withoutReturns (line : List Char) : List Char :=
  Text.dropTrailing (· == '\r') line

/-- The lines of a multi-line string behind its opener, up to the dot, and the contents that they
spell. The newline behind the dot may only be missing at the end of the text. -/
inductive IsBody (rest : List Char) : List Char → List Char → Prop where
  | dot {line : List Char} (hline : '\n' ∉ line) (hdot : withoutReturns line = ['.']) :
      IsBody rest (line ++ ['\n']) []
  | lastDot {line : List Char} (hline : '\n' ∉ line) (hdot : withoutReturns line = ['.'])
      (hrest : rest = []) : IsBody rest line []
  | line {line body inner : List Char} (hline : '\n' ∉ line) (hdot : withoutReturns line ≠ ['.'])
      (hbody : IsBody rest body inner) :
      IsBody rest (line ++ '\n' :: body) (unstuff (withoutReturns line) ++ '\r' :: '\n' :: inner)

/-- A string as it is written before the rest of a text, and its token. -/
inductive IsString (rest : List Char) : List Char → Token → Prop where
  | quoted {body inner : List Char} (hbody : IsQuoted body inner) :
      IsString rest ('"' :: (body ++ ['"'])) (.quoted (String.ofList inner))
  | multiline {mark opener body inner : List Char}
      (hmark : mark.map lowerChar = ['t', 'e', 'x', 't', ':']) (hopener : '\n' ∉ opener)
      (hblank : isOpenerRest opener = true) (hbody : IsBody rest body inner) :
      IsString rest (mark ++ (opener ++ '\n' :: body)) (.multiline (String.ofList inner))

/-- A piece that can be cut from the front of a text. -/
inductive IsPiece : Piece → Prop where
  | space {c : Char} {rest : List Char} (hspace : isSpace c = true) : IsPiece ⟨none, [c], rest⟩
  | punctuation {c : Char} {token : Token} {rest : List Char}
      (htoken : punctuation? c = some token) : IsPiece ⟨some token, [c], rest⟩
  | lineComment {text rest : List Char} (htext : '\n' ∉ text) (hstop : Stops (· != '\n') rest) :
      IsPiece ⟨none, '#' :: text, rest⟩
  | blockComment {body rest : List Char} (hbody : IsComment body) :
      IsPiece ⟨none, '/' :: '*' :: (body ++ ['*', '/']), rest⟩
  | string {token : Token} {text rest : List Char} (hstring : IsString rest text token) :
      IsPiece ⟨some token, text, rest⟩
  | tag {word rest : List Char} (hne : word ≠ []) (hword : ∀ c ∈ word, isWordChar c = true)
      (hstop : Stops isWordChar rest) :
      IsPiece ⟨some (.tag (Ascii.lower (String.ofList (':' :: word)))), ':' :: word, rest⟩
  | number {digits rest : List Char} {scale : Option Char} (hnumeral : IsNumeral digits scale)
      (hstop : scale = none → Stops (fun c => isDigit c || isScale c) rest) :
      IsPiece ⟨some (.number (numeral digits scale)), digits ++ scale.toList, rest⟩
  | identifier {c : Char} {word rest : List Char} (hc : isWordStart c = true)
      (hword : ∀ c ∈ word, isWordChar c = true) (hstop : Stops isWordChar rest)
      (hmark : afterTextMark? (c :: (word ++ rest)) = none) :
      IsPiece ⟨some (.identifier (String.ofList (c :: word))), c :: word, rest⟩

section Stretches

variable {p : Char → Bool} {front rest : List Char}

/-- Characters of a class are taken up to where the class stops. -/
theorem takeWhile_append_of_stops (hfront : ∀ c ∈ front, p c = true) (hstop : Stops p rest) :
    (front ++ rest).takeWhile p = front := by
  cases rest with
  | nil => rw [List.append_nil, List.takeWhile_eq_self_iff.mpr hfront]
  | cons c rest => exact takeWhile_append_stop hfront (hstop c rfl)

/-- Characters of a class are dropped up to where the class stops. -/
theorem dropWhile_append_of_stops (hfront : ∀ c ∈ front, p c = true) (hstop : Stops p rest) :
    (front ++ rest).dropWhile p = rest := by
  cases rest with
  | nil => rw [List.append_nil, List.dropWhile_eq_nil_iff.mpr hfront]
  | cons c rest => exact dropWhile_append_stop hfront (hstop c rfl)

/-- A class stops behind its characters. -/
theorem stops_dropWhile (p : Char → Bool) (cs : List Char) : Stops p (cs.dropWhile p) := by
  intro c hc
  have hhead := List.head?_dropWhile_not p cs
  rw [hc] at hhead
  simpa using hhead

end Stretches

section Readers

variable {cs text rest : List Char}

/-- A comment is read up to its end. -/
theorem blockComment_of_isComment {body : List Char} (h : IsComment body)
    (read rest : List Char) :
    blockComment read (body ++ '*' :: '/' :: rest) =
      some (read.reverse ++ (body ++ ['*', '/']), rest) := by
  induction h generalizing read with
  | nil => simp [blockComment]
  | @cons c body hopen hbody ih =>
    have hclosed : ∀ after, c = '*' → body ++ '*' :: '/' :: rest = '/' :: after → False := by
      intro after hc hafter
      cases body with
      | nil => cases hafter
      | cons d body => exact hopen hc (congrArg some (List.cons.inj hafter).1)
    rw [List.cons_append, blockComment, ih]
    · simp
    · exact hclosed

/-- What is read as a comment is one. -/
theorem isComment_of_blockComment {read : List Char}
    (h : blockComment read cs = some (text, rest)) :
    ∃ body, IsComment body ∧ cs = body ++ '*' :: '/' :: rest ∧
      text = read.reverse ++ (body ++ ['*', '/']) := by
  fun_induction blockComment read cs with
  | case1 read tail =>
    obtain ⟨rfl, rfl⟩ := Prod.mk.inj (Option.some.inj h)
    exact ⟨[], .nil, rfl, by simp⟩
  | case2 read c tail hopen ih =>
    obtain ⟨body, hbody, rfl, rfl⟩ := ih h
    refine ⟨c :: body, .cons (fun hc hhead => ?_) hbody, rfl, by simp⟩
    obtain ⟨after, rfl⟩ := List.head?_eq_some_iff.mp hhead
    exact hopen _ hc rfl
  | case3 => cases h

/-- A quoted string is read with what it contains. -/
theorem quotedString_of_isQuoted {body inner : List Char} (h : IsQuoted body inner)
    (contents read rest : List Char) :
    quotedString contents read (body ++ '"' :: rest) =
      some (contents.reverse ++ inner, read.reverse ++ (body ++ ['"']), rest) := by
  induction h generalizing contents read with
  | nil => simp [quotedString]
  | plain hquote hslash hbody ih =>
    rw [List.cons_append, quotedString, ih]
    · simp
    · exact hquote
    · exact fun _ _ hc => absurd hc hslash
  | escaped hbody ih =>
    rw [List.cons_append, List.cons_append, quotedString, ih]
    simp

/-- What is read as a quoted string is one. -/
theorem isQuoted_of_quotedString {contents read string : List Char}
    (h : quotedString contents read cs = some (string, text, rest)) :
    ∃ body inner, IsQuoted body inner ∧ cs = body ++ '"' :: rest ∧
      string = contents.reverse ++ inner ∧ text = read.reverse ++ (body ++ ['"']) := by
  fun_induction quotedString contents read cs with
  | case1 contents read tail =>
    obtain ⟨rfl, htail⟩ := Prod.mk.inj (Option.some.inj h)
    obtain ⟨rfl, rfl⟩ := Prod.mk.inj htail
    exact ⟨[], [], .nil, rfl, by simp, by simp⟩
  | case2 contents read c tail ih =>
    obtain ⟨body, inner, hbody, rfl, rfl, rfl⟩ := ih h
    exact ⟨'\\' :: c :: body, c :: inner, .escaped hbody, rfl, by simp, by simp⟩
  | case3 contents read c tail hquote hescape ih =>
    obtain ⟨body, inner, hbody, rfl, rfl, rfl⟩ := ih h
    have hslash : c ≠ '\\' := by
      intro hc
      cases body with
      | nil => exact hescape '"' rest hc rfl
      | cons d body => exact hescape d _ hc rfl
    exact ⟨c :: body, c :: inner, .plain hquote hslash hbody, rfl, by simp, by simp⟩
  | case4 => cases h

/-- The body of a multi-line string is not empty. -/
theorem IsBody.ne_nil {body inner : List Char} (h : IsBody rest body inner) : body ≠ [] := by
  cases h with
  | dot | line => simp
  | lastDot hline hdot hrest =>
    rintro rfl
    cases hdot

/-- One round of the reading of a multi-line string. -/
theorem multilineBody_of_firstLine {line : Line} (hne : cs ≠ []) (hline : firstLine cs = line)
    (contents read : List Char) :
    multilineBody contents read cs =
      if withoutReturns line.contents = ['.'] then
        some (contents.reverse, read.reverse ++ line.text, line.rest)
      else
        multilineBody ((unstuff (withoutReturns line.contents) ++ ['\r', '\n']).reverse ++ contents)
          (line.text.reverse ++ read) line.rest := by
  rw [multilineBody, dif_neg hne, hline]
  simp [List.reverseAux_eq, Line.trimmed, withoutReturns]

/-- The body of a multi-line string is read with what it contains. -/
theorem multilineBody_of_isBody {body inner : List Char} (h : IsBody rest body inner)
    (contents read : List Char) :
    multilineBody contents read (body ++ rest) =
      some (contents.reverse ++ inner, read.reverse ++ body, rest) := by
  induction h generalizing contents read with
  | dot hline hdot =>
    rw [List.append_assoc, List.singleton_append,
      multilineBody_of_firstLine (by simp) (firstLine_append hline rest), if_pos hdot,
      List.append_nil]
  | @lastDot line hline hdot hrest =>
    have hne : line ≠ [] := by
      rintro rfl
      cases hdot
    obtain rfl := hrest
    rcases firstLine_cases line with ⟨front, after, rfl, -, -⟩ | ⟨-, hfirst⟩
    · simp at hline
    · rw [List.append_nil, multilineBody_of_firstLine hne hfirst, if_pos hdot, List.append_nil]
  | line hline hdot hbody ih =>
    rw [List.append_assoc, List.cons_append,
      multilineBody_of_firstLine (by simp) (firstLine_append hline _), if_neg hdot]
    dsimp only
    rw [ih]
    simp

/-- What is read as the body of a multi-line string is one. -/
theorem isBody_of_multilineBody {contents read string : List Char}
    (h : multilineBody contents read cs = some (string, text, rest)) :
    ∃ body inner, IsBody rest body inner ∧ cs = body ++ rest ∧
      string = contents.reverse ++ inner ∧ text = read.reverse ++ body := by
  fun_induction multilineBody contents read cs with
  | case1 => cases h
  | case2 contents read cs hne line read' hdot =>
    obtain ⟨rfl, htail⟩ := Prod.mk.inj (Option.some.inj h)
    obtain ⟨rfl, rfl⟩ := Prod.mk.inj htail
    rcases firstLine_cases cs with ⟨inner, after, rfl, hinner, hfirst⟩ | ⟨hcs, hfirst⟩
    · have hline : line = ⟨inner, inner ++ ['\n'], after⟩ := hfirst
      rw [hline] at hdot
      refine ⟨inner ++ ['\n'], [], .dot hinner hdot, ?_, by simp, ?_⟩
      · simp [hline]
      · simp [read', hline, List.reverseAux_eq]
    · have hline : line = ⟨cs, cs, []⟩ := hfirst
      rw [hline] at hdot
      refine ⟨cs, [], .lastDot hcs hdot ?_, ?_, by simp, ?_⟩
      · rw [hline]
      · simp [hline]
      · simp [read', hline, List.reverseAux_eq]
  | case3 contents read cs hne line read' hdot ih =>
    obtain ⟨body, inner, hbody, hcut, rfl, rfl⟩ := ih h
    rcases firstLine_cases cs with ⟨first, after, rfl, hfirst, hline⟩ | ⟨-, hline⟩
    · have hline : line = ⟨first, first ++ ['\n'], after⟩ := hline
      rw [hline] at hdot hcut
      obtain rfl : after = body ++ rest := hcut
      refine ⟨_, _, .line hfirst hdot hbody, by simp, ?_, ?_⟩
      · simp [hline, Line.trimmed, withoutReturns, List.reverseAux_eq]
      · simp [read', hline, List.reverseAux_eq]
    · -- A string is not closed by a line that ends the text and is not the dot.
      have hline : line = ⟨cs, cs, []⟩ := hline
      rw [hline] at hcut
      exact absurd (List.append_eq_nil_iff.mp hcut.symm).1 hbody.ne_nil

/-- A multi-line string is read from its opener through its body. -/
theorem multilineString_of_isBody {opener body inner : List Char} (hopener : '\n' ∉ opener)
    (hblank : isOpenerRest opener = true) (hbody : IsBody rest body inner) (mark : List Char) :
    multilineString mark (opener ++ '\n' :: (body ++ rest)) =
      .ok ⟨some (.multiline (String.ofList inner)), mark ++ (opener ++ '\n' :: body), rest⟩ := by
  rw [multilineString, firstLine_append hopener]
  dsimp only
  rw [if_pos hblank, multilineBody_of_isBody hbody]
  simp

/-- What is read as a multi-line string is a piece. -/
theorem isPiece_of_multilineString {mark after : List Char} {piece : Piece}
    (hmark : mark.map lowerChar = ['t', 'e', 'x', 't', ':'])
    (h : multilineString mark after = .ok piece) : IsPiece piece := by
  rw [multilineString] at h
  split at h
  · next hblank =>
    split at h
    · next string text rest hread =>
      cases h
      obtain ⟨body, inner, hbody, hcut, rfl, rfl⟩ := isBody_of_multilineBody hread
      rcases firstLine_cases after with ⟨opener, tail, rfl, hopener, hline⟩ | ⟨-, hline⟩
      · rw [hline] at hblank hcut ⊢
        dsimp only
        rw [List.reverse_reverse, List.append_assoc, List.append_assoc, List.singleton_append]
        exact .string (.multiline hmark hopener hblank hbody)
      · -- There is no string if the opening line ends the text.
        rw [hline] at hcut
        exact absurd (List.append_eq_nil_iff.mp hcut.symm).1 hbody.ne_nil
    · cases h
  · cases h

end Readers

/-- The mark of a multi-line string is `text:` in any case of its letters. -/
theorem afterTextMark?_eq_some_iff {cs mark after : List Char} :
    afterTextMark? cs = some (mark, after) ↔
      mark.map lowerChar = ['t', 'e', 'x', 't', ':'] ∧ cs = mark ++ after := by
  rw [afterTextMark?]
  constructor
  · intro h
    split at h
    · next hmark =>
      cases h
      exact ⟨hmark, (List.take_append_drop 5 cs).symm⟩
    · cases h
  · rintro ⟨hmark, rfl⟩
    have hlength : mark.length = 5 := by
      rw [← List.length_map (f := lowerChar), hmark]
      rfl
    rw [List.take_left' hlength, List.drop_left' hlength]
    exact if_pos hmark

/-- The scale letters are `k`, `m` and `g` in either case. -/
theorem isScale_iff_toLower {c : Char} :
    isScale c = true ↔ c.toLower = 'k' ∨ c.toLower = 'm' ∨ c.toLower = 'g' := by
  refine ⟨fun h => ?_, isScale_of_toLower⟩
  simp only [isScale, List.contains_eq_mem, List.mem_cons, List.not_mem_nil, or_false,
    decide_eq_true_eq] at h
  rcases h with rfl | rfl | rfl | rfl | rfl | rfl <;> decide

/-- What is read as a number is a piece. -/
theorem isPiece_numberPiece {c : Char} (hc : isDigit c = true) (cs : List Char) :
    IsPiece (numberPiece (c :: cs)) := by
  have hne : (c :: cs).takeWhile isDigit ≠ [] := by
    rw [List.takeWhile_cons_of_pos hc]
    exact List.cons_ne_nil _ _
  have hdigits : ∀ d ∈ (c :: cs).takeWhile isDigit, isDigit d = true :=
    fun d => List.mem_takeWhile_imp
  have hstop : Stops isDigit ((c :: cs).dropWhile isDigit) := stops_dropWhile isDigit (c :: cs)
  rw [numberPiece]
  generalize (c :: cs).takeWhile isDigit = digits at *
  generalize (c :: cs).dropWhile isDigit = after at *
  have hplain : IsNumeral digits none := ⟨hne, hdigits, by rintro _ ⟨⟩⟩
  have hbare : Stops (fun c => isDigit c || isScale c) after →
      IsPiece ⟨some (.number (String.ofList digits)), digits, after⟩ := by
    intro hafter
    have hnumber := IsPiece.number hplain fun _ => hafter
    rwa [numeral, Option.toList_none, List.append_nil] at hnumber
  cases after with
  | nil => exact hbare (by rintro _ ⟨⟩)
  | cons letter rest =>
    dsimp only
    split
    · next hfold =>
      have hscaled : IsNumeral digits (some letter) :=
        ⟨hne, hdigits, by rintro _ ⟨⟩; exact isScale_iff_toLower.mpr hfold⟩
      exact IsPiece.number hscaled (by rintro ⟨⟩)
    · next hfold =>
      refine hbare ?_
      rintro _ ⟨⟩
      have hscale : isScale letter = false := by
        rw [Bool.eq_false_iff, ne_eq, isScale_iff_toLower]
        exact hfold
      exact Bool.or_eq_false_iff.mpr ⟨hstop letter rfl, hscale⟩

/-- A numeral is read if no digit and no scale letter follows it. -/
theorem numberPiece_of_isNumeral {digits rest : List Char} {scale : Option Char}
    (h : IsNumeral digits scale)
    (hstop : scale = none → Stops (fun c => isDigit c || isScale c) rest) :
    numberPiece (digits ++ scale.toList ++ rest) =
      ⟨some (.number (numeral digits scale)), digits ++ scale.toList, rest⟩ := by
  cases scale with
  | none =>
    have hstop := hstop rfl
    have hdigits : Stops isDigit rest := fun c hc => (Bool.or_eq_false_iff.mp (hstop c hc)).1
    rw [numeral, Option.toList_none, List.append_nil, numberPiece,
      takeWhile_append_of_stops h.digits_decimal hdigits,
      dropWhile_append_of_stops h.digits_decimal hdigits]
    cases rest with
    | nil => rfl
    | cons c rest =>
      have hscale : isScale c = false := (Bool.or_eq_false_iff.mp (hstop c rfl)).2
      rw [Bool.eq_false_iff, ne_eq, isScale_iff_toLower] at hscale
      exact if_neg hscale
  | some letter =>
    have hletter : isScale letter = true := h.scale_letter letter rfl
    have hstop : Stops isDigit (letter :: rest) := by
      rintro _ ⟨⟩
      exact isDigit_of_isScale hletter
    rw [Option.toList_some, List.append_assoc, List.singleton_append, numberPiece,
      takeWhile_append_of_stops h.digits_decimal hstop,
      dropWhile_append_of_stops h.digits_decimal hstop]
    exact if_pos (isScale_iff_toLower.mp hletter)

/-- A piece that is taken is one of the rules. -/
theorem isPiece_of_firstPiece {c : Char} {cs : List Char} {piece : Piece}
    (h : firstPiece c cs = .ok piece) : IsPiece piece := by
  unfold firstPiece at h
  split at h
  · next hspace =>
    cases h
    exact .space hspace
  split at h
  · next token htoken =>
    cases h
    exact .punctuation htoken
  split at h
  · next hhash =>
    cases h
    subst hhash
    have htext : '\n' ∉ cs.takeWhile (· != '\n') := fun hmem => by
      simpa using List.mem_takeWhile_imp hmem
    exact .lineComment htext (stops_dropWhile _ cs)
  split at h
  · split at h
    · next text rest hread =>
      cases h
      obtain ⟨body, hbody, -, rfl⟩ := isComment_of_blockComment hread
      exact .blockComment hbody
    · cases h
  split at h
  · split at h
    · next string text rest hread =>
      cases h
      obtain ⟨body, inner, hbody, -, rfl, rfl⟩ := isQuoted_of_quotedString hread
      exact .string (.quoted hbody)
    · cases h
  split at h
  · next mark after hmark =>
    exact isPiece_of_multilineString (afterTextMark?_eq_some_iff.mp hmark).1 h
  next hmark =>
  split at h
  · next hcolon =>
    subst hcolon
    split at h
    · cases h
    · next hne =>
      cases h
      exact .tag hne (fun _ => List.mem_takeWhile_imp) (stops_dropWhile _ cs)
  split at h
  · next hdigit =>
    cases h
    exact isPiece_numberPiece hdigit cs
  split at h
  · next hstart =>
    cases h
    have hcut : c :: (cs.takeWhile isWordChar ++ cs.dropWhile isWordChar) = c :: cs := by
      rw [List.takeWhile_append_dropWhile]
    exact .identifier hstart (fun _ => List.mem_takeWhile_imp) (stops_dropWhile _ cs)
      (hcut ▸ hmark)
  · cases h

/-- A `t` is written in two ways. -/
theorem lowerChar_eq_t {c : Char} (h : lowerChar c = 't') : c = 't' ∨ c = 'T' := by
  rw [← Char.toNat_inj, Ascii.toNat_lowerChar] at h
  simp only [← Char.toNat_inj, Char.reduceToNat] at h ⊢
  split_ifs at h <;> omega

/-- A text that begins with the mark of a multi-line string begins with nothing else. -/
theorem firstPiece_quote {cs contents text rest : List Char}
    (h : quotedString [] ['"'] cs = some (contents, text, rest)) :
    firstPiece '"' cs = .ok ⟨some (.quoted (String.ofList contents)), text, rest⟩ := by
  rw [firstPiece, h]
  rfl

/-- A slash and a star begin a comment. -/
theorem firstPiece_slash {cs text rest : List Char}
    (h : blockComment ['*', '/'] cs = some (text, rest)) :
    firstPiece '/' ('*' :: cs) = .ok ⟨none, text, rest⟩ := by
  rw [firstPiece, List.tail_cons, h]
  rfl

/-- The mark of a multi-line string begins one. -/
theorem firstPiece_mark {c : Char} {cs mark after : List Char}
    (h : afterTextMark? (c :: cs) = some (mark, after)) :
    firstPiece c cs = multilineString mark after := by
  have hc : lowerChar c = 't' := by
    obtain ⟨hmark, hcut⟩ := afterTextMark?_eq_some_iff.mp h
    cases mark with
    | nil => cases hmark
    | cons d mark =>
      obtain ⟨rfl, -⟩ := List.cons.inj hcut
      exact (List.cons.inj hmark).1
  rw [firstPiece, h]
  rcases lowerChar_eq_t hc with rfl | rfl <;> rfl

/-- A string at the front of a text is the first piece. -/
theorem firstPiece_of_isString {c : Char} {cs text rest : List Char} {token : Token}
    (h : IsString rest text token) (hcut : text ++ rest = c :: cs) :
    firstPiece c cs = .ok ⟨some token, text, rest⟩ := by
  cases h with
  | @quoted body inner hbody =>
    rw [List.cons_append, List.append_assoc, List.singleton_append] at hcut
    obtain ⟨rfl, rfl⟩ := List.cons.inj hcut
    exact firstPiece_quote (quotedString_of_isQuoted hbody [] ['"'] rest)
  | @multiline mark opener body inner hmark hopener hblank hbody =>
    have hmark : afterTextMark? (c :: cs) = some (mark, opener ++ '\n' :: (body ++ rest)) := by
      refine afterTextMark?_eq_some_iff.mpr ⟨hmark, ?_⟩
      rw [← hcut]
      simp
    rw [firstPiece_mark hmark, multilineString_of_isBody hopener hblank hbody]

/-- A piece at the front of a text is the first piece. -/
theorem firstPiece_of_isPiece {c : Char} {cs : List Char} {piece : Piece} (h : IsPiece piece)
    (hcut : piece.text ++ piece.rest = c :: cs) : firstPiece c cs = .ok piece := by
  cases h with
  | space hspace =>
    obtain ⟨rfl, rfl⟩ := List.cons.inj hcut
    exact if_pos hspace
  | punctuation htoken =>
    obtain ⟨rfl, rfl⟩ := List.cons.inj hcut
    unfold punctuation? at htoken
    split at htoken <;> cases htoken <;> rfl
  | @lineComment text rest htext hstop =>
    have hcut : '#' :: (text ++ rest) = c :: cs := hcut
    obtain ⟨rfl, rfl⟩ := List.cons.inj hcut
    have hline : ∀ c ∈ text, (c != '\n') = true := fun c hc => by
      simpa using ne_of_mem_of_not_mem hc htext
    have hhash : firstPiece '#' (text ++ rest) =
        .ok (pieceWhile (· != '\n') ['#'] (fun _ => none) (text ++ rest)) := rfl
    rw [hhash, pieceWhile, takeWhile_append_of_stops hline hstop,
      dropWhile_append_of_stops hline hstop]
    rfl
  | @blockComment body rest hbody =>
    have hcut : '/' :: '*' :: (body ++ '*' :: '/' :: rest) = c :: cs := by
      rw [← hcut]
      simp
    obtain ⟨rfl, rfl⟩ := List.cons.inj hcut
    exact firstPiece_slash (blockComment_of_isComment hbody ['*', '/'] rest)
  | string hstring => exact firstPiece_of_isString hstring hcut
  | @tag word rest hne hword hstop =>
    have hcut : ':' :: (word ++ rest) = c :: cs := hcut
    obtain ⟨rfl, rfl⟩ := List.cons.inj hcut
    have hmark : afterTextMark? (':' :: (word ++ rest)) = none :=
      afterTextMark?_other (by decide) _
    have hspace : isSpace ':' = false := rfl
    have hpunctuation : punctuation? ':' = none := rfl
    simp only [firstPiece, hspace, hpunctuation, hmark, takeWhile_append_of_stops hword hstop,
      dropWhile_append_of_stops hword hstop]
    cases word with
    | nil => exact absurd rfl hne
    | cons first others => rfl
  | @number digits rest scale hnumeral hstop =>
    obtain ⟨first, others, rfl⟩ := List.exists_cons_of_ne_nil hnumeral.digits_ne_nil
    have hcut : first :: (others ++ scale.toList ++ rest) = c :: cs := hcut
    obtain ⟨rfl, rfl⟩ := List.cons.inj hcut
    have hfirst : isDigit first = true := hnumeral.digits_decimal first List.mem_cons_self
    have hlower : lowerChar first ≠ 't' :=
      of_isWordChar (fun c => isDigit c = true → lowerChar c ≠ 't') (by decide)
        (isWordChar_of_isDigit hfirst) hfirst
    rw [firstPiece_word (isWordChar_of_isDigit hfirst) (afterTextMark?_other hlower _),
      if_pos hfirst]
    exact congrArg Except.ok (numberPiece_of_isNumeral hnumeral hstop)
  | @identifier first word rest hstart hword hstop hmark =>
    have hcut : first :: (word ++ rest) = c :: cs := hcut
    obtain ⟨rfl, rfl⟩ := List.cons.inj hcut
    have hdigit : ¬isDigit first = true := Bool.eq_false_iff.mp (isDigit_of_isWordStart hstart)
    have hpiece := firstPiece_word (isWordChar_of_isWordStart hstart) hmark
    rw [if_neg hdigit, if_pos hstart, pieceWhile, takeWhile_append_of_stops hword hstop,
      dropWhile_append_of_stops hword hstop] at hpiece
    exact hpiece

/-- The lexer takes exactly the pieces of the rules. -/
theorem firstPiece_eq_ok_iff {c : Char} {cs : List Char} {piece : Piece} :
    firstPiece c cs = .ok piece ↔ IsPiece piece ∧ piece.text ++ piece.rest = c :: cs :=
  ⟨fun h => ⟨isPiece_of_firstPiece h, firstPiece_append h⟩,
    fun h => firstPiece_of_isPiece h.1 h.2⟩

/-- The tokens of a piece that begins at a place: one or none. -/
def Piece.spans (piece : Piece) (place : Place) : List Span :=
  match piece.token with
  | none => []
  | some token => [⟨token, place, (place.advance piece.text).offset - place.offset⟩]

/-- What was found before stays in front of what is found behind it. -/
theorem tokenizeFrom_found (found : List Span) (place : Place) (cs : List Char) :
    tokenizeFrom found place cs = (tokenizeFrom [] place cs).map (found.reverse ++ ·) := by
  induction cs using piece_induction generalizing found place with
  | nil => simp [tokenizeFrom, Except.map]
  | fault c cs fault hpiece =>
    rw [tokenizeFrom_cons_error hpiece, tokenizeFrom_cons_error hpiece]
    rfl
  | piece c cs piece hpiece ih =>
    rw [tokenizeFrom_cons_ok hpiece, tokenizeFrom_cons_ok hpiece]
    cases piece.token with
    | none => exact ih found _
    | some token =>
      dsimp only
      rw [ih, ih [_]]
      cases tokenizeFrom [] (place.advance piece.text) piece.rest <;> simp [Except.map]

/-- The tokens of a text are those of its first piece and those behind it. -/
theorem tokenizeFrom_cons_eq {c : Char} {cs : List Char} {piece : Piece}
    (h : firstPiece c cs = .ok piece) (place : Place) :
    tokenizeFrom [] place (c :: cs) =
      (tokenizeFrom [] (place.advance piece.text) piece.rest).map (piece.spans place ++ ·) := by
  rw [tokenizeFrom_cons_ok h, Piece.spans]
  cases piece.token with
  | none =>
    dsimp only
    cases tokenizeFrom [] (place.advance piece.text) piece.rest <;> rfl
  | some token => exact tokenizeFrom_found [_] _ _

/-- The tokens of a text that begins at a place: those of its pieces, one behind the other. -/
inductive AreTokens : Place → List Char → List Span → Prop where
  | nil {place : Place} : AreTokens place [] []
  | cons {place : Place} {c : Char} {cs : List Char} {piece : Piece} {later : List Span}
      (hpiece : IsPiece piece) (hcut : piece.text ++ piece.rest = c :: cs)
      (hlater : AreTokens (place.advance piece.text) piece.rest later) :
      AreTokens place (c :: cs) (piece.spans place ++ later)

/-- The lexer finds exactly the tokens of the rules. -/
theorem tokenizeFrom_eq_ok_iff {place : Place} {cs : List Char} {spans : List Span} :
    tokenizeFrom [] place cs = .ok spans ↔ AreTokens place cs spans := by
  constructor
  · intro h
    induction cs using piece_induction generalizing place spans with
    | nil =>
      rw [tokenizeFrom] at h
      cases h
      exact .nil
    | fault c cs fault hpiece =>
      rw [tokenizeFrom_cons_error hpiece] at h
      cases h
    | piece c cs piece hpiece ih =>
      rw [tokenizeFrom_cons_eq hpiece] at h
      cases hlater : tokenizeFrom [] (place.advance piece.text) piece.rest with
      | error fault =>
        rw [hlater] at h
        cases h
      | ok later =>
        rw [hlater] at h
        cases h
        obtain ⟨hispiece, hcut⟩ := firstPiece_eq_ok_iff.mp hpiece
        exact .cons hispiece hcut (ih hlater)
  · intro h
    induction h with
    | nil =>
      rw [tokenizeFrom]
      rfl
    | cons hpiece hcut _ ih =>
      rw [tokenizeFrom_cons_eq (firstPiece_of_isPiece hpiece hcut), ih]
      rfl

/-- The tokens of a text are those that its pieces have. -/
theorem tokenize_eq_ok_iff {text : String} {spans : List Span} :
    tokenize text = .ok spans ↔ AreTokens .start text.toList spans :=
  tokenizeFrom_eq_ok_iff

end MailFilter.Script
