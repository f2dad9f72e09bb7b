import MailFilter.Proofs.Script.BytewiseLoops

/-!
# Reading by positions is safe

Run on the bytes of a text, the lexer finds the same tokens and the same faults as on its
characters, and nothing else can happen: each loop ends and each access is right. An ASCII character
is one byte and is told by it. The bytes of another character begin no token, and neither does the
character.
-/

namespace MailFilter.Script.Bytewise

open Ascii (isSpace isDigit isLetter isWordChar lowerChar)
open String (utf8EncodeChar utf8Len)
open Utf8 (bytesOf)

variable {text : String} {front cs : List Char} {c : Char}

/-- Folding neither leads into ASCII nor out of it. -/
theorem toNat_lowerChar_lt_iff (c : Char) : (lowerChar c).toNat < 128 ↔ c.toNat < 128 := by
  rw [Ascii.toNat_lowerChar]
  split <;> omega

/-- The bytes at the front of some characters spell a mark if and only if the characters do. -/
theorem map_take_bytesOf {mark : List Char} (hmark : ∀ d ∈ mark, d.toNat < 128) (cs : List Char) :
    ((bytesOf cs).take mark.length).map (fun b => lowerChar (Char.ofUInt8 b)) = mark ↔
      (cs.take mark.length).map lowerChar = mark := by
  induction mark generalizing cs with
  | nil => simp
  | cons d mark ih =>
    rw [List.forall_mem_cons] at hmark
    cases cs with
    | nil => rfl
    | cons c cs =>
      rw [List.length_cons, List.take_succ_cons, List.map_cons, Utf8.bytesOf_cons]
      by_cases hc : c.toNat < 128
      · rw [Utf8.utf8EncodeChar_ascii hc, List.singleton_append, List.take_succ_cons, List.map_cons,
          Utf8.ofUInt8_ofNat hc, List.cons_eq_cons, List.cons_eq_cons, ih hmark.2]
      · obtain ⟨b, run, hbytes, -⟩ := Utf8.exists_utf8EncodeChar_eq_cons c
        have hb : 128 ≤ (Char.ofUInt8 b).toNat := by
          refine Utf8.le_of_mem_utf8EncodeChar (Nat.le_of_not_lt hc) ?_
          rw [hbytes]
          exact List.mem_cons_self
        have houtside : ∀ e : Char, 128 ≤ e.toNat → lowerChar e ≠ d := by
          rintro e he rfl
          exact absurd ((toNat_lowerChar_lt_iff e).mp hmark.1) (Nat.not_lt_of_le he)
        rw [hbytes, List.cons_append, List.take_succ_cons, List.map_cons]
        refine iff_of_false (fun heq => ?_) (fun heq => ?_)
        · exact houtside _ hb (List.cons.inj heq).1
        · exact houtside c (Nat.le_of_not_lt hc) (List.cons.inj heq).1

/-- A `t` is written in two ways. -/
theorem lowerChar_eq_t_iff : lowerChar c = 't' ↔ c = 't' ∨ c = 'T' := by
  rw [← Char.toNat_inj, ← Char.toNat_inj, ← Char.toNat_inj, Ascii.toNat_lowerChar]
  simp only [Char.reduceToNat]
  split <;> omega

/-- The mark of a multi-line string is recognised by its first five characters. -/
theorem isSome_afterTextMark? (cs : List Char) :
    (afterTextMark? cs).isSome =
      decide ((cs.take 5).map lowerChar = ['t', 'e', 'x', 't', ':']) := by
  rw [afterTextMark?]
  split
  · next hmark => exact (decide_eq_true hmark).symm
  · next hmark => exact (decide_eq_false hmark).symm

/-- The mark is found in the bytes of a text where its characters are. A text that is too short in
bytes is too short in characters. -/
theorem opensMultiline_eq (h : text.toList = front ++ c :: cs) :
    opensMultiline text c (utf8Len front) = pure (afterTextMark? (c :: cs)).isSome := by
  have hmark := @map_take_bytesOf ['t', 'e', 'x', 't', ':'] (by simp) (c :: cs)
  rw [opensMultiline, isSome_afterTextMark?]
  by_cases hc : lowerChar c = 't'
  · by_cases hsize : utf8Len front + 5 ≤ size text
    · have htaken : ((Utf8.encode text).drop (utf8Len front)).take
          (utf8Len front + 5 - utf8Len front) = (bytesOf (c :: cs)).take 5 := by
        rw [encode_eq h, List.drop_left' (Utf8.length_bytesOf front), Nat.add_sub_cancel_left]
      rw [if_pos ⟨lowerChar_eq_t_iff.mp hc, hsize⟩, bytes, if_pos ⟨Nat.le_add_right _ _, hsize⟩,
        pure_bind, htaken]
      exact congrArg pure (decide_eq_decide.mpr hmark)
    · have hne : ¬((c :: cs).take 5).map lowerChar = ['t', 'e', 'x', 't', ':'] := fun hspelled => by
        -- The five bytes of the mark would be in the text.
        have hlength := congrArg List.length (hmark.mpr hspelled)
        rw [List.length_map, List.length_take, Utf8.length_bytesOf] at hlength
        have hlong : 5 ≤ utf8Len (c :: cs) := min_eq_left_iff.mp hlength
        rw [size_eq h] at hsize
        omega
      rw [if_neg fun hboth => hsize hboth.2, decide_eq_false hne]
  · have hne : ¬((c :: cs).take 5).map lowerChar = ['t', 'e', 'x', 't', ':'] := fun hspelled =>
      hc (List.cons.inj hspelled).1
    rw [if_neg fun hboth => hc (lowerChar_eq_t_iff.mpr hboth.1), decide_eq_false hne]

/-- A slash opens a comment if a star is behind it. -/
theorem opensComment_eq (h : text.toList = front ++ c :: cs) :
    opensComment text c (utf8Len front) = pure (decide (c = '/' ∧ cs.head? = some '*')) := by
  rw [opensComment]
  by_cases hc : c = '/'
  · subst hc
    have hnext := append_cons_cut h
    rw [← Utf8.utf8Len_concat front (show '/'.toNat < 128 by decide)]
    cases cs with
    | nil =>
      have hsize := size_eq hnext
      rw [if_neg (by simp [hsize])]
      rfl
    | cons d cs =>
      rw [if_pos ⟨rfl, lt_size hnext⟩]
      by_cases hstar : d = '*'
      · subst hstar
        rw [look_ascii hnext (by decide)]
        rfl
      · obtain ⟨b, hb, hlook⟩ := exists_look hnext
        have hne := Utf8.ne_of_mem_utf8EncodeChar (by decide) hstar hb
        rw [hlook, pure_bind, decide_eq_false hne,
          decide_eq_false fun hopen => hstar (Option.some.inj hopen.2)]
  · rw [if_neg fun hslash => hc hslash.1, decide_eq_false fun hslash => hc hslash.1]

/-- The end of a number is behind its digits and its scale letter. -/
theorem scaleEnd_eq (h : text.toList = front ++ cs) :
    scaleEnd text (utf8Len (front ++ cs.takeWhile isDigit)) =
      pure (utf8Len (front ++ (numberPiece cs).text)) := by
  have hcut : text.toList = (front ++ cs.takeWhile isDigit) ++ cs.dropWhile isDigit := by
    rw [List.append_assoc, List.takeWhile_append_dropWhile, h]
  rw [scaleEnd, numberPiece]
  cases hrest : cs.dropWhile isDigit with
  | nil =>
    rw [hrest] at hcut
    have hsize := size_eq hcut
    rw [if_neg (by simp [hsize])]
  | cons d rest =>
    rw [hrest] at hcut
    rw [if_pos (lt_size hcut)]
    dsimp only
    by_cases hscale : isScale d = true
    · have hd := toNat_lt_of_isScale d hscale
      rw [look_ascii hcut hd, pure_bind, if_pos hscale, if_pos (isScale_iff_toLower.mp hscale),
        ← List.append_assoc, Utf8.utf8Len_concat _ hd]
    · obtain ⟨b, hb, hlook⟩ := exists_look hcut
      have hbyte : ¬isScale (Char.ofUInt8 b) = true := by
        rwa [Utf8.test_of_mem_utf8EncodeChar (outside_of_ascii toNat_lt_of_isScale) hb]
      rw [hlook, pure_bind, if_neg hbyte, if_neg (isScale_iff_toLower.not.mp hscale)]

/-- A character that begins no token. -/
structure IsUnfit (c : Char) : Prop where
  space : isSpace c = false
  punctuation : punctuation? c = none
  mark : ∀ d : Char, d.toNat < 128 → c ≠ d
  digit : isDigit c = false
  word : (isLetter c || c == '_') = false

/-- No character outside ASCII can begin a token. -/
theorem isUnfit_outside (hc : 128 ≤ c.toNat) : IsUnfit c where
  space := outside_of_ascii toNat_lt_of_isSpace c hc
  punctuation := by
    unfold punctuation?
    split
    case h_9 => rfl
    all_goals exact absurd hc (by decide)
  mark d hd := by
    rintro rfl
    exact absurd hc (Nat.not_le_of_lt hd)
  digit := outside_of_ascii toNat_lt_of_isDigit c hc
  word := Bool.eq_false_iff.mpr fun hword => by
    have hlt := toNat_lt_of_isWordChar (isWordChar_of_isWordStart hword)
    omega

/-- A character that can begin nothing is refused. -/
theorem IsUnfit.firstPiece_eq (h : IsUnfit c) (cs : List Char) :
    firstPiece c cs = .error ⟨.unexpectedChar c, []⟩ := by
  have hmark : afterTextMark? (c :: cs) = none := afterTextMark?_other (fun ht =>
    (lowerChar_eq_t_iff.mp ht).elim (h.mark _ (by decide)) (h.mark _ (by decide))) cs
  have hslash : ¬(c = '/' ∧ cs.head? = some '*') := fun hopen => h.mark _ (by decide) hopen.1
  rw [firstPiece, h.space, if_neg Bool.false_ne_true, h.punctuation]
  dsimp only
  rw [if_neg (h.mark _ (by decide)), if_neg hslash, if_neg (h.mark _ (by decide)), hmark]
  dsimp only
  rw [if_neg (h.mark _ (by decide)), h.digit, if_neg Bool.false_ne_true, h.word,
    if_neg Bool.false_ne_true]

/-- What a reading by positions finds behind a front of a text: the first piece of the rest, or the
reason why there is none. -/
def outcome (text : String) (front : List Char) : Except LexFault Piece → Scan (Option Token × Nat)
  | .ok piece => pure (piece.token, utf8Len (front ++ piece.text))
  | .error fault => refuse text (utf8Len (front ++ fault.before)) fault.cause

/-- By bytes the refusal names the same character. -/
theorem unexpected_eq (h : text.toList = front ++ c :: cs) :
    (do
      let rest ← slice text (utf8Len front) (size text)
      refuse text (utf8Len front) (.unexpectedChar (rest.toList.head?.getD '?'))) =
      outcome text front (.error ⟨.unexpectedChar c, []⟩) := by
  have hsize : size text = utf8Len (front ++ c :: cs) := by
    rw [size_eq h, String.utf8Len_append]
  have hrest : slice text (utf8Len front) (utf8Len (front ++ c :: cs)) =
      pure (String.ofList (c :: cs)) := slice_eq (h.trans (by rw [List.append_nil]))
  rw [hsize, hrest, pure_bind, String.toList_ofList, outcome, List.append_nil]
  rfl

/-- No byte of a character outside ASCII begins a token. -/
theorem piece_outside (h : text.toList = front ++ c :: cs) (hc : 128 ≤ c.toNat) :
    piece text (utf8Len front) = outcome text front (firstPiece c cs) := by
  obtain ⟨b, hb, hlook⟩ := exists_look h
  have hbyte : IsUnfit (Char.ofUInt8 b) := isUnfit_outside (Utf8.le_of_mem_utf8EncodeChar hc hb)
  have hslash : opensComment text (Char.ofUInt8 b) (utf8Len front) = pure false :=
    if_neg fun hopen => hbyte.mark _ (by decide) hopen.1
  have hmark : opensMultiline text (Char.ofUInt8 b) (utf8Len front) = pure false :=
    if_neg fun hopen => hopen.1.elim (hbyte.mark _ (by decide)) (hbyte.mark _ (by decide))
  rw [(isUnfit_outside hc).firstPiece_eq, ← unexpected_eq h, piece, hlook, pure_bind, hbyte.space,
    if_neg Bool.false_ne_true, hbyte.punctuation]
  dsimp only
  rw [if_neg (hbyte.mark _ (by decide)), hslash, pure_bind, if_neg Bool.false_ne_true,
    if_neg (hbyte.mark _ (by decide)), hmark, pure_bind, if_neg Bool.false_ne_true,
    if_neg (hbyte.mark _ (by decide)), hbyte.digit, if_neg Bool.false_ne_true, hbyte.word,
    if_neg Bool.false_ne_true]

/-- By bytes a comment has the same end, or is open just as well. -/
theorem comment_eq {inner : List Char} (h : text.toList = front ++ '/' :: '*' :: inner) :
    (do return (none, ← commentEnd text (utf8Len front) (utf8Len front + 2))) =
      outcome text front (match blockComment ['*', '/'] inner with
        | some (text, rest) => .ok ⟨none, text, rest⟩
        | none => .error ⟨.openComment, []⟩) := by
  have hinner : text.toList = front ++ ['*', '/'].reverse ++ inner := by
    rw [h, List.append_assoc]
    rfl
  have hbehind : utf8Len (front ++ ['*', '/'].reverse) = utf8Len front + 2 :=
    String.utf8Len_append front ['/', '*']
  rw [← hbehind, commentEnd_eq _ hinner]
  cases blockComment ['*', '/'] inner with
  | none =>
    dsimp only
    rw [refuse_bind, outcome, List.append_nil]
  | some read => rfl

/-- By bytes a quoted string has the same contents and the same end, or is open just as well. -/
theorem string_eq (h : text.toList = front ++ '"' :: cs) :
    (do
      let (buffer, stop) ← quoted text (utf8Len front) (utf8Len front + 1) []
      return (some (.quoted (← decode buffer)), stop)) =
      outcome text front (match quotedString [] ['"'] cs with
        | some (contents, text, rest) => .ok ⟨some (.quoted (String.ofList contents)), text, rest⟩
        | none => .error ⟨.openString, []⟩) := by
  have hbehind : utf8Len (front ++ ['"'].reverse) = utf8Len front + 1 :=
    String.utf8Len_append front ['"']
  have hread := @quoted_eq text front cs [] ['"'] (utf8Len front) (append_cons_cut h)
  rw [hbehind, List.reverse_nil, Utf8.bytesOf_nil] at hread
  rw [hread]
  cases quotedString [] ['"'] cs with
  | none =>
    dsimp only
    rw [refuse_bind, outcome, List.append_nil]
  | some read =>
    dsimp only
    rw [pure_bind, decode_bytesOf]
    rfl

/-- The mark of a multi-line string takes five bytes. -/
theorem utf8Len_mark {mark : List Char} (h : mark.map lowerChar = ['t', 'e', 'x', 't', ':']) :
    utf8Len mark = 5 := by
  have hascii : ∀ c ∈ mark, c.toNat < 128 := fun c hc => by
    have hlower : lowerChar c ∈ ['t', 'e', 'x', 't', ':'] := by
      rw [← h]
      exact List.mem_map_of_mem hc
    have hall : ∀ d ∈ ['t', 'e', 'x', 't', ':'], d.toNat < 128 := by simp
    exact (toNat_lowerChar_lt_iff c).mp (hall _ hlower)
  rw [Utf8.utf8Len_ascii hascii, ← List.length_map (f := lowerChar), h]
  rfl

/-- By bytes a multi-line string has the same contents and the same end, or the same refusal. -/
theorem multiline_eq {mark after : List Char} (h : text.toList = front ++ (mark ++ after))
    (hmark : mark.map lowerChar = ['t', 'e', 'x', 't', ':']) :
    multiline text (utf8Len front) = outcome text front (multilineString mark after) := by
  have hafter : text.toList = (front ++ mark) ++ after := by rw [h, List.append_assoc]
  have hbehind : utf8Len front + 5 = utf8Len (front ++ mark) := by
    rw [String.utf8Len_append, utf8Len_mark hmark]
  rw [multiline, hbehind, openerEnd_eq hafter, ← firstLine_contents, multilineString]
  by_cases hblank : isOpenerRest (firstLine after).contents = true
  · have hread : front ++ (mark ++ (firstLine after).text).reverse.reverse =
        front ++ mark ++ (firstLine after).text := by
      rw [List.reverse_reverse, List.append_assoc]
    have hrest : text.toList =
        front ++ (mark ++ (firstLine after).text).reverse.reverse ++ (firstLine after).rest := by
      rw [hread, List.append_assoc, firstLine_text_append_rest, hafter]
    have hbody := @body_eq text front _ [] _ (utf8Len front) hrest
    rw [hread, show String.ofList [].reverse = "" from rfl] at hbody
    rw [if_pos hblank, if_pos hblank, pure_bind]
    dsimp only
    rw [firstLine_next hafter, hbody]
    cases multilineBody [] (mark ++ (firstLine after).text).reverse (firstLine after).rest with
    | none =>
      dsimp only
      rw [refuse_bind, outcome, List.append_nil]
    | some read => rfl
  · rw [if_neg hblank, if_neg hblank, refuse_bind, outcome, List.append_assoc]

/-- By bytes a tag is the same, or has no name just as well. -/
theorem tag_eq (h : text.toList = front ++ ':' :: cs) :
    (do
      let stop ← skipWhile text isWordChar (utf8Len front + 1)
      if stop = utf8Len front + 1 then refuse text (utf8Len front) .emptyTag
      else return (some (.tag (Ascii.lower (← slice text (utf8Len front) stop))), stop)) =
      outcome text front (match cs.takeWhile isWordChar with
        | [] => .error ⟨.emptyTag, []⟩
        | word => .ok ⟨some (.tag (Ascii.lower (String.ofList (':' :: word)))), ':' :: word,
            cs.dropWhile isWordChar⟩) := by
  have hcolon := append_cons_cut h
  have hbehind : utf8Len (front ++ [':']) = utf8Len front + 1 := Utf8.utf8Len_concat _ (by decide)
  have hcut :
      text.toList = front ++ (':' :: cs.takeWhile isWordChar ++ cs.dropWhile isWordChar) := by
    rw [List.cons_append, List.takeWhile_append_dropWhile, h]
  rw [← hbehind, skipWhile_eq isWordChar_outside hcolon, pure_bind]
  cases hword : cs.takeWhile isWordChar with
  | nil =>
    rw [List.append_nil, if_pos rfl, outcome, List.append_nil]
  | cons c word =>
    rw [hword] at hcut
    have hlonger : utf8Len (front ++ [':'] ++ c :: word) ≠ utf8Len (front ++ [':']) := by
      have hpos := c.utf8Size_pos
      rw [String.utf8Len_append, String.utf8Len_cons]
      omega
    rw [if_neg hlonger, List.append_assoc, List.singleton_append, slice_eq hcut]
    rfl

/-- A number is named by the front of the text that it takes up. -/
theorem numberPiece_cut (cs : List Char) :
    (numberPiece cs).token = some (.number (String.ofList (numberPiece cs).text)) ∧
      (numberPiece cs).text ++ (numberPiece cs).rest = cs := by
  have hcut := List.takeWhile_append_dropWhile (p := isDigit) (l := cs)
  rw [numberPiece]
  cases hrest : cs.dropWhile isDigit with
  | nil =>
    rw [hrest] at hcut
    exact ⟨rfl, hcut⟩
  | cons d rest =>
    rw [hrest] at hcut
    dsimp only
    split
    · exact ⟨rfl, by rw [List.append_assoc]; exact hcut⟩
    · exact ⟨rfl, hcut⟩

/-- By bytes a number is the same. -/
theorem number_eq (h : text.toList = front ++ cs) :
    (do
      let stop ← scaleEnd text (← skipWhile text isDigit (utf8Len front))
      return (some (.number (← slice text (utf8Len front) stop)), stop)) =
      outcome text front (.ok (numberPiece cs)) := by
  obtain ⟨htoken, happend⟩ := numberPiece_cut cs
  rw [skipWhile_eq (outside_of_ascii toNat_lt_of_isDigit) h, pure_bind, scaleEnd_eq h, pure_bind,
    slice_eq (h.trans (by rw [happend])), pure_bind, outcome, htoken]

/-- By bytes an identifier is the same. -/
theorem identifier_eq (h : text.toList = front ++ c :: cs) (hc : isWordChar c = true) :
    (do
      let stop ← skipWhile text isWordChar (utf8Len front)
      return (some (.identifier (← slice text (utf8Len front) stop)), stop)) =
      outcome text front (.ok
        (pieceWhile isWordChar [c] (fun text => some (.identifier (String.ofList text))) cs)) := by
  have hword : (c :: cs).takeWhile isWordChar = c :: cs.takeWhile isWordChar :=
    List.takeWhile_cons_of_pos hc
  have hcut : text.toList = front ++ (c :: cs.takeWhile isWordChar ++ cs.dropWhile isWordChar) := by
    rw [List.cons_append, List.takeWhile_append_dropWhile, h]
  rw [skipWhile_eq isWordChar_outside h, pure_bind, hword, slice_eq hcut]
  rfl

/-- The byte of an ASCII character goes through the same tests as the character. -/
theorem piece_ascii (h : text.toList = front ++ c :: cs) (hc : c.toNat < 128) :
    piece text (utf8Len front) = outcome text front (firstPiece c cs) := by
  have hone := Utf8.utf8Len_concat front hc
  rw [piece, look_ascii h hc, pure_bind, firstPiece]
  by_cases hspace : isSpace c = true
  · rw [if_pos hspace, if_pos hspace, outcome, hone]
  rw [if_neg hspace, if_neg hspace]
  cases hpunctuation : punctuation? c with
  | some token =>
    dsimp only
    rw [outcome, hone]
  | none =>
    dsimp only
    by_cases hhash : c = '#'
    · subst hhash
      rw [if_pos rfl, if_pos rfl, skipWhile_eq ne_newline_outside h, pure_bind]
      rfl
    rw [if_neg hhash, if_neg hhash, opensComment_eq h, pure_bind]
    by_cases hcomment : c = '/' ∧ cs.head? = some '*'
    · rw [if_pos (by simpa using hcomment), if_pos hcomment]
      obtain ⟨rfl, hstar⟩ := hcomment
      obtain ⟨inner, rfl⟩ := List.head?_eq_some_iff.mp hstar
      exact comment_eq h
    rw [if_neg (by simpa using hcomment), if_neg hcomment]
    by_cases hquote : c = '"'
    · subst hquote
      rw [if_pos rfl, if_pos rfl]
      exact string_eq h
    rw [if_neg hquote, if_neg hquote, opensMultiline_eq h, pure_bind]
    cases hmark : afterTextMark? (c :: cs) with
    | some found =>
      obtain ⟨hspelled, hcut⟩ := afterTextMark?_eq_some_iff.mp hmark
      rw [Option.isSome_some, if_pos rfl]
      exact multiline_eq (by rw [h, hcut]) hspelled
    | none =>
      rw [Option.isSome_none, if_neg Bool.false_ne_true]
      dsimp only
      by_cases hcolon : c = ':'
      · subst hcolon
        rw [if_pos rfl, if_pos rfl]
        exact tag_eq h
      rw [if_neg hcolon, if_neg hcolon]
      by_cases hdigit : isDigit c = true
      · rw [if_pos hdigit, if_pos hdigit]
        exact number_eq h
      rw [if_neg hdigit, if_neg hdigit]
      by_cases hstart : (isLetter c || c == '_') = true
      · rw [if_pos hstart, if_pos hstart]
        exact identifier_eq h (isWordChar_of_isWordStart hstart)
      rw [if_neg hstart, if_neg hstart]
      exact unexpected_eq h

/-- By bytes each piece is the same, and so is each refusal. -/
theorem piece_eq (h : text.toList = front ++ c :: cs) :
    piece text (utf8Len front) = outcome text front (firstPiece c cs) :=
  (Nat.lt_or_ge c.toNat 128).elim (piece_ascii h) (piece_outside h)

/-- The result of a reading that only ever halts because of a fault. -/
def settled (result : Except Fault (List Span)) : Scan (List Span) :=
  ExceptT.mk (some (result.mapError .refused))

/-- One round of the main loop takes one piece. Behind it the position is again at the end of a
character, and it has moved on. -/
theorem tokensFrom_eq (found : List Span) (h : text.toList = front ++ cs) :
    tokensFrom text (utf8Len front) found.reverse =
      settled (tokenizeFrom found (.behind front) cs) := by
  induction cs using piece_induction generalizing front found with
  | nil =>
    have hsize := size_eq h
    rw [tokensFrom_unfold, if_neg (by simp [hsize]), tokenizeFrom]
    rfl
  | fault c cs fault hpiece =>
    obtain ⟨d, back, hfault⟩ := firstPiece_fault hpiece
    have hcut : text.toList = (front ++ fault.before) ++ d :: back := by
      rw [h, hfault, List.append_assoc]
    rw [tokensFrom_unfold, if_pos (lt_size h), piece_eq h, hpiece, outcome, refuse_bind,
      refuse_eq hcut, tokenizeFrom_cons_error hpiece, Place.advance_behind]
    rfl
  | piece c cs piece hpiece ih =>
    have hnext : text.toList = (front ++ piece.text) ++ piece.rest := by
      rw [List.append_assoc, firstPiece_append hpiece, h]
    rw [tokensFrom_unfold, if_pos (lt_size h), piece_eq h, hpiece, outcome, pure_bind,
      tokenizeFrom_cons_ok hpiece, Place.advance_behind]
    dsimp only
    cases piece.token with
    | none => exact ih found hnext
    | some token =>
      have hle : utf8Len front ≤ utf8Len (front ++ piece.text) := by
        rw [String.utf8Len_append]
        exact Nat.le_add_right _ _
      dsimp only
      rw [position_eq h, pure_bind]
      dsimp only
      rw [difference_eq hle, pure_bind, ← ih _ hnext, List.reverse_cons]
      rfl

/-- Read by positions, a text has the tokens and the faults that it has when it is read by
characters. Each loop of the reading ends, each position is in range, each slice begins and ends
with a character, and no bytes are taken for a text that they are not. The bytes of a quoted string
are those of its contents, in which a backslash is dropped and the character behind it is kept, of
however many bytes that character is. -/
theorem tokenize_safe (text : String) :
    (tokenize text).run = some ((Script.tokenize text).mapError .refused) ∧
    ∀ front body contents back, IsQuoted body contents →
      text.toList = front ++ '"' :: (body ++ '"' :: back) →
      quoted text (utf8Len front) (utf8Len front + 1) [] =
        pure (Utf8.encode (String.ofList contents), utf8Len front + utf8Len body + 2) := by
  refine ⟨congrArg ExceptT.run (@tokensFrom_eq text [] _ [] rfl), ?_⟩
  intro front body contents back hbody h
  have hfirst : utf8Len (front ++ ['"'].reverse) = utf8Len front + 1 :=
    String.utf8Len_append front ['"']
  have hlast : utf8Len (front ++ (['"'].reverse ++ (body ++ ['"']))) =
      utf8Len front + utf8Len body + 2 := by
    have hquote : utf8Len ['"'] = 1 := rfl
    rw [String.utf8Len_append, String.utf8Len_append, String.utf8Len_append, List.reverse_singleton,
      hquote]
    omega
  have hread := @quoted_eq text front _ [] ['"'] (utf8Len front) (append_cons_cut h)
  rw [quotedString_of_isQuoted hbody, hfirst] at hread
  dsimp only at hread
  rw [hlast, List.reverse_nil, List.nil_append] at hread
  rw [Utf8.encode_ofList]
  exact hread

/-- An escaped character of two bytes, and a comment with such a character in it, are read by bytes
without a wrong access. -/
theorem tokenize_safe_escaped :
    let text := "\"\\é\" /* é */;"
    (tokenize text).run =
        some (.ok [⟨.quoted "é", ⟨0, 1, 1⟩, 5⟩, ⟨.semicolon, ⟨14, 1, 15⟩, 1⟩]) ∧
      IsQuoted ['\\', 'é'] ['é'] ∧ quoted text 0 1 [] = pure (Utf8.encode "é", 5) := by
  intro text
  have htokens : Script.tokenize text =
      .ok [⟨.quoted "é", ⟨0, 1, 1⟩, 5⟩, ⟨.semicolon, ⟨14, 1, 15⟩, 1⟩] := by decide +kernel
  have hquoted : IsQuoted ['\\', 'é'] ['é'] := .escaped .nil
  have hcut : text.toList = '"' :: (['\\', 'é'] ++ '"' :: " /* é */;".toList) := by decide +kernel
  refine ⟨?_, hquoted, (tokenize_safe text).2 [] _ _ _ hquoted hcut⟩
  rw [(tokenize_safe text).1, htokens]
  rfl

end MailFilter.Script.Bytewise
