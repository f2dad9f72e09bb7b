import MailFilter.Proofs.Script.Pieces

/-!
# Tokens tile the text

A text that is cut into tokens consists of their words and of gaps around them, and nothing in it is
passed over or read twice. The offset and the size of a token count the bytes before its word and
those of the word, so both of its ends are ends of characters. Its line and column are those of its
offset, told by the newlines before it, and a text that cannot be cut is refused at an offset in it
by the same rule.
-/

namespace MailFilter.Script

open Ascii (isSpace)

/-- What may stand between two tokens before the rest of a text: white space, comments to the end of
a line and closed comments. The line of a comment ends with a newline or with the whole text. -/
inductive IsGap (rest : List Char) : List Char → Prop where
  | nil : IsGap rest []
  | space {c : Char} {gap : List Char} (hspace : isSpace c = true) (hgap : IsGap rest gap) :
      IsGap rest (c :: gap)
  | lineComment {body gap : List Char} (hbody : '\n' ∉ body)
      (hend : gap.head? = some '\n' ∨ gap = [] ∧ rest = []) (hgap : IsGap rest gap) :
      IsGap rest ('#' :: (body ++ gap))
  | blockComment {body gap : List Char} (hbody : IsComment body) (hgap : IsGap rest gap) :
      IsGap rest ('/' :: '*' :: (body ++ '*' :: '/' :: gap))

/-- The place behind a front of a text: the bytes in it, one more than the newlines in it, and one
more than the bytes in it since the last newline. -/
def Place.behind (front : List Char) : Place where
  offset := String.utf8Len front
  line := 1 + front.count '\n'
  column := 1 + String.utf8Len (front.reverse.takeWhile (· != '\n'))

/-- Behind a front of a text, the rest of it consists of the words of some tokens in their order,
with a gap before each and at the end. A token has the place where its word begins and the number
of its bytes. -/
inductive Tiles : List Char → List Char → List Span → Prop where
  | last {front gap : List Char} (hgap : IsGap [] gap) : Tiles front gap []
  | span {front gap word rest : List Char} {c : Char} {span : Span} {later : List Span}
      (hgap : IsGap (c :: word ++ rest) gap) (hc : isSpace c = false)
      (hplace : span.place = .behind (front ++ gap))
      (hsize : span.size = String.utf8Len (c :: word))
      (hlater : Tiles (front ++ gap ++ c :: word) rest later) :
      Tiles front (gap ++ (c :: word ++ rest)) (span :: later)

/-- The place behind one more character is one step further. -/
theorem Place.behind_append_singleton (front : List Char) (c : Char) :
    Place.behind (front ++ [c]) = (Place.behind front).step c := by
  rw [step]
  by_cases hc : c = '\n'
  · subst hc
    have hsize : ('\n' : Char).utf8Size = 1 := rfl
    simp [behind, hsize, Nat.add_assoc]
  · have hne : (c != '\n') = true := by simpa using hc
    rw [if_neg hc]
    have hcount : [c].count '\n' = 0 := List.count_eq_zero.mpr (by simpa using Ne.symm hc)
    simp [behind, hne, hcount, Nat.add_comm, Nat.add_left_comm]

/-- Going through a text counts its bytes, its newlines and the bytes since the last of them. -/
theorem Place.start_advance (front : List Char) : start.advance front = Place.behind front := by
  induction front using List.reverseRecOn with
  | nil => rfl
  | append_singleton front c ih =>
    rw [advance_append, ih, behind_append_singleton]
    rfl

/-- Passing a text from the place behind another leads behind both. -/
theorem Place.advance_behind (front text : List Char) :
    (behind front).advance text = behind (front ++ text) := by
  rw [← start_advance, ← start_advance, advance_append]

/-- A stretch that is skipped makes a gap longer. The newline behind a comment belongs to the gap,
because no word begins with it. -/
theorem IsGap.prepend {text gap rest : List Char} (hpiece : IsPiece ⟨none, text, gap ++ rest⟩)
    (hrest : rest.head? ≠ some '\n') (hgap : IsGap rest gap) : IsGap rest (text ++ gap) := by
  cases hpiece with
  | space hspace => exact .space hspace hgap
  | lineComment htext hstop =>
    refine .lineComment htext ?_ hgap
    cases gap with
    | nil =>
      refine .inr ⟨rfl, ?_⟩
      cases rest with
      | nil => rfl
      | cons c rest =>
        have hc : c = '\n' := by simpa using hstop c rfl
        exact absurd (congrArg some hc) hrest
    | cons c gap =>
      have hc : c = '\n' := by simpa using hstop c rfl
      exact .inl (congrArg some hc)
  | blockComment hbody =>
    rw [List.cons_append, List.cons_append, List.append_assoc]
    exact .blockComment hbody hgap

/-- A gap in front of a tiling is part of its first gap. -/
theorem Tiles.prepend {front text rest : List Char} {spans : List Span}
    (hpiece : IsPiece ⟨none, text, rest⟩) (h : Tiles (front ++ text) rest spans) :
    Tiles front (text ++ rest) spans := by
  cases h with
  | last hgap =>
    rw [← List.append_nil rest] at hpiece
    exact .last (.prepend hpiece nofun hgap)
  | @span _ gap word rest c span later hgap hc hplace hsize hlater =>
    have hword : (c :: word ++ rest).head? ≠ some '\n' := by
      rintro ⟨⟩
      cases hc
    rw [← List.append_assoc]
    refine .span (.prepend hpiece hword hgap) hc ?_ hsize ?_
    · rw [hplace, List.append_assoc]
    · rw [← List.append_assoc front]
      exact hlater

/-- A token is written with at least one character, and not with white space first. -/
theorem exists_word {token : Token} {text rest cs : List Char} {c : Char}
    (hpiece : IsPiece ⟨some token, text, rest⟩) (hcut : text ++ rest = c :: cs) :
    ∃ word, text = c :: word ∧ isSpace c = false := by
  have hfirst := firstPiece_of_isPiece hpiece hcut
  have hspace : isSpace c = false := by
    refine Bool.eq_false_iff.mpr fun hspace => ?_
    rw [firstPiece, if_pos hspace] at hfirst
    cases hfirst
  cases text with
  | nil =>
    have hlength := firstPiece_rest_length hfirst
    rw [← hcut] at hlength
    exact absurd hlength (Nat.lt_irrefl _)
  | cons d word =>
    obtain ⟨rfl, -⟩ := List.cons.inj hcut
    exact ⟨word, rfl, hspace⟩

/-- The tokens of a text tile it. -/
theorem AreTokens.tiles {place : Place} {cs : List Char} {spans : List Span}
    (h : AreTokens place cs spans) {front : List Char} (hplace : place = .behind front) :
    Tiles front cs spans := by
  induction h generalizing front with
  | nil => exact .last .nil
  | @cons place c cs piece later hpiece hcut hlater ih =>
    have hnext : place.advance piece.text = .behind (front ++ piece.text) := by
      rw [hplace, Place.advance_behind]
    have hbehind := ih hnext
    obtain ⟨token, text, rest⟩ := piece
    cases token with
    | none =>
      rw [← hcut]
      exact .prepend hpiece hbehind
    | some token =>
      obtain ⟨word, rfl, hc⟩ := exists_word hpiece hcut
      rw [← hcut]
      refine @Tiles.span _ [] _ _ _ _ _ .nil hc ?_ ?_ ?_
      · rw [List.append_nil, hplace]
      · exact Nat.sub_eq_of_eq_add' (Place.offset_advance place _)
      · rw [List.append_nil]
        exact hbehind

/-- The offset behind the last byte of a token. -/
def Span.stop (span : Span) : Nat :=
  span.place.offset + span.size

/-- Each word begins where a front of the text ends, and ends where a longer one does. -/
theorem Tiles.exists_fronts {front cs : List Char} {spans : List Span} (h : Tiles front cs spans) :
    ∀ span ∈ spans, ∃ before word after, front ++ cs = before ++ (word ++ after) ∧ word ≠ [] ∧
      span.place.offset = String.utf8Len before ∧ span.size = String.utf8Len word := by
  induction h with
  | last hgap => exact List.forall_mem_nil _
  | @span front gap word rest c span later hgap hc hplace hsize hlater ih =>
    have hcut : front ++ (gap ++ (c :: word ++ rest)) = front ++ gap ++ (c :: word ++ rest) :=
      (List.append_assoc _ _ _).symm
    refine List.forall_mem_cons.mpr ⟨?_, fun other hother => ?_⟩
    · exact ⟨front ++ gap, c :: word, rest, hcut, List.cons_ne_nil _ _,
        congrArg Place.offset hplace, hsize⟩
    · obtain ⟨before, written, after, hcut', hother⟩ := ih other hother
      refine ⟨before, written, after, ?_, hother⟩
      rw [hcut, ← hcut', ← List.append_assoc]

/-- No word begins before the front that its text stands behind, and none before the end of a word
that precedes it. -/
theorem Tiles.pairwise {front cs : List Char} {spans : List Span} (h : Tiles front cs spans) :
    (∀ span ∈ spans, String.utf8Len front ≤ span.place.offset) ∧
      spans.Pairwise fun span later => span.stop ≤ later.place.offset := by
  induction h with
  | last hgap => exact ⟨List.forall_mem_nil _, .nil⟩
  | @span front gap word rest c span later hgap hc hplace hsize hlater ih =>
    have hoffset : span.place.offset = String.utf8Len (front ++ gap) :=
      congrArg Place.offset hplace
    have hstop : span.stop = String.utf8Len (front ++ gap ++ c :: word) := by
      rw [Span.stop, hoffset, hsize, ← String.utf8Len_append]
    have hfront : String.utf8Len front ≤ span.place.offset := by
      rw [hoffset, String.utf8Len_append]
      exact Nat.le_add_right _ _
    refine ⟨List.forall_mem_cons.mpr ⟨hfront, fun other hother => ?_⟩,
      .cons (fun other hother => ?_) ih.2⟩
    · have hle : span.place.offset ≤ span.stop := Nat.le_add_right _ _
      exact hfront.trans (hle.trans (hstop ▸ ih.1 other hother))
    · exact hstop ▸ ih.1 other hother

/-- The bytes of a front of a text end where one of its characters ends. -/
theorem isValid_utf8Len {text : String} {front back : List Char} (h : text.toList = front ++ back) :
    String.Pos.Raw.IsValid text ⟨String.utf8Len front⟩ := by
  refine String.Pos.Raw.isValid_iff_exists_append.mpr
    ⟨String.ofList front, String.ofList back, ?_, ?_⟩
  · rw [← String.ofList_append, ← h, String.ofList_toList]
  · exact String.Pos.Raw.ext (String.utf8ByteSize_ofList front).symm

/-- The first line contains what is before the first newline. -/
theorem firstLine_contents (cs : List Char) :
    (firstLine cs).contents = cs.takeWhile (· != '\n') := by
  unfold firstLine
  split <;> rfl

/-- What may not stand in the line that opens a multi-line string stands behind its blanks. -/
theorem exists_of_not_isOpenerRest {after : List Char}
    (h : ¬isOpenerRest (firstLine after).contents = true) :
    ∃ d back, after = openerBlank (firstLine after).contents ++ d :: back := by
  obtain ⟨tail, hline⟩ : ∃ tail, after = (firstLine after).contents ++ tail :=
    ⟨after.dropWhile (· != '\n'), by rw [firstLine_contents, List.takeWhile_append_dropWhile]⟩
  generalize (firstLine after).contents = contents at h hline
  have hcut : openerBlank contents ++ contents.dropWhile isSpace = contents :=
    List.takeWhile_append_dropWhile
  rw [isOpenerRest] at h
  cases hstop : contents.dropWhile isSpace with
  | nil =>
    rw [hstop] at h
    exact absurd rfl h
  | cons d back =>
    rw [hstop] at hcut
    refine ⟨d, back ++ tail, ?_⟩
    rw [← List.cons_append, ← List.append_assoc, hcut, hline]

/-- A fault points at a character of the text. -/
theorem firstPiece_fault {c : Char} {cs : List Char} {fault : LexFault}
    (h : firstPiece c cs = .error fault) : ∃ d back, c :: cs = fault.before ++ d :: back := by
  unfold firstPiece at h
  split at h
  · cases h
  split at h
  · cases h
  split at h
  · cases h
  split at h
  · split at h
    · cases h
    · cases h; exact ⟨c, cs, rfl⟩
  split at h
  · split at h
    · cases h
    · cases h; exact ⟨c, cs, rfl⟩
  split at h
  · next mark after hmark =>
    obtain ⟨-, hcut⟩ := afterTextMark?_eq_some_iff.mp hmark
    rw [multilineString] at h
    split at h
    · split at h
      · cases h
      · cases h; exact ⟨c, cs, rfl⟩
    · next hrest =>
      cases h
      obtain ⟨d, back, hafter⟩ := exists_of_not_isOpenerRest hrest
      exact ⟨d, back, by rw [hcut, List.append_assoc, ← hafter]⟩
  split at h
  · split at h
    · cases h; exact ⟨c, cs, rfl⟩
    · cases h
  split at h
  · cases h
  split at h
  · cases h
  · cases h; exact ⟨c, cs, rfl⟩

/-- The lexer fails at a character of the text, and names the place behind what is before it. -/
theorem tokenizeFrom_fault {front cs : List Char} {fault : Fault}
    (h : tokenizeFrom [] (.behind front) cs = .error fault) :
    ∃ before d back cause, front ++ cs = before ++ d :: back ∧
      fault = .parse (Place.behind before).line (Place.behind before).column cause := by
  induction cs using piece_induction generalizing front with
  | nil =>
    rw [tokenizeFrom] at h
    cases h
  | fault c cs cause hpiece =>
    rw [tokenizeFrom_cons_error hpiece] at h
    cases h
    obtain ⟨d, back, hcut⟩ := firstPiece_fault hpiece
    refine ⟨front ++ cause.before, d, back, cause.cause, ?_, ?_⟩
    · rw [hcut, List.append_assoc]
    · rw [Place.advance_behind]
  | piece c cs piece hpiece ih =>
    rw [tokenizeFrom_cons_eq hpiece, Place.advance_behind] at h
    cases hlater : tokenizeFrom [] (.behind (front ++ piece.text)) piece.rest with
    | ok later =>
      rw [hlater] at h
      cases h
    | error found =>
      rw [hlater] at h
      cases h
      obtain ⟨before, d, back, cause, hcut, hfault⟩ := ih hlater
      refine ⟨before, d, back, cause, ?_, hfault⟩
      rw [← hcut, List.append_assoc, firstPiece_append hpiece]

/-- The tokens of a text tile it: their words are not empty, begin and end where characters do,
follow one another without an overlap, and have nothing but gaps before, between and behind them.
The line and column of each are counted up to its offset. A text that cannot be cut is refused at a
place counted up to one of its characters. -/
theorem tokenize_tiles (text : String) :
    (∀ spans, tokenize text = .ok spans →
      Tiles [] text.toList spans ∧
      spans.Pairwise (fun span later => span.stop ≤ later.place.offset) ∧
      ∀ span ∈ spans, 0 < span.size ∧ String.Pos.Raw.IsValid text ⟨span.place.offset⟩ ∧
        String.Pos.Raw.IsValid text ⟨span.stop⟩) ∧
    ∀ fault, tokenize text = .error fault →
      ∃ front c back cause, text.toList = front ++ c :: back ∧
        fault = .parse (Place.behind front).line (Place.behind front).column cause := by
  refine ⟨fun spans h => ?_, fun fault h => @tokenizeFrom_fault [] _ _ h⟩
  have htiles : Tiles [] text.toList spans := (tokenize_eq_ok_iff.mp h).tiles rfl
  refine ⟨htiles, htiles.pairwise.2, fun span hspan => ?_⟩
  obtain ⟨before, word, after, hcut, hword, hoffset, hsize⟩ := htiles.exists_fronts span hspan
  have hstop : span.stop = String.utf8Len (before ++ word) := by
    rw [Span.stop, hoffset, hsize, String.utf8Len_append]
  refine ⟨?_, ?_, ?_⟩
  · rw [hsize]
    exact Nat.pos_of_ne_zero (String.utf8Len_eq_zero.not.mpr hword)
  · rw [hoffset]
    exact isValid_utf8Len hcut
  · rw [hstop]
    exact isValid_utf8Len (hcut.trans (List.append_assoc _ _ _).symm)

/-- Two tokens with a comment between them and one behind, and a character that cannot be read at
the place where it stands. -/
theorem tokenize_tiles_commented :
    let spans : List Span := [⟨.identifier "keep", ⟨0, 1, 1⟩, 4⟩, ⟨.semicolon, ⟨13, 2, 9⟩, 1⟩]
    tokenize "keep\n/* é */;# end" = .ok spans ∧ Tiles [] "keep\n/* é */;# end".toList spans ∧
      tokenize "keep\n é" = .error (.parse 2 2 (.unexpectedChar 'é')) ∧
      ∃ front c back cause, "keep\n é".toList = front ++ c :: back ∧
        Fault.parse 2 2 (.unexpectedChar 'é') =
          .parse (Place.behind front).line (Place.behind front).column cause := by
  intro spans
  have hspans : tokenize "keep\n/* é */;# end" = .ok spans := by decide +kernel
  have hfault : tokenize "keep\n é" = .error (.parse 2 2 (.unexpectedChar 'é')) := by decide +kernel
  exact ⟨hspans, ((tokenize_tiles _).1 spans hspans).1, hfault, (tokenize_tiles _).2 _ hfault⟩

end MailFilter.Script
