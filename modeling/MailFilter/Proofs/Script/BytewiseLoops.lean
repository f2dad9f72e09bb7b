import MailFilter.Proofs.Script.BytewisePositions

/-!
# Loops that go on byte by byte

Each loop of the lexer ends at the end of a character, where it ends when it goes on character by
character, or it refuses the text for the same reason. Inside a comment or a string its position
may also stand inside a character, but the bytes there are no ASCII characters, so they are passed
one by one up to the end of the character.
-/

namespace MailFilter.Script.Bytewise

open Ascii (isSpace isDigit isWordChar)
open String (utf8EncodeChar utf8Len)
open Utf8 (bytesOf)

variable {text : String} {front cs : List Char} {c : Char}

/-- A class of ASCII characters does not tell the others apart. -/
theorem outside_of_ascii {p : Char → Bool} (hp : ∀ c, p c = true → c.toNat < 128) (c : Char)
    (hc : 128 ≤ c.toNat) : p c = false :=
  Bool.eq_false_iff.mpr fun h => absurd (hp c h) (Nat.not_lt_of_le hc)

/-- Blanks are ASCII characters. -/
theorem toNat_lt_of_isSpace (c : Char) (hc : isSpace c = true) : c.toNat < 128 := by
  simp only [isSpace, Bool.or_eq_true, beq_iff_eq] at hc
  rcases hc with (((rfl | rfl) | rfl) | rfl) | rfl <;> decide

/-- Digits are ASCII characters. -/
theorem toNat_lt_of_isDigit (c : Char) (hc : isDigit c = true) : c.toNat < 128 :=
  (toNat_lt_of_isWordChar (isWordChar_of_isDigit hc)).trans (by decide)

/-- Scale letters are ASCII characters. -/
theorem toNat_lt_of_isScale (c : Char) (hc : isScale c = true) : c.toNat < 128 := by
  simp only [isScale, List.contains_eq_mem, List.mem_cons, List.not_mem_nil, or_false,
    decide_eq_true_eq] at hc
  rcases hc with rfl | rfl | rfl | rfl | rfl | rfl <;> decide

/-- No character outside ASCII ends a line. -/
theorem ne_newline_outside (c : Char) (hc : 128 ≤ c.toNat) : (c != '\n') = true := by
  refine bne_iff_ne.mpr ?_
  rintro rfl
  exact absurd hc (by decide)

/-- No character outside ASCII is part of a word. -/
theorem isWordChar_outside (c : Char) : 128 ≤ c.toNat → isWordChar c = false :=
  outside_of_ascii (fun _ hc => (toNat_lt_of_isWordChar hc).trans (by decide)) c

/-- A byte of the class is skipped. -/
theorem skipWhile_byte {p : Char → Bool} {front rest : Bytes} {b : UInt8}
    (h : Utf8.encode text = front ++ b :: rest) (hb : p (Char.ofUInt8 b) = true) :
    skipWhile text p front.length = skipWhile text p (front.length + 1) := by
  have hsize := size_eq_length h
  rw [List.length_cons] at hsize
  rw [skipWhile_unfold, if_pos (by omega), look_length h, pure_bind, if_pos hb]

/-- A stretch of a class that does not tell characters outside ASCII apart is passed as a whole. -/
theorem skipWhile_eq {p : Char → Bool} {outside : Bool}
    (hp : ∀ c : Char, 128 ≤ c.toNat → p c = outside) (h : text.toList = front ++ cs) :
    skipWhile text p (utf8Len front) = pure (utf8Len (front ++ cs.takeWhile p)) := by
  induction cs generalizing front with
  | nil =>
    have hsize := size_eq h
    rw [skipWhile_unfold, if_neg (by simp [hsize]), List.takeWhile_nil, List.append_nil]
  | cons c cs ih =>
    cases hc : p c with
    | false =>
      obtain ⟨b, hb, hlook⟩ := exists_look h
      have hstop : ¬p (Char.ofUInt8 b) = true := by
        rw [Utf8.test_of_mem_utf8EncodeChar hp hb, hc]
        exact Bool.false_ne_true
      rw [skipWhile_unfold, if_pos (lt_size h), hlook, pure_bind, if_neg hstop,
        List.takeWhile_cons_of_neg (by simp [hc]), List.append_nil]
    | true =>
      have hrun : ∀ b ∈ utf8EncodeChar c, p (Char.ofUInt8 b) = true := fun b hb => by
        rw [Utf8.test_of_mem_utf8EncodeChar hp hb, hc]
      have hpassed := @pass_char text front cs c _ (fun i _ => skipWhile text p i) _
        (fun _ _ _ _ => skipWhile_byte) hrun h []
      rw [hpassed, ih (append_cons_cut h), List.takeWhile_cons_of_pos hc, List.append_assoc,
        List.singleton_append]

/-- A byte that does not close the comment is passed. -/
theorem commentEnd_byte (start : Nat) {front rest : Bytes} {b : UInt8}
    (h : Utf8.encode text = front ++ b :: rest)
    (hopen : Char.ofUInt8 b = '*' → ∀ d, rest.head? = some d → Char.ofUInt8 d ≠ '/') :
    commentEnd text start front.length = commentEnd text start (front.length + 1) := by
  have hsize := size_eq_length h
  rw [List.length_cons] at hsize
  rw [commentEnd_unfold]
  split
  · next hend =>
    rw [commentEnd_unfold, if_pos (by omega)]
  · next hend =>
    cases rest with
    | nil =>
      rw [List.length_nil] at hsize
      omega
    | cons d rest =>
      have hnext : Utf8.encode text = (front ++ [b]) ++ d :: rest := by
        rw [h, List.append_assoc]
        rfl
      have hlook := look_length hnext
      rw [List.length_append, List.length_singleton] at hlook
      rw [look_length h, pure_bind, hlook, pure_bind,
        if_neg fun hclose => hopen hclose.1 d rfl hclose.2]

/-- A block comment ends where it does character by character. A star in it is passed by itself, any
other character with all its bytes. -/
theorem commentEnd_eq {read : List Char} (start : Nat)
    (h : text.toList = front ++ read.reverse ++ cs) :
    commentEnd text start (utf8Len (front ++ read.reverse)) =
      match blockComment read cs with
      | some (written, _) => pure (utf8Len (front ++ written))
      | none => refuse text start .openComment := by
  fun_induction blockComment read cs with
  | case1 read tail =>
    have hsize : size text = utf8Len (front ++ read.reverse) + (utf8Len tail + 1 + 1) := size_eq h
    have hnext : utf8Len (front ++ read.reverse ++ ['*']) = utf8Len (front ++ read.reverse) + 1 :=
      Utf8.utf8Len_concat _ (by decide)
    have hend : utf8Len (front ++ ('/' :: '*' :: read).reverse) =
        utf8Len (front ++ read.reverse) + 2 := by
      rw [← append_reverse_cons, ← append_reverse_cons, Utf8.utf8Len_concat _ (by decide), hnext]
    have hstar := look_ascii h (by decide)
    have hslash := look_ascii (append_cons_cut h) (by decide)
    rw [hnext] at hslash
    dsimp only
    rw [commentEnd_unfold, if_neg (by omega), hstar, pure_bind, hslash, pure_bind,
      if_pos ⟨rfl, rfl⟩, hend]
  | case2 read c tail hopen ih =>
    have hnext : text.toList = front ++ (c :: read).reverse ++ tail := by
      rw [← append_reverse_cons, ← append_cons_cut h]
    rw [← ih hnext, ← append_reverse_cons]
    by_cases hstar : c = '*'
    · subst hstar
      have hstep := commentEnd_byte start (encode_eq h) fun _ d hd => by
        obtain ⟨e, after, rfl, he⟩ := Utf8.exists_of_head?_bytesOf hd
        refine Utf8.ne_of_mem_utf8EncodeChar (by decide) (fun hslash => ?_) he
        exact hopen after rfl (by rw [hslash])
      rw [Utf8.length_bytesOf] at hstep
      rw [hstep, Utf8.utf8Len_concat _ (by decide)]
    · exact @pass_char text _ tail c _ (fun i _ => commentEnd text start i)
        (fun b => Char.ofUInt8 b ≠ '*') (fun _ _ _ _ hb hne => commentEnd_byte start hb
          fun hstar => absurd hstar hne)
        (fun b => Utf8.ne_of_mem_utf8EncodeChar (by decide) hstar) h []
  | case3 read =>
    have hsize := size_eq h
    rw [commentEnd_unfold, if_pos (by simp [hsize])]

/-- A byte that a quoted string collects as it is. -/
def IsPlain (b : UInt8) : Prop :=
  Char.ofUInt8 b ≠ '"' ∧ Char.ofUInt8 b ≠ '\\'

/-- All bytes outside ASCII are taken into a string as they are. -/
theorem isPlain_of_le {b : UInt8} (hb : 128 ≤ b.toNat) : IsPlain b :=
  ⟨Utf8.ofUInt8_ne hb (by decide), Utf8.ofUInt8_ne hb (by decide)⟩

/-- A plain byte goes to the buffer of a string. -/
theorem quoted_byte (start : Nat) {front rest : Bytes} {b : UInt8}
    (h : Utf8.encode text = front ++ b :: rest) (hb : IsPlain b) (buffer : Bytes) :
    quoted text start front.length buffer =
      quoted text start (front.length + 1) (buffer ++ [b]) := by
  have hsize := size_eq_length h
  rw [List.length_cons] at hsize
  rw [quoted_unfold, if_neg (by omega), byte_length h, pure_bind,
    if_neg fun hescape => hb.2 hescape.1, if_neg hb.1]

/-- A backslash is dropped with the character behind it collected as a whole. One byte of that
character is taken unseen, and the bytes behind it in the same character are plain. -/
theorem quoted_escaped (start : Nat) (h : text.toList = front ++ '\\' :: c :: cs)
    (buffer : Bytes) :
    quoted text start (utf8Len front) buffer =
      quoted text start (utf8Len (front ++ ['\\', c])) (buffer ++ utf8EncodeChar c) := by
  obtain ⟨b, run, hc, hrun⟩ := Utf8.exists_utf8EncodeChar_eq_cons c
  have hbehind := append_cons_cut h
  have hslash : utf8Len (front ++ ['\\']) = utf8Len front + 1 := Utf8.utf8Len_concat _ (by decide)
  have hbytes : Utf8.encode text = bytesOf (front ++ ['\\']) ++ b :: (run ++ bytesOf cs) := by
    rw [encode_eq hbehind, Utf8.bytesOf_cons, hc, List.cons_append]
  have hescaped := byte_length hbytes
  have hbound := lt_size hbehind
  rw [Utf8.length_bytesOf, hslash] at hescaped
  rw [hslash] at hbound
  rw [quoted_unfold, if_neg (by omega), byte_ascii h (by decide), pure_bind,
    if_pos ⟨by decide, hbound⟩, hescaped, pure_bind]
  have hfront : (bytesOf (front ++ ['\\']) ++ [b]).length = utf8Len front + 2 := by
    rw [List.length_append, Utf8.length_bytesOf, hslash]
    rfl
  have hend : bytesOf (front ++ ['\\']) ++ [b] ++ run = bytesOf (front ++ ['\\', c]) := by
    simp [hc]
  have hcut : Utf8.encode text = (bytesOf (front ++ ['\\']) ++ [b]) ++ (run ++ bytesOf cs) := by
    rw [hbytes, List.append_assoc]
    rfl
  have hpassed := @pass_run text _ _ _ (quoted text start) IsPlain
    (fun _ _ _ buffer hb hplain => quoted_byte start hb hplain buffer) run
    (fun d hd => isPlain_of_le (hrun d hd)) hcut (buffer ++ [b])
  rw [hfront, hend, Utf8.length_bytesOf, List.append_assoc] at hpassed
  rw [hpassed, hc]
  rfl

/-- A quoted string ends where it does character by character, and the bytes collected so far are
those of the contents so far. -/
theorem quoted_eq {contents read : List Char} (start : Nat)
    (h : text.toList = front ++ read.reverse ++ cs) :
    quoted text start (utf8Len (front ++ read.reverse)) (bytesOf contents.reverse) =
      match quotedString contents read cs with
      | some (string, written, _) => pure (bytesOf string, utf8Len (front ++ written))
      | none => refuse text start .openString := by
  have hcollected : ∀ (contents : List Char) (c : Char),
      bytesOf contents.reverse ++ utf8EncodeChar c = bytesOf (c :: contents).reverse := by simp
  fun_induction quotedString contents read cs with
  | case1 contents read tail =>
    have hend : utf8Len (front ++ ('"' :: read).reverse) = utf8Len (front ++ read.reverse) + 1 := by
      rw [← append_reverse_cons, Utf8.utf8Len_concat _ (by decide)]
    dsimp only
    rw [quoted_unfold, if_neg (Nat.not_le_of_lt (lt_size h)), byte_ascii h (by decide), pure_bind,
      if_neg fun hescape => absurd hescape.1 (by decide), if_pos (by decide), hend]
  | case2 contents read c tail ih =>
    have hread : front ++ read.reverse ++ ['\\', c] = front ++ (c :: '\\' :: read).reverse := by
      simp
    rw [quoted_escaped start h, hread, hcollected]
    exact ih (by rw [← hread, h, List.append_assoc (front ++ read.reverse)]; rfl)
  | case3 contents read c tail hquote hescape ih =>
    have hnext : text.toList = front ++ (c :: read).reverse ++ tail := by
      rw [← append_reverse_cons, ← append_cons_cut h]
    rw [← ih hnext, ← hcollected, ← append_reverse_cons]
    by_cases hslash : c = '\\'
    · -- A backslash at the very end of the text escapes nothing and is collected.
      obtain rfl : tail = [] := by
        cases tail with
        | nil => rfl
        | cons d tail => exact absurd rfl (hescape d tail hslash)
      subst hslash
      have hsize : size text = utf8Len (front ++ read.reverse) + 1 := size_eq h
      rw [quoted_unfold, if_neg (by omega), byte_ascii h (by decide), pure_bind,
        if_neg fun hescaped => absurd hescaped.2 (by omega), if_neg (by decide),
        Utf8.utf8Len_concat _ (by decide)]
      rfl
    · exact @pass_char text _ tail c _ (quoted text start) IsPlain
        (fun _ _ _ buffer hb hplain => quoted_byte start hb hplain buffer)
        (fun b hb => ⟨Utf8.ne_of_mem_utf8EncodeChar (by decide) hquote hb,
          Utf8.ne_of_mem_utf8EncodeChar (by decide) hslash hb⟩) h _
  | case4 contents read =>
    have hsize := size_eq h
    rw [quoted_unfold, if_pos (by simp [hsize])]

/-- The line that opens a multi-line string is passed, or refused at the first character that may
not stand there. -/
theorem openerEnd_eq (h : text.toList = front ++ cs) :
    openerEnd text (utf8Len front) =
      if isOpenerRest (cs.takeWhile (· != '\n')) then
        pure (utf8Len (front ++ cs.takeWhile (· != '\n')))
      else
        refuse text (utf8Len (front ++ openerBlank (cs.takeWhile (· != '\n'))))
          .textAfterOpener := by
  induction cs generalizing front with
  | nil =>
    have hsize := size_eq h
    rw [openerEnd_unfold, if_neg (by simp [hsize])]
    simp [isOpenerRest]
  | cons c cs ih =>
    rw [openerEnd_unfold, if_pos (lt_size h)]
    by_cases hnewline : c = '\n'
    · subst hnewline
      rw [look_ascii h (by decide), pure_bind, if_pos rfl]
      simp [isOpenerRest]
    have htaken : (c :: cs).takeWhile (· != '\n') = c :: cs.takeWhile (· != '\n') :=
      List.takeWhile_cons_of_pos (by simpa using hnewline)
    by_cases hhash : c = '#'
    · subst hhash
      rw [look_ascii h (by decide), pure_bind, if_neg hnewline, if_pos rfl,
        skipWhile_eq ne_newline_outside h, htaken]
      rfl
    by_cases hspace : isSpace c = true
    · have hlook := look_ascii h (toNat_lt_of_isSpace c hspace)
      rw [hlook, pure_bind, if_neg hnewline, if_neg hhash, if_pos hspace,
        ← Utf8.utf8Len_concat front (toNat_lt_of_isSpace c hspace), ih (append_cons_cut h), htaken]
      simp [isOpenerRest, openerBlank, hspace]
    · obtain ⟨b, hb, hlook⟩ := exists_look h
      have hbyte : ¬isSpace (Char.ofUInt8 b) = true := by
        rwa [Utf8.test_of_mem_utf8EncodeChar (outside_of_ascii toNat_lt_of_isSpace) hb]
      rw [hlook, pure_bind, if_neg (Utf8.ne_of_mem_utf8EncodeChar (by decide) hnewline hb),
        if_neg (Utf8.ne_of_mem_utf8EncodeChar (by decide) hhash hb), if_neg hbyte, htaken]
      simp [isOpenerRest, openerBlank, hspace, hhash]

/-- The size of a text is the number of bytes that its characters take. -/
theorem size_ofList (cs : List Char) : size (String.ofList cs) = utf8Len cs := by
  rw [size, Utf8.encode_ofList, Utf8.length_bytesOf]

/-- A line that does not begin with two dots has none to lose. -/
theorem unstuff_of_not_prefix {line : List Char} (h : ¬['.', '.'] <+: line) :
    unstuff line = line := by
  unfold unstuff
  split
  · exact absurd (List.prefix_append ['.', '.'] _) h
  · rfl

/-- Taking away a stuffed dot by bytes is taking it away from the characters. -/
theorem unstuffed_eq (line : List Char) :
    unstuffed (String.ofList line) = pure (String.ofList (unstuff line)) := by
  rw [unstuffed, String.toList_ofList]
  by_cases hdots : ['.', '.'] <+: line
  · obtain ⟨rest, rfl⟩ := hdots
    have hcut : (String.ofList ('.' :: '.' :: rest)).toList = ['.'] ++ ('.' :: rest ++ []) := by
      simp
    rw [if_pos (List.prefix_append _ _), size_ofList]
    exact slice_eq hcut
  · rw [if_neg hdots, unstuff_of_not_prefix hdots]

/-- The next newline, or the end of the text, is where the contents of the first line end. -/
theorem newline?_eq (h : text.toList = front ++ cs) :
    ((newline? (String.ofList cs)).map (utf8Len front + ·)).getD (size text) =
      utf8Len (front ++ (firstLine cs).contents) := by
  rw [newline?, String.toList_ofList, firstLine_contents]
  by_cases hnewline : '\n' ∈ cs
  · rw [if_pos hnewline, String.utf8Len_append]
    rfl
  · have hall : ∀ c ∈ cs, (c != '\n') = true := fun c hc => by
      simpa using ne_of_mem_of_not_mem hc hnewline
    rw [if_neg hnewline, List.takeWhile_eq_self_iff.mpr hall, String.utf8Len_append, ← size_eq h]
    rfl

/-- The position behind the newline of a line, or the end of the text. -/
theorem firstLine_next (h : text.toList = front ++ cs) :
    (if utf8Len (front ++ (firstLine cs).contents) < size text then
        utf8Len (front ++ (firstLine cs).contents) + 1
      else utf8Len (front ++ (firstLine cs).contents)) =
      utf8Len (front ++ (firstLine cs).text) := by
  rcases firstLine_cases cs with ⟨line, after, rfl, hline, hfirst⟩ | ⟨hline, hfirst⟩
  · have hcut : text.toList = (front ++ line) ++ '\n' :: after := by rw [h, List.append_assoc]
    rw [hfirst, if_pos (lt_size hcut), ← Utf8.utf8Len_concat _ (show '\n'.toNat < 128 by decide),
      List.append_assoc]
  · rw [hfirst, if_neg (by rw [size_eq h, String.utf8Len_append]; exact Nat.lt_irrefl _)]

/-- One line of a multi-line string. -/
theorem body_firstLine (start : Nat) (h : text.toList = front ++ cs) (hne : cs ≠ [])
    (contents : String) :
    body text start (utf8Len front) contents =
      if (firstLine cs).trimmed = ['.'] then
        pure (contents, utf8Len (front ++ (firstLine cs).text))
      else
        body text start (utf8Len (front ++ (firstLine cs).text))
          (contents ++ String.ofList (unstuff (firstLine cs).trimmed) ++ "\r\n") := by
  have hsize : size text = utf8Len (front ++ cs) := by rw [size_eq h, String.utf8Len_append]
  have hbound : ¬size text ≤ utf8Len front := by
    obtain ⟨c, others, rfl⟩ := List.exists_cons_of_ne_nil hne
    exact Nat.not_le_of_lt (lt_size h)
  have hrest : slice text (utf8Len front) (size text) = pure (String.ofList cs) := by
    rw [hsize]
    exact slice_eq (h.trans (by rw [List.append_nil]))
  have hcut : text.toList = front ++ ((firstLine cs).contents ++ cs.dropWhile (· != '\n')) := by
    rw [firstLine_contents, List.takeWhile_append_dropWhile, h]
  have hstop : utf8Len (front ++ (firstLine cs).contents) ≤ size text :=
    utf8Len_le_size (hcut.trans (List.append_assoc _ _ _).symm)
  have hnext : min (utf8Len (front ++ (firstLine cs).contents) + 1) (size text) =
      utf8Len (front ++ (firstLine cs).text) := by
    rw [← firstLine_next h]
    split <;> omega
  have htrimmed : Text.dropTrailing (· == '\r') (firstLine cs).contents = (firstLine cs).trimmed :=
    rfl
  have hdot : String.ofList (firstLine cs).trimmed = "." ↔ (firstLine cs).trimmed = ['.'] := by
    rw [← String.toList_inj, String.toList_ofList]
    rfl
  rw [body_unfold, if_neg hbound, hrest, pure_bind]
  dsimp only
  rw [newline?_eq h, slice_eq hcut, pure_bind, String.toList_ofList, hnext, htrimmed, unstuffed_eq,
    pure_bind]
  simp only [hdot]

/-- A multi-line string ends where it does line by line. -/
theorem body_eq {contents read : List Char} (start : Nat)
    (h : text.toList = front ++ read.reverse ++ cs) :
    body text start (utf8Len (front ++ read.reverse)) (String.ofList contents.reverse) =
      match multilineBody contents read cs with
      | some (string, written, _) => pure (String.ofList string, utf8Len (front ++ written))
      | none => refuse text start .openMultiline := by
  fun_induction multilineBody contents read cs with
  | case1 contents read =>
    have hsize := size_eq h
    rw [body_unfold, if_pos (by simp [hsize])]
  | case2 contents read cs hne line read' hdot =>
    have hread : front ++ read.reverse ++ line.text = front ++ read'.reverse := by
      simp [read', List.reverseAux_eq]
    dsimp only
    rw [body_firstLine start h hne, if_pos hdot, hread]
  | case3 contents read cs hne line read' hdot ih =>
    have hread : front ++ read.reverse ++ line.text = front ++ read'.reverse := by
      simp [read', List.reverseAux_eq]
    have hcontents :
        String.ofList contents.reverse ++ String.ofList (unstuff line.trimmed) ++ "\r\n" =
          String.ofList ('\n' :: '\r' :: (unstuff line.trimmed).reverseAux contents).reverse := by
      rw [← String.toList_inj]
      simp [List.reverseAux_eq]
    have hnext : text.toList = front ++ read'.reverse ++ line.rest := by
      rw [← hread, List.append_assoc, firstLine_text_append_rest, h]
    rw [body_firstLine start h hne, if_neg hdot, hread, hcontents]
    exact ih hnext

end MailFilter.Script.Bytewise
