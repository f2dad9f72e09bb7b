import MailFilter.Proofs.Script.Bytewise
import MailFilter.Proofs.Script.Tiling
import MailFilter.Proofs.Text.Utf8

/-!
# Accesses at the ends of characters

At the head of its main loop the lexer stands behind some whole characters of a text. There a byte
can be read as long as the text goes on, a slice between two such positions is the text between
them, and the line index finds the line and the column of the position. Between the bytes of one
character nothing but a single byte is ever read.
-/

namespace MailFilter.Script.Bytewise

open String (utf8EncodeChar utf8Len)
open Utf8 (bytesOf)

variable {text : String}

section Bytes

variable {front rest : Bytes} {b : UInt8}

/-- The byte behind some bytes has their number for its position. -/
theorem byte_length (h : Utf8.encode text = front ++ b :: rest) :
    byte text front.length = pure b := by
  simp [byte, h]

/-- A look at a position sees the byte there. -/
theorem look_length (h : Utf8.encode text = front ++ b :: rest) :
    look text front.length = pure (Char.ofUInt8 b) := by
  rw [look, byte_length h, pure_bind]

/-- The size of a text is the number of bytes before a position and behind it. -/
theorem size_eq_length (h : Utf8.encode text = front ++ rest) :
    size text = front.length + rest.length := by
  rw [size, h, List.length_append]

/-- A loop that passes each byte of some kind, and may collect it, passes a run of such bytes. -/
theorem pass_run {α : Type} {loop : Nat → Bytes → α} {P : UInt8 → Prop}
    (hbyte : ∀ front b rest buffer, Utf8.encode text = front ++ b :: rest → P b →
      loop front.length buffer = loop (front.length + 1) (buffer ++ [b]))
    {run : Bytes} (hrun : ∀ b ∈ run, P b) (h : Utf8.encode text = front ++ (run ++ rest))
    (buffer : Bytes) :
    loop front.length buffer = loop (front ++ run).length (buffer ++ run) := by
  induction run generalizing front buffer with
  | nil => rw [List.append_nil, List.append_nil]
  | cons b run ih =>
    rw [List.forall_mem_cons] at hrun
    have hnext : Utf8.encode text = (front ++ [b]) ++ (run ++ rest) := by
      rw [h, List.append_assoc]
      rfl
    have hrest := ih hrun.2 hnext (buffer ++ [b])
    rw [List.append_assoc, List.append_assoc, List.singleton_append, List.length_append,
      List.length_singleton] at hrest
    rw [hbyte front b _ buffer h hrun.1, hrest]

end Bytes

variable {front cs back : List Char} {c : Char}

/-- The bytes of a text are those before a cut and those behind it. -/
theorem encode_eq (h : text.toList = front ++ cs) :
    Utf8.encode text = bytesOf front ++ bytesOf cs := by
  rw [Utf8.encode, h]
  exact Utf8.bytesOf_append

/-- The size of a text is that of what is before a cut and of what is behind it. -/
theorem size_eq (h : text.toList = front ++ cs) : size text = utf8Len front + utf8Len cs := by
  rw [size_eq_length (encode_eq h), Utf8.length_bytesOf, Utf8.length_bytesOf]

/-- A cut is within the text. -/
theorem utf8Len_le_size (h : text.toList = front ++ cs) : utf8Len front ≤ size text := by
  rw [size_eq h]
  exact Nat.le_add_right _ _

/-- A cut before a character is not the end of the text. -/
theorem lt_size (h : text.toList = front ++ c :: cs) : utf8Len front < size text := by
  have hpos := c.utf8Size_pos
  rw [size_eq h, String.utf8Len_cons]
  omega

/-- Where a character begins, the byte is one of that character. -/
theorem exists_byte (h : text.toList = front ++ c :: cs) :
    ∃ b ∈ utf8EncodeChar c, byte text (utf8Len front) = pure b := by
  obtain ⟨b, run, hc⟩ := List.exists_cons_of_ne_nil (String.utf8EncodeChar_ne_nil (c := c))
  have hcut := encode_eq h
  rw [Utf8.bytesOf_cons, hc, List.cons_append] at hcut
  rw [← Utf8.length_bytesOf, hc]
  exact ⟨b, List.mem_cons_self, byte_length hcut⟩

/-- The byte at a cut is that of the ASCII character there. -/
theorem byte_ascii (h : text.toList = front ++ c :: cs) (hc : c.toNat < 128) :
    byte text (utf8Len front) = pure (UInt8.ofNat c.toNat) := by
  obtain ⟨b, hb, hbyte⟩ := exists_byte h
  rw [Utf8.utf8EncodeChar_ascii hc] at hb
  obtain rfl := List.mem_singleton.mp hb
  exact hbyte

/-- A look at a cut sees a byte of the character there. -/
theorem exists_look (h : text.toList = front ++ c :: cs) :
    ∃ b ∈ utf8EncodeChar c, look text (utf8Len front) = pure (Char.ofUInt8 b) := by
  obtain ⟨b, hb, hbyte⟩ := exists_byte h
  exact ⟨b, hb, by rw [look, hbyte, pure_bind]⟩

/-- A look at a cut sees the ASCII character there. -/
theorem look_ascii (h : text.toList = front ++ c :: cs) (hc : c.toNat < 128) :
    look text (utf8Len front) = pure c := by
  rw [look, byte_ascii h hc, pure_bind, Utf8.ofUInt8_ofNat hc]

/-- A cut can be moved over one character. -/
theorem append_cons_cut (h : text.toList = front ++ c :: cs) :
    text.toList = (front ++ [c]) ++ cs := by
  rw [h, List.append_assoc, List.singleton_append]

/-- One more character that was read comes behind the others. -/
theorem append_reverse_cons (front read : List Char) (c : Char) :
    front ++ read.reverse ++ [c] = front ++ (c :: read).reverse := by
  rw [List.reverse_cons, List.append_assoc]

/-- Such a loop passes a character if it passes each of its bytes. -/
theorem pass_char {α : Type} {loop : Nat → Bytes → α} {P : UInt8 → Prop}
    (hbyte : ∀ front b rest buffer, Utf8.encode text = front ++ b :: rest → P b →
      loop front.length buffer = loop (front.length + 1) (buffer ++ [b]))
    (hc : ∀ b ∈ utf8EncodeChar c, P b) (h : text.toList = front ++ c :: cs) (buffer : Bytes) :
    loop (utf8Len front) buffer =
      loop (utf8Len (front ++ [c])) (buffer ++ utf8EncodeChar c) := by
  have hpassed := pass_run hbyte hc (encode_eq h) buffer
  have hlength : bytesOf front ++ utf8EncodeChar c = bytesOf (front ++ [c]) := by
    rw [Utf8.bytesOf_append, Utf8.bytesOf_cons, Utf8.bytesOf_nil, List.append_nil]
  rwa [hlength, Utf8.length_bytesOf, Utf8.length_bytesOf] at hpassed

/-- The bytes between two cuts are those of the text between them. -/
theorem extract_eq {word : List Char} (h : text.toList = front ++ (word ++ back)) :
    text.toByteArray.extract (utf8Len front) (utf8Len (front ++ word)) =
      (String.ofList word).toByteArray := by
  have htext : text = String.ofList front ++ (String.ofList word ++ String.ofList back) := by
    rw [← String.ofList_append, ← String.ofList_append, ← h, String.ofList_toList]
  have hfront : utf8Len front = (String.ofList front).toByteArray.size :=
    (String.utf8ByteSize_ofList front).symm
  have hword : utf8Len word = (String.ofList word).toByteArray.size :=
    (String.utf8ByteSize_ofList word).symm
  have hbehind := @ByteArray.extract_append_size_add' (String.ofList front).toByteArray
    ((String.ofList word).toByteArray ++ (String.ofList back).toByteArray) 0 (utf8Len word) _ hfront
  rw [Nat.add_zero] at hbehind
  rw [htext, String.toByteArray_append, String.toByteArray_append, String.utf8Len_append, hbehind,
    ByteArray.extract_append_eq_left hword]

/-- A slice between two fronts of a text is the text between them. -/
theorem slice_eq {word : List Char} (h : text.toList = front ++ (word ++ back)) :
    slice text (utf8Len front) (utf8Len (front ++ word)) = pure (String.ofList word) := by
  have hle : utf8Len front ≤ utf8Len (front ++ word) := by
    rw [String.utf8Len_append]
    exact Nat.le_add_right _ _
  have hcut : text.toList = (front ++ word) ++ back := by rw [h, List.append_assoc]
  rw [slice, dif_pos ⟨hle, isValid_utf8Len h, isValid_utf8Len hcut⟩]
  exact congrArg pure (String.toByteArray_inj.mp (extract_eq h))

/-- A difference of positions in order is taken. -/
theorem difference_eq {a b : Nat} (h : b ≤ a) : difference a b = pure (a - b) :=
  if_pos h

/-- The bytes of a text are read as that text. -/
theorem decode_bytesOf (cs : List Char) : decode (bytesOf cs) = pure (String.ofList cs) := by
  rw [decode, Utf8.decode?_bytesOf, Utf8.decodeLossy_bytesOf]
  rfl

/-- The characters of two texts start where those of the first do and then where those of the second
do, behind it. -/
theorem startsBehind_append (offset : Nat) (front back : List Char) :
    startsBehind offset (front ++ back) =
      startsBehind offset front ++ startsBehind (offset + utf8Len front) back := by
  induction front generalizing offset with
  | nil => rfl
  | cons c front ih =>
    rw [List.cons_append, startsBehind, startsBehind, String.utf8Len_cons]
    split
    · next hc =>
      have hsize : c.utf8Size = 1 := by rw [hc]; rfl
      rw [ih, hsize, List.cons_append, Nat.add_assoc, Nat.add_comm 1]
    · rw [ih, Nat.add_assoc, Nat.add_comm c.utf8Size]

/-- A line begins behind its newline. -/
theorem startsBehind_bounds (offset : Nat) (cs : List Char) :
    ∀ start ∈ startsBehind offset cs, offset < start ∧ start ≤ offset + utf8Len cs := by
  induction cs generalizing offset with
  | nil => exact List.forall_mem_nil _
  | cons c cs ih =>
    have hpos := c.utf8Size_pos
    rw [startsBehind, String.utf8Len_cons]
    split
    · refine List.forall_mem_cons.mpr ⟨by omega, fun start hstart => ?_⟩
      have := ih _ start hstart
      omega
    · intro start hstart
      have := ih _ start hstart
      omega

/-- The lines that begin in a front of a text, and where the last of them begins. -/
theorem startsBehind_front (front : List Char) :
    (0 :: startsBehind 0 front).length = (Place.behind front).line ∧
      ∃ start, (0 :: startsBehind 0 front).getLast? = some start ∧ start ≤ utf8Len front ∧
        utf8Len front - start + 1 = (Place.behind front).column := by
  induction front using List.reverseRecOn with
  | nil => exact ⟨rfl, 0, rfl, Nat.le_refl 0, rfl⟩
  | append_singleton front c ih =>
    obtain ⟨hline, start, hlast, hle, hcolumn⟩ := ih
    rw [startsBehind_append, Nat.zero_add, Place.behind_append_singleton, Place.step,
      String.utf8Len_append, String.utf8Len_cons, String.utf8Len_nil, Nat.zero_add, startsBehind]
    by_cases hc : c = '\n'
    · have hsize : c.utf8Size = 1 := by rw [hc]; rfl
      rw [if_pos hc, if_pos hc, startsBehind, ← List.cons_append, List.length_append, hline, hsize]
      exact ⟨rfl, _, List.getLast?_concat, Nat.le_refl _, by simp⟩
    · rw [if_neg hc, if_neg hc, startsBehind, List.append_nil]
      refine ⟨hline, start, hlast, Nat.le_add_right_of_le hle, ?_⟩
      dsimp only
      omega

/-- The line index tells the place behind a front of a text. -/
theorem position_eq (h : text.toList = front ++ back) :
    position text (utf8Len front) =
      pure ((Place.behind front).line, (Place.behind front).column) := by
  have hstarts : lineStarts text =
      (0 :: startsBehind 0 front) ++ startsBehind (utf8Len front) back := by
    rw [lineStarts, h, startsBehind_append, Nat.zero_add, List.cons_append]
  obtain ⟨hline, start, hlast, hle, hcolumn⟩ := startsBehind_front front
  have htaken : (lineStarts text).takeWhile (· ≤ utf8Len front) = 0 :: startsBehind 0 front := by
    have hbefore : ∀ s ∈ 0 :: startsBehind 0 front, decide (s ≤ utf8Len front) = true := by
      refine List.forall_mem_cons.mpr ⟨by simp, fun s hs => ?_⟩
      have hbounds := startsBehind_bounds 0 front s hs
      simpa using hbounds.2
    have hbehind : (startsBehind (utf8Len front) back).takeWhile (· ≤ utf8Len front) = [] := by
      refine List.takeWhile_eq_nil_iff.mpr fun hpos => ?_
      have hbounds := startsBehind_bounds _ _ _ (List.getElem_mem hpos)
      simpa using hbounds.1
    rw [hstarts, List.takeWhile_append_of_pos hbefore, hbehind, List.append_nil]
  have hindex : (lineStarts text)[(Place.behind front).line - 1]? = some start := by
    rw [hstarts, ← hline, List.getElem?_append_left (by simp), ← List.getLast?_eq_getElem?, hlast]
  have hpos : 1 ≤ (Place.behind front).line := Nat.le_add_right 1 _
  simp only [position, htaken, hline, difference_eq hpos, pure_bind, hindex, difference_eq hle,
    hcolumn]

/-- A refusal at a cut names the line and the column of the place behind what is before it. -/
theorem refuse_eq {α : Type} (h : text.toList = front ++ back) (cause : ParseCause) :
    (refuse text (utf8Len front) cause : Scan α) =
      throw (.refused (.parse (Place.behind front).line (Place.behind front).column cause)) := by
  rw [refuse, position_eq h, pure_bind]

end MailFilter.Script.Bytewise
