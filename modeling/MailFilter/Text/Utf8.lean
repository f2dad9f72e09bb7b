/-!
# Bytes as text

Messages are bytes, and the texts taken from them are UTF-8. Where the bytes are no UTF-8, each
longest stretch that could still have begun a character gives one replacement character, as the
Unicode standard recommends.
-/

namespace MailFilter

/-- The bytes of a message or of a part of one. -/
abbrev Bytes := List UInt8

namespace Utf8

/-- The bytes of a text. -/
def encode (text : String) : Bytes :=
  text.toList.flatMap String.utf8EncodeChar

/-- What a first byte announces: how many bytes follow it, the bounds of the next of them, and the
bits it gives itself. -/
structure Lead where
  count : Nat
  low : Nat
  high : Nat
  bits : Nat

/-- What a byte announces if a character can begin with it. Overlong forms, surrogates and numbers
beyond the last code point are excluded by the bounds of the second byte. -/
def lead? (b : UInt8) : Option Lead :=
  let n := b.toNat
  if n < 0x80 then some ⟨0, 0, 0, n⟩
  else if n < 0xC2 then none
  else if n < 0xE0 then some ⟨1, 0x80, 0xBF, n - 0xC0⟩
  else if n = 0xE0 then some ⟨2, 0xA0, 0xBF, 0⟩
  else if n = 0xED then some ⟨2, 0x80, 0x9F, 0xD⟩
  else if n < 0xF0 then some ⟨2, 0x80, 0xBF, n - 0xE0⟩
  else if n = 0xF0 then some ⟨3, 0x90, 0xBF, 0⟩
  else if n < 0xF4 then some ⟨3, 0x80, 0xBF, n - 0xF0⟩
  else if n = 0xF4 then some ⟨3, 0x80, 0x8F, 4⟩
  else none

/-- The character that the next `count` bytes complete, if they do, and the bytes behind those that
fit. -/
def continuation (count low high bits : Nat) (bytes : Bytes) : Option Char × Bytes :=
  match count, bytes with
  | 0, bytes => (some (Char.ofNat bits), bytes)
  | _ + 1, [] => (none, [])
  | count + 1, b :: bytes =>
    if low ≤ b.toNat ∧ b.toNat ≤ high then
      continuation count 0x80 0xBF (bits * 64 + (b.toNat - 0x80)) bytes
    else (none, b :: bytes)

/-- Reading continuation bytes leaves no more bytes than there were. -/
theorem continuation_length (count low high bits : Nat) (bytes : Bytes) :
    (continuation count low high bits bytes).2.length ≤ bytes.length := by
  induction bytes generalizing count low high bits with
  | nil => cases count <;> simp [continuation]
  | cons b bytes ih =>
    cases count with
    | zero => simp [continuation]
    | succ count =>
      simp only [continuation]
      split
      · exact Nat.le_succ_of_le (ih ..)
      · exact Nat.le_refl _

/-- The character at the front of some bytes, if there is one, and the bytes behind the stretch
that was looked at. -/
def first (b : UInt8) (bytes : Bytes) : Option Char × Bytes :=
  match lead? b with
  | some lead => continuation lead.count lead.low lead.high lead.bits bytes
  | none => (none, bytes)

/-- Reading a character leaves no more bytes than there were behind its first. -/
theorem first_length (b : UInt8) (bytes : Bytes) : (first b bytes).2.length ≤ bytes.length := by
  unfold first
  split
  · exact continuation_length ..
  · exact Nat.le_refl _

/-- The characters that some bytes spell, with an absent one for each stretch that spells none,
behind the characters found before, which are in reverse. -/
def characters (found : List (Option Char)) (bytes : Bytes) : List (Option Char) :=
  match bytes with
  | [] => found.reverse
  | b :: bytes => characters ((first b bytes).1 :: found) (first b bytes).2
termination_by bytes.length
decreasing_by exact Nat.lt_succ_of_le (first_length b bytes)

/-- The text of some bytes, with a replacement character for each stretch that is no UTF-8. -/
def decodeLossy (bytes : Bytes) : String :=
  String.ofList ((characters [] bytes).map (·.getD '\ufffd'))

/-- The text of some bytes, if they are UTF-8 throughout. -/
def decode? (bytes : Bytes) : Option String :=
  ((characters [] bytes).mapM id).map String.ofList

end Utf8

end MailFilter
