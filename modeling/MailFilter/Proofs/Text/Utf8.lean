import Mathlib.Data.String.Basic
import Mathlib.Tactic.SplitIfs
import MailFilter.Text.Utf8

/-!
# The bytes of characters

A character is spelled by one byte if it is an ASCII character and otherwise by bytes that are no
ASCII characters. So a test for ASCII characters comes out the same for a character and for each of
its bytes, and what is cut at such a byte is cut between two characters. Bytes that spell some
characters are read back as those characters, with no replacement among them.
-/

namespace MailFilter.Utf8

open String (utf8EncodeChar utf8Len)

/-- The bytes of some characters. -/
def bytesOf (cs : List Char) : Bytes :=
  cs.flatMap utf8EncodeChar

variable {c : Char} {cs ds : List Char}

/-- No characters have no bytes. -/
@[simp] theorem bytesOf_nil : bytesOf [] = [] := rfl

/-- The bytes of a character come before those of the characters behind it. -/
@[simp] theorem bytesOf_cons : bytesOf (c :: cs) = utf8EncodeChar c ++ bytesOf cs := rfl

/-- The bytes of two texts follow each other. -/
@[simp] theorem bytesOf_append : bytesOf (cs ++ ds) = bytesOf cs ++ bytesOf ds :=
  List.flatMap_append

/-- A text is encoded by the bytes of its characters. -/
theorem encode_ofList (cs : List Char) : encode (String.ofList cs) = bytesOf cs := by
  rw [encode, String.toList_ofList, bytesOf]

/-- There are as many bytes as the characters take. -/
@[simp] theorem length_bytesOf (cs : List Char) : (bytesOf cs).length = utf8Len cs := by
  induction cs with
  | nil => rfl
  | cons c cs ih =>
    rw [bytesOf_cons, List.length_append, ih, String.length_utf8EncodeChar, String.utf8Len_cons,
      Nat.add_comm]

/-- A number below 256 is kept by its byte. -/
theorem toNat_ofNat {n : Nat} (hn : n < 256) : (UInt8.ofNat n).toNat = n := by
  rw [UInt8.toNat_ofNat', Nat.mod_eq_of_lt hn]

/-- An ASCII character has one byte, its code. -/
theorem utf8EncodeChar_ascii (hc : c.toNat < 128) : utf8EncodeChar c = [UInt8.ofNat c.toNat] :=
  if_pos (Nat.le_of_lt_succ hc)

/-- An ASCII character takes one byte. -/
theorem utf8Size_ascii (hc : c.toNat < 128) : c.utf8Size = 1 := by
  rw [← String.length_utf8EncodeChar, utf8EncodeChar_ascii hc, List.length_singleton]

/-- An ASCII character behind a text makes it one byte longer. -/
theorem utf8Len_concat (cs : List Char) (hc : c.toNat < 128) :
    utf8Len (cs ++ [c]) = utf8Len cs + 1 := by
  rw [String.utf8Len_append, String.utf8Len_cons, String.utf8Len_nil, Nat.zero_add,
    utf8Size_ascii hc]

/-- ASCII characters take one byte each. -/
theorem utf8Len_ascii (h : ∀ c ∈ cs, c.toNat < 128) : utf8Len cs = cs.length := by
  induction cs with
  | nil => rfl
  | cons c cs ih =>
    rw [List.forall_mem_cons] at h
    rw [String.utf8Len_cons, ih h.2, utf8Size_ascii h.1, List.length_cons]

/-- The character for a byte has the byte as its code. -/
theorem toNat_ofUInt8 (b : UInt8) : (Char.ofUInt8 b).toNat = b.toNat := rfl

/-- The byte of an ASCII character is the byte of that character. -/
theorem ofUInt8_ofNat (hc : c.toNat < 128) : Char.ofUInt8 (UInt8.ofNat c.toNat) = c := by
  rw [← Char.toNat_inj, toNat_ofUInt8, toNat_ofNat (by omega)]

/-- The bytes of a character outside ASCII are no ASCII characters. -/
theorem le_of_mem_utf8EncodeChar (hc : 128 ≤ c.toNat) {b : UInt8} (hb : b ∈ utf8EncodeChar c) :
    128 ≤ b.toNat := by
  have hval : c.val.toNat = c.toNat := rfl
  have hbyte : ∀ n < 256, 128 ≤ n → 128 ≤ (UInt8.ofNat n).toNat := fun n hn h => by
    rwa [toNat_ofNat hn]
  simp only [utf8EncodeChar, hval, if_neg (show ¬c.toNat ≤ 0x7f by omega)] at hb
  split_ifs at hb
  all_goals simp only [List.mem_cons, List.not_mem_nil, or_false] at hb
  · rcases hb with rfl | rfl
    all_goals exact hbyte _ (by omega) (by omega)
  · rcases hb with rfl | rfl | rfl
    all_goals exact hbyte _ (by omega) (by omega)
  · rcases hb with rfl | rfl | rfl | rfl
    all_goals exact hbyte _ (by omega) (by omega)

/-- A test that does not tell characters outside ASCII apart comes out the same for a character and
for each of its bytes. -/
theorem test_of_mem_utf8EncodeChar {p : Char → Bool} {outside : Bool}
    (hp : ∀ c : Char, 128 ≤ c.toNat → p c = outside) {b : UInt8} (hb : b ∈ utf8EncodeChar c) :
    p (Char.ofUInt8 b) = p c := by
  by_cases hc : c.toNat < 128
  · rw [utf8EncodeChar_ascii hc] at hb
    obtain rfl := List.mem_singleton.mp hb
    rw [ofUInt8_ofNat hc]
  · have hc := Nat.le_of_not_lt hc
    rw [hp c hc, hp (Char.ofUInt8 b) (le_of_mem_utf8EncodeChar hc hb)]

/-- No byte of a character is that of another, ASCII character. -/
theorem ne_of_mem_utf8EncodeChar {d : Char} (hd : d.toNat < 128) (hc : c ≠ d) {b : UInt8}
    (hb : b ∈ utf8EncodeChar c) : Char.ofUInt8 b ≠ d := by
  have houtside : ∀ e : Char, 128 ≤ e.toNat → (e != d) = true := by
    rintro e he
    refine bne_iff_ne.mpr ?_
    rintro rfl
    omega
  have htest := test_of_mem_utf8EncodeChar houtside hb
  rw [bne_iff_ne.mpr hc] at htest
  exact bne_iff_ne.mp htest

/-- Only the first byte of a character can be an ASCII character. -/
theorem exists_utf8EncodeChar_eq_cons (c : Char) :
    ∃ b run, utf8EncodeChar c = b :: run ∧ ∀ d ∈ run, 128 ≤ d.toNat := by
  by_cases hc : c.toNat < 128
  · exact ⟨_, [], utf8EncodeChar_ascii hc, List.forall_mem_nil _⟩
  · obtain ⟨b, run, hbytes⟩ := List.exists_cons_of_ne_nil (String.utf8EncodeChar_ne_nil (c := c))
    refine ⟨b, run, hbytes, fun d hd => ?_⟩
    refine le_of_mem_utf8EncodeChar (Nat.le_of_not_lt hc) ?_
    rw [hbytes]
    exact List.mem_cons_of_mem b hd

/-- A byte above ASCII is no ASCII character. -/
theorem ofUInt8_ne {b : UInt8} {d : Char} (hb : 128 ≤ b.toNat) (hd : d.toNat < 128) :
    Char.ofUInt8 b ≠ d := by
  rintro rfl
  exact absurd hb (Nat.not_le_of_lt hd)

/-- The first byte of some characters is one of the first character. -/
theorem exists_of_head?_bytesOf {b : UInt8} (h : (bytesOf cs).head? = some b) :
    ∃ c ds, cs = c :: ds ∧ b ∈ utf8EncodeChar c := by
  cases cs with
  | nil => cases h
  | cons c cs =>
    obtain ⟨d, run, hc⟩ := List.exists_cons_of_ne_nil (String.utf8EncodeChar_ne_nil (c := c))
    rw [bytesOf_cons, hc] at h
    cases h
    exact ⟨c, cs, rfl, hc ▸ List.mem_cons_self⟩

/-- A byte that fits the bounds gives its six bits. -/
theorem continuation_cons {count low high bits n : Nat} (bytes : Bytes) (hlow : low ≤ n)
    (hhigh : n ≤ high) (hn : n < 256) :
    continuation (count + 1) low high bits (UInt8.ofNat n :: bytes) =
      continuation count 0x80 0xBF (bits * 64 + (n - 0x80)) bytes := by
  rw [continuation, toNat_ofNat hn, if_pos ⟨hlow, hhigh⟩]

/-- The first byte of a character of two bytes holds its high bits. -/
theorem lead?_two {high : Nat} (hshort : 2 ≤ high) (hhigh : high < 32) :
    lead? (UInt8.ofNat (high + 0xC0)) = some ⟨1, 0x80, 0xBF, high⟩ := by
  rw [lead?, toNat_ofNat (by omega)]
  rw [if_neg (by omega), if_neg (by omega), if_pos (by omega), Nat.add_sub_cancel]

/-- The bounds of the second of three bytes exclude what two bytes spell and what is no
character. -/
theorem lead?_three {high next : Nat} (hhigh : high < 16) (hnext : next < 64)
    (hshort : high = 0 → 32 ≤ next) (hsurrogate : high = 13 → next < 32) :
    ∃ low up, lead? (UInt8.ofNat (high + 0xE0)) = some ⟨2, low, up, high⟩ ∧
      low ≤ next + 0x80 ∧ next + 0x80 ≤ up := by
  by_cases hzero : high = 0
  · subst hzero
    exact ⟨0xA0, 0xBF, rfl, by have := hshort rfl; omega, by omega⟩
  by_cases hthirteen : high = 13
  · subst hthirteen
    exact ⟨0x80, 0x9F, rfl, by omega, by have := hsurrogate rfl; omega⟩
  refine ⟨0x80, 0xBF, ?_, by omega, by omega⟩
  rw [lead?, toNat_ofNat (by omega)]
  rw [if_neg (by omega), if_neg (by omega), if_neg (by omega), if_neg (by omega),
    if_neg (by omega), if_pos (by omega), Nat.add_sub_cancel]

/-- The bounds of the second of four bytes exclude what three bytes spell and what is beyond the
last character. -/
theorem lead?_four {high next : Nat} (hhigh : high < 5) (hnext : next < 64)
    (hshort : high = 0 → 16 ≤ next) (hlast : high = 4 → next < 16) :
    ∃ low up, lead? (UInt8.ofNat (high + 0xF0)) = some ⟨3, low, up, high⟩ ∧
      low ≤ next + 0x80 ∧ next + 0x80 ≤ up := by
  by_cases hzero : high = 0
  · subst hzero
    exact ⟨0x90, 0xBF, rfl, by have := hshort rfl; omega, by omega⟩
  by_cases hfour : high = 4
  · subst hfour
    exact ⟨0x80, 0x8F, rfl, by omega, by have := hlast rfl; omega⟩
  refine ⟨0x80, 0xBF, ?_, by omega, by omega⟩
  rw [lead?, toNat_ofNat (by omega)]
  rw [if_neg (by omega), if_neg (by omega), if_neg (by omega), if_neg (by omega),
    if_neg (by omega), if_neg (by omega), if_neg (by omega), if_pos (by omega),
    Nat.add_sub_cancel]

/-- The bytes of a character are read back as that character, whatever follows them. -/
theorem first_utf8EncodeChar (c : Char) (rest : Bytes) :
    ∃ b tail, utf8EncodeChar c = b :: tail ∧ first b (tail ++ rest) = (some c, rest) := by
  have hval : c.val.toNat = c.toNat := rfl
  have hvalid : c.toNat < 0xD800 ∨ 0xDFFF < c.toNat ∧ c.toNat < 0x110000 := c.valid
  simp only [utf8EncodeChar, hval]
  split_ifs with hone htwo hthree
  · have hlead : lead? (UInt8.ofNat c.toNat) = some ⟨0, 0, 0, c.toNat⟩ := by
      rw [lead?, toNat_ofNat (by omega)]
      exact if_pos (by omega)
    refine ⟨_, _, rfl, ?_⟩
    rw [first, hlead]
    dsimp only [List.nil_append]
    rw [continuation, Char.ofNat_toNat]
  · have hhigh : c.toNat / 64 % 32 = c.toNat / 64 := by omega
    have hbits : c.toNat / 64 * 64 + (c.toNat % 64 + 0x80 - 0x80) = c.toNat := by omega
    refine ⟨_, _, rfl, ?_⟩
    rw [first, hhigh, lead?_two (by omega) (by omega)]
    dsimp only [List.cons_append, List.nil_append]
    rw [continuation_cons _ (by omega) (by omega) (by omega), continuation, hbits,
      Char.ofNat_toNat]
  · have hhigh : c.toNat / 4096 % 16 = c.toNat / 4096 := by omega
    have hbits : (c.toNat / 4096 * 64 + (c.toNat / 64 % 64 + 0x80 - 0x80)) * 64 +
        (c.toNat % 64 + 0x80 - 0x80) = c.toNat := by omega
    obtain ⟨low, up, hlead, hlow, hup⟩ := @lead?_three (c.toNat / 4096) (c.toNat / 64 % 64)
      (by omega) (by omega) (by omega) (by omega)
    refine ⟨_, _, rfl, ?_⟩
    rw [first, hhigh, hlead]
    dsimp only [List.cons_append, List.nil_append]
    rw [continuation_cons _ hlow hup (by omega),
      continuation_cons _ (by omega) (by omega) (by omega), continuation, hbits,
      Char.ofNat_toNat]
  · have hhigh : c.toNat / 262144 % 8 = c.toNat / 262144 := by omega
    have hbits : ((c.toNat / 262144 * 64 + (c.toNat / 4096 % 64 + 0x80 - 0x80)) * 64 +
        (c.toNat / 64 % 64 + 0x80 - 0x80)) * 64 + (c.toNat % 64 + 0x80 - 0x80) = c.toNat := by
      omega
    obtain ⟨low, up, hlead, hlow, hup⟩ := @lead?_four (c.toNat / 262144) (c.toNat / 4096 % 64)
      (by omega) (by omega) (by omega) (by omega)
    refine ⟨_, _, rfl, ?_⟩
    rw [first, hhigh, hlead]
    dsimp only [List.cons_append, List.nil_append]
    rw [continuation_cons _ hlow hup (by omega),
      continuation_cons _ (by omega) (by omega) (by omega),
      continuation_cons _ (by omega) (by omega) (by omega), continuation, hbits,
      Char.ofNat_toNat]

/-- The bytes of a text are read as its characters, one after the other. -/
theorem characters_bytesOf (found : List (Option Char)) (cs : List Char) :
    characters found (bytesOf cs) = found.reverse ++ cs.map some := by
  induction cs generalizing found with
  | nil => rw [bytesOf_nil, characters, List.map_nil, List.append_nil]
  | cons c cs ih =>
    obtain ⟨b, tail, hc, hfirst⟩ := first_utf8EncodeChar c (bytesOf cs)
    rw [bytesOf_cons, hc, List.cons_append, characters, hfirst, ih]
    simp

/-- The bytes of some characters are UTF-8. -/
theorem decode?_bytesOf (cs : List Char) : decode? (bytesOf cs) = some (String.ofList cs) := by
  have hall : cs.mapM (id ∘ some) = some (cs.map id) := List.mapM_pure
  rw [decode?, characters_bytesOf, List.reverse_nil, List.nil_append, List.mapM_map, hall,
    List.map_id, Option.map_some]

/-- The bytes of some characters give those characters, with no replacement among them. -/
theorem decodeLossy_bytesOf (cs : List Char) : decodeLossy (bytesOf cs) = String.ofList cs := by
  rw [decodeLossy, characters_bytesOf]
  simp [Function.comp_def]

end MailFilter.Utf8
