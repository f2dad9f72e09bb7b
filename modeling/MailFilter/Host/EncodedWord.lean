import MailFilter.Text.Ascii
import MailFilter.Text.Utf8

/-!
# Encoded words

Text outside ASCII travels in headers as encoded words (RFC 2047): a character set, the letter of
an encoding, and data, between question marks. The readers here begin behind the equals sign that
opens a word and say which bytes follow it. Which character sets there are is up to their caller.
-/

namespace MailFilter.Host

/-- Character sets: how the bytes of each that is known by a name in lower case are read. -/
abbrev Charsets := String → Option (Bytes → String)

namespace EncodedWord

/-- The code of an ASCII character. -/
def code (c : Char) : UInt8 :=
  c.toUInt8

/-- A space or a tab. -/
def isGap (b : UInt8) : Bool :=
  b == code ' ' || b == code '\t'

/-- The value of a hexadecimal digit of either case. -/
def hexDigit? (b : UInt8) : Option UInt8 :=
  let n := b.toNat
  if 48 ≤ n ∧ n ≤ 57 then some (b - 48)
  else if 65 ≤ n ∧ n ≤ 70 then some (b - 55)
  else if 97 ≤ n ∧ n ≤ 102 then some (b - 87)
  else none

/-- The value of a base64 digit. -/
def base64Digit? (b : UInt8) : Option Nat :=
  let n := b.toNat
  if 65 ≤ n ∧ n ≤ 90 then some (n - 65)
  else if 97 ≤ n ∧ n ≤ 122 then some (n - 71)
  else if 48 ≤ n ∧ n ≤ 57 then some (n + 4)
  else if b = code '+' then some 62
  else if b = code '/' then some 63
  else none

/-- What an equals sign in the encoding Q still waits for. -/
inductive Escape where
  /-- Nothing: no equals sign waits. -/
  | closed
  | bothDigits
  | lowDigit (high : UInt8)
  deriving DecidableEq

/-- What a byte means where it can be a digit: the byte it gives, if it gives one, and what is
waited for then. Behind an equals sign nothing but a digit will do. -/
def Escape.read? (escape : Escape) (b : UInt8) : Option (Bytes × Escape) :=
  match escape with
  | closed => some ([b], closed)
  | bothDigits => (hexDigit? b).map fun high => ([], lowDigit high)
  | lowDigit high => (hexDigit? b).map fun low => ([high * 16 + low], closed)

/-- The data of a word in the encoding Q up to its end mark, and what follows that: bytes as they
are, an underscore for a space, or two hexadecimal digits behind an equals sign. A line may be
folded, and the blanks behind the fold do not count. Underscores, question marks, folds and the end
mark keep their meaning between an equals sign and its digits; digits that never come are missing
without harm. The bytes found before are in reverse. -/
def quotedData? (folded : Bool) (escape : Escape) (found : Bytes) : Bytes → Option (Bytes × Bytes)
  | [] => none
  | b :: bytes =>
    if folded && isGap b then quotedData? true escape found bytes
    else if b = code '=' then
      if escape = .closed then quotedData? false .bothDigits found bytes else none
    else if b = code '?' then
      if bytes.head? = some (code '=') then some (found.reverse, bytes.tail)
      else quotedData? false escape (b :: found) bytes
    else if b = code '_' then quotedData? false escape (code ' ' :: found) bytes
    else if b = code '\r' then quotedData? false escape found bytes
    else if b = code '\n' then
      if (bytes.head?.map isGap).getD false then quotedData? true escape found bytes else none
    else
      match escape.read? b with
      | some (more, escape) => quotedData? false escape (more ++ found) bytes
      | none => none

/-- The bytes that pending base64 digits give when padding ends their group: one for one or two
digits, two for three. -/
def paddedBytes : List Nat → Bytes
  | [a] => [UInt8.ofNat (a * 4)]
  | [a, b] => [UInt8.ofNat ((a * 64 + b) / 16)]
  | [a, b, c] =>
    let n := (a * 64 + b) * 64 + c
    [UInt8.ofNat (n / 1024), UInt8.ofNat (n / 4)]
  | _ => []

/-- The three bytes of a full group of base64 digits. -/
def groupBytes (a b c d : Nat) : Bytes :=
  let n := ((a * 64 + b) * 64 + c) * 64 + d
  [UInt8.ofNat (n / 65536), UInt8.ofNat (n / 256), UInt8.ofNat n]

/-- The data of a word in the encoding B up to its end mark, and what follows that. Blanks are
skipped, also behind a fold. The bytes found before are in reverse, the digits pending in order. -/
def base64Data? (found : Bytes) (pending : List Nat) : Bytes → Option (Bytes × Bytes)
  | [] => none
  | b :: bytes =>
    match base64Digit? b with
    | some digit =>
      match pending with
      | [a₁, a₂, a₃] => base64Data? ((groupBytes a₁ a₂ a₃ digit).reverse ++ found) [] bytes
      | _ => base64Data? found (pending ++ [digit]) bytes
    | none =>
      if b = code '=' then base64Data? ((paddedBytes pending).reverse ++ found) [] bytes
      else if b = code '?' then
        if bytes.head? = some (code '=') then some (found.reverse, bytes.tail) else none
      else if isGap b || b = code '\r' then base64Data? found pending bytes
      else if b = code '\n' then
        if (bytes.head?.map isGap).getD false then base64Data? found pending bytes else none
      else none

/-- The text of some bytes in a named character set. A set that is not known is read as UTF-8. -/
def decodeCharset (charsets : Charsets) (charset : Bytes) (data : Bytes) : String :=
  let decode := (charsets (Ascii.lower (Utf8.decodeLossy charset))).getD Utf8.decodeLossy
  decode data

/-- The name in a field that may hold a language behind the name. A star ends the name, unless it is
its first byte. -/
def charsetName : Bytes → Bytes
  | [] => []
  | b :: bytes => b :: bytes.takeWhile (· != code '*')

/-- The name of the character set behind the first question mark, and what follows the second. -/
def charset? (bytes : Bytes) : Option (Bytes × Bytes) :=
  let name := charsetName (bytes.takeWhile fun b => b != code '?' && b != code '\n')
  match bytes.dropWhile fun b => b != code '?' && b != code '\n' with
  | b :: rest => if b = code '?' ∧ 2 ≤ name.length then some (name, rest) else none
  | [] => none

variable (charsets : Charsets)

/-- The text of the encoded word whose equals sign stands before `bytes`, and the bytes behind the
word. -/
def read? (bytes : Bytes) : Option (String × Bytes) :=
  match bytes with
  | [] => none
  | mark :: bytes =>
    if mark = code '?' then
      match charset? bytes with
      | some (charset, encoding :: mark :: data) =>
        if mark = code '?' then
          let read :=
            if encoding = code 'q' ∨ encoding = code 'Q' then quotedData? false .closed [] data
            else if encoding = code 'b' ∨ encoding = code 'B' then base64Data? [] [] data
            else none
          read.map fun (bytes, rest) => (decodeCharset charsets charset bytes, rest)
        else none
      | _ => none
    else none

/-- The data of a word in the encoding Q is no longer than the bytes it is read from. -/
theorem quotedData?_length {folded : Bool} {escape : Escape} {found bytes data rest : Bytes}
    (h : quotedData? folded escape found bytes = some (data, rest)) :
    rest.length ≤ bytes.length := by
  fun_induction quotedData? folded escape found bytes <;> grind

/-- The data of a word in the encoding B is no longer than the bytes it is read from. -/
theorem base64Data?_length {found bytes data rest : Bytes} {pending : List Nat}
    (h : base64Data? found pending bytes = some (data, rest)) : rest.length ≤ bytes.length := by
  fun_induction base64Data? found pending bytes <;> grind

/-- Behind the name of a character set there are no more bytes than from it on. -/
theorem charset?_length {bytes name rest : Bytes} (h : charset? bytes = some (name, rest)) :
    rest.length ≤ bytes.length := by
  have hdrop := (List.dropWhile_sublist (l := bytes)
    fun b => b != code '?' && b != code '\n').length_le
  unfold charset? at h
  grind

/-- An encoded word is never longer than the bytes it is read from. -/
theorem read?_length {bytes rest : Bytes} {text : String}
    (h : read? charsets bytes = some (text, rest)) : rest.length ≤ bytes.length := by
  unfold read? at h
  split at h
  · cases h
  split at h
  · split at h
    · next hcharset =>
      have hlength := charset?_length hcharset
      split at h
      · simp only [Option.map_eq_some_iff, Prod.mk.injEq, Prod.exists] at h
        obtain ⟨data, tail, hread, -, rfl⟩ := h
        simp only [List.length_cons] at hlength ⊢
        split at hread
        · have := quotedData?_length hread; omega
        split at hread
        · have := base64Data?_length hread; omega
        · cases hread
      · cases h
    · cases h
  · cases h

/-- The text of the encoded word at the front of `b :: bytes`, if one stands there, and the bytes
behind it. -/
def first? (b : UInt8) (bytes : Bytes) : Option (String × Bytes) :=
  if b = code '=' then read? charsets bytes else none

/-- An encoded word takes at least its equals sign. -/
theorem first?_length {b : UInt8} {bytes rest : Bytes} {text : String}
    (h : first? charsets b bytes = some (text, rest)) : rest.length < (b :: bytes).length := by
  unfold first? at h
  split at h
  · exact Nat.lt_succ_of_le (read?_length charsets h)
  · cases h

end EncodedWord

end MailFilter.Host
