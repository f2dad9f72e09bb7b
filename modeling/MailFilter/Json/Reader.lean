import MailFilter.Json
import MailFilter.Text.Ascii

/-!
# Reading JSON

The reader accepts the texts of RFC 8259 and nothing else: no trailing commas, no text after the
value, no control characters inside strings, no half of a surrogate pair. Values are read from the
front of a list of characters, and each step leaves a shorter list.
-/

namespace MailFilter.Json

open Ascii (isDigit)

/-- Characters left after some have been read. -/
abbrev After (cs : List Char) := { rest : List Char // rest.length < cs.length }

/-- The characters that may stand between any two parts of a JSON text. -/
def isSpace (c : Char) : Bool :=
  c == ' ' || c == '\n' || c == '\r' || c == '\t'

/-- The text without the white space at its front. -/
def skipSpace (cs : List Char) : List Char :=
  cs.dropWhile isSpace

/-- Skipping white space never makes a text longer. -/
theorem skipSpace_length (cs : List Char) : (skipSpace cs).length ≤ cs.length :=
  (List.dropWhile_sublist isSpace).length_le

/-- The value of a hexadecimal digit. -/
def hexDigit? (c : Char) : Option Nat :=
  if isDigit c then some (c.toNat - 48)
  else if 'a' ≤ c ∧ c ≤ 'f' then some (c.toNat - 87)
  else if 'A' ≤ c ∧ c ≤ 'F' then some (c.toNat - 55)
  else none

/-- The code unit that four hexadecimal digits spell. -/
def codeUnit? (a b c d : Char) : Option Nat := do
  return (((← hexDigit? a) * 16 + (← hexDigit? b)) * 16 + (← hexDigit? c)) * 16 + (← hexDigit? d)

/-- The character of an escape of one letter. -/
def escape? : Char → Option Char
  | '"' => some '"'
  | '\\' => some '\\'
  | '/' => some '/'
  | 'b' => some '\x08'
  | 'f' => some '\x0c'
  | 'n' => some '\n'
  | 'r' => some '\r'
  | 't' => some '\t'
  | _ => none

/-- A string after its opening quote: the characters before, in reverse, and those to come. A
character beyond the first plane is escaped as two code units. -/
def stringRest? (found : List Char) : List Char → Option (String × List Char)
  | '"' :: rest => some (String.ofList found.reverse, rest)
  | '\\' :: 'u' :: a :: b :: c :: d :: rest =>
    match codeUnit? a b c d with
    | none => none
    | some high =>
      if high < 0xD800 ∨ 0xE000 ≤ high then stringRest? (Char.ofNat high :: found) rest
      else
        match rest with
        | '\\' :: 'u' :: a :: b :: c :: d :: rest =>
          match codeUnit? a b c d with
          | none => none
          | some low =>
            if high < 0xDC00 ∧ 0xDC00 ≤ low ∧ low < 0xE000 then
              let code := 0x10000 + (high - 0xD800) * 0x400 + (low - 0xDC00)
              stringRest? (Char.ofNat code :: found) rest
            else none
        | _ => none
  | '\\' :: c :: rest =>
    match escape? c with
    | some plain => stringRest? (plain :: found) rest
    | none => none
  | c :: rest => if c.toNat < 0x20 ∨ c = '\\' then none else stringRest? (c :: found) rest
  | [] => none

/-- Digits that spell a number, most significant first. -/
def ofDigits (digits : List Char) : Nat :=
  digits.foldl (fun value c => value * 10 + (c.toNat - 48)) 0

/-- The digits of a whole part: a single zero, or digits that do not begin with zero. -/
def wholePart? (cs : List Char) : Option (List Char × List Char) :=
  match cs.takeWhile isDigit, cs.dropWhile isDigit with
  | [], _ => none
  | ['0'], rest => some (['0'], rest)
  | '0' :: _, _ => none
  | digits, rest => some (digits, rest)

/-- The fraction of a number, with its point, empty if there is none. -/
def fraction? : List Char → Option (List Char × List Char)
  | '.' :: cs =>
    match cs.takeWhile isDigit with
    | [] => none
    | digits => some ('.' :: digits, cs.dropWhile isDigit)
  | cs => some ([], cs)

/-- The exponent of a number, with its letter, empty if there is none. -/
def exponent? : List Char → Option (List Char × List Char)
  | c :: cs =>
    if c = 'e' ∨ c = 'E' then
      let (sign, cs) := match cs with
        | '+' :: cs => (['+'], cs)
        | '-' :: cs => (['-'], cs)
        | cs => ([], cs)
      match cs.takeWhile isDigit with
      | [] => none
      | digits => some (c :: sign ++ digits, cs.dropWhile isDigit)
    else some ([], c :: cs)
  | [] => some ([], [])

/-- A number at the front of a text. -/
def number? (cs : List Char) : Option (JsonNumber × List Char) := do
  let (sign, cs) := match cs with
    | '-' :: cs => (['-'], cs)
    | cs => ([], cs)
  let (whole, cs) ← wholePart? cs
  let (fraction, cs) ← fraction? cs
  let (exponent, cs) ← exponent? cs
  if sign.isEmpty && fraction.isEmpty && exponent.isEmpty then
    return (.natural (ofDigits whole), cs)
  else return (.other (String.ofList (sign ++ whole ++ fraction ++ exponent)), cs)

/-- A value without parts at the front of a text that holds no white space there. -/
def scalar? (cs : List Char) : Option (Json × List Char) :=
  match cs with
  | '"' :: rest => (stringRest? [] rest).map fun (text, rest) => (string text, rest)
  | 'n' :: 'u' :: 'l' :: 'l' :: rest => some (null, rest)
  | 't' :: 'r' :: 'u' :: 'e' :: rest => some (bool true, rest)
  | 'f' :: 'a' :: 'l' :: 's' :: 'e' :: rest => some (bool false, rest)
  | cs => (number? cs).map fun (value, rest) => (number value, rest)

/-- A text is never longer after a reader has passed over it; a reader that breaks this is taken
to fail, so the loops below end whatever the reader does. -/
def checked {α : Type} (cs : List Char) (read : Option (α × List Char)) : Option (α × After cs) :=
  read.bind fun (value, rest) =>
    if h : rest.length < cs.length then some (value, ⟨rest, h⟩) else none

/-- A reader of one value. -/
abbrev ValueReader := List Char → Option (Json × List Char)

/-- The parts of an array or an object after its bracket or a comma, up to the bracket that closes
it. -/
def parts? {α : Type} (closing : Char) (readPart : List Char → Option (α × List Char))
    (found : List α) (cs : List Char) : Option (List α × List Char) :=
  match checked cs (readPart cs) with
  | none => none
  | some (part, ⟨rest, _⟩) =>
    match _hrest : skipSpace rest with
    | c :: rest =>
      if c = ',' then parts? closing readPart (part :: found) rest
      else if c = closing then some ((part :: found).reverse, rest)
      else none
    | [] => none
termination_by cs.length
decreasing_by
  have hlength := skipSpace_length
  grind

/-- A name and its colon at the front of a text. -/
def fieldName? (cs : List Char) : Option (String × List Char) :=
  match skipSpace cs with
  | '"' :: rest =>
    match stringRest? [] rest with
    | some (name, rest) =>
      match skipSpace rest with
      | ':' :: rest => some (name, rest)
      | _ => none
    | none => none
  | _ => none

/-- A field at the front of a text. -/
def field? (readValue : ValueReader) (cs : List Char) : Option ((String × Json) × List Char) :=
  (fieldName? cs).bind fun (name, rest) =>
    (readValue (skipSpace rest)).map fun (value, rest) => ((name, value), rest)

/-- A value at the front of a text that holds no white space there, with at most the given number
of arrays and objects around its innermost part. -/
def value? : Nat → ValueReader
  | 0, _ => none
  | depth + 1, '[' :: rest =>
    match skipSpace rest with
    | ']' :: rest => some (array [], rest)
    | _ =>
      (parts? ']' (fun cs => value? depth (skipSpace cs)) [] rest).map fun (items, rest) =>
        (array items, rest)
  | depth + 1, '{' :: rest =>
    match skipSpace rest with
    | '}' :: rest => some (object [], rest)
    | _ =>
      (parts? '\x7d' (field? (value? depth)) [] rest).map fun (fields, rest) =>
        (object fields, rest)
  | _ + 1, cs => scalar? cs

/-- The value that a whole text spells. Nesting is never deeper than the text is long. -/
def parse? (text : String) : Option Json :=
  let cs := skipSpace text.toList
  match value? (cs.length + 1) cs with
  | some (json, rest) => if (skipSpace rest).isEmpty then some json else none
  | none => none

end MailFilter.Json
