import MailFilter.Fault
import MailFilter.Text.Ascii

/-!
# Number literals

A number is written as decimal digits and perhaps a letter that scales it by a power of 1024. Its
value has to fit in 64 bits; a value that does not is a fault, never a smaller number.
-/

namespace MailFilter.Script

/-- Numbers stay below this bound, the first that does not fit in 64 bits. -/
def numberBound : Nat := UInt64.size

/-- The factor a scale letter stands for. -/
def scaleOf? (c : Char) : Option Nat :=
  if c = 'K' ∨ c = 'k' then some 1024
  else if c = 'M' ∨ c = 'm' then some (1024 * 1024)
  else if c = 'G' ∨ c = 'g' then some (1024 * 1024 * 1024)
  else none

/-- The number that decimal digits spell, the most significant first. -/
def ofDigits (digits : List Char) : Nat :=
  digits.foldl (fun value c => value * 10 + (c.toNat - '0'.toNat)) 0

/-- The value of a plain decimal number below the bound. A single plus sign may stand before the
digits, of which there must be at least one. -/
def decimal? (text : List Char) : Option Nat :=
  let digits := match text with
    | '+' :: rest => rest
    | _ => text
  if digits ≠ [] ∧ digits.all Ascii.isDigit ∧ ofDigits digits < numberBound then
    some (ofDigits digits)
  else none

/-- A literal cut into its digits and the factor of its scale letter, which is one without it. -/
def splitScale (text : List Char) : List Char × Nat :=
  match text.getLast?.bind scaleOf? with
  | some scale => (text.dropLast, scale)
  | none => (text, 1)

/-- The value of a number literal on the given line. -/
def parseNumber (text : String) (line : Nat) : Except Fault Nat :=
  let (digits, scale) := splitScale text.toList
  match decimal? digits with
  | some value =>
    if value * scale < numberBound then .ok (value * scale)
    else .error (.arguments "number" line (.invalidNumber text))
  | none => .error (.arguments "number" line (.invalidNumber text))

end MailFilter.Script
