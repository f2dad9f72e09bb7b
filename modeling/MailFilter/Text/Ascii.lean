/-!
# ASCII letters and white space

Names, tags and the case-insensitive comparator fold the letters `A` to `Z` and nothing else, and
the script reader skips the five white-space characters below. Characters outside ASCII are never
touched.
-/

namespace MailFilter.Ascii

/-- An upper-case ASCII letter becomes its lower-case letter; any other character stays. -/
def lowerChar (c : Char) : Char :=
  if 'A' ≤ c ∧ c ≤ 'Z' then Char.ofNat (c.toNat + 32) else c

/-- A lower-case ASCII letter becomes its upper-case letter; any other character stays. -/
def upperChar (c : Char) : Char :=
  if 'a' ≤ c ∧ c ≤ 'z' then Char.ofNat (c.toNat - 32) else c

/-- The text with every ASCII letter in lower case. -/
def lower (s : String) : String :=
  String.ofList (s.toList.map lowerChar)

/-- The text with every ASCII letter in upper case. -/
def upper (s : String) : String :=
  String.ofList (s.toList.map upperChar)

/-- Two texts agree up to the case of their ASCII letters. -/
def eqIgnoreCase (s t : String) : Bool :=
  s.toList.map lowerChar == t.toList.map lowerChar

/-- Space, tab, line feed, form feed or carriage return. -/
def isSpace (c : Char) : Bool :=
  c == ' ' || c == '\t' || c == '\n' || c == '\x0c' || c == '\r'

/-- A decimal digit. -/
def isDigit (c : Char) : Bool :=
  '0' ≤ c && c ≤ '9'

/-- An ASCII letter of either case. -/
def isLetter (c : Char) : Bool :=
  ('a' ≤ c && c ≤ 'z') || ('A' ≤ c && c ≤ 'Z')

/-- A character that a name may hold: a letter, a digit or an underscore. -/
def isWordChar (c : Char) : Bool :=
  isLetter c || isDigit c || c == '_'

/-- A text is folded character by character. -/
@[simp] theorem toList_lower (s : String) : (lower s).toList = s.toList.map lowerChar := by
  simp [lower]

/-- A text is folded to upper case character by character. -/
@[simp] theorem toList_upper (s : String) : (upper s).toList = s.toList.map upperChar := by
  simp [upper]

end MailFilter.Ascii
