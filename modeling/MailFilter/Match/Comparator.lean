import MailFilter.Match.Glob
import MailFilter.Match.Mode
import MailFilter.Text.Ascii

/-!
# Comparators

A comparator decides when two texts count as the same (RFC 3028, section 2.7.3), and every match
type is derived from that. The octet comparator takes texts as they are. The case-folding one
passes over the case of ASCII letters where it compares whole texts, and where it looks inside them
it first turns the letters of both into upper case.
-/

namespace MailFilter

/-- The comparators there are. -/
inductive Comparator where
  | octet
  | asciiCasemap
  deriving DecidableEq, Inhabited

/-- Whether `part` stands somewhere in `whole`. -/
def containsList (whole part : List Char) : Bool :=
  part.isPrefixOf whole ||
    match whole with
    | [] => false
    | _ :: rest => containsList rest part

namespace Comparator

/-- The name a script calls a comparator by. -/
def name : Comparator → String
  | octet => "i;octet"
  | asciiCasemap => "i;ascii-casemap"

/-- Whether value and key are the same text. -/
def equals : Comparator → String → String → Bool
  | octet, value, key => value == key
  | asciiCasemap, value, key => Ascii.eqIgnoreCase value key

/-- The form of a text that this comparator looks into. -/
def fold : Comparator → String → String
  | octet, text => text
  | asciiCasemap, text => Ascii.upper text

/-- Whether the key stands somewhere in the value. -/
def contains (comparator : Comparator) (value key : String) : Bool :=
  containsList (comparator.fold value).toList (comparator.fold key).toList

/-- Whether the pattern matches the whole value. -/
def wildcard (comparator : Comparator) (value pattern : String) : Bool :=
  Glob.matches (comparator.fold value) (comparator.fold pattern)

/-- The comparison a match type asks for. -/
def compare (comparator : Comparator) : MatchType → String → String → Bool
  | .is => comparator.equals
  | .contains => comparator.contains
  | .wildcard => comparator.wildcard

end Comparator

end MailFilter
