/-!
# JSON values

Settings, action lists and the envelopes of queued mail are exchanged as JSON. An object keeps its
fields in the order they were written, repeated names included, so that a reader of a record can
refuse repetition.
-/

namespace MailFilter

/-- A number as far as this program tells numbers apart: a natural number written with digits
alone, or any other literal, kept as it was written. -/
inductive JsonNumber where
  | natural (value : Nat)
  | other (literal : String)
  deriving DecidableEq, Inhabited

/-- A JSON value. -/
inductive Json where
  | null
  | bool (value : Bool)
  | number (value : JsonNumber)
  | string (text : String)
  | array (items : List Json)
  | object (fields : List (String × Json))
  deriving Inhabited

namespace Json

/-- A natural number as a value. -/
def nat (value : Nat) : Json :=
  number (.natural value)

/-- A list of strings as a value. -/
def strings (items : List String) : Json :=
  array (items.map string)

/-- A text, or null if there is none. -/
def optional : Option String → Json
  | some text => string text
  | none => null

/-- The fields of an object. -/
def object? : Json → Option (List (String × Json))
  | object fields => some fields
  | _ => none

/-- The items of an array. -/
def array? : Json → Option (List Json)
  | array items => some items
  | _ => none

/-- The text of a string. -/
def string? : Json → Option String
  | string text => some text
  | _ => none

/-- The value of a Boolean. -/
def bool? : Json → Option Bool
  | bool value => some value
  | _ => none

/-- The largest number that a field may hold, the last that fits in 64 bits. -/
def maxNatural : Nat := UInt64.size - 1

/-- The value of a natural number that a field may hold. -/
def nat? : Json → Option Nat
  | number (.natural value) => if value ≤ maxNatural then some value else none
  | _ => none

/-- The texts of an array of strings. -/
def strings? (json : Json) : Option (List String) := do
  (← json.array?).mapM string?

/-- The value of a field of an object, null if it has none of that name. -/
def field (json : Json) (name : String) : Json :=
  match json with
  | object fields => (fields.find? fun field => field.1 == name).elim null Prod.snd
  | _ => null

/-- The only value of a name among some fields: `some none` if there is none, and `none` if the
name is repeated. -/
def uniqueField? (fields : List (String × Json)) (name : String) : Option (Option Json) :=
  match fields.filter fun field => field.1 == name with
  | [] => some none
  | [(_, value)] => some (some value)
  | _ => none

/-- The values of the named fields of a record, each absent if it was left out. A record is an
object with fields in any order, or an array of the first fields in theirs. Fields of other names
are passed over; a repeated field, or an array that is too long, is no record. -/
def record? (names : List String) : Json → Option (List (Option Json))
  | object fields => names.mapM (uniqueField? fields)
  | array items =>
    if items.length ≤ names.length then
      some (items.map some ++ List.replicate (names.length - items.length) none)
    else none
  | _ => none

end Json

end MailFilter
