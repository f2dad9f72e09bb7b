import MailFilter.Text.Ascii

/-!
# Ways to compare

The small choices that tags and words of a script name: how a value is compared with a key, which
part of an address and of an envelope is meant, on which side of a limit a size has to lie, and how
loud a log line is. Each has one spelling, given by `text`.
-/

namespace MailFilter

/-- How a value is compared with a key. -/
inductive MatchType where
  | is
  | contains
  | wildcard
  deriving DecidableEq, Inhabited

/-- The part of an address that is compared. -/
inductive AddressPart where
  | all
  | localpart
  | domain
  deriving DecidableEq, Inhabited

/-- The side of a limit a size has to lie on. -/
inductive SizeSide where
  | above
  | below
  deriving DecidableEq, Inhabited

/-- The path of an envelope that is compared. -/
inductive EnvelopePart where
  | sender
  | recipient
  deriving DecidableEq, Inhabited

/-- The weight of a line that a script writes to the log. -/
inductive LogLevel where
  | fatal
  | error
  | warn
  | info
  | debug
  | trace
  deriving DecidableEq, Inhabited

namespace MatchType

/-- The tag of a match type. -/
def text : MatchType → String
  | is => ":is"
  | contains => ":contains"
  | wildcard => ":matches"

/-- The match type of a tag. -/
def ofTag? : String → Option MatchType
  | ":is" => some is
  | ":contains" => some contains
  | ":matches" => some wildcard
  | _ => none

end MatchType

namespace AddressPart

/-- The tag of an address part. -/
def text : AddressPart → String
  | all => ":all"
  | localpart => ":localpart"
  | domain => ":domain"

/-- The address part of a tag. -/
def ofTag? : String → Option AddressPart
  | ":all" => some all
  | ":localpart" => some localpart
  | ":domain" => some domain
  | _ => none

end AddressPart

namespace SizeSide

/-- The tag of a side. -/
def text : SizeSide → String
  | above => ":over"
  | below => ":under"

/-- The side of a tag. -/
def ofTag? : String → Option SizeSide
  | ":over" => some above
  | ":under" => some below
  | _ => none

/-- Whether a size lies on this side of a limit. Neither side holds the limit itself. -/
def holds : SizeSide → Nat → Nat → Bool
  | above, size, limit => limit < size
  | below, size, limit => size < limit

end SizeSide

namespace EnvelopePart

/-- The word for an envelope part. -/
def text : EnvelopePart → String
  | sender => "from"
  | recipient => "to"

/-- The envelope part of a word, in any case of its letters. -/
def ofWord? (word : String) : Option EnvelopePart :=
  match Ascii.lower word with
  | "from" => some sender
  | "to" => some recipient
  | _ => none

end EnvelopePart

namespace LogLevel

/-- The tag of a level. -/
def text : LogLevel → String
  | fatal => ":fatal"
  | error => ":error"
  | warn => ":warn"
  | info => ":info"
  | debug => ":debug"
  | trace => ":trace"

/-- The level of a tag. -/
def ofTag? : String → Option LogLevel
  | ":fatal" => some fatal
  | ":error" => some error
  | ":warn" => some warn
  | ":info" => some info
  | ":debug" => some debug
  | ":trace" => some trace
  | _ => none

end LogLevel

end MailFilter
