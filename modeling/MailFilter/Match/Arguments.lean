import MailFilter.Fault
import MailFilter.Match.Comparator

/-!
# The arguments of a matching test

The tests `header`, `address` and `envelope` take the same arguments: first tags that choose a
comparator, a match type and, where addresses are compared, a part of them, in any order and each
at most once; then a list of names and a list of keys.
-/

namespace MailFilter

/-- What the tags of a matching test have chosen so far. -/
structure MatchTags where
  comparator : Option String
  matchType : Option MatchType
  addressPart : Option AddressPart
  deriving DecidableEq

/-- What a matching test was asked to do. The comparator is a name in lower case, which the
registry of comparators may or may not know. -/
structure MatchArguments where
  comparator : String
  matchType : MatchType
  addressPart : AddressPart
  names : List String
  keys : List String
  deriving DecidableEq

namespace MatchTags

/-- No choice made. -/
def none : MatchTags := ⟨.none, .none, .none⟩

/-- The choices after one more tag other than `:comparator`. Address parts are tags only where
addresses are compared. -/
def choose (tags : MatchTags) (addresses : Bool) (tag : String) :
    Except ArgumentCause MatchTags :=
  match MatchType.ofTag? tag with
  | some matchType =>
    if tags.matchType.isSome then .error .repeatedMatchType
    else .ok { tags with matchType := some matchType }
  | .none =>
    match (AddressPart.ofTag? tag).filter fun _ => addresses with
    | some part =>
      if tags.addressPart.isSome then .error .repeatedAddressPart
      else .ok { tags with addressPart := some part }
    | .none => .error (.unknownTag tag)

/-- The choices after `:comparator` and the name behind it. -/
def chooseComparator (tags : MatchTags) (name : String) : Except ArgumentCause MatchTags :=
  if tags.comparator.isSome then .error .repeatedComparator
  else .ok { tags with comparator := some (Ascii.lower name) }

/-- Reads the tags at the front of some arguments, and gives back the arguments behind them. -/
def read (addresses : Bool) (tags : MatchTags) :
    List Argument → Except ArgumentCause (MatchTags × List Argument)
  | .tag tag :: rest =>
    if tag = ":comparator" then
      match rest with
      | .string name :: rest =>
        match tags.chooseComparator name with
        | .ok tags => read addresses tags rest
        | .error cause => .error cause
      | _ => .error .comparatorNameExpected
    else
      match tags.choose addresses tag with
      | .ok tags => read addresses tags rest
      | .error cause => .error cause
  | rest => .ok (tags, rest)

end MatchTags

namespace MatchArguments

/-- The lists that some arguments are, none of which may be a tag or a number. -/
def readLists : List Argument → Except ArgumentCause (List (List String))
  | [] => .ok []
  | .tag tag :: _ => .error (.tagAfterLists tag)
  | .number value :: _ => .error (.listExpected (.number value))
  | .string text :: rest => return [text] :: (← readLists rest)
  | .strings items :: rest => return items :: (← readLists rest)

/-- The arguments that the positional arguments of a test spell. -/
def ofArguments (addresses : Bool) (arguments : List Argument) :
    Except ArgumentCause MatchArguments := do
  let (tags, rest) ← MatchTags.none.read addresses arguments
  match ← readLists rest with
  | [names, keys] =>
    return {
      comparator := tags.comparator.getD Comparator.asciiCasemap.name
      matchType := tags.matchType.getD .is
      addressPart := tags.addressPart.getD .all
      names := names
      keys := keys }
  | lists => .error (.twoListsExpected lists.length)

/-- What a test was asked to do. A matching test holds no further tests. -/
def ofTest (test : Test) (addresses : Bool) : Except Fault MatchArguments :=
  let read := if test.tests.isSome then .error .nestedTestsRefused
    else ofArguments addresses test.arguments
  read.mapError (.arguments test.name test.line)

end MatchArguments

end MailFilter
