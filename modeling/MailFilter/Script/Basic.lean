/-!
# Scripts

A script is a list of commands. A command has a name, positional arguments, perhaps the tests it
depends on and perhaps a block of further commands; a test has a name, arguments and perhaps tests
of its own. Names are in lower case, and every command and test keeps the line it begins on.
-/

namespace MailFilter

/-- A positional argument of a command or a test. -/
inductive Argument where
  /-- A tag with its colon, in lower case. -/
  | tag (text : String)
  /-- A number after its scale letter has been applied. -/
  | number (value : Nat)
  | string (text : String)
  | strings (items : List String)
  deriving DecidableEq, Inhabited

namespace Argument

/-- What a message calls an argument of this shape. -/
def describe : Argument → String
  | tag _ => "tag"
  | number _ => "number"
  | string _ => "string"
  | strings _ => "string list"

/-- The tag, if the argument is one. -/
def tag? : Argument → Option String
  | tag text => some text
  | _ => none

/-- The text, if the argument is a single string. -/
def string? : Argument → Option String
  | string text => some text
  | _ => none

/-- The value, if the argument is a number. -/
def number? : Argument → Option Nat
  | number value => some value
  | _ => none

/-- The strings, if the argument may stand where a list of strings is wanted: a single string
counts as a list of one. -/
def strings? : Argument → Option (List String)
  | string text => some [text]
  | strings items => some items
  | _ => none

end Argument

/-- A question about a message. `tests` is present if nested tests were written, even none. -/
structure Test where
  name : String
  arguments : List Argument
  tests : Option (List Test)
  line : Nat
  deriving Inhabited

/-- A step of a script. `tests` and `block` are present if they were written, even empty. -/
structure Command where
  name : String
  arguments : List Argument
  tests : Option (List Test)
  block : Option (List Command)
  line : Nat
  deriving Inhabited

/-- The tests nested in a test, none if none were written. -/
def Test.nested (test : Test) : List Test :=
  test.tests.getD []

/-- The tests a command was given, none if none were written. -/
def Command.nested (command : Command) : List Test :=
  command.tests.getD []

/-- A whole script. -/
abbrev Script := List Command

end MailFilter
