import MailFilter.Registry
import MailFilter.Script.Basic

/-!
# Checking a script before it runs

A script is checked once against the registries: requirements come first and ask only for features
there are, every command and test is known, and a comparator that is not implicit is required before
a test names it. The inside of a requirement's own block and tests is left to its own checks.
-/

namespace MailFilter.Script

/-- The first comparator that some arguments name without its having been declared. What follows the
tag is skipped whatever it is, because a malformed name is left to the test's own checks. -/
def undeclared? (declared : List String) : List Argument → Option String
  | .tag ":comparator" :: .string name :: rest =>
    if declared.contains (Ascii.lower name) then undeclared? declared rest else some name
  | .tag ":comparator" :: _ :: rest => undeclared? declared rest
  | _ :: rest => undeclared? declared rest
  | [] => none

/-- Checks positional arguments that belong to a command or test on the given line. -/
def checkArguments (declared : List String) (line : Nat) (arguments : List Argument) :
    Except Fault Unit :=
  match undeclared? declared arguments with
  | some name => .error (.validation line (.undeclaredComparator name))
  | none => .ok ()

mutual

/-- Checks a test and the tests inside it. -/
def checkTest (registries : Registries) (declared : List String) : Test → Except Fault Unit
  | ⟨name, arguments, tests, line⟩ => do
    if !registries.tests.supports name then
      throw (.validation line (.unknownTest name))
    checkArguments declared line arguments
    checkTests? registries declared tests

/-- Checks tests that may have been written. -/
def checkTests? (registries : Registries) (declared : List String) :
    Option (List Test) → Except Fault Unit
  | none => .ok ()
  | some tests => checkTests registries declared tests

/-- Checks some tests in order. -/
def checkTests (registries : Registries) (declared : List String) : List Test → Except Fault Unit
  | [] => .ok ()
  | test :: tests => do
    checkTest registries declared test
    checkTests registries declared tests

end

mutual

/-- Checks a command other than a requirement, its tests and its block. -/
def checkCommand (registries : Registries) (declared : List String) : Command → Except Fault Unit
  | ⟨name, arguments, tests, block, line⟩ => do
    if !registries.commands.supports name then
      throw (.validation line (.unknownCommand name))
    checkArguments declared line arguments
    checkTests? registries declared tests
    checkBlock? registries declared block

/-- Checks a block that may have been written. -/
def checkBlock? (registries : Registries) (declared : List String) :
    Option (List Command) → Except Fault Unit
  | none => .ok ()
  | some block => checkBlock registries declared block

/-- Checks the commands of a block in order. None of them may be a requirement. -/
def checkBlock (registries : Registries) (declared : List String) :
    List Command → Except Fault Unit
  | [] => .ok ()
  | command :: commands => do
    if command.name = "require" then
      throw (.validation command.line .nestedRequire)
    checkCommand registries declared command
    checkBlock registries declared commands

end

/-- The declared comparators after one required feature. -/
def declareFeature (registries : Registries) (line : Nat) (declared : List String)
    (feature : String) : Except Fault (List String) :=
  let feature := Ascii.lower feature
  match requiredComparator? feature with
  | some comparator =>
    if registries.comparators.supports comparator then .ok (comparator :: declared)
    else .error (.validation line (.unsupportedComparator comparator))
  | none =>
    if registries.commands.supports feature || registries.tests.supports feature then .ok declared
    else .error (.validation line (.unsupportedFeature feature))

/-- The features that a requirement lists. Arguments that are no strings are left to the command's
own checks. -/
def requiredFeatures (command : Command) : List String :=
  command.arguments.flatMap fun argument => argument.strings?.getD []

/-- Checks the top-level commands in order, given the comparators declared so far and whether only
requirements stand before. -/
def checkScript (registries : Registries) (declared : List String) (inProlog : Bool) :
    Script → Except Fault Unit
  | [] => .ok ()
  | command :: commands => do
    if command.name = "require" then
      if !inProlog then throw (.validation command.line .lateRequire)
      let declared ←
        (requiredFeatures command).foldlM (declareFeature registries command.line) declared
      checkScript registries declared true commands
    else
      checkCommand registries declared command
      checkScript registries declared false commands

/-- Refuses a script that breaks one of the rules above. -/
def validate (script : Script) (registries : Registries) : Except Fault Unit :=
  checkScript registries implicitComparators true script

end MailFilter.Script
