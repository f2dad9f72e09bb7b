import MailFilter.Fault
import MailFilter.Match.Comparator
import MailFilter.NameTable
import MailFilter.Text.Ascii

/-!
# Registries

A script calls commands, tests and comparators by name, and a registry says what each name stands
for. What a name can stand for is one of the implementations listed here, so a script can only do
what this program knows to do, under whatever names it was set up with. Names are registered and
looked up in lower case. Some names may be used without being required first.
-/

namespace MailFilter

/-- The commands there are. -/
inductive CommandKind where
  | branch
  | elseBranch
  | otherwise
  | require
  | stop
  | keep
  | discard
  | fileinto
  | redirect
  | reject
  | vacation
  | log
  deriving DecidableEq, Inhabited

/-- The tests there are. -/
inductive TestKind where
  | address
  | envelope
  | header
  | exists
  | size
  | not
  | allof
  | anyof
  | true
  | false
  deriving DecidableEq, Inhabited

namespace CommandKind

/-- The name a command goes by unless it is registered under another. -/
def name : CommandKind → String
  | branch => "if"
  | elseBranch => "elsif"
  | otherwise => "else"
  | require => "require"
  | stop => "stop"
  | keep => "keep"
  | discard => "discard"
  | fileinto => "fileinto"
  | redirect => "redirect"
  | reject => "reject"
  | vacation => "vacation"
  | log => "log"

/-- Every command once. -/
def all : List CommandKind :=
  [branch, elseBranch, otherwise, require, stop, keep, discard, fileinto, redirect, reject,
    vacation, log]

end CommandKind

namespace TestKind

/-- The name a test goes by unless it is registered under another. -/
def name : TestKind → String
  | address => "address"
  | envelope => "envelope"
  | header => "header"
  | .exists => "exists"
  | size => "size"
  | not => "not"
  | allof => "allof"
  | anyof => "anyof"
  | .true => "true"
  | .false => "false"

/-- Every test once. -/
def all : List TestKind :=
  [address, envelope, header, .exists, size, not, allof, anyof, .true, .false]

end TestKind

/-- Every comparator once. -/
def Comparator.all : List Comparator := [octet, asciiCasemap]

/-- What some names stand for, and which names need no declaration. -/
structure Registry (κ : Type) where
  bindings : NameTable κ
  implicitNames : List String

namespace Registry

variable {κ : Type}

/-- A registry that knows no name. -/
def empty (implicitNames : List String) : Registry κ := ⟨.empty, implicitNames⟩

/-- Binds a name, in lower case. -/
def register (registry : Registry κ) (name : String) (kind : κ) : Registry κ :=
  { registry with bindings := registry.bindings.insert (Ascii.lower name) kind }

/-- What a name stands for, in any case of its letters. -/
def lookup (registry : Registry κ) (name : String) : Except Fault κ :=
  match registry.bindings.find? (Ascii.lower name) with
  | some kind => .ok kind
  | none => .error (.lookup name)

/-- Whether a name stands for something. -/
def supports (registry : Registry κ) (name : String) : Bool :=
  registry.bindings.contains (Ascii.lower name)

/-- Whether a name needs no declaration. -/
def isImplicit (registry : Registry κ) (name : String) : Bool :=
  registry.implicitNames.any (Ascii.eqIgnoreCase · name)

/-- The registered names that need a declaration, in order. -/
def extensions (registry : Registry κ) : List String :=
  registry.bindings.names.filter (!registry.isImplicit ·)

/-- The number of registered names. -/
def size (registry : Registry κ) : Nat :=
  registry.bindings.size

end Registry

/-- Commands that need no declaration. -/
def implicitCommands : List String :=
  ["if", "else", "elsif", "require", "stop", "keep", "discard", "redirect"]

/-- Tests that need no declaration. -/
def implicitTests : List String :=
  ["address", "allof", "anyof", "exists", "false", "header", "not", "size", "true"]

/-- Comparators that need no declaration. -/
def implicitComparators : List String :=
  Comparator.all.map Comparator.name

/-- What the names of a script are resolved against. -/
structure Registries where
  commands : Registry CommandKind
  tests : Registry TestKind
  comparators : Registry Comparator

/-- The mark of a comparator among the features a script requires. -/
def comparatorMark : String := "comparator-"

/-- The name of the comparator that a required feature asks for, if it asks for one. -/
def requiredComparator? (feature : String) : Option String :=
  let mark := comparatorMark.toList
  let letters := feature.toList
  if mark.isPrefixOf letters then some (String.ofList (letters.drop mark.length)) else none

/-- A list of names in order, each once. -/
def sortedNames (names : List String) : List String :=
  (NameTable.ofList (names.map fun name => (name, ()))).names

namespace Registries

/-- Registries that know no name. -/
def empty : Registries :=
  ⟨.empty implicitCommands, .empty implicitTests, .empty implicitComparators⟩

/-- Every implementation under its own name. -/
def builtin : Registries where
  commands := CommandKind.all.foldl (fun registry kind => registry.register kind.name kind)
    (.empty implicitCommands)
  tests := TestKind.all.foldl (fun registry kind => registry.register kind.name kind)
    (.empty implicitTests)
  comparators := Comparator.all.foldl (fun registry kind => registry.register kind.name kind)
    (.empty implicitComparators)

/-- The features a script may require: names that need a declaration, in order and each once. -/
def extensions (registries : Registries) : List String :=
  sortedNames (registries.commands.extensions ++ registries.tests.extensions ++
    registries.comparators.extensions.map (comparatorMark ++ ·))

/-- Whether a script may require a feature. -/
def supportsFeature (registries : Registries) (feature : String) : Bool :=
  match requiredComparator? feature with
  | some comparator => registries.comparators.supports comparator
  | none => registries.commands.supports feature || registries.tests.supports feature

end Registries

end MailFilter
