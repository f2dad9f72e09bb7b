/-!
# The raw tree of a script

The grammar turns tokens into a tree of plain nodes. Names are not resolved yet: a node says what
part of the grammar it stands for, carries the literal text that part begins with, and holds the
parts inside it. A tree that comes from elsewhere may have any shape, so nothing is assumed here.
-/

namespace MailFilter.Script

/-- The part of the grammar that a node stands for. -/
inductive NodeKind where
  | start
  | command
  | block
  | arguments
  | argument
  | testList
  | test
  | stringList
  | string
  | number
  | tag
  deriving DecidableEq, Inhabited

namespace NodeKind

/-- The name of the kind in messages and in written trees. -/
def name : NodeKind → String
  | start => "Start"
  | command => "Command"
  | block => "Block"
  | arguments => "Arguments"
  | argument => "Argument"
  | testList => "TestList"
  | test => "Test"
  | stringList => "StringList"
  | string => "String"
  | number => "Number"
  | tag => "Tag"

/-- Every kind once. -/
def all : List NodeKind :=
  [start, command, block, arguments, argument, testList, test, stringList, string, number, tag]

/-- The kind of a given name. -/
def ofName? (text : String) : Option NodeKind :=
  all.find? fun kind => kind.name == text

end NodeKind

/-- A node of the raw tree, with the line and column where its part begins. -/
structure Node where
  kind : NodeKind
  token : Option String
  line : Nat
  column : Nat
  children : List Node
  deriving Inhabited

end MailFilter.Script
