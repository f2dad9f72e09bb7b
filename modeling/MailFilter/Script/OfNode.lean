import MailFilter.Script.Number
import MailFilter.Script.Parser

/-!
# From the raw tree to a script

A raw tree may come from the grammar or from anywhere else. Each node is checked as it is read, so
every tree either gives a script or a fault that points at the first node out of place.
-/

namespace MailFilter.Script

namespace Node

/-- The fault of a node that stands where another kind is wanted. -/
def unexpected (node : Node) (wanted : String) : Fault :=
  .parse node.line node.column (.nodeExpected wanted node.kind)

/-- Refuses a node of any other kind. -/
def expect (node : Node) (kind : NodeKind) : Except Fault Unit :=
  if node.kind = kind then .ok () else .error (node.unexpected kind.name)

/-- The literal text of a node that must have one. -/
def text (node : Node) : Except Fault String :=
  match node.token with
  | some text => .ok text
  | none => .error (.parse node.line node.column (.tokenMissing node.kind))

/-- The text of a string node. -/
def stringItem (node : Node) : Except Fault String := do
  node.expect .string
  node.text

/-- The argument that a value node stands for. -/
def toArgument (node : Node) : Except Fault Argument :=
  match node.kind with
  | .string => return .string (← node.text)
  | .tag => return .tag (Ascii.lower (← node.text))
  | .number => do return .number (← parseNumber (← node.text) node.line)
  | .stringList => return .strings (← node.children.mapM stringItem)
  | _ => .error (node.unexpected "string, number, tag or string list")

end Node

/-- What the node of some arguments holds: the positional ones, and the tests if any were
written. -/
structure Arguments where
  positional : List Argument
  tests : Option (List Test)

mutual

/-- The test that a node stands for. Only the node's first child counts. -/
def Node.toTest : Node → Except Fault Test
  | ⟨kind, token, line, column, children⟩ => do
    let node : Node := ⟨kind, token, line, column, children⟩
    node.expect .test
    let name := Ascii.lower (← node.text)
    match children with
    | [] => return ⟨name, [], none, line⟩
    | child :: _ =>
      let arguments ← child.toArguments "arguments"
      return ⟨name, arguments.positional, arguments.tests, line⟩

/-- The tests that a list of nodes stands for. -/
def Node.toTests : List Node → Except Fault (List Test)
  | [] => .ok []
  | node :: nodes => do
    let test ← node.toTest
    return test :: (← Node.toTests nodes)

/-- The arguments that a node holds, which must be a node of arguments, called `wanted` in the
fault if it is not. -/
def Node.toArguments (wanted : String) : Node → Except Fault Arguments
  | ⟨kind, token, line, column, children⟩ =>
    if kind = .arguments then Node.collectArguments ⟨[], none⟩ children
    else .error (Node.unexpected ⟨kind, token, line, column, children⟩ wanted)

/-- The arguments of a list of nodes, put behind those found before. The last node of tests
counts. -/
def Node.collectArguments (found : Arguments) : List Node → Except Fault Arguments
  | [] => .ok found
  | ⟨.argument, token, line, column, children⟩ :: nodes =>
    match children with
    | [] =>
      .error (Node.unexpected ⟨.argument, token, line, column, children⟩ "argument value")
    | value :: _ => do
      let argument ← value.toArgument
      Node.collectArguments { found with positional := found.positional ++ [argument] } nodes
  | ⟨.test, token, line, column, children⟩ :: nodes => do
    let test ← Node.toTest ⟨.test, token, line, column, children⟩
    Node.collectArguments { found with tests := some [test] } nodes
  | ⟨.testList, _, _, _, children⟩ :: nodes => do
    let tests ← Node.toTests children
    Node.collectArguments { found with tests := some tests } nodes
  | node :: _ => .error (node.unexpected "argument or test")

end

/-- What the children of a command's node hold. -/
structure CommandParts where
  arguments : Arguments
  block : Option (List Command)

mutual

/-- The command that a node stands for. -/
def Node.toCommand : Node → Except Fault Command
  | ⟨kind, token, line, column, children⟩ => do
    let node : Node := ⟨kind, token, line, column, children⟩
    node.expect .command
    let name := Ascii.lower (← node.text)
    let parts ← Node.collectParts ⟨⟨[], none⟩, none⟩ children
    return ⟨name, parts.arguments.positional, parts.arguments.tests, parts.block, line⟩

/-- The parts of a command among a list of nodes, after those found before. The last node of each
sort counts. -/
def Node.collectParts (found : CommandParts) : List Node → Except Fault CommandParts
  | [] => .ok found
  | ⟨.arguments, token, line, column, children⟩ :: nodes => do
    let arguments ← Node.toArguments "arguments" ⟨.arguments, token, line, column, children⟩
    Node.collectParts { found with arguments := arguments } nodes
  | ⟨.block, _, _, _, children⟩ :: nodes => do
    let commands ← Node.toCommands children
    Node.collectParts { found with block := some commands } nodes
  | node :: _ => .error (node.unexpected "arguments or block")

/-- The commands that a list of nodes stands for. -/
def Node.toCommands : List Node → Except Fault (List Command)
  | [] => .ok []
  | node :: nodes => do
    let command ← node.toCommand
    return command :: (← Node.toCommands nodes)

end

end MailFilter.Script

namespace MailFilter

/-- The script that a raw tree stands for. -/
def Script.ofNode (root : Script.Node) : Except Fault Script := do
  root.expect .start
  Script.Node.toCommands root.children

/-- The script of a text, its names not yet checked. -/
def Script.parse (text : String) : Except Fault Script := do
  Script.ofNode (← Script.Node.parse text)

end MailFilter
