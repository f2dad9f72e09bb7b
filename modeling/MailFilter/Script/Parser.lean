import MailFilter.Script.Lexer

/-!
# From tokens to the raw tree

The grammar is that of RFC 3028, section 8.2, with one limit: a block is one level below its
command, a test one level below the command or test that holds it, and there are at most
`maxNesting` levels. Each reader takes the tokens it needs from the front of a list and returns the
rest together with the proof that the rest is no longer, which is why the loops below end.
-/

namespace MailFilter.Script

/-- The deepest nesting of blocks and tests. Every later pass recurses over the tree, so this
bounds them all. -/
def maxNesting : Nat := 64

/-- Tokens that remain after a reader has taken some of `tokens`, or none. -/
abbrev Rest (tokens : List Span) := { rest : List Span // rest.length ≤ tokens.length }

/-- Tokens that remain after a reader has taken at least one of `tokens`. -/
abbrev Remainder (tokens : List Span) := { rest : List Span // rest.length < tokens.length }

/-- A fault at the next token, or at the last token of the script if none is left. -/
def faultAt (last : Place) (tokens : List Span) (cause : Option Token → ParseCause) : Fault :=
  match tokens with
  | span :: _ => .parse span.place.line span.place.column (cause (some span.token))
  | [] => .parse last.line last.column (cause none)

/-- A node without children that begins where a token does. -/
def Span.leaf (span : Span) (kind : NodeKind) (text : String) : Node :=
  ⟨kind, some text, span.place.line, span.place.column, []⟩

/-- A node with children that begins where a token does. -/
def Span.node (span : Span) (kind : NodeKind) (token : Option String) (children : List Node) :
    Node :=
  ⟨kind, token, span.place.line, span.place.column, children⟩

/-- The strings of a list after its opening bracket or a comma, up to the closing bracket. -/
def listItems (last : Place) : (tokens : List Span) → Except Fault (List Node × Rest tokens)
  | [] => .error (faultAt last [] .listItemExpected)
  | item :: tokens =>
    match item.token.string? with
    | none => .error (faultAt last (item :: tokens) .listItemExpected)
    | some text =>
      match tokens with
      | ⟨.comma, _, _⟩ :: rest => do
        let (items, ⟨rest', h⟩) ← listItems last rest
        return (item.leaf .string text :: items, ⟨rest', by simp only [List.length_cons]; omega⟩)
      | ⟨.rightBracket, _, _⟩ :: rest =>
        .ok ([item.leaf .string text], ⟨rest, by simp only [List.length_cons]; omega⟩)
      | other => .error (faultAt last other .listSeparatorExpected)

/-- The positional arguments at the front, in order: everything up to the first token that begins
none. -/
def positional (last : Place) (tokens : List Span) : Except Fault (List Node × Rest tokens) :=
  match tokens with
  | [] => .ok ([], ⟨[], Nat.le_refl _⟩)
  | span :: rest =>
    let single (value : Node) : Except Fault (List Node × Rest (span :: rest)) := do
      let (arguments, ⟨rest', h⟩) ← positional last rest
      return (span.node .argument none [value] :: arguments, ⟨rest', Nat.le_succ_of_le h⟩)
    match span.token with
    | .quoted text => single (span.leaf .string text)
    | .multiline text => single (span.leaf .string text)
    | .number text => single (span.leaf .number text)
    | .tag text => single (span.leaf .tag text)
    | .leftBracket => do
      let (items, ⟨after, hafter⟩) ← listItems last rest
      let list := span.node .stringList none items
      let (arguments, ⟨rest', h⟩) ← positional last after
      return (span.node .argument none [list] :: arguments,
        ⟨rest', by simp only [List.length_cons]; omega⟩)
    | _ => .ok ([], ⟨span :: rest, Nat.le_refl _⟩)
termination_by tokens.length
decreasing_by all_goals simp only [List.length_cons]; omega

/-- A reader of the test whose name is the token `span` and whose arguments come next. -/
abbrev TestReader := Span → String → (tokens : List Span) → Except Fault (Node × Rest tokens)

/-- The tests of a list after its opening parenthesis or a comma, up to the closing one. -/
def testList (last : Place) (readTest : TestReader) (tokens : List Span) :
    Except Fault (List Node × Rest tokens) :=
  match tokens with
  | ⟨.identifier name, place, size⟩ :: rest => do
    let (test, ⟨after, hafter⟩) ← readTest ⟨.identifier name, place, size⟩ name rest
    match after, hafter with
    | ⟨.comma, _, _⟩ :: after, hafter =>
      have : after.length < rest.length := hafter
      let (tests, ⟨rest', h⟩) ← testList last readTest after
      return (test :: tests, ⟨rest', by simp only [List.length_cons]; omega⟩)
    | ⟨.rightParen, _, _⟩ :: after, hafter =>
      return ([test], ⟨after, by simp only [List.length_cons] at *; omega⟩)
    | other, _ => .error (faultAt last other .testSeparatorExpected)
  | other => .error (faultAt last other .testExpected)
termination_by tokens.length

/-- The arguments at the front: positional ones, then perhaps one test or a list of tests. The node
begins at the next token, whatever it is. -/
def argumentsNode (last : Place) (readTest : TestReader) (tokens : List Span) :
    Except Fault (Node × Rest tokens) := do
  let place := match tokens with
    | span :: _ => span.place
    | [] => last
  let node (children : List Node) : Node := ⟨.arguments, none, place.line, place.column, children⟩
  let (arguments, ⟨after, hafter⟩) ← positional last tokens
  match after, hafter with
  | ⟨.identifier name, place, size⟩ :: rest, hafter =>
    let (test, ⟨rest', h⟩) ← readTest ⟨.identifier name, place, size⟩ name rest
    return (node (arguments ++ [test]), ⟨rest', by simp only [List.length_cons] at *; omega⟩)
  | ⟨.leftParen, place, size⟩ :: rest, hafter =>
    let (tests, ⟨rest', h⟩) ← testList last readTest rest
    let list := Span.node ⟨.leftParen, place, size⟩ .testList none tests
    return (node (arguments ++ [list]), ⟨rest', by simp only [List.length_cons] at *; omega⟩)
  | other, hother => return (node arguments, ⟨other, hother⟩)

/-- The reader of a test with the given number of levels left for it and the tests inside it. -/
def testNode (last : Place) : Nat → TestReader
  | 0, span, _, _ => .error (.parse span.place.line span.place.column (.tooDeep maxNesting))
  | levels + 1, span, name, tokens => do
    let (arguments, rest) ← argumentsNode last (testNode last levels) tokens
    return (span.node .test (some name) [arguments], rest)

/-- A reader of the block whose opening brace is the token `span` and whose commands come next. -/
abbrev BlockReader := Span → (tokens : List Span) → Except Fault (Node × Rest tokens)

/-- The command at the front: a name, arguments, then a semicolon or a block. -/
def commandNode (last : Place) (readTest : TestReader) (readBlock : BlockReader)
    (tokens : List Span) : Except Fault (Node × Remainder tokens) :=
  match tokens with
  | ⟨.identifier name, place, size⟩ :: rest => do
    let node := Span.node ⟨.identifier name, place, size⟩ .command (some name)
    let (arguments, ⟨after, hafter⟩) ← argumentsNode last readTest rest
    match after, hafter with
    | ⟨.semicolon, _, _⟩ :: after, hafter =>
      return (node [arguments], ⟨after, by simp only [List.length_cons] at *; omega⟩)
    | ⟨.leftBrace, place, size⟩ :: after, hafter =>
      let (block, ⟨rest', h⟩) ← readBlock ⟨.leftBrace, place, size⟩ after
      return (node [arguments, block], ⟨rest', by simp only [List.length_cons] at *; omega⟩)
    | other, _ => .error (faultAt last other (.terminatorExpected name))
  | other => .error (faultAt last other .commandExpected)

/-- The commands of a block up to its closing brace. -/
def blockCommands (last : Place)
    (readCommand : (tokens : List Span) → Except Fault (Node × Remainder tokens))
    (tokens : List Span) : Except Fault (List Node × Rest tokens) :=
  match tokens with
  | [] => .error (faultAt last [] fun _ => .openBlock)
  | ⟨.rightBrace, _, _⟩ :: rest =>
    .ok ([], ⟨rest, by simp only [List.length_cons]; omega⟩)
  | span :: rest => do
    let (command, ⟨after, hafter⟩) ← readCommand (span :: rest)
    let (commands, ⟨rest', h⟩) ← blockCommands last readCommand after
    return (command :: commands, ⟨rest', by simp only [List.length_cons] at *; omega⟩)
termination_by tokens.length
decreasing_by exact hafter

/-- The reader of a block with the given number of levels left for it and the blocks and tests
inside it. -/
def blockNode (last : Place) : Nat → BlockReader
  | 0, span, _ => .error (.parse span.place.line span.place.column (.tooDeep maxNesting))
  | levels + 1, span, tokens => do
    let readCommand := commandNode last (testNode last levels) (blockNode last levels)
    let (commands, rest) ← blockCommands last readCommand tokens
    return (span.node .block none commands, rest)

/-- The commands of a whole script. -/
def scriptCommands (last : Place) (tokens : List Span) : Except Fault (List Node) :=
  match tokens with
  | [] => .ok []
  | span :: rest => do
    let (command, ⟨after, _⟩) ←
      commandNode last (testNode last maxNesting) (blockNode last maxNesting) (span :: rest)
    let commands ← scriptCommands last after
    return command :: commands
termination_by tokens.length
decreasing_by assumption

/-- The raw tree of a list of tokens. -/
def Node.ofTokens (tokens : List Span) : Except Fault Node := do
  let last := match tokens.getLast? with
    | some span => span.place
    | none => .start
  let commands ← scriptCommands last tokens
  return ⟨.start, none, 1, 1, commands⟩

/-- The raw tree of a script text. -/
def Node.parse (text : String) : Except Fault Node := do
  Node.ofTokens (← tokenize text)

end MailFilter.Script
