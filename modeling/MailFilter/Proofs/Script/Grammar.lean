import MailFilter.Script.Parser

/-!
# The grammar of scripts

Each constructor below is one production of the grammar. It says which tokens a part of a script
consists of and which node stands for that part, and nothing about how the part is found. The node
of some arguments begins at their first token, or at the token behind them if there are none, so the
place of that token is given to them.
-/

namespace MailFilter.Script

/-- The place of the first of some tokens, or of what follows them if there are none. -/
def nextPlace (following : Place) : List Span → Place
  | span :: _ => span.place
  | [] => following

/-- The node of some arguments that begin at a place. -/
def Place.arguments (place : Place) (children : List Node) : Node :=
  ⟨.arguments, none, place.line, place.column, children⟩

/-- The strings of a list behind its opening bracket or a comma, up to the closing bracket. -/
inductive IsItems : List Span → List Node → Prop where
  | last {item close : Span} {text : String} (hitem : item.token.string? = some text)
      (hclose : close.token = .rightBracket) : IsItems [item, close] [item.leaf .string text]
  | more {item comma : Span} {text : String} {tokens : List Span} {items : List Node}
      (hitem : item.token.string? = some text) (hcomma : comma.token = .comma)
      (hitems : IsItems tokens items) :
      IsItems (item :: comma :: tokens) (item.leaf .string text :: items)

/-- A string, a number, a tag or a list of strings. -/
inductive IsValue : List Span → Node → Prop where
  | string {span : Span} {text : String} (hspan : span.token.string? = some text) :
      IsValue [span] (span.leaf .string text)
  | number {span : Span} {text : String} (hspan : span.token = .number text) :
      IsValue [span] (span.leaf .number text)
  | tag {span : Span} {text : String} (hspan : span.token = .tag text) :
      IsValue [span] (span.leaf .tag text)
  | strings {span : Span} {tokens : List Span} {items : List Node}
      (hspan : span.token = .leftBracket) (hitems : IsItems tokens items) :
      IsValue (span :: tokens) (span.node .stringList none items)

/-- Positional arguments, any number of them. -/
inductive IsPositional : List Span → List Node → Prop where
  | nil : IsPositional [] []
  | cons {span : Span} {front back : List Span} {value : Node} {arguments : List Node}
      (hvalue : IsValue (span :: front) value) (harguments : IsPositional back arguments) :
      IsPositional (span :: front ++ back) (span.node .argument none [value] :: arguments)

mutual

/-- Positional arguments, then perhaps a test or a list of tests. -/
inductive IsArguments : Place → List Span → Node → Prop where
  | plain {next : Place} {tokens : List Span} {arguments : List Node}
      (harguments : IsPositional tokens arguments) :
      IsArguments next tokens ((nextPlace next tokens).arguments arguments)
  | test {next : Place} {front back : List Span} {arguments : List Node} {test : Node}
      (harguments : IsPositional front arguments) (htest : IsTest next back test) :
      IsArguments next (front ++ back)
        ((nextPlace next (front ++ back)).arguments (arguments ++ [test]))
  | tests {next : Place} {front back : List Span} {span : Span} {arguments tests : List Node}
      (harguments : IsPositional front arguments) (hspan : span.token = .leftParen)
      (htests : IsTests back tests) :
      IsArguments next (front ++ span :: back)
        ((nextPlace next (front ++ span :: back)).arguments
          (arguments ++ [span.node .testList none tests]))

/-- A name with its arguments. -/
inductive IsTest : Place → List Span → Node → Prop where
  | intro {next : Place} {span : Span} {name : String} {tokens : List Span} {arguments : Node}
      (hspan : span.token = .identifier name) (harguments : IsArguments next tokens arguments) :
      IsTest next (span :: tokens) (span.node .test (some name) [arguments])

/-- The tests of a list behind its opening parenthesis or a comma, up to the closing one. -/
inductive IsTests : List Span → List Node → Prop where
  | last {close : Span} {tokens : List Span} {test : Node}
      (htest : IsTest close.place tokens test) (hclose : close.token = .rightParen) :
      IsTests (tokens ++ [close]) [test]
  | more {comma : Span} {front back : List Span} {test : Node} {tests : List Node}
      (htest : IsTest comma.place front test) (hcomma : comma.token = .comma)
      (htests : IsTests back tests) : IsTests (front ++ comma :: back) (test :: tests)

end

mutual

/-- A name with its arguments, then a semicolon or a block. -/
inductive IsCommand : List Span → Node → Prop where
  | plain {span stop : Span} {name : String} {front : List Span} {arguments : Node}
      (hspan : span.token = .identifier name) (harguments : IsArguments stop.place front arguments)
      (hstop : stop.token = .semicolon) :
      IsCommand (span :: front ++ [stop]) (span.node .command (some name) [arguments])
  | block {span brace close : Span} {name : String} {front back : List Span} {arguments : Node}
      {commands : List Node} (hspan : span.token = .identifier name)
      (harguments : IsArguments brace.place front arguments) (hbrace : brace.token = .leftBrace)
      (hcommands : IsCommands back commands) (hclose : close.token = .rightBrace) :
      IsCommand (span :: front ++ brace :: (back ++ [close]))
        (span.node .command (some name) [arguments, brace.node .block none commands])

/-- Commands, any number of them. -/
inductive IsCommands : List Span → List Node → Prop where
  | nil : IsCommands [] []
  | cons {front back : List Span} {command : Node} {commands : List Node}
      (hcommand : IsCommand front command) (hcommands : IsCommands back commands) :
      IsCommands (front ++ back) (command :: commands)

end

/-- A whole script. -/
inductive IsScript : List Span → Node → Prop where
  | intro {tokens : List Span} {commands : List Node} (hcommands : IsCommands tokens commands) :
      IsScript tokens ⟨.start, none, 1, 1, commands⟩

mutual

/-- The levels of nesting in a node: each block and each test is one level below what holds it. -/
def Node.nesting : Node → Nat
  | ⟨kind, _, _, _, children⟩ =>
    (if kind = .block ∨ kind = .test then 1 else 0) + Node.nestingAll children

/-- The levels of nesting in the deepest of some nodes. -/
def Node.nestingAll : List Node → Nat
  | [] => 0
  | node :: nodes => max (Node.nesting node) (Node.nestingAll nodes)

end

/-- No trees are not nested. -/
@[simp] theorem Node.nestingAll_nil : Node.nestingAll [] = 0 := rfl

/-- Trees are nested as deeply as the deepest of them. -/
@[simp] theorem Node.nestingAll_cons (node : Node) (nodes : List Node) :
    Node.nestingAll (node :: nodes) = max node.nesting (Node.nestingAll nodes) := rfl

/-- Two lists of trees are nested as deeply as the deeper of them. -/
@[simp] theorem Node.nestingAll_append (front back : List Node) :
    Node.nestingAll (front ++ back) = max (Node.nestingAll front) (Node.nestingAll back) := by
  induction front with
  | nil => simp
  | cons node front ih => simp [ih, Nat.max_assoc]

/-- Only blocks and tests are a level of their own. -/
@[simp] theorem Node.nesting_node (span : Span) (kind : NodeKind) (token : Option String)
    (children : List Node) : (span.node kind token children).nesting =
      (if kind = .block ∨ kind = .test then 1 else 0) + Node.nestingAll children := by
  rw [Span.node, nesting]

/-- A test is nested one deeper than its arguments. -/
theorem Node.nesting_test (span : Span) (token : Option String) (arguments : Node) :
    (span.node .test token [arguments]).nesting = 1 + arguments.nesting := by
  simp

/-- A block is nested one deeper than its commands. -/
theorem Node.nesting_block (span : Span) (token : Option String) (commands : List Node) :
    (span.node .block token commands).nesting = 1 + Node.nestingAll commands := by
  simp

/-- A command is nested as deeply as its parts. -/
theorem Node.nesting_command (span : Span) (token : Option String) (children : List Node) :
    (span.node .command token children).nesting = Node.nestingAll children := by
  simp

/-- Arguments are nested as deeply as the deepest of them. -/
@[simp] theorem Node.nesting_arguments (place : Place) (children : List Node) :
    (place.arguments children).nesting = Node.nestingAll children := by
  rw [Place.arguments, nesting]
  exact Nat.zero_add _

/-- A leaf is not nested. -/
@[simp] theorem Node.nesting_leaf (span : Span) {kind : NodeKind} (text : String)
    (hkind : kind ≠ .block ∧ kind ≠ .test) : (span.leaf kind text).nesting = 0 := by
  rw [Span.leaf, nesting, if_neg (not_or.mpr hkind), nestingAll_nil]

/-- Positional arguments have no nesting, whatever they are. -/
theorem IsItems.nestingAll_eq_zero {tokens : List Span} {items : List Node}
    (h : IsItems tokens items) : Node.nestingAll items = 0 := by
  induction h with
  | last => simp
  | more hitem hcomma hitems ih => simp [ih]

/-- A value is not nested. -/
theorem IsValue.nesting_eq_zero {tokens : List Span} {value : Node} (h : IsValue tokens value) :
    value.nesting = 0 := by
  cases h with
  | strings hspan hitems => simp [hitems.nestingAll_eq_zero]
  | _ => simp

/-- Positional arguments are not nested. -/
theorem IsPositional.nestingAll_eq_zero {tokens : List Span} {arguments : List Node}
    (h : IsPositional tokens arguments) : Node.nestingAll arguments = 0 := by
  induction h with
  | nil => rfl
  | cons hvalue harguments ih => simp [hvalue.nesting_eq_zero, ih]

/-- The tokens that a node is written with before its children. -/
def Node.opening (node : Node) : List Token :=
  match node.kind, node.token with
  | .string, some text => [.quoted text]
  | .number, some text => [.number text]
  | .tag, some text => [.tag text]
  | .command, some name | .test, some name => [.identifier name]
  | .stringList, _ => [.leftBracket]
  | .testList, _ => [.leftParen]
  | .block, _ => [.leftBrace]
  | _, _ => []

/-- The tokens that a node is written with after its children. A command without a block ends in a
semicolon. -/
def Node.closing (node : Node) : List Token :=
  match node.kind with
  | .stringList => [.rightBracket]
  | .testList => [.rightParen]
  | .block => [.rightBrace]
  | .command => if node.children.any (·.kind = .block) then [] else [.semicolon]
  | _ => []

/-- The tokens between two children of a node. -/
def Node.between (node : Node) : List Token :=
  match node.kind with
  | .stringList | .testList => [.comma]
  | _ => []

mutual

/-- The tokens of a tree: its leaves and the punctuation that its nodes imply, in order. -/
def Node.written : Node → List Token
  | ⟨kind, token, line, column, children⟩ =>
    let node : Node := ⟨kind, token, line, column, children⟩
    node.opening ++ Node.writtenAll node.between children ++ node.closing

/-- The tokens of some nodes with a separator between each two. -/
def Node.writtenAll (separator : List Token) : List Node → List Token
  | [] => []
  | [node] => Node.written node
  | node :: next :: nodes =>
    Node.written node ++ separator ++ Node.writtenAll separator (next :: nodes)

end

/-- A token up to the two ways in which a string can be written. -/
def Token.plain : Token → Token
  | multiline text => quoted text
  | token => token

/-- Each token of a string is written back as a quoted one. -/
theorem Token.plain_of_string? {token : Token} {text : String} (h : token.string? = some text) :
    token.plain = .quoted text := by
  cases token with
  | quoted found | multiline found =>
    obtain rfl := Option.some.inj h
    rfl
  | _ => cases h

/-- The first tree is written before a separator and the others. -/
theorem Node.writtenAll_cons {nodes : List Node} (hnodes : nodes ≠ []) (separator : List Token)
    (node : Node) : Node.writtenAll separator (node :: nodes) =
      node.written ++ separator ++ Node.writtenAll separator nodes := by
  cases nodes with
  | nil => contradiction
  | cons next nodes => rw [Node.writtenAll]

/-- One tree is written without a separator. -/
theorem Node.writtenAll_singleton (separator : List Token) (node : Node) :
    Node.writtenAll separator [node] = node.written := by
  rw [Node.writtenAll]

/-- Without a separator the first tree is written before the others. -/
theorem Node.writtenAll_nil_cons (node : Node) (nodes : List Node) :
    Node.writtenAll [] (node :: nodes) = node.written ++ Node.writtenAll [] nodes := by
  cases nodes with
  | nil => simp [Node.writtenAll]
  | cons next nodes => rw [writtenAll_cons (List.cons_ne_nil _ _), List.append_nil]

/-- Without a separator two lists of trees are written one after the other. -/
theorem Node.writtenAll_nil_append (front back : List Node) :
    Node.writtenAll [] (front ++ back) = Node.writtenAll [] front ++ Node.writtenAll [] back := by
  induction front with
  | nil => simp [Node.writtenAll]
  | cons node front ih =>
    rw [List.cons_append, writtenAll_nil_cons, writtenAll_nil_cons, ih, List.append_assoc]

/-- The tokens of a part of a script, up to the spelling of strings. -/
def plainTokens (tokens : List Span) : List Token :=
  tokens.map (·.token.plain)

/-- No tokens are written for none. -/
@[simp] theorem plainTokens_nil : plainTokens [] = [] := rfl

/-- Tokens are written one by one. -/
@[simp] theorem plainTokens_cons (span : Span) (tokens : List Span) :
    plainTokens (span :: tokens) = span.token.plain :: plainTokens tokens := rfl

/-- Two lists of tokens are written one after the other. -/
@[simp] theorem plainTokens_append (front back : List Span) :
    plainTokens (front ++ back) = plainTokens front ++ plainTokens back :=
  List.map_append

/-- A list has an item. -/
theorem IsItems.ne_nil {tokens : List Span} {items : List Node} (h : IsItems tokens items) :
    items ≠ [] := by
  cases h with
  | last | more => exact List.cons_ne_nil _ _

/-- The items of a list are written back with commas and the closing bracket. -/
theorem IsItems.written {tokens : List Span} {items : List Node} (h : IsItems tokens items) :
    Node.writtenAll [.comma] items ++ [.rightBracket] = plainTokens tokens := by
  induction h with
  | last hitem hclose =>
    rw [plainTokens_cons, plainTokens_cons, Token.plain_of_string? hitem, hclose]
    rfl
  | @more item comma text tokens items hitem hcomma hitems ih =>
    rw [Node.writtenAll_cons hitems.ne_nil, List.append_assoc, ih, plainTokens_cons,
      plainTokens_cons, Token.plain_of_string? hitem, hcomma]
    rfl

/-- A list is written between brackets. -/
theorem Node.written_strings (span : Span) (items : List Node) :
    (span.node .stringList none items).written =
      .leftBracket :: (Node.writtenAll [.comma] items ++ [.rightBracket]) := by
  rw [Span.node, Node.written]
  rfl

/-- A value is written back as its tokens. -/
theorem IsValue.written {tokens : List Span} {value : Node} (h : IsValue tokens value) :
    value.written = plainTokens tokens := by
  cases h with
  | string hspan =>
    rw [plainTokens_cons, Token.plain_of_string? hspan]
    rfl
  | number hspan | tag hspan =>
    rw [plainTokens_cons, hspan]
    rfl
  | strings hspan hitems =>
    rw [Node.written_strings, hitems.written, plainTokens_cons, hspan]
    rfl

/-- An argument is written as its value. -/
theorem Node.written_argument (span : Span) (value : Node) :
    (span.node .argument none [value]).written = value.written := by
  rw [Span.node, Node.written, Node.writtenAll_singleton]
  exact List.append_nil _

/-- Positional arguments are written back as their tokens. -/
theorem IsPositional.written {tokens : List Span} {arguments : List Node}
    (h : IsPositional tokens arguments) :
    Node.writtenAll [] arguments = plainTokens tokens := by
  induction h with
  | nil => rfl
  | cons hvalue harguments ih =>
    rw [Node.writtenAll_nil_cons, Node.written_argument, hvalue.written, ih, plainTokens_append]

/-- Arguments are written one behind the other. -/
theorem Node.written_arguments (place : Place) (children : List Node) :
    (place.arguments children).written = Node.writtenAll [] children := by
  rw [Place.arguments, Node.written]
  exact List.append_nil _

/-- A test is written as its name and its arguments. -/
theorem Node.written_test (span : Span) (name : String) (arguments : Node) :
    (span.node .test (some name) [arguments]).written = .identifier name :: arguments.written := by
  rw [Span.node, Node.written, Node.writtenAll_singleton]
  exact List.append_nil _

/-- Tests are written between parentheses. -/
theorem Node.written_tests (span : Span) (tests : List Node) :
    (span.node .testList none tests).written =
      .leftParen :: (Node.writtenAll [.comma] tests ++ [.rightParen]) := by
  rw [Span.node, Node.written]
  rfl

/-- A block is written between braces. -/
theorem Node.written_block (span : Span) (commands : List Node) :
    (span.node .block none commands).written =
      .leftBrace :: (Node.writtenAll [] commands ++ [.rightBrace]) := by
  rw [Span.node, Node.written]
  rfl

/-- A list of tests has a test. -/
theorem IsTests.ne_nil {tokens : List Span} {tests : List Node} (h : IsTests tokens tests) :
    tests ≠ [] := by
  cases h with
  | last | more => exact List.cons_ne_nil _ _

mutual

/-- Arguments are written back as their tokens. -/
theorem IsArguments.written {next : Place} {tokens : List Span} {node : Node} :
    IsArguments next tokens node → node.written = plainTokens tokens
  | .plain harguments => by rw [Node.written_arguments, harguments.written]
  | .test harguments htest => by
    rw [Node.written_arguments, Node.writtenAll_nil_append, harguments.written,
      Node.writtenAll_singleton, htest.written, plainTokens_append]
  | .tests harguments hspan htests => by
    rw [Node.written_arguments, Node.writtenAll_nil_append, harguments.written,
      Node.writtenAll_singleton, Node.written_tests, htests.written, plainTokens_append,
      plainTokens_cons, hspan]
    rfl

/-- A test is written back as its tokens. -/
theorem IsTest.written {next : Place} {tokens : List Span} {test : Node} :
    IsTest next tokens test → test.written = plainTokens tokens
  | .intro hspan harguments => by
    rw [Node.written_test, harguments.written, plainTokens_cons, hspan]
    rfl

/-- Tests are written back with commas and the closing parenthesis. -/
theorem IsTests.written {tokens : List Span} {tests : List Node} :
    IsTests tokens tests → Node.writtenAll [.comma] tests ++ [.rightParen] = plainTokens tokens
  | .last htest hclose => by
    rw [Node.writtenAll_singleton, htest.written, plainTokens_append, plainTokens_cons, hclose]
    rfl
  | .more htest hcomma htests => by
    rw [Node.writtenAll_cons htests.ne_nil, List.append_assoc, htests.written, htest.written,
      plainTokens_append, plainTokens_cons, hcomma, List.append_assoc]
    rfl

end

/-- The tree of arguments is called that. -/
theorem IsArguments.kind_eq {next : Place} {tokens : List Span} {node : Node}
    (h : IsArguments next tokens node) : node.kind = .arguments := by
  cases h with
  | plain | test | tests => rfl

/-- Only a command without a block ends in a semicolon. -/
theorem Node.written_command_plain (span : Span) (name : String) {arguments : Node}
    (harguments : arguments.kind = .arguments) :
    (span.node .command (some name) [arguments]).written =
      .identifier name :: (arguments.written ++ [.semicolon]) := by
  rw [Span.node, Node.written, Node.writtenAll_singleton, closing]
  simp [harguments, opening]

/-- A command with a block is written as its name, its arguments and the block. -/
theorem Node.written_command_block (span brace : Span) (name : String) (arguments : Node)
    (commands : List Node) :
    (span.node .command (some name) [arguments, brace.node .block none commands]).written =
      .identifier name ::
        (arguments.written ++ .leftBrace :: (Node.writtenAll [] commands ++ [.rightBrace])) := by
  rw [Span.node, Node.written]
  dsimp only [between]
  rw [Node.writtenAll_nil_cons, Node.writtenAll_singleton, Node.written_block]
  simp [opening, closing, Span.node]

mutual

/-- A command is written back as its tokens. -/
theorem IsCommand.written {tokens : List Span} {command : Node} :
    IsCommand tokens command → command.written = plainTokens tokens
  | .plain hspan harguments hstop => by
    rw [Node.written_command_plain _ _ harguments.kind_eq, harguments.written, plainTokens_append,
      plainTokens_cons, plainTokens_cons, hspan, hstop]
    rfl
  | .block hspan harguments hbrace hcommands hclose => by
    rw [Node.written_command_block, harguments.written, hcommands.written]
    simp only [plainTokens_append, plainTokens_cons, hspan, hbrace, hclose, plainTokens_nil]
    rfl

/-- Commands are written back as their tokens. -/
theorem IsCommands.written {tokens : List Span} {commands : List Node} :
    IsCommands tokens commands → Node.writtenAll [] commands = plainTokens tokens
  | .nil => rfl
  | .cons hcommand hcommands => by
    rw [Node.writtenAll_nil_cons, hcommand.written, hcommands.written, plainTokens_append]

end

/-- A script is written back as its tokens. -/
theorem IsScript.written {tokens : List Span} {tree : Node} (h : IsScript tokens tree) :
    tree.written = plainTokens tokens := by
  obtain ⟨hcommands⟩ := h
  rw [Node.written, ← hcommands.written]
  exact List.append_nil _

end MailFilter.Script
