import MailFilter.Proofs.Script.Concatenation
import MailFilter.Proofs.Script.Number
import MailFilter.Script.OfNode

/-!
# Trees of the grammar become scripts

The builder checks the shape of every node it reads, since a tree may come from anywhere. The trees
of the grammar pass all of these checks: their nodes stand where the builder wants them and have the
texts it asks for. Only a number can still be refused, for its size, and then the first number of
the script that is too large is the one the fault names. Otherwise the script mirrors the tree.
-/

namespace MailFilter.Script

/-- The argument that the node of a value stands for. -/
inductive StandsForValue : Node → Argument → Prop where
  | string {text : String} {line column : Nat} :
      StandsForValue ⟨.string, some text, line, column, []⟩ (.string text)
  | number {literal : String} {line column : Nat} :
      StandsForValue ⟨.number, some literal, line, column, []⟩ (.number (magnitude literal))
  | tag {text : String} {line column : Nat} :
      StandsForValue ⟨.tag, some text, line, column, []⟩ (.tag (Ascii.lower text))
  | strings {texts : List String} {line column : Nat} {items : List Node}
      (hitems : List.Forall₂ (fun item text => item.kind = .string ∧ item.token = some text)
        items texts) :
      StandsForValue ⟨.stringList, none, line, column, items⟩ (.strings texts)

/-- The argument that the node around its value stands for. -/
inductive StandsForArgument : Node → Argument → Prop where
  | intro {value : Node} {argument : Argument} {line column : Nat}
      (hvalue : StandsForValue value argument) :
      StandsForArgument ⟨.argument, none, line, column, [value]⟩ argument

mutual

/-- The arguments and tests that a node of arguments stands for, in the order of its children. -/
inductive StandsForArguments : Node → Arguments → Prop where
  | plain {line column : Nat} {nodes : List Node} {arguments : List Argument}
      (harguments : List.Forall₂ StandsForArgument nodes arguments) :
      StandsForArguments ⟨.arguments, none, line, column, nodes⟩ ⟨arguments, none⟩
  | test {line column : Nat} {nodes : List Node} {node : Node} {arguments : List Argument}
      {test : Test} (harguments : List.Forall₂ StandsForArgument nodes arguments)
      (htest : StandsForTest node test) :
      StandsForArguments ⟨.arguments, none, line, column, nodes ++ [node]⟩
        ⟨arguments, some [test]⟩
  | tests {line column line' column' : Nat} {nodes nodes' : List Node}
      {arguments : List Argument} {tests : List Test}
      (harguments : List.Forall₂ StandsForArgument nodes arguments)
      (htests : List.Forall₂ StandsForTest nodes' tests) :
      StandsForArguments
        ⟨.arguments, none, line, column, nodes ++ [⟨.testList, none, line', column', nodes'⟩]⟩
        ⟨arguments, some tests⟩

/-- The test that a node stands for: it has the node's line, and its name in lower case. -/
inductive StandsForTest : Node → Test → Prop where
  | intro {name : String} {line column : Nat} {node : Node} {arguments : Arguments}
      (harguments : StandsForArguments node arguments) :
      StandsForTest ⟨.test, some name, line, column, [node]⟩
        ⟨Ascii.lower name, arguments.positional, arguments.tests, line⟩

end

/-- The command that a node stands for: it has the node's line, its name in lower case, and a block
if the node has one. -/
inductive StandsForCommand : Node → Command → Prop where
  | plain {name : String} {line column : Nat} {node : Node} {arguments : Arguments}
      (harguments : StandsForArguments node arguments) :
      StandsForCommand ⟨.command, some name, line, column, [node]⟩
        ⟨Ascii.lower name, arguments.positional, arguments.tests, none, line⟩
  | block {name : String} {line column line' column' : Nat} {node : Node} {nodes : List Node}
      {arguments : Arguments} {commands : List Command}
      (harguments : StandsForArguments node arguments)
      (hblock : List.Forall₂ StandsForCommand nodes commands) :
      StandsForCommand
        ⟨.command, some name, line, column, [node, ⟨.block, none, line', column', nodes⟩]⟩
        ⟨Ascii.lower name, arguments.positional, arguments.tests, some commands, line⟩

/-- The script that a whole tree stands for. -/
inductive StandsForScript : Node → Script → Prop where
  | intro {nodes : List Node} {script : Script}
      (hcommands : List.Forall₂ StandsForCommand nodes script) :
      StandsForScript ⟨.start, none, 1, 1, nodes⟩ script

/-- The fault of a token that is a number too large for 64 bits. -/
def Span.oversize? (span : Span) : Option Fault :=
  match span.token with
  | .number literal =>
    if magnitude literal < 2 ^ 64 then none
    else some (.arguments "number" span.place.line (.invalidNumber literal))
  | _ => none

/-- The fault of the first number among some tokens that is too large. -/
def firstOversize? (tokens : List Span) : Option Fault :=
  tokens.findSome? Span.oversize?

variable {α β : Type}

/-- How building something of some tokens may end: in the fault of the first number that is too
large, or in something good if there is none. -/
inductive BuiltFrom (tokens : List Span) (good : α → Prop) : Except Fault α → Prop where
  | built {value : α} (hfits : firstOversize? tokens = none) (hgood : good value) :
      BuiltFrom tokens good (.ok value)
  | refused {fault : Fault} (hfault : firstOversize? tokens = some fault) :
      BuiltFrom tokens good (.error fault)

/-- The result of building something of some tokens, if these are such as the lexer makes. -/
def Builds (tokens : List Span) (good : α → Prop) (result : Except Fault α) : Prop :=
  NumbersLexical tokens → BuiltFrom tokens good result

section

variable {span : Span} {tokens front back : List Span} {good : α → Prop} {good' : β → Prop}
  {result : Except Fault α}

/-- The first number that is too large is the first token, or it is behind that. -/
theorem firstOversize?_cons (span : Span) (tokens : List Span) :
    firstOversize? (span :: tokens) = span.oversize?.or (firstOversize? tokens) := by
  rw [firstOversize?, List.findSome?_cons]
  cases span.oversize? <;> rfl

/-- The first number that is too large is in front, or it is behind. -/
theorem firstOversize?_append (front back : List Span) :
    firstOversize? (front ++ back) = (firstOversize? front).or (firstOversize? back) :=
  List.findSome?_append

/-- A token that is no number is not too large. -/
theorem Span.oversize?_eq_none {token : Token} (hspan : span.token = token)
    (htoken : ∀ literal, token ≠ .number literal) : span.oversize? = none := by
  subst hspan
  rw [oversize?]
  split
  · next literal hliteral => exact absurd hliteral (htoken literal)
  · rfl

/-- A string is not too large. -/
theorem Span.oversize?_of_string? {text : String} (h : span.token.string? = some text) :
    span.oversize? = none := by
  refine oversize?_eq_none rfl fun literal hliteral => ?_
  rw [hliteral] at h
  cases h

/-- A token is too large if it is a number of 2^64 or more, and the fault names its line and its
text. -/
theorem Span.oversize?_eq_some_iff {fault : Fault} :
    span.oversize? = some fault ↔ ∃ literal, span.token = .number literal ∧
      2 ^ 64 ≤ magnitude literal ∧
      fault = .arguments "number" span.place.line (.invalidNumber literal) := by
  rw [oversize?]
  cases span.token with
  | number literal => simp [eq_comm]
  | _ => simp

/-- Something good that was built of tokens without a number that is too large. -/
theorem builds_ok {value : α} (hfits : firstOversize? tokens = none) (hgood : good value) :
    Builds tokens good (.ok value) :=
  fun _ => .built hfits hgood

/-- What is built of some tokens, and then of those behind them, is built of all of them. -/
theorem Builds.bind {next : α → Except Fault β} (h : Builds front good result)
    (hnext : ∀ value, good value → Builds back good' (next value)) :
    Builds (front ++ back) good' (result >>= next) := by
  intro hlexical
  rw [NumbersLexical, List.forall_mem_append] at hlexical
  obtain ⟨hfront, hback⟩ := hlexical
  cases h hfront with
  | refused hfault => exact .refused (by rw [firstOversize?_append, hfault, Option.some_or])
  | @built value hfits hgood =>
    -- Nothing in front is too large, so the first number that is stands behind.
    have hsame : firstOversize? (front ++ back) = firstOversize? back := by
      rw [firstOversize?_append, hfits, Option.none_or]
    have hrest := hnext value hgood hback
    change BuiltFrom _ _ (next value)
    generalize next value = built at hrest ⊢
    cases hrest with
    | built hfits hgood => exact .built (hsame.trans hfits) hgood
    | refused hfault => exact .refused (hsame.trans hfault)

/-- What is built can be built on without another fault. -/
theorem Builds.map (build : α → β) (h : Builds tokens good result)
    (hgood : ∀ value, good value → good' (build value)) :
    Builds tokens good' (do return build (← result)) := by
  rw [← List.append_nil tokens]
  exact h.bind fun value hvalue => builds_ok rfl (hgood value hvalue)

/-- A token that is not too large may come first. -/
theorem Builds.cons (hspan : span.oversize? = none) (h : Builds tokens good result) :
    Builds (span :: tokens) good result := by
  have hfits : firstOversize? [span] = none := by
    rw [firstOversize?_cons, hspan]
    rfl
  exact (builds_ok hfits trivial : Builds [span] (fun _ => True) (.ok ())).bind fun _ _ => h

/-- The items of a list are built as their texts. -/
theorem IsItems.builds {items : List Node} (h : IsItems tokens items) :
    Builds tokens (List.Forall₂ (fun item text => item.kind = .string ∧ item.token = some text)
      items) (items.mapM Node.stringItem) := by
  induction h with
  | @last item close text hitem hclose =>
    refine .cons (Span.oversize?_of_string? hitem) (.cons (Span.oversize?_eq_none hclose nofun) ?_)
    exact builds_ok rfl (.cons ⟨rfl, rfl⟩ .nil)
  | @more item comma text tokens items hitem hcomma hitems ih =>
    refine .cons (Span.oversize?_of_string? hitem) (.cons (Span.oversize?_eq_none hcomma nofun) ?_)
    rw [List.mapM_cons]
    exact ih.map (text :: ·) fun texts htexts => .cons ⟨rfl, rfl⟩ htexts

/-- A value is built as the argument that it stands for, or its number is too large. -/
theorem IsValue.builds {value : Node} (h : IsValue tokens value) :
    Builds tokens (StandsForValue value) value.toArgument := by
  cases h with
  | string hspan => exact .cons (Span.oversize?_of_string? hspan) (builds_ok rfl .string)
  | tag hspan => exact .cons (Span.oversize?_eq_none hspan nofun) (builds_ok rfl .tag)
  | strings hspan hitems =>
    exact .cons (Span.oversize?_eq_none hspan nofun)
      (hitems.builds.map Argument.strings fun texts => .strings)
  | @number span literal hspan =>
    intro hlexical
    have hnumber := parseNumber_eq (hlexical span List.mem_cons_self literal hspan) span.place.line
    have hresult : (span.leaf .number literal).toArgument =
        (do return .number (← parseNumber literal span.place.line)) := rfl
    rw [hresult, hnumber]
    have hfirst : firstOversize? [span] = span.oversize? := by
      rw [firstOversize?_cons]
      exact Option.or_none
    by_cases hfits : magnitude literal < 2 ^ 64
    · rw [if_pos hfits]
      refine .built (hfirst.trans ?_) .number
      rw [Span.oversize?, hspan]
      exact if_pos hfits
    · rw [if_neg hfits]
      refine .refused (hfirst.trans ?_)
      rw [Span.oversize?, hspan]
      exact if_neg hfits

/-- Positional arguments are put behind those found before, and what follows them is read on. -/
theorem IsPositional.builds_append {nodes further : List Node} {good : Arguments → Prop}
    (h : IsPositional front nodes) (found : Arguments)
    (hfurther : ∀ arguments, List.Forall₂ StandsForArgument nodes arguments →
      Builds back good
        (Node.collectArguments ⟨found.positional ++ arguments, found.tests⟩ further)) :
    Builds (front ++ back) good (Node.collectArguments found (nodes ++ further)) := by
  -- Each argument joins those found before, so the induction is for all that may have been found.
  induction h generalizing found with
  | nil =>
    have hnone := hfurther [] .nil
    rwa [List.append_nil] at hnone
  | @cons span front rest value nodes hvalue hnodes ih =>
    rw [List.append_assoc]
    have hread : Node.collectArguments found
        (span.node .argument none [value] :: nodes ++ further) =
        (do
          let argument ← value.toArgument
          Node.collectArguments { found with positional := found.positional ++ [argument] }
            (nodes ++ further)) := by
      rw [List.cons_append, Span.node, Node.collectArguments]
    rw [hread]
    refine hvalue.builds.bind fun argument hargument => ih _ fun arguments harguments => ?_
    rw [List.append_assoc]
    exact hfurther (argument :: arguments) (.cons (.intro hargument) harguments)

/-- The tree of a test is called a test. -/
theorem IsTest.kind_eq {next : Place} {node : Node} (h : IsTest next tokens node) :
    node.kind = .test := by
  obtain ⟨-, -⟩ := h
  rfl

/-- A test among arguments is built as the only test. -/
theorem collectArguments_test {node : Node} (h : node.kind = .test) (found : Arguments)
    (nodes : List Node) : Node.collectArguments found (node :: nodes) =
      (do
        let test ← node.toTest
        Node.collectArguments { found with tests := some [test] } nodes) := by
  obtain ⟨kind, token, line, column, children⟩ := node
  subst h
  rw [Node.collectArguments]

mutual

/-- Arguments are built as what they stand for, or a number in them is too large. -/
theorem IsArguments.builds {next : Place} {tokens : List Span} {node : Node}
    (wanted : String) : IsArguments next tokens node →
      Builds tokens (StandsForArguments node) (node.toArguments wanted)
  | @IsArguments.plain next tokens nodes harguments => by
    rw [Place.arguments, Node.toArguments, if_pos rfl]
    have hread : Builds (tokens ++ [])
        (StandsForArguments ((nextPlace next tokens).arguments nodes))
        (Node.collectArguments ⟨[], none⟩ (nodes ++ [])) :=
      harguments.builds_append ⟨[], none⟩ fun arguments hgood => builds_ok rfl (.plain hgood)
    rwa [List.append_nil, List.append_nil] at hread
  | .test harguments htest => by
    rw [Place.arguments, Node.toArguments, if_pos rfl]
    refine harguments.builds_append ⟨[], none⟩ fun arguments hgood => ?_
    rw [collectArguments_test htest.kind_eq]
    exact htest.builds.map (fun test => Arguments.mk arguments (some [test])) fun test =>
      .test hgood
  | .tests harguments hspan htests => by
    rw [Place.arguments, Node.toArguments, if_pos rfl]
    refine harguments.builds_append ⟨[], none⟩ fun arguments hgood =>
      .cons (Span.oversize?_eq_none hspan nofun) ?_
    rw [Span.node, Node.collectArguments]
    exact htests.builds.map (fun tests => Arguments.mk arguments (some tests)) fun tests =>
      .tests hgood

/-- A test is built as what it stands for, or a number in it is too large. -/
theorem IsTest.builds {next : Place} {tokens : List Span} {node : Node} :
    IsTest next tokens node → Builds tokens (StandsForTest node) node.toTest
  | .intro hspan harguments => by
    refine .cons (Span.oversize?_eq_none hspan nofun) ?_
    rw [Span.node, Node.toTest]
    exact (harguments.builds "arguments").map _ fun arguments => .intro

/-- Tests are built as what they stand for, or a number in them is too large. -/
theorem IsTests.builds {tokens : List Span} {nodes : List Node} :
    IsTests tokens nodes → Builds tokens (List.Forall₂ StandsForTest nodes) (Node.toTests nodes)
  | .last htest hclose => by
    rw [Node.toTests]
    refine htest.builds.bind fun test hgood => .cons (Span.oversize?_eq_none hclose nofun) ?_
    exact builds_ok rfl (.cons hgood .nil)
  | .more htest hcomma htests => by
    rw [Node.toTests]
    refine htest.builds.bind fun test hgood => .cons (Span.oversize?_eq_none hcomma nofun) ?_
    exact htests.builds.map (test :: ·) fun tests => .cons hgood

end

/-- The arguments of a command are one part of it. -/
theorem collectParts_arguments {node : Node} (h : node.kind = .arguments) (found : CommandParts)
    (nodes : List Node) : Node.collectParts found (node :: nodes) =
      (do
        let arguments ← node.toArguments "arguments"
        Node.collectParts { found with arguments := arguments } nodes) := by
  obtain ⟨kind, token, line, column, children⟩ := node
  subst h
  rw [Node.collectParts]

/-- A command without a block is built of its name and its arguments. -/
theorem toCommand_plain (span : Span) (name : String) {node : Node} (h : node.kind = .arguments) :
    (span.node .command (some name) [node]).toCommand =
      (do
        let arguments ← node.toArguments "arguments"
        return ⟨Ascii.lower name, arguments.positional, arguments.tests, none,
          span.place.line⟩) := by
  rw [Span.node, Node.toCommand, collectParts_arguments h]
  cases node.toArguments "arguments" <;> rfl

/-- A command with a block is built of its name, its arguments and the commands in its block. -/
theorem toCommand_block (span brace : Span) (name : String) {node : Node}
    (h : node.kind = .arguments) (nodes : List Node) :
    (span.node .command (some name) [node, brace.node .block none nodes]).toCommand =
      (do
        let arguments ← node.toArguments "arguments"
        let commands ← Node.toCommands nodes
        return ⟨Ascii.lower name, arguments.positional, arguments.tests, some commands,
          span.place.line⟩) := by
  rw [Span.node, Node.toCommand, collectParts_arguments h]
  cases node.toArguments "arguments" with
  | error fault => rfl
  | ok arguments =>
    change (Node.collectParts _ [brace.node .block none nodes] >>= _) = _
    rw [Span.node, Node.collectParts]
    cases Node.toCommands nodes <;> rfl

mutual

/-- A command is built as what it stands for, or a number in it is too large. -/
theorem IsCommand.builds {tokens : List Span} {node : Node} :
    IsCommand tokens node → Builds tokens (StandsForCommand node) node.toCommand
  | .plain hspan harguments hstop => by
    rw [toCommand_plain _ _ harguments.kind_eq]
    refine .cons (Span.oversize?_eq_none hspan nofun) ?_
    refine (harguments.builds "arguments").bind fun arguments hgood =>
      .cons (Span.oversize?_eq_none hstop nofun) ?_
    exact builds_ok rfl (.plain hgood)
  | .block hspan harguments hbrace hcommands hclose => by
    rw [toCommand_block _ _ _ harguments.kind_eq]
    refine .cons (Span.oversize?_eq_none hspan nofun) ?_
    refine (harguments.builds "arguments").bind fun arguments hgood =>
      .cons (Span.oversize?_eq_none hbrace nofun) ?_
    refine hcommands.builds.bind fun commands hblock =>
      .cons (Span.oversize?_eq_none hclose nofun) ?_
    exact builds_ok rfl (.block hgood hblock)

/-- Commands are built as what they stand for, or a number in them is too large. -/
theorem IsCommands.builds {tokens : List Span} {nodes : List Node} :
    IsCommands tokens nodes →
      Builds tokens (List.Forall₂ StandsForCommand nodes) (Node.toCommands nodes)
  | .nil => builds_ok rfl .nil
  | .cons hcommand hcommands => by
    rw [Node.toCommands]
    exact hcommand.builds.bind fun command hgood =>
      hcommands.builds.map (command :: ·) fun commands => .cons hgood

end

/-- A script is built as what it stands for, or a number in it is too large. -/
theorem IsScript.builds {tree : Node} (h : IsScript tokens tree) :
    Builds tokens (StandsForScript tree) (Script.ofNode tree) := by
  cases h with
  | @intro commands hcommands =>
    intro hlexical
    have hbuilt := hcommands.builds hlexical
    change BuiltFrom _ _ (Node.toCommands commands)
    generalize Node.toCommands commands = result at hbuilt
    cases hbuilt with
    | built hfits hgood => exact .built hfits (.intro hgood)
    | refused hfault => exact .refused hfault

end

/-- The builder makes a script of every tree that the parser makes of a text, or refuses a number
literal of the text. It refuses one if and only if some literal has a magnitude that takes more than
64 bits. The script stands for the tree: it has a command for every command node and a test for
every test node, in the order and nesting of the nodes, with their lines, their names in lower case
and their arguments in order. -/
theorem ofNode_of_parse {text : String} {tree : Node} (h : Node.parse text = .ok tree) :
    ∃ spans, tokenize text = .ok spans ∧
      (∀ script, Script.ofNode tree = .ok script → StandsForScript tree script) ∧
      (∀ fault, Script.ofNode tree = .error fault → ∃ span ∈ spans, ∃ literal,
        span.token = .number literal ∧ 2 ^ 64 ≤ magnitude literal ∧
          fault = .arguments "number" span.place.line (.invalidNumber literal)) ∧
      ((∃ fault, Script.ofNode tree = .error fault) ↔
        ∃ span ∈ spans, ∃ literal, span.token = .number literal ∧ 2 ^ 64 ≤ magnitude literal) := by
  obtain ⟨spans, hspans, htree⟩ := Node.parse_eq_ok_iff.mp h
  obtain ⟨hscript, -⟩ := ofTokens_iff.mp htree
  have hbuilt := hscript.builds (numbersLexical_of_tokenize hspans)
  refine ⟨spans, hspans, ?_⟩
  generalize Script.ofNode tree = result at hbuilt
  cases hbuilt with
  | built hfits hgood =>
    have hall : ∀ span ∈ spans, span.oversize? = none := List.findSome?_eq_none_iff.mp hfits
    refine ⟨?_, nofun, nofun, ?_⟩
    · rintro script ⟨⟩
      exact hgood
    · rintro ⟨span, hspan, literal, htoken, hlarge⟩
      have hsome := Span.oversize?_eq_some_iff.mpr ⟨literal, htoken, hlarge, rfl⟩
      rw [hall span hspan] at hsome
      cases hsome
  | refused hfault =>
    obtain ⟨span, hspan, hoversize⟩ := List.exists_of_findSome?_eq_some hfault
    obtain ⟨literal, htoken, hlarge, rfl⟩ := Span.oversize?_eq_some_iff.mp hoversize
    refine ⟨nofun, ?_, fun _ => ⟨span, hspan, literal, htoken, hlarge⟩, fun _ => ⟨_, rfl⟩⟩
    rintro fault ⟨⟩
    exact ⟨span, hspan, literal, htoken, hlarge, rfl⟩

/-- The digits fit in 64 bits, but their number is too large with its scale. -/
theorem ofNode_of_parse_scaled :
    ∃ tree, Node.parse "if not size 17179869184G {}" = .ok tree ∧ ∃ line literal,
      Script.ofNode tree = .error (.arguments "number" line (.invalidNumber literal)) := by
  let size : Span := ⟨.number "17179869184G", ⟨12, 1, 13⟩, 12⟩
  have hspans : tokenize "if not size 17179869184G {}" =
      .ok [⟨.identifier "if", ⟨0, 1, 1⟩, 2⟩, ⟨.identifier "not", ⟨3, 1, 4⟩, 3⟩,
        ⟨.identifier "size", ⟨7, 1, 8⟩, 4⟩, size, ⟨.leftBrace, ⟨25, 1, 26⟩, 1⟩,
        ⟨.rightBrace, ⟨26, 1, 27⟩, 1⟩] := by decide +kernel
  have htree : Node.parse "if not size 17179869184G {}" =
      .ok ⟨.start, none, 1, 1, [⟨.command, some "if", 1, 1,
        [⟨.arguments, none, 1, 4, [⟨.test, some "not", 1, 4,
          [⟨.arguments, none, 1, 8, [⟨.test, some "size", 1, 8,
            [⟨.arguments, none, 1, 13, [⟨.argument, none, 1, 13,
              [⟨.number, some "17179869184G", 1, 13, []⟩]⟩]⟩]⟩]⟩]⟩]⟩,
          ⟨.block, none, 1, 26, []⟩]⟩]⟩ := by
    rw [Node.parse, hspans]
    cbv
  obtain ⟨spans, hfound, -, hfault, hlarge⟩ := ofNode_of_parse htree
  have hsize : size ∈ spans := by
    obtain rfl := Except.ok.inj (hspans.symm.trans hfound)
    simp
  obtain ⟨fault, hrefused⟩ := hlarge.mpr ⟨size, hsize, _, rfl, by decide +kernel⟩
  obtain ⟨span, -, literal, -, -, rfl⟩ := hfault fault hrefused
  exact ⟨_, htree, span.place.line, literal, hrefused⟩

end MailFilter.Script
