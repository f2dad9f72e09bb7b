import MailFilter.Proofs.Script.Building
import MailFilter.Proofs.Script.Induction
import MailFilter.Proofs.Script.Recasing

/-!
# The strings of a script

The strings of a script are those of its text, in the order in which they are written: the grammar
and the builder carry them along as they are. And each of them says what is written between its
quotes or below its mark, in the case in which it is written there.
-/

namespace MailFilter

mutual

/-- The strings in the arguments of a test and of the tests inside it, in order. -/
def Test.strings : Test → List String
  | ⟨_, arguments, tests, _⟩ =>
    arguments.flatMap (fun argument => argument.strings?.getD []) ++ Test.strings? tests

/-- The strings of tests that may have been written. -/
def Test.strings? : Option (List Test) → List String
  | none => []
  | some tests => Test.stringsAll tests

/-- The strings of some tests. -/
def Test.stringsAll : List Test → List String
  | [] => []
  | test :: tests => Test.strings test ++ Test.stringsAll tests

end

mutual

/-- The strings in the arguments of a command, in its tests and in its block, in order. -/
def Command.strings : Command → List String
  | ⟨_, arguments, tests, block, _⟩ =>
    arguments.flatMap (fun argument => argument.strings?.getD []) ++ Test.strings? tests ++
      Command.strings? block

/-- The strings of a block that may have been written. -/
def Command.strings? : Option (List Command) → List String
  | none => []
  | some block => Command.stringsAll block

/-- The strings of some commands. -/
def Command.stringsAll : List Command → List String
  | [] => []
  | command :: commands => Command.strings command ++ Command.stringsAll commands

end

/-- The strings of a script, in order. -/
def Script.strings (script : Script) : List String :=
  Command.stringsAll script

namespace Script

/-- The strings among some tokens, in order. -/
def stringsOf (tokens : List Span) : List String :=
  tokens.filterMap (·.token.string?)

mutual

/-- The strings in a tree, in order. -/
def Node.strings : Node → List String
  | ⟨kind, token, _, _, children⟩ =>
    if kind = .string then token.toList else Node.stringsAll children

/-- The strings in some trees, in order. -/
def Node.stringsAll : List Node → List String
  | [] => []
  | node :: nodes => Node.strings node ++ Node.stringsAll nodes

end

section Grammar

variable {tokens : List Span}

/-- No tokens have no strings. -/
theorem stringsOf_nil : stringsOf [] = [] := rfl

/-- The string of the first token comes before those of the others. -/
theorem stringsOf_cons (span : Span) (tokens : List Span) :
    stringsOf (span :: tokens) = span.token.string?.toList ++ stringsOf tokens := by
  rw [stringsOf, List.filterMap_cons]
  cases span.token.string? <;> rfl

/-- A token of a string adds that string. -/
theorem stringsOf_cons_string {span : Span} {text : String} (h : span.token.string? = some text)
    (tokens : List Span) : stringsOf (span :: tokens) = text :: stringsOf tokens := by
  rw [stringsOf_cons, h]
  rfl

/-- A token that is no string adds none. -/
theorem stringsOf_cons_other {span : Span} {token : Token} (h : span.token = token)
    (htoken : token.string? = none) (tokens : List Span) :
    stringsOf (span :: tokens) = stringsOf tokens := by
  rw [stringsOf_cons, h, htoken]
  rfl

/-- The strings of two lists of tokens follow each other. -/
theorem stringsOf_append (front back : List Span) :
    stringsOf (front ++ back) = stringsOf front ++ stringsOf back :=
  List.filterMap_append

/-- The strings of the first tree come before those of the others. -/
theorem Node.stringsAll_cons (node : Node) (nodes : List Node) :
    Node.stringsAll (node :: nodes) = node.strings ++ Node.stringsAll nodes := rfl

/-- One tree has its own strings. -/
theorem Node.stringsAll_singleton (node : Node) : Node.stringsAll [node] = node.strings :=
  List.append_nil _

/-- The strings of two lists of trees follow each other. -/
theorem Node.stringsAll_append (front back : List Node) :
    Node.stringsAll (front ++ back) = Node.stringsAll front ++ Node.stringsAll back := by
  induction front with
  | nil => rfl
  | cons node front ih =>
    rw [List.cons_append, stringsAll_cons, stringsAll_cons, ih, List.append_assoc]

/-- A tree that is no string has the strings of its children. -/
theorem Node.strings_of_ne {kind : NodeKind} (hkind : kind ≠ .string) (token : Option String)
    (line column : Nat) (children : List Node) :
    (Node.mk kind token line column children).strings = Node.stringsAll children := by
  rw [Node.strings, if_neg hkind]

/-- A node that is no string has the strings of its children. -/
theorem Node.strings_node (span : Span) {kind : NodeKind} (hkind : kind ≠ .string)
    (token : Option String) (children : List Node) :
    (span.node kind token children).strings = Node.stringsAll children :=
  strings_of_ne hkind token _ _ children

/-- Arguments have the strings of their children. -/
theorem Node.strings_arguments (place : Place) (children : List Node) :
    (place.arguments children).strings = Node.stringsAll children :=
  strings_of_ne (by decide) none _ _ children

/-- The items of a list have the strings of their tokens. -/
theorem IsItems.strings_eq {items : List Node} (h : IsItems tokens items) :
    Node.stringsAll items = stringsOf tokens := by
  induction h with
  | last hitem hclose =>
    rw [stringsOf_cons_string hitem, stringsOf_cons_other hclose rfl]
    rfl
  | more hitem hcomma hitems ih =>
    rw [stringsOf_cons_string hitem, stringsOf_cons_other hcomma rfl, ← ih]
    rfl

/-- A value has the strings of its tokens. -/
theorem IsValue.strings_eq {value : Node} (h : IsValue tokens value) :
    value.strings = stringsOf tokens := by
  cases h with
  | string hspan =>
    rw [stringsOf_cons_string hspan]
    rfl
  | number hspan | tag hspan =>
    rw [stringsOf_cons_other hspan rfl]
    rfl
  | strings hspan hitems =>
    rw [Node.strings_node _ (by decide), stringsOf_cons_other hspan rfl, hitems.strings_eq]

/-- Positional arguments have the strings of their tokens. -/
theorem IsPositional.strings_eq {arguments : List Node} (h : IsPositional tokens arguments) :
    Node.stringsAll arguments = stringsOf tokens := by
  induction h with
  | nil => rfl
  | cons hvalue harguments ih =>
    rw [Node.stringsAll_cons, ih, Node.strings_node _ (by decide), Node.stringsAll_singleton,
      hvalue.strings_eq, stringsOf_append]

mutual

/-- Arguments have the strings of their tokens. -/
theorem IsArguments.strings_eq {next : Place} {tokens : List Span} {node : Node} :
    IsArguments next tokens node → node.strings = stringsOf tokens
  | .plain harguments => by
    rw [Node.strings_arguments, harguments.strings_eq]
  | .test harguments htest => by
    rw [Node.strings_arguments, Node.stringsAll_append, Node.stringsAll_singleton,
      harguments.strings_eq, IsTest.strings_eq htest, stringsOf_append]
  | .tests harguments hspan htests => by
    rw [Node.strings_arguments, Node.stringsAll_append, Node.stringsAll_singleton,
      Node.strings_node _ (by decide), harguments.strings_eq, IsTests.strings_eq htests,
      stringsOf_append, stringsOf_cons_other hspan rfl]

/-- A test has the strings of its tokens. -/
theorem IsTest.strings_eq {next : Place} {tokens : List Span} {test : Node} :
    IsTest next tokens test → test.strings = stringsOf tokens
  | .intro hspan harguments => by
    rw [Node.strings_node _ (by decide), Node.stringsAll_singleton,
      IsArguments.strings_eq harguments, stringsOf_cons_other hspan rfl]

/-- Tests have the strings of their tokens. -/
theorem IsTests.strings_eq {tokens : List Span} {tests : List Node} :
    IsTests tokens tests → Node.stringsAll tests = stringsOf tokens
  | .last htest hclose => by
    rw [Node.stringsAll_singleton, IsTest.strings_eq htest, stringsOf_append,
      stringsOf_cons_other hclose rfl, stringsOf_nil, List.append_nil]
  | .more htest hcomma htests => by
    rw [Node.stringsAll_cons, IsTest.strings_eq htest, IsTests.strings_eq htests, stringsOf_append,
      stringsOf_cons_other hcomma rfl]

end

mutual

/-- A command has the strings of its tokens. -/
theorem IsCommand.strings_eq {tokens : List Span} {command : Node} :
    IsCommand tokens command → command.strings = stringsOf tokens
  | .plain hspan harguments hstop => by
    rw [Node.strings_node _ (by decide), Node.stringsAll_singleton, harguments.strings_eq,
      stringsOf_append, stringsOf_cons_other hspan rfl, stringsOf_cons_other hstop rfl,
      stringsOf_nil, List.append_nil]
  | .block hspan harguments hbrace hcommands hclose => by
    rw [Node.strings_node _ (by decide), Node.stringsAll_cons, Node.stringsAll_singleton,
      Node.strings_node _ (by decide), harguments.strings_eq, IsCommands.strings_eq hcommands,
      stringsOf_append, stringsOf_cons_other hspan rfl, stringsOf_cons_other hbrace rfl,
      stringsOf_append, stringsOf_cons_other hclose rfl, stringsOf_nil, List.append_nil]

/-- Commands have the strings of their tokens. -/
theorem IsCommands.strings_eq {tokens : List Span} {commands : List Node} :
    IsCommands tokens commands → Node.stringsAll commands = stringsOf tokens
  | .nil => rfl
  | .cons hcommand hcommands => by
    rw [stringsOf_append, Node.stringsAll_cons, IsCommand.strings_eq hcommand,
      IsCommands.strings_eq hcommands]

end

/-- A script has the strings of its tokens. -/
theorem IsScript.strings_eq {tree : Node} (h : IsScript tokens tree) :
    tree.strings = stringsOf tokens := by
  obtain ⟨hcommands⟩ := h
  rw [Node.strings, if_neg (by decide), hcommands.strings_eq]

end Grammar

section Builder

/-- A value stands for an argument of the same strings. -/
theorem StandsForValue.strings_eq {value : Node} {argument : Argument}
    (h : StandsForValue value argument) : argument.strings?.getD [] = value.strings := by
  cases h with
  | string | number | tag => rfl
  | @strings texts line column items hitems =>
    change texts = Node.stringsAll items
    induction hitems with
    | nil => rfl
    | @cons item text items texts hitem _ ih =>
      obtain ⟨kind, token, line, column, children⟩ := item
      obtain ⟨rfl, rfl⟩ := hitem
      rw [Node.stringsAll_cons, ← ih]
      rfl

/-- Positional arguments stand for arguments of the same strings. -/
theorem strings_of_standsForArgument {nodes : List Node} {arguments : List Argument}
    (h : List.Forall₂ StandsForArgument nodes arguments) :
    arguments.flatMap (fun argument => argument.strings?.getD []) = Node.stringsAll nodes := by
  induction h with
  | nil => rfl
  | @cons node argument nodes arguments hnode _ ih =>
    obtain ⟨hvalue⟩ := hnode
    rw [List.flatMap_cons, ih, hvalue.strings_eq, Node.stringsAll_cons]
    congr 1
    exact (Node.stringsAll_singleton _).symm

/-- What holds of the tests that some nodes stand for, one by one, holds of all of them. -/
theorem stringsAll_of_standsForTest {nodes : List Node} {tests : List Test}
    (h : List.Forall₂ StandsForTest nodes tests)
    (htests : ∀ test ∈ tests, ∀ node, StandsForTest node test → test.strings = node.strings) :
    Test.stringsAll tests = Node.stringsAll nodes := by
  induction h with
  | nil => rfl
  | cons hnode _ ih =>
    rw [List.forall_mem_cons] at htests
    rw [Test.stringsAll, htests.1 _ hnode, ih htests.2, Node.stringsAll_cons]

/-- Arguments stand for arguments and tests of the same strings, if the tests do. -/
theorem StandsForArguments.strings_eq {node : Node} {arguments : Arguments}
    (h : StandsForArguments node arguments)
    (htests : ∀ test ∈ arguments.tests.getD [], ∀ node, StandsForTest node test →
      test.strings = node.strings) :
    arguments.positional.flatMap (fun argument => argument.strings?.getD []) ++
      Test.strings? arguments.tests = node.strings := by
  cases h with
  | plain harguments =>
    rw [strings_of_standsForArgument harguments]
    exact List.append_nil _
  | test harguments htest =>
    have hone := stringsAll_of_standsForTest (.cons htest .nil) htests
    rw [strings_of_standsForArgument harguments, Test.strings?, hone, ← Node.stringsAll_append]
    rfl
  | tests harguments hall =>
    rw [strings_of_standsForArgument harguments, Test.strings?,
      stringsAll_of_standsForTest hall htests, Node.strings_of_ne (by decide),
      Node.stringsAll_append, Node.stringsAll_singleton, Node.strings_of_ne (by decide)]

/-- A test stands for a test of the same strings. -/
theorem StandsForTest.strings_eq {node : Node} {test : Test} (h : StandsForTest node test) :
    test.strings = node.strings := by
  induction test using Test.induction generalizing node with
  | step test ih =>
    obtain ⟨harguments⟩ := h
    rw [Test.strings, harguments.strings_eq fun inner hinner _ => ih inner hinner]
    exact (Node.stringsAll_singleton _).symm

/-- Commands stand for commands of the same strings, if each does. -/
theorem stringsAll_of_standsForCommand {nodes : List Node} {commands : List Command}
    (h : List.Forall₂ StandsForCommand nodes commands)
    (hcommands : ∀ command ∈ commands, ∀ node, StandsForCommand node command →
      command.strings = node.strings) :
    Command.stringsAll commands = Node.stringsAll nodes := by
  induction h with
  | nil => rfl
  | cons hnode _ ih =>
    rw [List.forall_mem_cons] at hcommands
    rw [Command.stringsAll, hcommands.1 _ hnode, ih hcommands.2, Node.stringsAll_cons]

/-- A command stands for a command of the same strings. -/
theorem StandsForCommand.strings_eq {node : Node} {command : Command}
    (h : StandsForCommand node command) : command.strings = node.strings := by
  induction command using Command.induction generalizing node with
  | step command ih =>
    cases h with
    | plain harguments =>
      rw [Command.strings, harguments.strings_eq fun _ _ _ => StandsForTest.strings_eq,
        Node.strings_of_ne (by decide), Node.stringsAll_singleton, Command.strings?,
        List.append_nil]
    | block harguments hblock =>
      have hall := stringsAll_of_standsForCommand hblock fun inner hinner _ => ih inner hinner
      rw [Command.strings, harguments.strings_eq fun _ _ _ => StandsForTest.strings_eq,
        Command.strings?, hall, Node.strings_of_ne (by decide), Node.stringsAll_cons,
        Node.stringsAll_singleton, Node.strings_of_ne (by decide)]

end Builder

/-- A script is parsed if its text has a tree and that can be built. -/
theorem parse_eq_ok_iff {text : String} {script : Script} :
    MailFilter.Script.parse text = .ok script ↔
      ∃ tree, Node.parse text = .ok tree ∧ Script.ofNode tree = .ok script := by
  rw [MailFilter.Script.parse]
  cases Node.parse text with
  | error fault =>
    constructor
    · rintro ⟨⟩
    · rintro ⟨_, ⟨⟩, _⟩
  | ok tree =>
    constructor
    · exact fun h => ⟨tree, rfl, h⟩
    · rintro ⟨_, ⟨⟩, h⟩
      exact h

/-- The strings of a script are those of its tokens. -/
theorem strings_of_parse {text : String} {spans : List Span} {script : Script}
    (hspans : tokenize text = .ok spans) (h : MailFilter.Script.parse text = .ok script) :
    script.strings = stringsOf spans := by
  obtain ⟨tree, htree, hscript⟩ := parse_eq_ok_iff.mp h
  obtain ⟨found, hfound, htree⟩ := Node.parse_eq_ok_iff.mp htree
  obtain rfl : spans = found := Except.ok.inj (hspans.symm.trans hfound)
  obtain ⟨hgrammar, -⟩ := ofTokens_iff.mp htree
  have hbuilt := hgrammar.builds (numbersLexical_of_tokenize hspans)
  rw [hscript] at hbuilt
  cases hbuilt with
  | built _ hstands =>
    obtain ⟨hcommands⟩ := hstands
    rw [Script.strings, stringsAll_of_standsForCommand hcommands fun _ _ _ =>
      StandsForCommand.strings_eq, ← hgrammar.strings_eq, Node.strings_of_ne (by decide)]

/-- A token as it stands in a stretch of text that begins at a place: the characters it is written
with, those before it, and the rest. -/
structure Span.StandsIn (span : Span) (place : Place) (cs front written rest : List Char) :
    Prop where
  cut : cs = front ++ (written ++ rest)
  place : span.place = place.advance front
  size : span.size = String.utf8Len written

/-- Every token is a piece of its text, at its place. -/
theorem AreTokens.exists_standsIn {place : Place} {cs : List Char} {spans : List Span}
    (h : AreTokens place cs spans) : ∀ span ∈ spans, ∃ front written rest,
      span.StandsIn place cs front written rest ∧ IsPiece ⟨some span.token, written, rest⟩ := by
  induction h with
  | nil => exact List.forall_mem_nil _
  | @cons place c cs piece later hpiece hcut hlater ih =>
    rw [List.forall_mem_append]
    refine ⟨fun span hspan => ?_, fun span hspan => ?_⟩
    · obtain ⟨token, text, rest⟩ := piece
      cases token with
      | none => cases hspan
      | some token =>
        obtain rfl := List.mem_singleton.mp hspan
        refine ⟨[], text, rest, ⟨hcut.symm, rfl, ?_⟩, hpiece⟩
        exact Nat.sub_eq_of_eq_add' (Place.offset_advance place text)
    · obtain ⟨front, written, rest, hstands, hwritten⟩ := ih span hspan
      refine ⟨piece.text ++ front, written, rest, ⟨?_, ?_, hstands.size⟩, hwritten⟩
      · rw [List.append_assoc, ← hstands.cut, hcut]
      · rw [Place.advance_append, hstands.place]

/-- A piece whose token is a string is a string. -/
theorem IsPiece.isString {token : Token} {text rest : List Char} {contents : String}
    (h : IsPiece ⟨some token, text, rest⟩) (htoken : token.string? = some contents) :
    IsString rest text token := by
  cases h with
  | string hstring => exact hstring
  | punctuation hpunctuation =>
    unfold punctuation? at hpunctuation
    split at hpunctuation <;> cases hpunctuation <;> cases htoken
  | tag | number | identifier => cases htoken

end Script

end MailFilter
