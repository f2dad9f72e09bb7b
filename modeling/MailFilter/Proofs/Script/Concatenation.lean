import Mathlib.Data.List.Forall2
import MailFilter.Proofs.Script.Parsing
import MailFilter.Proofs.Script.Seam

/-!
# Scripts one below the other

The grammar looks at the kinds of the tokens, and it copies lines and columns into the nodes. So
tokens that stand some lines further down have the same tree, some lines further down, and two
scripts with a newline between them are one script with the commands of both.
-/

namespace MailFilter.Script

mutual

/-- A tree some lines further down. -/
def Node.moved (lines : Nat) : Node → Node
  | ⟨kind, token, line, column, children⟩ =>
    ⟨kind, token, line + lines, column, Node.movedAll lines children⟩

/-- Some trees some lines further down. -/
def Node.movedAll (lines : Nat) : List Node → List Node
  | [] => []
  | node :: nodes => Node.moved lines node :: Node.movedAll lines nodes

end

namespace Node

/-- Trees are moved one by one. -/
theorem movedAll_cons (lines : Nat) (node : Node) (nodes : List Node) :
    movedAll lines (node :: nodes) = node.moved lines :: movedAll lines nodes := rfl

/-- Trees are moved each by itself. -/
theorem movedAll_eq_map (lines : Nat) (nodes : List Node) :
    movedAll lines nodes = nodes.map (moved lines) := by
  induction nodes with
  | nil => rfl
  | cons node nodes ih => rw [movedAll_cons, ih, List.map_cons]

/-- Two lists of trees are moved one after the other. -/
theorem movedAll_append (lines : Nat) (front back : List Node) :
    movedAll lines (front ++ back) = movedAll lines front ++ movedAll lines back := by
  simp only [movedAll_eq_map, List.map_append]

mutual

/-- A tree that is moved by no lines stays where it is. -/
theorem moved_zero : ∀ node : Node, node.moved 0 = node
  | ⟨_, _, _, _, children⟩ => by rw [moved, movedAll_zero children, Nat.add_zero]

/-- Trees that are moved by no lines stay where they are. -/
theorem movedAll_zero : ∀ nodes : List Node, movedAll 0 nodes = nodes
  | [] => rfl
  | node :: nodes => by rw [movedAll_cons, moved_zero node, movedAll_zero nodes]

end

mutual

/-- A tree is nested as deeply wherever it is. -/
theorem nesting_moved (lines : Nat) : ∀ node : Node, (node.moved lines).nesting = node.nesting
  | ⟨_, _, _, _, children⟩ => by rw [moved, nesting, nesting, nestingAll_movedAll lines children]

/-- Trees are nested as deeply wherever they are. -/
theorem nestingAll_movedAll (lines : Nat) :
    ∀ nodes : List Node, nestingAll (movedAll lines nodes) = nestingAll nodes
  | [] => rfl
  | node :: nodes => by
    rw [movedAll_cons, nestingAll_cons, nestingAll_cons, nesting_moved lines node,
      nestingAll_movedAll lines nodes]

end

end Node

/-- A place in the same column as another, some lines further down. -/
structure Place.IsBelow (lines : Nat) (below place : Place) : Prop where
  line : below.line = place.line + lines
  column : below.column = place.column

/-- A token some lines further down, perhaps written with other bytes. -/
structure Span.IsBelow (lines : Nat) (below span : Span) : Prop where
  token : below.token = span.token
  place : below.place.IsBelow lines span.place

/-- Some tokens, each of them the same lines further down. -/
abbrev AreBelow (lines : Nat) (below tokens : List Span) : Prop :=
  List.Forall₂ (Span.IsBelow lines) below tokens

section Below

variable {lines : Nat} {below tokens : List Span}

/-- Tokens below two lists of tokens are some below the one and some below the other. -/
theorem AreBelow.exists_of_append {front back : List Span}
    (h : AreBelow lines below (front ++ back)) :
    ∃ front' back', below = front' ++ back' ∧ AreBelow lines front' front ∧
      AreBelow lines back' back :=
  ⟨_, _, (List.take_append_drop front.length below).symm, List.forall₂_take_append _ _ _ h,
    List.forall₂_drop_append _ _ _ h⟩

/-- The same tokens at the same places are below each other by no lines. -/
theorem areBelow_of_sameTokens (h : SameTokens below tokens) : AreBelow 0 below tokens := by
  rw [SameTokens, ← List.forall₂_eq_eq_eq, List.forall₂_map_left_iff,
    List.forall₂_map_right_iff] at h
  refine h.imp fun span' span hsame => ?_
  obtain ⟨htoken, hplace⟩ := Prod.mk.inj hsame
  exact ⟨htoken, congrArg Place.line hplace, congrArg Place.column hplace⟩

/-- Tokens that were moved are below what they were. -/
theorem areBelow_moved (bytes lines : Nat) (tokens : List Span) :
    AreBelow lines (tokens.map (Span.moved bytes lines)) tokens := by
  rw [AreBelow, List.forall₂_map_left_iff, List.forall₂_same]
  exact fun span _ => ⟨rfl, rfl, rfl⟩

/-- A node at a token further down is the node moved. -/
theorem Span.IsBelow.node {span span' : Span} (h : span'.IsBelow lines span) (kind : NodeKind)
    (token : Option String) (children : List Node) :
    span'.node kind token (Node.movedAll lines children) =
      (span.node kind token children).moved lines := by
  rw [Span.node, Span.node, Node.moved, h.place.line, h.place.column]

/-- A leaf at a token further down is the leaf moved. -/
theorem Span.IsBelow.leaf {span span' : Span} (h : span'.IsBelow lines span) (kind : NodeKind)
    (text : String) : span'.leaf kind text = (span.leaf kind text).moved lines :=
  h.node kind (some text) []

/-- Arguments at a place further down are the arguments moved. -/
theorem Place.IsBelow.arguments {place place' : Place} (h : place'.IsBelow lines place)
    (children : List Node) :
    place'.arguments (Node.movedAll lines children) = (place.arguments children).moved lines := by
  rw [Place.arguments, Place.arguments, Node.moved, h.line, h.column]

/-- The place of the next token is as far down as the tokens are. -/
theorem nextPlace_isBelow {next next' : Place} (hnext : next'.IsBelow lines next)
    (h : AreBelow lines below tokens) :
    (nextPlace next' below).IsBelow lines (nextPlace next tokens) := by
  cases h with
  | nil => exact hnext
  | cons hspan _ => exact hspan.place

/-- Tokens further down are the items of a list moved. -/
theorem IsItems.moved {items : List Node} (h : IsItems tokens items)
    (hbelow : AreBelow lines below tokens) : IsItems below (Node.movedAll lines items) := by
  induction h generalizing below with
  | last hitem hclose =>
    obtain _ | ⟨hitem', _ | ⟨hclose', hnil⟩⟩ := hbelow
    cases hnil
    rw [Node.movedAll_cons, ← hitem'.leaf]
    exact .last (hitem'.token ▸ hitem) (hclose'.token.trans hclose)
  | more hitem hcomma hitems ih =>
    obtain _ | ⟨hitem', _ | ⟨hcomma', hrest⟩⟩ := hbelow
    rw [Node.movedAll_cons, ← hitem'.leaf]
    exact .more (hitem'.token ▸ hitem) (hcomma'.token.trans hcomma) (ih hrest)

/-- Tokens further down are a value moved. -/
theorem IsValue.moved {value : Node} (h : IsValue tokens value)
    (hbelow : AreBelow lines below tokens) : IsValue below (value.moved lines) := by
  cases h with
  | string hspan =>
    obtain _ | ⟨hspan', hnil⟩ := hbelow
    cases hnil
    rw [← hspan'.leaf]
    exact .string (hspan'.token ▸ hspan)
  | number hspan =>
    obtain _ | ⟨hspan', hnil⟩ := hbelow
    cases hnil
    rw [← hspan'.leaf]
    exact .number (hspan'.token.trans hspan)
  | tag hspan =>
    obtain _ | ⟨hspan', hnil⟩ := hbelow
    cases hnil
    rw [← hspan'.leaf]
    exact .tag (hspan'.token.trans hspan)
  | strings hspan hitems =>
    obtain _ | ⟨hspan', hrest⟩ := hbelow
    rw [← hspan'.node]
    exact .strings (hspan'.token.trans hspan) (hitems.moved hrest)

/-- Tokens further down are positional arguments moved. -/
theorem IsPositional.moved {arguments : List Node} (h : IsPositional tokens arguments)
    (hbelow : AreBelow lines below tokens) :
    IsPositional below (Node.movedAll lines arguments) := by
  induction h generalizing below with
  | nil =>
    cases hbelow
    exact .nil
  | cons hvalue harguments ih =>
    obtain ⟨front, back, rfl, hfront, hback⟩ := hbelow.exists_of_append
    have hvalue' := hvalue.moved hfront
    obtain _ | ⟨hspan', hrest⟩ := hfront
    rw [Node.movedAll_cons, ← hspan'.node]
    exact .cons hvalue' (ih hback)

mutual

/-- Tokens further down are arguments moved. -/
theorem IsArguments.moved {next next' : Place} (hnext : next'.IsBelow lines next)
    {tokens below : List Span} {node : Node} (hbelow : AreBelow lines below tokens) :
    IsArguments next tokens node → IsArguments next' below (node.moved lines)
  | .plain harguments => by
    rw [← (nextPlace_isBelow hnext hbelow).arguments]
    exact .plain (harguments.moved hbelow)
  | .test harguments htest => by
    rw [← (nextPlace_isBelow hnext hbelow).arguments, Node.movedAll_append]
    obtain ⟨front, back, rfl, hfront, hback⟩ := hbelow.exists_of_append
    exact .test (harguments.moved hfront) (IsTest.moved hnext hback htest)
  | .tests harguments hspan htests => by
    rw [← (nextPlace_isBelow hnext hbelow).arguments, Node.movedAll_append]
    obtain ⟨front, back, rfl, hfront, hback⟩ := hbelow.exists_of_append
    obtain _ | ⟨hspan', hrest⟩ := hback
    rw [Node.movedAll_cons, ← hspan'.node]
    exact .tests (harguments.moved hfront) (hspan'.token.trans hspan) (IsTests.moved hrest htests)

/-- Tokens further down are a test moved. -/
theorem IsTest.moved {next next' : Place} (hnext : next'.IsBelow lines next)
    {tokens below : List Span} {test : Node} (hbelow : AreBelow lines below tokens) :
    IsTest next tokens test → IsTest next' below (test.moved lines)
  | .intro hspan harguments => by
    obtain _ | ⟨hspan', hrest⟩ := hbelow
    rw [← hspan'.node]
    exact .intro (hspan'.token.trans hspan) (IsArguments.moved hnext hrest harguments)

/-- Tokens further down are tests moved. -/
theorem IsTests.moved {tokens below : List Span} {tests : List Node}
    (hbelow : AreBelow lines below tokens) :
    IsTests tokens tests → IsTests below (Node.movedAll lines tests)
  | .last htest hclose => by
    obtain ⟨front, back, rfl, hfront, hback⟩ := hbelow.exists_of_append
    obtain _ | ⟨hclose', hnil⟩ := hback
    cases hnil
    exact .last (IsTest.moved hclose'.place hfront htest) (hclose'.token.trans hclose)
  | .more htest hcomma htests => by
    obtain ⟨front, back, rfl, hfront, hback⟩ := hbelow.exists_of_append
    obtain _ | ⟨hcomma', hrest⟩ := hback
    exact .more (IsTest.moved hcomma'.place hfront htest) (hcomma'.token.trans hcomma)
      (IsTests.moved hrest htests)

end

mutual

/-- Tokens further down are a command moved. -/
theorem IsCommand.moved {tokens below : List Span} {command : Node}
    (hbelow : AreBelow lines below tokens) :
    IsCommand tokens command → IsCommand below (command.moved lines)
  | .plain hspan harguments hstop => by
    obtain ⟨front, back, rfl, hfront, hback⟩ := hbelow.exists_of_append
    obtain _ | ⟨hspan', hrest⟩ := hfront
    obtain _ | ⟨hstop', hnil⟩ := hback
    cases hnil
    rw [← hspan'.node]
    exact .plain (hspan'.token.trans hspan) (harguments.moved hstop'.place hrest)
      (hstop'.token.trans hstop)
  | .block hspan harguments hbrace hcommands hclose => by
    obtain ⟨front, back, rfl, hfront, hback⟩ := hbelow.exists_of_append
    obtain _ | ⟨hspan', hrest⟩ := hfront
    obtain _ | ⟨hbrace', hback⟩ := hback
    obtain ⟨inner, last, rfl, hinner, hlast⟩ := AreBelow.exists_of_append hback
    obtain _ | ⟨hclose', hnil⟩ := hlast
    cases hnil
    rw [← hspan'.node, Node.movedAll_cons, Node.movedAll_cons, ← hbrace'.node]
    exact .block (hspan'.token.trans hspan) (harguments.moved hbrace'.place hrest)
      (hbrace'.token.trans hbrace) (IsCommands.moved hinner hcommands)
      (hclose'.token.trans hclose)

/-- Tokens further down are commands moved. -/
theorem IsCommands.moved {tokens below : List Span} {commands : List Node}
    (hbelow : AreBelow lines below tokens) :
    IsCommands tokens commands → IsCommands below (Node.movedAll lines commands)
  | .nil => by
    cases hbelow
    exact .nil
  | .cons hcommand hcommands => by
    obtain ⟨front, back, rfl, hfront, hback⟩ := hbelow.exists_of_append
    exact .cons (IsCommand.moved hfront hcommand) (IsCommands.moved hback hcommands)

end

end Below

/-- Commands followed by commands are commands. -/
theorem IsCommands.append {front back : List Span} {commands others : List Node}
    (h : IsCommands front commands) (hothers : IsCommands back others) :
    IsCommands (front ++ back) (commands ++ others) := by
  induction commands generalizing front with
  | nil =>
    cases h
    exact hothers
  | cons command commands ih =>
    cases h with
    | cons hcommand hcommands =>
      rw [List.append_assoc]
      exact .cons hcommand (ih hcommands)

/-- The tokens of a script, and those of another some lines further down, have the trees of both
scripts. -/
theorem ofTokens_append {lines : Nat} {front back spans others : List Span} {tree other : Node}
    (hspans : Node.ofTokens spans = .ok tree) (hothers : Node.ofTokens others = .ok other)
    (hfront : SameTokens front spans) (hback : AreBelow lines back others) :
    Node.ofTokens (front ++ back) =
      .ok ⟨.start, none, 1, 1, tree.children ++ other.children.map (Node.moved lines)⟩ := by
  obtain ⟨⟨hcommands⟩, hlevels⟩ := ofTokens_iff.mp hspans
  obtain ⟨⟨hcommands'⟩, hlevels'⟩ := ofTokens_iff.mp hothers
  rw [nesting_start] at hlevels hlevels'
  have hhere := hcommands.moved (areBelow_of_sameTokens hfront)
  have hthere := hcommands'.moved hback
  rw [Node.movedAll_zero] at hhere
  refine ofTokens_iff.mpr ⟨.intro (hhere.append ?_), ?_⟩
  · rw [← Node.movedAll_eq_map]
    exact hthere
  · rw [nesting_start, Node.nestingAll_append, ← Node.movedAll_eq_map, Node.nestingAll_movedAll]
    exact Nat.max_le.mpr ⟨hlevels, hlevels'⟩

/-- A text is a script if its tokens are. -/
theorem Node.parse_eq_ok_iff {text : String} {tree : Node} :
    Node.parse text = .ok tree ↔
      ∃ spans, tokenize text = .ok spans ∧ Node.ofTokens spans = .ok tree := by
  rw [Node.parse]
  cases tokenize text with
  | error fault =>
    constructor
    · intro h
      cases h
    · rintro ⟨_, ⟨⟩, _⟩
  | ok spans =>
    constructor
    · intro h
      exact ⟨spans, rfl, h⟩
    · rintro ⟨_, ⟨⟩, h⟩
      exact h

/-- Two texts with a newline between them are cut into the tokens of both, those of the second moved
behind the first, and go wrong just where the second does. If both are scripts, together they are
the script with the commands of both. -/
theorem Node.parse_concatenation (text other : String) :
    let lines := text.toList.count '\n' + 1
    (∀ spans, tokenize text = .ok spans →
      (∀ others, tokenize other = .ok others → ∃ front,
        front.map (fun span => (span.token, span.place)) =
            spans.map (fun span => (span.token, span.place)) ∧
          tokenize (text ++ "\n" ++ other) =
            .ok (front ++ others.map (Span.moved (text.utf8ByteSize + 1) lines))) ∧
      ∀ fault, tokenize other = .error fault → ∃ line column cause,
        fault = .parse line column cause ∧
          tokenize (text ++ "\n" ++ other) = .error (.parse (line + lines) column cause)) ∧
    ∀ tree tree', Node.parse text = .ok tree → Node.parse other = .ok tree' →
      Node.parse (text ++ "\n" ++ other) =
        .ok ⟨.start, none, 1, 1, tree.children ++ tree'.children.map (Node.moved lines)⟩ := by
  intro lines
  refine ⟨fun spans hspans => ?_, fun tree tree' htree htree' => ?_⟩
  · obtain ⟨front, hfront, hboth⟩ := tokenize_seam hspans other
    constructor
    · intro others hothers
      rw [hothers] at hboth
      exact ⟨front, hfront, hboth⟩
    · intro fault hfault
      obtain ⟨line, column, cause, rfl⟩ := tokenizeFrom_eq_error hfault
      rw [hfault] at hboth
      exact ⟨line, column, cause, rfl, hboth⟩
  · obtain ⟨spans, hspans, htree⟩ := parse_eq_ok_iff.mp htree
    obtain ⟨others, hothers, htree'⟩ := parse_eq_ok_iff.mp htree'
    obtain ⟨front, hfront, hboth⟩ := tokenize_seam hspans other
    rw [hothers] at hboth
    exact parse_eq_ok_iff.mpr
      ⟨_, hboth, ofTokens_append htree htree' hfront (areBelow_moved _ lines others)⟩

/-- A dot at the end of a text closes a multi-line string, and takes the newline behind it if there
comes another text. -/
theorem tokenize_openEnded :
    tokenize "text:\n." = .ok [⟨.multiline "", ⟨0, 1, 1⟩, 7⟩] := by
  decide +kernel

/-- The newline behind the dot is the end of the string, so the next text begins in line 3. -/
theorem Node.parse_concatenation_openEnded :
    (∃ front, front.map (fun span => (span.token, span.place)) =
        [(.multiline "", ⟨0, 1, 1⟩)] ∧
      tokenize ("text:\n." ++ "\n" ++ "stop;") =
        .ok (front ++ [⟨.identifier "stop", ⟨8, 3, 1⟩, 4⟩, ⟨.semicolon, ⟨12, 3, 5⟩, 1⟩])) ∧
    tokenize ("text:\n." ++ "\n" ++ " \"") = .error (.parse 3 2 .openString) ∧
    Node.parse ("keep;" ++ "\n" ++ "stop;") = .ok ⟨.start, none, 1, 1,
      [⟨.command, some "keep", 1, 1, [⟨.arguments, none, 1, 5, []⟩]⟩,
        ⟨.command, some "stop", 2, 1, [⟨.arguments, none, 2, 5, []⟩]⟩]⟩ := by
  have hstop : tokenize "stop;" =
      .ok [⟨.identifier "stop", ⟨0, 1, 1⟩, 4⟩, ⟨.semicolon, ⟨4, 1, 5⟩, 1⟩] := by decide +kernel
  have hkeep : tokenize "keep;" =
      .ok [⟨.identifier "keep", ⟨0, 1, 1⟩, 4⟩, ⟨.semicolon, ⟨4, 1, 5⟩, 1⟩] := by decide +kernel
  have hquote : tokenize " \"" = .error (.parse 1 2 .openString) := by decide +kernel
  obtain ⟨htokens, -⟩ := Node.parse_concatenation "text:\n." "stop;"
  obtain ⟨front, hfront, hboth⟩ := (htokens _ tokenize_openEnded).1 _ hstop
  obtain ⟨hfault, -⟩ := Node.parse_concatenation "text:\n." " \""
  obtain ⟨line, column, cause, hcause, herror⟩ := (hfault _ tokenize_openEnded).2 _ hquote
  cases hcause
  obtain ⟨-, htree⟩ := Node.parse_concatenation "keep;" "stop;"
  refine ⟨⟨front, hfront, hboth⟩, herror, ?_⟩
  exact (htree ⟨.start, none, 1, 1, [⟨.command, some "keep", 1, 1, [⟨.arguments, none, 1, 5, []⟩]⟩]⟩
    ⟨.start, none, 1, 1, [⟨.command, some "stop", 1, 1, [⟨.arguments, none, 1, 5, []⟩]⟩]⟩
    (parse_eq_ok_iff.mpr ⟨_, hkeep, by cbv⟩) (parse_eq_ok_iff.mpr ⟨_, hstop, by cbv⟩)).trans rfl

end MailFilter.Script
