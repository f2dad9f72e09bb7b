import MailFilter.Proofs.Script.Parsing
import MailFilter.Proofs.Script.Recasing
import MailFilter.Script.OfNode

/-!
# Trees and scripts without case

The grammar asks for the sort of a token and copies its text, so tokens that are the same up to case
have trees that are the same up to case. The builder folds names and tags itself and reads a scale
letter in either case, so such trees stand for one script.
-/

namespace MailFilter.Script

open Ascii (isDigit isLetter lowerChar SameLetter)

mutual

/-- A tree whose texts are in lower case, except for its strings. -/
def Node.folded : Node → Node
  | ⟨kind, token, line, column, children⟩ =>
    ⟨kind, if kind = .string then token else token.map Ascii.lower, line, column,
      Node.foldedAll children⟩

/-- Trees whose texts are in lower case, except for their strings. -/
def Node.foldedAll : List Node → List Node
  | [] => []
  | node :: nodes => Node.folded node :: Node.foldedAll nodes

end

namespace Node

/-- Trees are folded one by one. -/
theorem foldedAll_cons (node : Node) (nodes : List Node) :
    foldedAll (node :: nodes) = node.folded :: foldedAll nodes := rfl

/-- Two lists of trees are folded one after the other. -/
theorem foldedAll_append (front back : List Node) :
    foldedAll (front ++ back) = foldedAll front ++ foldedAll back := by
  induction front with
  | nil => rfl
  | cons node front ih =>
    rw [List.cons_append, foldedAll_cons, foldedAll_cons, ih, List.cons_append]

mutual

/-- A tree is nested as deeply once it is folded. -/
theorem nesting_folded : ∀ node : Node, node.folded.nesting = node.nesting
  | ⟨_, _, _, _, children⟩ => by rw [folded, nesting, nesting, nestingAll_foldedAll children]

/-- Trees are nested as deeply once they are folded. -/
theorem nestingAll_foldedAll : ∀ nodes : List Node, nestingAll (foldedAll nodes) = nestingAll nodes
  | [] => rfl
  | node :: nodes => by
    rw [foldedAll_cons, nestingAll_cons, nestingAll_cons, nesting_folded node,
      nestingAll_foldedAll nodes]

end

end Node

/-- Whether a token is kept with the case of its letters, though that does not count. -/
def Token.hasCase : Token → Bool
  | identifier _ => true
  | number _ => true
  | _ => false

section Grammar

variable {tokens others : List Span}

/-- What is related to two lists one behind the other is two such lists. -/
theorem exists_of_forall₂_append {α β : Type} {R : α → β → Prop} {front back : List α}
    {ys : List β} (h : List.Forall₂ R (front ++ back) ys) :
    ∃ front' back', ys = front' ++ back' ∧ List.Forall₂ R front front' ∧
      List.Forall₂ R back back' := by
  induction front generalizing ys with
  | nil => exact ⟨[], ys, rfl, .nil, h⟩
  | cons x front ih =>
    obtain _ | ⟨hx, hrest⟩ := h
    obtain ⟨front', back', rfl, hfront, hback⟩ := ih hrest
    exact ⟨_ :: front', back', rfl, .cons hx hfront, hback⟩

namespace Span.SameButCase

variable {span other : Span}

/-- It does not matter which of two tokens is recased. -/
theorem symm (h : span.SameButCase other) : other.SameButCase span :=
  ⟨h.token.symm, h.place.symm, h.size.symm⟩

/-- A token without letters of its own is the same if it is recased. -/
theorem token_eq (h : span.SameButCase other) {token : Token} (hspan : span.token = token)
    (hcase : token.hasCase = false) : other.token = token := by
  have htoken := h.token
  rw [hspan] at htoken
  cases token with
  | identifier | number => cases hcase
  | _ => cases hother : other.token <;> rw [hother] at htoken <;> cases htoken <;> rfl

/-- A recased identifier is an identifier of the same name once both are folded. -/
theorem exists_identifier (h : span.SameButCase other) {name : String}
    (hspan : span.token = .identifier name) :
    ∃ name', other.token = .identifier name' ∧ Ascii.lower name' = Ascii.lower name := by
  have htoken := h.token
  rw [hspan] at htoken
  cases hother : other.token with
  | identifier name' =>
    rw [hother] at htoken
    exact ⟨name', rfl, Token.identifier.inj htoken⟩
  | _ => rw [hother] at htoken; cases htoken

/-- A recased number is a number of the same text once both are folded. -/
theorem exists_number (h : span.SameButCase other) {text : String}
    (hspan : span.token = .number text) :
    ∃ text', other.token = .number text' ∧ Ascii.lower text' = Ascii.lower text := by
  have htoken := h.token
  rw [hspan] at htoken
  cases hother : other.token with
  | number text' =>
    rw [hother] at htoken
    exact ⟨text', rfl, Token.number.inj htoken⟩
  | _ => rw [hother] at htoken; cases htoken

/-- A recased token has the same string, if it has one. -/
theorem string?_eq (h : span.SameButCase other) : other.token.string? = span.token.string? := by
  cases hspan : span.token with
  | identifier =>
    obtain ⟨name', hother, -⟩ := h.exists_identifier hspan
    rw [hother]
    rfl
  | number =>
    obtain ⟨text', hother, -⟩ := h.exists_number hspan
    rw [hother]
    rfl
  | _ => rw [h.token_eq hspan rfl]

/-- Nodes at recased tokens fold to the same tree if their children do. -/
theorem folded_node (h : span.SameButCase other) (kind : NodeKind) {children children' : List Node}
    (hchildren : Node.foldedAll children' = Node.foldedAll children) :
    (other.node kind none children').folded = (span.node kind none children).folded := by
  rw [Span.node, Span.node, Node.folded, Node.folded, h.place, hchildren]

/-- Named nodes at recased tokens fold to the same tree if their names and their children do. -/
theorem folded_named (h : span.SameButCase other) (kind : NodeKind) (hkind : kind ≠ .string)
    {name name' : String} (hname : Ascii.lower name' = Ascii.lower name)
    {children children' : List Node}
    (hchildren : Node.foldedAll children' = Node.foldedAll children) :
    (other.node kind (some name') children').folded =
      (span.node kind (some name) children).folded := by
  rw [Span.node, Span.node, Node.folded, Node.folded, h.place, hchildren, if_neg hkind,
    if_neg hkind, Option.map_some, Option.map_some, hname]

end Span.SameButCase

/-- Recased tokens leave the next place where it is. -/
theorem nextPlace_eq {next : Place} (h : List.Forall₂ Span.SameButCase tokens others) :
    nextPlace next others = nextPlace next tokens := by
  cases h with
  | nil => rfl
  | cons hspan _ => exact hspan.place

/-- Arguments fold to the same tree if their children do. -/
theorem folded_arguments (place : Place) {children children' : List Node}
    (h : Node.foldedAll children' = Node.foldedAll children) :
    (place.arguments children').folded = (place.arguments children).folded := by
  rw [Place.arguments, Place.arguments, Node.folded, Node.folded, h]

/-- Recased tokens are the same items of a list. -/
theorem IsItems.folded {items : List Node} (h : IsItems tokens items)
    (hsame : List.Forall₂ Span.SameButCase tokens others) : IsItems others items := by
  induction h generalizing others with
  | last hitem hclose =>
    obtain _ | ⟨hitem', _ | ⟨hclose', hnil⟩⟩ := hsame
    cases hnil
    rw [Span.leaf, ← hitem'.place]
    exact .last (hitem'.string?_eq.trans hitem) (hclose'.token_eq hclose rfl)
  | more hitem hcomma hitems ih =>
    obtain _ | ⟨hitem', _ | ⟨hcomma', hrest⟩⟩ := hsame
    rw [Span.leaf, ← hitem'.place]
    exact .more (hitem'.string?_eq.trans hitem) (hcomma'.token_eq hcomma rfl) (ih hrest)

/-- Recased tokens are a value that folds to the same tree. -/
theorem IsValue.folded {value : Node} (h : IsValue tokens value)
    (hsame : List.Forall₂ Span.SameButCase tokens others) :
    ∃ value', IsValue others value' ∧ value'.folded = value.folded := by
  cases h with
  | @string span text hspan =>
    obtain _ | ⟨hspan', hnil⟩ := hsame
    cases hnil
    refine ⟨_, .string (hspan'.string?_eq.trans hspan), ?_⟩
    rw [Span.leaf, Span.leaf, hspan'.place]
  | number hspan =>
    obtain _ | ⟨hspan', hnil⟩ := hsame
    cases hnil
    obtain ⟨text', hother, htext⟩ := hspan'.exists_number hspan
    exact ⟨_, .number hother, hspan'.folded_named .number (by decide) htext rfl⟩
  | tag hspan =>
    obtain _ | ⟨hspan', hnil⟩ := hsame
    cases hnil
    exact ⟨_, .tag (hspan'.token_eq hspan rfl), hspan'.folded_named .tag (by decide) rfl rfl⟩
  | strings hspan hitems =>
    obtain _ | ⟨hspan', hrest⟩ := hsame
    exact ⟨_, .strings (hspan'.token_eq hspan rfl) (hitems.folded hrest),
      hspan'.folded_node .stringList rfl⟩

/-- Recased tokens are positional arguments that fold to the same trees. -/
theorem IsPositional.folded {arguments : List Node} (h : IsPositional tokens arguments)
    (hsame : List.Forall₂ Span.SameButCase tokens others) :
    ∃ arguments', IsPositional others arguments' ∧
      Node.foldedAll arguments' = Node.foldedAll arguments := by
  induction h generalizing others with
  | nil =>
    cases hsame
    exact ⟨[], .nil, rfl⟩
  | @cons span front back value arguments hvalue harguments ih =>
    obtain ⟨front', back', rfl, hfront, hback⟩ := exists_of_forall₂_append hsame
    obtain ⟨value', hvalue', hfolded⟩ := hvalue.folded hfront
    obtain ⟨arguments', harguments', hall⟩ := ih hback
    obtain _ | ⟨hspan', hrest⟩ := hfront
    refine ⟨_, .cons hvalue' harguments', ?_⟩
    have hchildren : Node.foldedAll [value'] = Node.foldedAll [value] := by
      rw [Node.foldedAll_cons, Node.foldedAll_cons, hfolded]
    rw [Node.foldedAll_cons, Node.foldedAll_cons, hall,
      hspan'.folded_node .argument hchildren]

mutual

/-- Recased tokens are arguments that fold to the same tree. -/
theorem IsArguments.folded {next : Place} {tokens others : List Span} {node : Node}
    (hsame : List.Forall₂ Span.SameButCase tokens others) : IsArguments next tokens node →
    ∃ node', IsArguments next others node' ∧ node'.folded = node.folded
  | .plain harguments => by
    obtain ⟨arguments', harguments', hfolded⟩ := harguments.folded hsame
    rw [← nextPlace_eq hsame]
    exact ⟨_, .plain harguments', folded_arguments _ hfolded⟩
  | .test harguments htest => by
    rw [← nextPlace_eq hsame]
    obtain ⟨front', back', rfl, hfront, hback⟩ := exists_of_forall₂_append hsame
    obtain ⟨arguments', harguments', hfolded⟩ := harguments.folded hfront
    obtain ⟨test', htest', hfolded'⟩ := IsTest.folded hback htest
    refine ⟨_, .test harguments' htest', folded_arguments _ ?_⟩
    rw [Node.foldedAll_append, Node.foldedAll_append, hfolded, Node.foldedAll_cons,
      Node.foldedAll_cons, hfolded']
  | .tests harguments hspan htests => by
    rw [← nextPlace_eq hsame]
    obtain ⟨front', back', rfl, hfront, hback⟩ := exists_of_forall₂_append hsame
    obtain ⟨arguments', harguments', hfolded⟩ := harguments.folded hfront
    obtain _ | ⟨hspan', hrest⟩ := hback
    obtain ⟨tests', htests', hfolded'⟩ := IsTests.folded hrest htests
    refine ⟨_, .tests harguments' (hspan'.token_eq hspan rfl) htests', folded_arguments _ ?_⟩
    rw [Node.foldedAll_append, Node.foldedAll_append, hfolded, Node.foldedAll_cons,
      Node.foldedAll_cons, hspan'.folded_node .testList hfolded']

/-- Recased tokens are a test that folds to the same tree. -/
theorem IsTest.folded {next : Place} {tokens others : List Span} {test : Node}
    (hsame : List.Forall₂ Span.SameButCase tokens others) : IsTest next tokens test →
    ∃ test', IsTest next others test' ∧ test'.folded = test.folded
  | .intro hspan harguments => by
    obtain _ | ⟨hspan', hrest⟩ := hsame
    obtain ⟨name', hother, hname⟩ := hspan'.exists_identifier hspan
    obtain ⟨node', hnode', hfolded⟩ := IsArguments.folded hrest harguments
    refine ⟨_, .intro hother hnode', hspan'.folded_named .test (by decide) hname ?_⟩
    rw [Node.foldedAll_cons, Node.foldedAll_cons, hfolded]

/-- Recased tokens are tests that fold to the same trees. -/
theorem IsTests.folded {tokens others : List Span} {tests : List Node}
    (hsame : List.Forall₂ Span.SameButCase tokens others) : IsTests tokens tests →
    ∃ tests', IsTests others tests' ∧ Node.foldedAll tests' = Node.foldedAll tests
  | .last htest hclose => by
    obtain ⟨front', back', rfl, hfront, hback⟩ := exists_of_forall₂_append hsame
    obtain _ | ⟨hclose', hnil⟩ := hback
    cases hnil
    obtain ⟨test', htest', hfolded⟩ := IsTest.folded hfront htest
    rw [← hclose'.place] at htest'
    refine ⟨_, .last htest' (hclose'.token_eq hclose rfl), ?_⟩
    rw [Node.foldedAll_cons, Node.foldedAll_cons, hfolded]
  | .more htest hcomma htests => by
    obtain ⟨front', back', rfl, hfront, hback⟩ := exists_of_forall₂_append hsame
    obtain _ | ⟨hcomma', hrest⟩ := hback
    obtain ⟨test', htest', hfolded⟩ := IsTest.folded hfront htest
    obtain ⟨tests', htests', hall⟩ := IsTests.folded hrest htests
    rw [← hcomma'.place] at htest'
    refine ⟨_, .more htest' (hcomma'.token_eq hcomma rfl) htests', ?_⟩
    rw [Node.foldedAll_cons, Node.foldedAll_cons, hfolded, hall]

end

mutual

/-- Recased tokens are a command that folds to the same tree. -/
theorem IsCommand.folded {tokens others : List Span} {command : Node}
    (hsame : List.Forall₂ Span.SameButCase tokens others) : IsCommand tokens command →
    ∃ command', IsCommand others command' ∧ command'.folded = command.folded
  | .plain hspan harguments hstop => by
    obtain ⟨front', back', rfl, hfront, hback⟩ := exists_of_forall₂_append hsame
    obtain _ | ⟨hspan', hrest⟩ := hfront
    obtain _ | ⟨hstop', hnil⟩ := hback
    cases hnil
    obtain ⟨name', hother, hname⟩ := hspan'.exists_identifier hspan
    obtain ⟨node', hnode', hfolded⟩ := harguments.folded hrest
    rw [← hstop'.place] at hnode'
    refine ⟨_, .plain hother hnode' (hstop'.token_eq hstop rfl),
      hspan'.folded_named .command (by decide) hname ?_⟩
    rw [Node.foldedAll_cons, Node.foldedAll_cons, hfolded]
  | .block hspan harguments hbrace hcommands hclose => by
    obtain ⟨front', back', rfl, hfront, hback⟩ := exists_of_forall₂_append hsame
    obtain _ | ⟨hspan', hrest⟩ := hfront
    obtain _ | ⟨hbrace', hback⟩ := hback
    obtain ⟨inner', last', rfl, hinner, hlast⟩ := exists_of_forall₂_append hback
    obtain _ | ⟨hclose', hnil⟩ := hlast
    cases hnil
    obtain ⟨name', hother, hname⟩ := hspan'.exists_identifier hspan
    obtain ⟨node', hnode', hfolded⟩ := harguments.folded hrest
    obtain ⟨commands', hcommands', hall⟩ := IsCommands.folded hinner hcommands
    rw [← hbrace'.place] at hnode'
    refine ⟨_, .block hother hnode' (hbrace'.token_eq hbrace rfl) hcommands'
      (hclose'.token_eq hclose rfl), hspan'.folded_named .command (by decide) hname ?_⟩
    rw [Node.foldedAll_cons, Node.foldedAll_cons, Node.foldedAll_cons, Node.foldedAll_cons, hfolded,
      hbrace'.folded_node .block hall]

/-- Recased tokens are commands that fold to the same trees. -/
theorem IsCommands.folded {tokens others : List Span} {commands : List Node}
    (hsame : List.Forall₂ Span.SameButCase tokens others) : IsCommands tokens commands →
    ∃ commands', IsCommands others commands' ∧ Node.foldedAll commands' = Node.foldedAll commands
  | .nil => by
    cases hsame
    exact ⟨[], .nil, rfl⟩
  | .cons hcommand hcommands => by
    obtain ⟨front', back', rfl, hfront, hback⟩ := exists_of_forall₂_append hsame
    obtain ⟨command', hcommand', hfolded⟩ := IsCommand.folded hfront hcommand
    obtain ⟨commands', hcommands', hall⟩ := IsCommands.folded hback hcommands
    refine ⟨_, .cons hcommand' hcommands', ?_⟩
    rw [Node.foldedAll_cons, Node.foldedAll_cons, hfolded, hall]

end

/-- Tokens that are the same up to case have trees that are, or none. -/
theorem ofTokens_folded {tree : Node} (h : Node.ofTokens tokens = .ok tree)
    (hsame : List.Forall₂ Span.SameButCase tokens others) :
    ∃ tree', Node.ofTokens others = .ok tree' ∧ tree'.folded = tree.folded := by
  obtain ⟨⟨hcommands⟩, hlevels⟩ := ofTokens_iff.mp h
  obtain ⟨commands', hcommands', hall⟩ := hcommands.folded hsame
  refine ⟨⟨.start, none, 1, 1, commands'⟩, ofTokens_iff.mpr ⟨.intro hcommands', ?_⟩, ?_⟩
  · rw [nesting_start, ← Node.nestingAll_foldedAll, hall, Node.nestingAll_foldedAll,
      ← nesting_start]
    exact hlevels
  · rw [Node.folded, Node.folded, hall]

end Grammar

section Builder

variable {α β : Type}

/-- Two results that are one value, or faults that need not be the same: a fault repeats the text
that it is about. -/
def SameValue (result other : Except Fault α) : Prop :=
  ∀ value, result = .ok value ↔ other = .ok value

/-- Every result is the same value as itself, or the same fault. -/
theorem sameValue_refl (result : Except Fault α) : SameValue result result :=
  fun _ => Iff.rfl

/-- Two faults need not be the same. -/
theorem sameValue_error (fault other : Fault) :
    SameValue (.error fault : Except Fault α) (.error other) := by
  intro value
  constructor <;> rintro ⟨⟩

/-- Two steps come to the same value if the first steps do and the second do for each value. -/
theorem SameValue.bind {result other : Except Fault α} {next next' : α → Except Fault β}
    (h : SameValue result other) (hnext : ∀ value, SameValue (next value) (next' value)) :
    SameValue (result >>= next) (other >>= next') := by
  cases result with
  | ok value =>
    rw [(h value).mp rfl]
    exact hnext value
  | error fault =>
    cases other with
    | ok value => cases (h value).mpr rfl
    | error fault' => exact sameValue_error fault fault'

/-- A folded character is the same letter. -/
theorem sameLetter_lowerChar (c : Char) : SameLetter c (lowerChar c) :=
  Ascii.sameLetter_iff.mpr (Ascii.lowerChar_lowerChar c).symm

/-- A scale letter has the same factor in either case. -/
theorem scaleOf?_lowerChar (c : Char) : scaleOf? (lowerChar c) = scaleOf? c := by
  rcases eq_or_isLetter_of_sameLetter (sameLetter_lowerChar c) with hc | ⟨hc, -⟩
  · rw [hc]
  · exact of_isWordChar (fun c => scaleOf? (lowerChar c) = scaleOf? c) (by decide)
      (isWordChar_of_isLetter hc)

/-- Folding makes no digits and loses none. -/
theorem isDigit_lowerChar (c : Char) : isDigit (lowerChar c) = isDigit c :=
  class_eq_of_sameLetter (fun _ => isDigit_of_isLetter) (sameLetter_lowerChar c)

/-- Digits are folded to themselves. -/
theorem map_lowerChar_of_isDigit {digits : List Char} (h : ∀ c ∈ digits, isDigit c = true) :
    digits.map lowerChar = digits := by
  have hsame : List.Forall₂ SameLetter digits (digits.map lowerChar) :=
    List.forall₂_map_right_iff.mpr (List.forall₂_same.mpr fun c _ => sameLetter_lowerChar c)
  exact eq_of_forall_sameLetter hsame fun c hc => isLetter_of_isDigit (h c hc)

/-- The characters behind a plus sign that may stand in front. -/
def withoutSign (text : List Char) : List Char :=
  match text with
  | '+' :: rest => rest
  | _ => text

/-- The value of digits without a sign. -/
def unsigned? (digits : List Char) : Option Nat :=
  if digits ≠ [] ∧ digits.all isDigit ∧ ofDigits digits < numberBound then some (ofDigits digits)
  else none

/-- A decimal number is read behind the sign that may stand in front. -/
theorem decimal?_eq (text : List Char) : decimal? text = unsigned? (withoutSign text) := rfl

/-- What does not begin with a plus sign has none to lose. -/
theorem withoutSign_of_ne {c : Char} (hc : c ≠ '+') (cs : List Char) :
    withoutSign (c :: cs) = c :: cs := by
  rw [withoutSign]
  intro rest hrest
  exact hc (List.cons.inj hrest).1

/-- It does not matter whether a number is folded before its sign is dropped or after. -/
theorem withoutSign_lowerChar (text : List Char) :
    withoutSign (text.map lowerChar) = (withoutSign text).map lowerChar := by
  cases text with
  | nil => rfl
  | cons c cs =>
    by_cases hc : c = '+'
    · subst hc
      rfl
    · have hlower : lowerChar c ≠ '+' := fun hplus =>
        hc (eq_of_sameLetter rfl (Ascii.sameLetter_iff.mpr hplus.symm))
      rw [withoutSign_of_ne hc, List.map_cons, withoutSign_of_ne hlower]

/-- Letters are refused in either case. -/
theorem unsigned?_lowerChar (digits : List Char) :
    unsigned? (digits.map lowerChar) = unsigned? digits := by
  have hnone : ∀ {digits : List Char}, ¬digits.all isDigit = true → unsigned? digits = none :=
    fun hall => if_neg fun h => hall h.2.1
  by_cases hall : digits.all isDigit = true
  · rw [map_lowerChar_of_isDigit (List.all_eq_true.mp hall)]
  · have hall' : ¬(digits.map lowerChar).all isDigit = true := by
      simpa [Function.comp_def, isDigit_lowerChar] using hall
    rw [hnone hall, hnone hall']

/-- A folded decimal number has the same value. -/
theorem decimal?_lowerChar (text : List Char) : decimal? (text.map lowerChar) = decimal? text := by
  rw [decimal?_eq, decimal?_eq, withoutSign_lowerChar, unsigned?_lowerChar]

/-- A folded number has the folded digits and the same scale. -/
theorem splitScale_lowerChar (text : List Char) :
    splitScale (text.map lowerChar) = ((splitScale text).1.map lowerChar, (splitScale text).2) := by
  have hscale : (text.map lowerChar).getLast?.bind scaleOf? = text.getLast?.bind scaleOf? := by
    rw [List.getLast?_map]
    cases text.getLast? with
    | none => rfl
    | some c => exact scaleOf?_lowerChar c
  rw [splitScale, splitScale, hscale]
  cases text.getLast?.bind scaleOf? with
  | none => rfl
  | some scale => rw [List.map_dropLast]

/-- A scale letter counts the same in either case. -/
theorem parseNumber_lower (text : String) (line : Nat) :
    SameValue (parseNumber (Ascii.lower text) line) (parseNumber text line) := by
  rw [parseNumber, parseNumber, Ascii.toList_lower, splitScale_lowerChar]
  obtain ⟨digits, scale⟩ := splitScale text.toList
  dsimp only
  rw [decimal?_lowerChar]
  cases decimal? digits with
  | none => exact sameValue_error _ _
  | some value =>
    dsimp only
    split
    · exact sameValue_refl _
    · exact sameValue_error _ _

/-- A folded item is the same text. -/
theorem stringItem_folded (item : Node) : SameValue item.folded.stringItem item.stringItem := by
  obtain ⟨kind, token, line, column, children⟩ := item
  rw [Node.folded]
  cases kind with
  | string => exact sameValue_refl _
  | _ => exact sameValue_error _ _

/-- Folded items are the same texts. -/
theorem stringItems_folded (items : List Node) :
    SameValue ((Node.foldedAll items).mapM Node.stringItem) (items.mapM Node.stringItem) := by
  induction items with
  | nil => exact sameValue_refl _
  | cons item items ih =>
    rw [Node.foldedAll_cons, List.mapM_cons, List.mapM_cons]
    exact (stringItem_folded item).bind fun text => ih.bind fun texts => sameValue_refl _

/-- A folded value is the same argument. -/
theorem toArgument_folded (value : Node) : SameValue value.folded.toArgument value.toArgument := by
  obtain ⟨kind, token, line, column, children⟩ := value
  rw [Node.folded]
  cases kind with
  | string => exact sameValue_refl _
  | tag =>
    cases token with
    | none => exact sameValue_error _ _
    | some text =>
      change SameValue (.ok (Argument.tag (Ascii.lower (Ascii.lower text)))) _
      rw [Ascii.lower_lower]
      exact sameValue_refl _
  | number =>
    cases token with
    | none => exact sameValue_error _ _
    | some text =>
      have hread : ∀ (text : String) (children : List Node),
          (Node.mk .number (some text) line column children).toArgument =
            (do return .number (← parseNumber text line)) := fun _ _ => rfl
      change SameValue (Node.mk .number (some (Ascii.lower text)) line column _).toArgument _
      rw [hread, hread]
      exact (parseNumber_lower text line).bind fun value => sameValue_refl _
  | stringList => exact (stringItems_folded children).bind fun texts => sameValue_refl _
  | _ => exact sameValue_error _ _

mutual

/-- A folded test is the same test. -/
theorem toTest_folded : ∀ node : Node, SameValue node.folded.toTest node.toTest
  | ⟨kind, token, line, column, children⟩ => by
    rw [Node.folded]
    cases kind with
    | test =>
      cases token with
      | none => exact sameValue_error _ _
      | some name =>
        cases children with
        | nil =>
          change SameValue (.ok (Test.mk (Ascii.lower (Ascii.lower name)) [] none line)) _
          rw [Ascii.lower_lower]
          exact sameValue_refl _
        | cons child others =>
          change SameValue (child.folded.toArguments "arguments" >>= fun arguments =>
            .ok (Test.mk (Ascii.lower (Ascii.lower name)) arguments.positional arguments.tests
              line)) _
          rw [Ascii.lower_lower]
          exact (toArguments_folded "arguments" child).bind fun arguments => sameValue_refl _
    | _ => exact sameValue_error _ _

/-- Folded tests are the same tests. -/
theorem toTests_folded : ∀ nodes : List Node,
    SameValue (Node.toTests (Node.foldedAll nodes)) (Node.toTests nodes)
  | [] => sameValue_refl _
  | node :: nodes => by
    rw [Node.foldedAll_cons, Node.toTests, Node.toTests]
    exact (toTest_folded node).bind fun test => (toTests_folded nodes).bind fun tests =>
      sameValue_refl _

/-- Folded arguments are the same arguments. -/
theorem toArguments_folded (wanted : String) : ∀ node : Node,
    SameValue (node.folded.toArguments wanted) (node.toArguments wanted)
  | ⟨kind, token, line, column, children⟩ => by
    rw [Node.folded, Node.toArguments, Node.toArguments]
    by_cases hkind : kind = .arguments
    · rw [if_pos hkind, if_pos hkind]
      exact collectArguments_folded _ children
    · rw [if_neg hkind, if_neg hkind]
      exact sameValue_error _ _

/-- Folded arguments are collected to the same arguments. -/
theorem collectArguments_folded (found : Arguments) : ∀ nodes : List Node,
    SameValue (Node.collectArguments found (Node.foldedAll nodes))
      (Node.collectArguments found nodes)
  | [] => sameValue_refl _
  | node :: nodes => by
    have htest := toTest_folded node
    obtain ⟨kind, token, line, column, children⟩ := node
    rw [Node.folded] at htest
    rw [Node.foldedAll_cons, Node.folded]
    cases kind with
    | argument =>
      cases children with
      | nil => exact sameValue_error _ _
      | cons value values =>
        exact (toArgument_folded value).bind fun argument => collectArguments_folded _ nodes
    | test => exact htest.bind fun test => collectArguments_folded _ nodes
    | testList =>
      exact (toTests_folded children).bind fun tests => collectArguments_folded _ nodes
    | _ => exact sameValue_error _ _

end

mutual

/-- A folded command is the same command. -/
theorem toCommand_folded : ∀ node : Node, SameValue node.folded.toCommand node.toCommand
  | ⟨kind, token, line, column, children⟩ => by
    rw [Node.folded]
    cases kind with
    | command =>
      cases token with
      | none => exact sameValue_error _ _
      | some name =>
        change SameValue (Node.collectParts _ (Node.foldedAll children) >>= fun parts =>
          .ok (Command.mk (Ascii.lower (Ascii.lower name)) parts.arguments.positional
            parts.arguments.tests parts.block line)) _
        rw [Ascii.lower_lower]
        exact (collectParts_folded _ children).bind fun parts => sameValue_refl _
    | _ => exact sameValue_error _ _

/-- The folded parts of a command are the same parts. -/
theorem collectParts_folded (found : CommandParts) : ∀ nodes : List Node,
    SameValue (Node.collectParts found (Node.foldedAll nodes)) (Node.collectParts found nodes)
  | [] => sameValue_refl _
  | ⟨kind, token, line, column, children⟩ :: nodes => by
    rw [Node.foldedAll_cons, Node.folded]
    cases kind with
    | arguments =>
      have harguments := toArguments_folded "arguments" ⟨.arguments, token, line, column, children⟩
      rw [Node.folded] at harguments
      exact harguments.bind fun arguments => collectParts_folded _ nodes
    | block => exact (toCommands_folded children).bind fun block => collectParts_folded _ nodes
    | _ => exact sameValue_error _ _

/-- Folded commands are the same commands. -/
theorem toCommands_folded : ∀ nodes : List Node,
    SameValue (Node.toCommands (Node.foldedAll nodes)) (Node.toCommands nodes)
  | [] => sameValue_refl _
  | node :: nodes => by
    rw [Node.foldedAll_cons, Node.toCommands, Node.toCommands]
    exact (toCommand_folded node).bind fun command => (toCommands_folded nodes).bind fun commands =>
      sameValue_refl _

end

/-- The case of names, tags and scale letters does not count for the script that a tree stands
for. -/
theorem ofNode_folded (tree : Node) :
    SameValue (Script.ofNode tree.folded) (Script.ofNode tree) := by
  obtain ⟨kind, token, line, column, children⟩ := tree
  rw [Node.folded]
  cases kind with
  | start => exact toCommands_folded children
  | _ => exact sameValue_error _ _

end Builder

end MailFilter.Script
