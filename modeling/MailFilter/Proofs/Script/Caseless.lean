import MailFilter.Proofs.Script.Folding
import MailFilter.Proofs.Script.Strings

/-!
# Scripts have case in their strings only

Two texts that differ in the case of letters where case does not count are both scripts or neither
is, and then they are the same script. Its strings are what the texts say in their strings, letter
for letter.
-/

namespace MailFilter.Script

variable {text other : String} {spans others : List Span}

/-- Tokens that are the same but for case have the same place, the same size and the same string. -/
theorem Span.SameButCase.written_eq {span other : Span} (h : span.SameButCase other) :
    (other.place, other.size, other.token.string?) =
      (span.place, span.size, span.token.string?) := by
  rw [h.place, h.size, h.string?_eq]

/-- Texts whose tokens are the same up to case have trees that are, or none. -/
theorem parse_folded (hspans : tokenize text = .ok spans) (hothers : tokenize other = .ok others)
    (hsame : List.Forall₂ Span.SameButCase spans others) {tree : Node}
    (h : Node.parse text = .ok tree) :
    ∃ tree', Node.parse other = .ok tree' ∧ tree'.folded = tree.folded := by
  obtain ⟨found, hfound, htree⟩ := Node.parse_eq_ok_iff.mp h
  obtain rfl : spans = found := Except.ok.inj (hspans.symm.trans hfound)
  obtain ⟨tree', htree', hfolded⟩ := ofTokens_folded htree hsame
  exact ⟨tree', Node.parse_eq_ok_iff.mpr ⟨others, hothers, htree'⟩, hfolded⟩

/-- Texts whose tokens are the same but for case are parsed to the same script. -/
theorem parse_of_sameButCase (hspans : tokenize text = .ok spans)
    (hothers : tokenize other = .ok others)
    (hsame : List.Forall₂ Span.SameButCase spans others) {script : Script}
    (h : MailFilter.Script.parse text = .ok script) :
    MailFilter.Script.parse other = .ok script := by
  obtain ⟨tree, htree, hscript⟩ := parse_eq_ok_iff.mp h
  obtain ⟨tree', htree', hfolded⟩ := parse_folded hspans hothers hsame htree
  refine parse_eq_ok_iff.mpr ⟨tree', htree', ?_⟩
  rw [← ofNode_folded tree' script, hfolded, ofNode_folded tree script]
  exact hscript

/-- It does not matter which of two lists of tokens is recased. -/
theorem forall₂_sameButCase_symm (h : List.Forall₂ Span.SameButCase spans others) :
    List.Forall₂ Span.SameButCase others spans :=
  h.flip.imp fun _ _ => Span.SameButCase.symm

/-- A text with other cases of letters in words, tags, scale letters and marks of multi-line strings
has tokens at the same places with the same strings. Both texts are parsed or neither is, and both
are built or neither is, and into one script. Its strings are those of the tokens, and a string
token has the contents that are written at its place. -/
theorem parse_caseless (hspans : tokenize text = .ok spans)
    (hrecased : RecasedIn spans text other) :
    (∃ others, tokenize other = .ok others ∧
      others.map (fun span => (span.place, span.size, span.token.string?)) =
        spans.map fun span => (span.place, span.size, span.token.string?)) ∧
    ((∃ tree, Node.parse text = .ok tree) ↔ ∃ tree, Node.parse other = .ok tree) ∧
    (∀ script, MailFilter.Script.parse text = .ok script ↔
      MailFilter.Script.parse other = .ok script) ∧
    (∀ script, MailFilter.Script.parse text = .ok script → script.strings = stringsOf spans) ∧
    ∀ span ∈ spans, ∀ contents, span.token.string? = some contents →
      ∃ front written rest, span.StandsIn .start text.toList front written rest ∧
        IsString rest written span.token := by
  have htokens := tokenize_eq_ok_iff.mp hspans
  obtain ⟨others, hothers, hsame⟩ := htokens.recased hrecased
  rw [← tokenize_eq_ok_iff] at hothers
  have hsame' := forall₂_sameButCase_symm hsame
  refine ⟨⟨others, hothers, ?_⟩, ⟨?_, ?_⟩, fun script => ⟨?_, ?_⟩, fun script h => ?_, ?_⟩
  · rw [← List.forall₂_eq_eq_eq, List.forall₂_map_left_iff, List.forall₂_map_right_iff]
    exact hsame'.imp fun _ _ h => h.symm.written_eq
  · rintro ⟨tree, htree⟩
    obtain ⟨tree', htree', -⟩ := parse_folded hspans hothers hsame htree
    exact ⟨tree', htree'⟩
  · rintro ⟨tree, htree⟩
    obtain ⟨tree', htree', -⟩ := parse_folded hothers hspans hsame' htree
    exact ⟨tree', htree'⟩
  · exact parse_of_sameButCase hspans hothers hsame
  · exact parse_of_sameButCase hothers hspans hsame'
  · exact strings_of_parse hspans h
  · intro span hspan contents hcontents
    obtain ⟨front, written, rest, hstands, hpiece⟩ := htokens.exists_standsIn span hspan
    exact ⟨front, written, rest, hstands, hpiece.isString hcontents⟩

/-- The tokens of a command with a word, a tag, a scale letter and a multi-line string. -/
def vacationSpans : List Span :=
  [⟨.identifier "Vacation", ⟨0, 1, 1⟩, 8⟩, ⟨.tag ":days", ⟨9, 1, 10⟩, 5⟩,
    ⟨.number "1k", ⟨15, 1, 16⟩, 2⟩, ⟨.multiline "No!\r\n", ⟨18, 1, 19⟩, 12⟩,
    ⟨.semicolon, ⟨30, 4, 1⟩, 1⟩]

/-- The tokens of a vacation with a tag, a scaled number and a multi-line string. -/
theorem tokenize_vacation :
    tokenize "Vacation :Days 1k text:\nNo!\n.\n;" = .ok vacationSpans := by
  decide +kernel

/-- A vacation in other letters, the opener of its text among them, is parsed to the same script
with the same text. -/
theorem parse_caseless_vacation :
    RecasedIn vacationSpans "Vacation :Days 1k text:\nNo!\n.\n;"
      "vACATION :dAYS 1K TEXT:\nNo!\n.\n;" ∧
    ∃ script, MailFilter.Script.parse "Vacation :Days 1k text:\nNo!\n.\n;" = .ok script ∧
      MailFilter.Script.parse "vACATION :dAYS 1K TEXT:\nNo!\n.\n;" = .ok script ∧
      script.strings = ["No!\r\n"] := by
  have hrecased : RecasedIn vacationSpans "Vacation :Days 1k text:\nNo!\n.\n;"
      "vACATION :dAYS 1K TEXT:\nNo!\n.\n;" := by
    decide
  have hscript : ∃ script,
      MailFilter.Script.parse "Vacation :Days 1k text:\nNo!\n.\n;" = .ok script := by
    have hok : (MailFilter.Script.parse "Vacation :Days 1k text:\nNo!\n.\n;").isOk = true := by
      decide +kernel
    cases hread : MailFilter.Script.parse "Vacation :Days 1k text:\nNo!\n.\n;" with
    | ok script => exact ⟨script, rfl⟩
    | error fault =>
      rw [hread] at hok
      cases hok
  obtain ⟨script, hscript⟩ := hscript
  obtain ⟨-, -, hsame, hstrings, -⟩ := parse_caseless tokenize_vacation hrecased
  exact ⟨hrecased, script, hscript, (hsame script).mp hscript, hstrings script hscript⟩

end MailFilter.Script
