import Mathlib.Data.List.Infix

/-!
# Lines of mail

Carriage return and newline together end a line of mail; either of them alone does not. An empty
line ends the header lines, and what is behind it is the body. So a text that is written as header
lines, an empty line and a body is read as it was written just if no header line has a line end in
it: a line end in the middle of a header line makes two lines of it.
-/

namespace MailFilter.Text

/-- What ends a line of mail. -/
def lineEnd : List Char := ['\r', '\n']

/-- The lines of a text. -/
def lines : List Char → List (List Char)
  | [] => [[]]
  | '\r' :: '\n' :: rest => [] :: lines rest
  | c :: rest => (lines rest).modifyHead (c :: ·)

/-- A text with no line end in it. -/
def Unbroken (text : List Char) : Prop :=
  ¬ lineEnd <:+: text

/-- The lines before the first empty one, and the text behind that one if there is one. -/
def sections (text : List Char) : List (List Char) × Option (List Char) :=
  ((lines text).takeWhile (· ≠ []),
    ((lines text).dropWhile (· ≠ [])).tail?.map lineEnd.intercalate)

/-- A text of header lines, an empty line and a body. -/
def compose (header : List (List Char)) (body : List Char) : List Char :=
  header.flatMap (· ++ lineEnd) ++ lineEnd ++ body

/-- Every text has a line, if only an empty one. -/
theorem lines_ne_nil (text : List Char) : lines text ≠ [] := by
  fun_induction lines text with
  | case1 => exact List.cons_ne_nil _ _
  | case2 rest ih => exact List.cons_ne_nil _ _
  | case3 c rest hend ih => simpa using ih

/-- A character that does not begin a line end belongs to the line it stands in. -/
theorem lines_cons {c : Char} {rest : List Char} (h : ¬ lineEnd <+: c :: rest) :
    lines (c :: rest) = (lines rest).modifyHead (c :: ·) := by
  rw [lines]
  rintro tail rfl rfl
  exact h (List.prefix_append lineEnd tail)

/-- A text that does not begin with a carriage return and a line feed does not begin with the end of
a line. -/
theorem not_lineEnd_prefix {c : Char} {rest : List Char}
    (h : ∀ tail, c = '\r' → rest = '\n' :: tail → False) : ¬ lineEnd <+: c :: rest := by
  rintro ⟨tail, ⟨⟩⟩
  exact h tail rfl rfl

/-- A line end ends the last line before it and no other, even behind a carriage return. -/
theorem lines_append (front back : List Char) :
    lines (front ++ (lineEnd ++ back)) = lines front ++ lines back := by
  fun_induction lines front with
  | case1 => rfl
  | case2 rest ih => exact congrArg ([] :: ·) ih
  | case3 c rest hend ih =>
    have hnext : ¬ lineEnd <+: c :: (rest ++ (lineEnd ++ back)) := by
      cases rest with
      | nil => exact not_lineEnd_prefix nofun
      | cons d rest => exact not_lineEnd_prefix fun tail hc hd => hend rest hc (by cases hd; rfl)
    rw [List.cons_append, lines_cons hnext, ih]
    obtain ⟨line, others, hlines⟩ := List.exists_cons_of_ne_nil (lines_ne_nil rest)
    rw [hlines]
    rfl

/-- The lines of a text with line ends between them are the text. -/
theorem intercalate_lines (text : List Char) : lineEnd.intercalate (lines text) = text := by
  fun_induction lines text with
  | case1 => rfl
  | case2 rest ih =>
    rw [List.intercalate_cons_of_ne_nil (lines_ne_nil rest), ih]
    rfl
  | case3 c rest hend ih =>
    obtain ⟨line, others, hlines⟩ := List.exists_cons_of_ne_nil (lines_ne_nil rest)
    rw [hlines] at ih ⊢
    rw [List.modifyHead_cons]
    cases others with
    | nil => simpa using ih
    | cons next others => simpa [List.intercalate_cons_cons] using ih

/-- There is no end of a line in an empty text. -/
theorem unbroken_nil : Unbroken [] := by
  simp [Unbroken, lineEnd]

/-- A text has no end of a line in it if none stands in front and none behind the first character.
-/
theorem unbroken_cons_iff {c : Char} {rest : List Char} :
    Unbroken (c :: rest) ↔ ¬ lineEnd <+: c :: rest ∧ Unbroken rest := by
  rw [Unbroken, List.infix_cons_iff, not_or, Unbroken]

/-- A text without the end of a line is one line. -/
theorem lines_eq_singleton {text : List Char} (h : Unbroken text) : lines text = [text] := by
  induction text with
  | nil => rfl
  | cons c rest ih =>
    obtain ⟨hend, hrest⟩ := unbroken_cons_iff.mp h
    rw [lines_cons hend, ih hrest]
    rfl

/-- No line has the end of a line in it. -/
theorem unbroken_of_mem_lines {text line : List Char} (h : line ∈ lines text) : Unbroken line := by
  fun_induction lines text generalizing line with
  | case1 =>
    obtain rfl := List.mem_singleton.mp h
    exact unbroken_nil
  | case2 rest ih =>
    obtain rfl | h := List.mem_cons.mp h
    · exact unbroken_nil
    · exact ih h
  | case3 c rest hend ih =>
    have hrest := intercalate_lines rest
    obtain ⟨first, others, hlines⟩ := List.exists_cons_of_ne_nil (lines_ne_nil rest)
    rw [hlines] at h ih hrest
    obtain rfl | h := List.mem_cons.mp h
    · refine unbroken_cons_iff.mpr ⟨fun hbegin => ?_, ih List.mem_cons_self⟩
      have hfirst : first <+: rest := by
        rw [← hrest]
        cases others with
        | nil => simp
        | cons next others => simp [List.intercalate_cons_cons]
      exact not_lineEnd_prefix hend (hbegin.trans (List.cons_prefix_cons.mpr ⟨rfl, hfirst⟩))
    · exact ih (List.mem_cons_of_mem _ h)

/-- A line end that two texts make together has its carriage return in the first and its newline in
the second. -/
theorem lineEnd_infix_append_iff {front back : List Char} :
    lineEnd <:+: front ++ back ↔
      lineEnd <:+: front ∨ lineEnd <:+: back ∨ ['\r'] <:+ front ∧ ['\n'] <+: back := by
  rw [List.infix_append_iff]
  constructor
  · rintro (h | h | ⟨begin, rest, hend, hfront, hback⟩)
    · exact .inl h
    · exact .inr (.inl h)
    · rw [lineEnd] at hend
      obtain ⟨rfl, rfl⟩ | ⟨behind, rfl, hbehind⟩ := List.cons_eq_append_iff.mp hend
      · exact .inr (.inl hback.isInfix)
      obtain ⟨rfl, rfl⟩ | ⟨last, rfl, hlast⟩ := List.cons_eq_append_iff.mp hbehind
      · exact .inr (.inr ⟨hfront, hback⟩)
      · obtain ⟨rfl, rfl⟩ := List.nil_eq_append_iff.mp hlast
        exact .inl hfront.isInfix
  · rintro (h | h | ⟨hfront, hback⟩)
    · exact .inl h
    · exact .inr (.inl h)
    · exact .inr (.inr ⟨['\r'], ['\n'], rfl, hfront, hback⟩)

/-- Without a carriage return a text has no end of a line. -/
theorem unbroken_of_not_mem {text : List Char} (h : '\r' ∉ text) : Unbroken text := fun hend =>
  h (hend.subset List.mem_cons_self)

/-- A text without a carriage return can stand in front of another and breaks nothing. -/
theorem unbroken_append_right {label : List Char} (h : '\r' ∉ label) {text : List Char} :
    Unbroken (label ++ text) ↔ Unbroken text := by
  have hlabel : ¬ lineEnd <:+: label := unbroken_of_not_mem h
  have hseam : ¬ (['\r'] <:+ label ∧ ['\n'] <+: text) := fun hseam =>
    h (hseam.1.subset List.mem_cons_self)
  rw [Unbroken, lineEnd_infix_append_iff, or_iff_right hlabel, or_iff_left hseam, Unbroken]

/-- A text without a newline can stand behind another and breaks nothing. -/
theorem unbroken_append_left {tail : List Char} (h : '\n' ∉ tail) {text : List Char} :
    Unbroken (text ++ tail) ↔ Unbroken text := by
  have htail : ¬ lineEnd <:+: tail := fun hend =>
    h (hend.subset (List.mem_cons_of_mem _ List.mem_cons_self))
  have hseam : ¬ (['\r'] <:+ text ∧ ['\n'] <+: tail) := fun hseam =>
    h (hseam.2.subset List.mem_cons_self)
  rw [Unbroken, lineEnd_infix_append_iff, or_iff_right htail, or_iff_left hseam, Unbroken]

/-- A composed message has the lines of its header, an empty one, and those of its body. -/
theorem lines_compose (header : List (List Char)) (body : List Char) :
    lines (compose header body) = header.flatMap lines ++ [] :: lines body := by
  rw [compose]
  induction header with
  | nil => rfl
  | cons line header ih =>
    rw [List.flatMap_cons, List.flatMap_cons, List.append_assoc, List.append_assoc,
      List.append_assoc, lines_append, ← List.append_assoc, ih, List.append_assoc]

/-- A text of header lines, an empty line and a body is read as it was written just if no header
line has a line end in it. -/
theorem sections_compose_iff {header : List (List Char)} (hheader : [] ∉ header)
    (body : List Char) :
    sections (compose header body) = (header, some body) ↔ ∀ line ∈ header, Unbroken line := by
  constructor
  · intro h line hline
    have hmem : line ∈ (lines (compose header body)).takeWhile (· ≠ []) := by
      rw [show (lines (compose header body)).takeWhile (· ≠ []) = header from congrArg Prod.fst h]
      exact hline
    exact unbroken_of_mem_lines (List.takeWhile_subset _ hmem)
  · intro hunbroken
    have hlines : header.flatMap lines = header :=
      (List.flatMap_congr fun line hline => lines_eq_singleton (hunbroken line hline)).trans
        (List.flatMap_singleton' header)
    have hfull : ∀ line ∈ header, decide (line ≠ []) = true := fun line hline =>
      decide_eq_true fun hempty => hheader (hempty ▸ hline)
    rw [sections, lines_compose, hlines, List.takeWhile_append_of_pos hfull,
      List.dropWhile_append_of_pos hfull]
    simp [intercalate_lines]

end MailFilter.Text
