import MailFilter.Files.Disk

/-!
# Where a path leads

Where a path leads is a matter of its names alone, as long as there are directories on its way: a
name leads down, `..` leads up, and `.` and an empty name lead nowhere. So a path that was joined
from several names can be followed name by name, whatever slashes were in it or not before.
-/

namespace MailFilter

namespace Text

/-- Cutting a list at some items is the cutting of the library. -/
theorem pieces_eq_splitOnP {α : Type} (p : α → Bool) (xs : List α) :
    pieces p xs = xs.splitOnP p := by
  induction xs with
  | nil => rfl
  | cons x xs ih =>
    rw [pieces, ih, List.splitOnP_cons_eq_if_modifyHead]
    obtain ⟨piece, others, hpieces⟩ := List.exists_cons_of_ne_nil (List.splitOnP_ne_nil p xs)
    rw [hpieces, List.modifyHead_cons]

/-- No separator is in a piece. -/
theorem eq_false_of_mem_pieces {α : Type} {p : α → Bool} {xs piece : List α}
    (h : piece ∈ pieces p xs) : ∀ x ∈ piece, p x = false := by
  fun_induction pieces p xs generalizing piece with
  | case1 =>
    obtain rfl := List.mem_singleton.mp h
    exact nofun
  | case2 x xs hsep ih =>
    obtain rfl | h := List.mem_cons.mp h
    · exact nofun
    · exact ih h
  | case3 x xs hsep hnone ih =>
    obtain rfl := List.mem_singleton.mp h
    simpa using hsep
  | case4 x xs hsep first others hpieces ih =>
    rw [hpieces] at ih
    obtain rfl | h := List.mem_cons.mp h
    · exact List.forall_mem_cons.mpr ⟨by simpa using hsep, ih List.mem_cons_self⟩
    · exact ih (List.mem_cons_of_mem _ h)

variable {p : Char → Bool}

/-- There is always a part, if only an empty one. -/
theorem split_ne_nil (text : String) : split p text ≠ [] := by
  rw [split, pieces_eq_splitOnP, ne_eq, List.map_eq_nil_iff]
  exact List.splitOnP_ne_nil p text.toList

/-- None of the characters that part a text is in a part. -/
theorem eq_false_of_mem_split {text part : String} (h : part ∈ split p text) :
    ∀ c ∈ part.toList, p c = false := by
  obtain ⟨piece, hpiece, rfl⟩ := List.mem_map.mp h
  rw [String.toList_ofList]
  exact eq_false_of_mem_pieces hpiece

/-- A text without such characters is one part. -/
theorem split_eq_singleton {text : String} (h : ∀ c ∈ text.toList, p c = false) :
    split p text = [text] := by
  rw [split, pieces_eq_splitOnP, List.splitOnP_eq_singleton h, List.map_singleton,
    String.ofList_toList]

/-- What a separator stands between is split apart from one another. -/
theorem split_append (sep : Char) (h : p sep = true) (front back : String) :
    split p (front ++ String.singleton sep ++ back) = split p front ++ split p back := by
  rw [split, split, split, ← List.map_append, pieces_eq_splitOnP, pieces_eq_splitOnP,
    pieces_eq_splitOnP, ← List.splitOnP_append_cons _ _ h]
  simp

end Text

/-- Neither of two places is the other one or within it. -/
def Location.Apart (here there : Location) : Prop :=
  ¬ here <:+ there ∧ ¬ there <:+ here

/-- What is behind one name of a directory is not within what is behind another. -/
theorem Location.not_suffix_append_cons {name other : String} (h : name ≠ other)
    (inner within base : Location) : ¬ inner ++ name :: base <:+ within ++ other :: base := by
  intro hsuffix
  have hname : name :: base <:+ within ++ other :: base :=
    (List.suffix_append inner _).trans hsuffix
  have hother : other :: base <:+ within ++ other :: base := List.suffix_append within _
  have heq := (List.suffix_of_suffix_length_le hname hother (Nat.le_refl _)).eq_of_length rfl
  exact h (List.cons.inj heq).1

/-- Whatever is below two names in one directory is apart. -/
theorem Location.apart_append_cons {name other : String} (h : name ≠ other)
    (inner within base : Location) : Apart (inner ++ name :: base) (within ++ other :: base) :=
  ⟨not_suffix_append_cons h inner within base, not_suffix_append_cons h.symm within inner base⟩

namespace Path

/-- The place that a name leads to from another place. -/
def step (here : Location) (name : String) : Location :=
  if name = "" ∨ name = "." then here
  else if name = ".." then here.tail
  else name :: here

/-- The place that a path leads to if there are directories on its way. -/
def place (working : Location) (path : String) : Location :=
  (names path).foldl step (if isAbsolute path then [] else working)

/-- A name that leads from every directory to something within it. -/
structure IsChildName (name : String) : Prop where
  ne_empty : name ≠ ""
  ne_here : name ≠ "."
  ne_parent : name ≠ ".."
  slash_not_mem : '/' ∉ name.toList
  backslash_not_mem : '\\' ∉ name.toList
  nul_not_mem : '\x00' ∉ name.toList

variable {name : String}

/-- A name that leads down leads one level down. -/
theorem step_of_isChildName (h : IsChildName name) (here : Location) :
    step here name = name :: here := by
  rw [step, if_neg (not_or_intro h.ne_empty h.ne_here), if_neg h.ne_parent]

/-- Names that lead down lead as many levels down. -/
theorem foldl_step_of_isChildName {names : List String} (h : ∀ name ∈ names, IsChildName name)
    (here : Location) : names.foldl step here = names.reverse ++ here := by
  induction names generalizing here with
  | nil => rfl
  | cons name names ih =>
    obtain ⟨hname, hnames⟩ := List.forall_mem_cons.mp h
    rw [List.foldl_cons, step_of_isChildName hname, ih hnames, List.reverse_cons, List.append_assoc,
      List.singleton_append]

/-- A text without a slash is one name. -/
theorem names_eq_singleton (h : '/' ∉ name.toList) : names name = [name] :=
  Text.split_eq_singleton fun _ hc => beq_false_of_ne fun heq => h (heq ▸ hc)

/-- The names of two paths with a slash between them follow each other. -/
theorem names_append (front back : String) :
    names (front ++ "/" ++ back) = names front ++ names back :=
  Text.split_append '/' rfl front back

/-- What is behind a path does not make it absolute. -/
theorem isAbsolute_append {front : String} (h : front ≠ "") (back : String) :
    isAbsolute (front ++ back) = isAbsolute front := by
  obtain ⟨c, rest, hfront⟩ := List.exists_cons_of_ne_nil (mt String.toList_eq_nil_iff.mp h)
  rw [isAbsolute, isAbsolute, String.toList_append, hfront, List.cons_append, List.head?_cons,
    List.head?_cons]

/-- A name without a slash is no absolute path. -/
theorem isAbsolute_eq_false (h : '/' ∉ name.toList) : isAbsolute name = false :=
  decide_eq_false fun hhead => h (List.mem_of_mem_head? hhead)

/-- Whether a name that is joined to a path needs no slash before it. -/
abbrev IsOpen (path : String) : Prop :=
  path = "" ∨ path.toList.getLast? = some '/'

/-- The names of a path that stay when another name is joined to it: all but an empty one behind a
slash at the end. -/
def stem (path : String) : List String :=
  if IsOpen path then (names path).dropLast else names path

/-- The slash at the end leaves an empty name behind it, and what is appended takes its place. -/
theorem names_append_of_isOpen {directory : String} (hopen : IsOpen directory)
    (h : '/' ∉ name.toList) : names (directory ++ name) = stem directory ++ [name] := by
  rw [stem, if_pos hopen]
  by_cases hempty : directory = ""
  · subst hempty
    rw [String.empty_append, names_eq_singleton h]
    rfl
  · obtain ⟨front, hfront⟩ := List.getLast?_eq_some_iff.mp (hopen.resolve_left hempty)
    have hdirectory : directory = String.ofList front ++ "/" := by
      apply String.toList_inj.mp
      simpa using hfront
    have hnames : names directory = names (String.ofList front) ++ [""] := by
      rw [← show names "" = [""] from rfl, ← names_append, String.append_empty, hdirectory]
    rw [hnames, List.dropLast_concat, hdirectory, names_append, names_eq_singleton h]

/-- A path that ends with a slash has an empty name behind its stem. -/
theorem names_of_isOpen {directory : String} (hopen : IsOpen directory) :
    names directory = stem directory ++ [""] := by
  rw [← names_append_of_isOpen hopen (show '/' ∉ "".toList by decide), String.append_empty]

/-- A joined path has the names of its stem and one more. -/
theorem names_join (h : '/' ∉ name.toList) (directory : String) :
    names (join directory name) = stem directory ++ [name] := by
  rw [join]
  split
  · next hopen => exact names_append_of_isOpen hopen h
  · next hopen => rw [names_append, names_eq_singleton h, stem, if_neg hopen]

/-- A joined path is absolute if its directory is. -/
theorem isAbsolute_join (h : '/' ∉ name.toList) (directory : String) :
    isAbsolute (join directory name) = isAbsolute directory := by
  by_cases hempty : directory = ""
  · subst hempty
    rw [join, if_pos (.inl rfl), String.empty_append, isAbsolute_eq_false h]
    rfl
  · rw [join]
    split
    · exact isAbsolute_append hempty name
    · rw [String.append_assoc]
      exact isAbsolute_append hempty _

/-- A name joined to a path leads on from where the path leads to. -/
theorem place_join (working : Location) (directory : String) (h : '/' ∉ name.toList) :
    place working (join directory name) = step (place working directory) name := by
  rw [place, place, names_join h, isAbsolute_join h, List.foldl_append]
  by_cases hopen : IsOpen directory
  · rw [names_of_isOpen hopen, List.foldl_append]
    rfl
  · rw [stem, if_neg hopen]
    rfl

/-- Names that are joined to a path lead on from where it leads. -/
theorem place_foldl_join (working : Location) {names : List String}
    (h : ∀ name ∈ names, '/' ∉ name.toList) (directory : String) :
    place working (names.foldl join directory) = names.foldl step (place working directory) := by
  induction names generalizing directory with
  | nil => rfl
  | cons name names ih =>
    obtain ⟨hname, hnames⟩ := List.forall_mem_cons.mp h
    rw [List.foldl_cons, List.foldl_cons, ih hnames, place_join working directory hname]

end Path

namespace Disk

variable {disk : Disk}

/-- Where a name leads to on a disk is the place that it spells. -/
theorem eq_step_of_enter {here there : Location} {name : String}
    (h : disk.enter here name = .ok there) : there = Path.step here name := by
  rw [enter] at h
  rw [Path.step]
  split at h
  · cases h
  · cases h
  · split at h
    · next hstay =>
      rw [if_pos hstay]
      exact (Except.ok.inj h).symm
    · next hstay =>
      rw [if_neg hstay]
      split at h
      · next hup =>
        rw [if_pos hup]
        exact (Except.ok.inj h).symm
      · next hup =>
        rw [if_neg hup]
        split at h
        · cases h
        · exact (Except.ok.inj h).symm

/-- Where names lead to on a disk is the place that they spell. -/
theorem eq_foldl_step_of_foldlM_enter {names : List String} {here there : Location}
    (h : names.foldlM disk.enter here = .ok there) : there = names.foldl Path.step here := by
  induction names generalizing here with
  | nil => exact (Except.ok.inj h).symm
  | cons name names ih =>
    rw [List.foldlM_cons] at h
    cases hnext : disk.enter here name with
    | error fault =>
      rw [hnext] at h
      cases h
    | ok next =>
      rw [hnext] at h
      rw [List.foldl_cons, ← eq_step_of_enter hnext]
      exact ih h

/-- A path that leads somewhere on a disk leads to its place. -/
theorem eq_place_of_locate {path : String} {location : Location}
    (h : disk.locate path = .ok location) : location = Path.place disk.working path := by
  rw [locate] at h
  split at h
  · cases h
  · exact eq_foldl_step_of_foldlM_enter h

end Disk

end MailFilter
