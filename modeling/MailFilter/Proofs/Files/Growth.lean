import MailFilter.Proofs.Evaluation.Faults
import MailFilter.Proofs.Files.Place

/-!
# Disks that grow

To make a directory or to write a file where there is nothing takes nothing away: every path that
led somewhere leads there still, and every file has the content that it had. Directories are made
along a path one by one, so what the making of each of them keeps is kept by all of it.
-/

namespace MailFilter

namespace Path

variable {name : String}

/-- A path with a name behind it does not end with a slash. -/
theorem not_isOpen_join (h : IsChildName name) (directory : String) :
    ¬ IsOpen (join directory name) := by
  have hne : name.toList ≠ [] := mt String.toList_eq_nil_iff.mp h.ne_empty
  obtain ⟨front, hfront⟩ : ∃ front, (join directory name).toList = front ++ name.toList := by
    rw [join]
    split
    · exact ⟨_, String.toList_append⟩
    · exact ⟨_, String.toList_append⟩
  rintro (hempty | hslash)
  · rw [hempty] at hfront
    exact hne (List.append_eq_nil_iff.mp hfront.symm).2
  · rw [hfront, List.getLast?_append, List.getLast?_eq_some_getLast hne, Option.some_or,
      Option.some.injEq] at hslash
    exact h.slash_not_mem (hslash ▸ List.getLast_mem hne)

/-- Names that are joined to a path one by one are the last ones of it, and it is absolute if it was
before. -/
theorem names_foldl_join {inner : List String} (h : ∀ name ∈ inner, IsChildName name)
    (hne : inner ≠ []) (root : String) :
    names (inner.foldl join root) = stem root ++ inner ∧ ¬ IsOpen (inner.foldl join root) ∧
      isAbsolute (inner.foldl join root) = isAbsolute root := by
  induction inner generalizing root with
  | nil => contradiction
  | cons name inner ih =>
    obtain ⟨hname, hinner⟩ := List.forall_mem_cons.mp h
    have hnames := names_join hname.slash_not_mem root
    have hopen := not_isOpen_join hname root
    have habsolute := isAbsolute_join hname.slash_not_mem root
    rw [List.foldl_cons]
    by_cases hlast : inner = []
    · subst hlast
      exact ⟨hnames, hopen, habsolute⟩
    · obtain ⟨hall, hopen', habsolute'⟩ := ih hinner hlast (join root name)
      refine ⟨?_, hopen', habsolute'.trans habsolute⟩
      rw [hall, stem, if_neg hopen, hnames, List.append_assoc, List.singleton_append]

end Path

section Run

variable {ε α β σ : Type} {program : ExceptT ε (StateM σ) α} {state after : σ}

/-- What comes behind a program that succeeds goes on with the state that the program leaves. -/
theorem run_bind_of_ok {value : α} (h : program.run.run state = (.ok value, after))
    (next : α → ExceptT ε (StateM σ) β) :
    (program >>= next).run.run state = (next value).run.run after := by
  rw [ExceptT.run_bind, StateT.run_bind, h]
  rfl

/-- A program that fails keeps what is behind it from running. -/
theorem run_bind_of_error {fault : ε} (h : program.run.run state = (.error fault, after))
    (next : α → ExceptT ε (StateM σ) β) :
    (program >>= next).run.run state = (.error fault, after) := by
  rw [ExceptT.run_bind, StateT.run_bind, h]
  rfl

/-- A program can look at its state without a change. -/
theorem run_get (state : σ) :
    (get : ExceptT ε (StateM σ) σ).run.run state = (.ok state, state) :=
  rfl

end Run

namespace Disk

/-- Directories are made along the names of their path. -/
theorem run_createDirectories (disk : Disk) (path : String) :
    (files.createDirectories path).run.run disk =
      disk.createAlong (disk.start path) (Path.names path) :=
  rfl

/-- To list a directory changes nothing. -/
theorem run_list (disk : Disk) (path : String) :
    (files.list path).run.run disk = (disk.listDirectory path, disk) :=
  run_bind_of_ok (run_get disk) fun disk => liftM (disk.listDirectory path)

/-- A file is written if its path can be, and else nothing is changed. -/
theorem run_write (disk : Disk) (path : String) (content : Bytes) :
    (files.write path content).run.run disk =
      match disk.writeFile path content with
      | .error fault => (.error fault, disk)
      | .ok written => (.ok (), written) := by
  have hwrite : (files.write path content).run.run disk =
      (liftM (disk.writeFile path content) >>= set : ExceptT FileFault (StateM Disk) Unit).run.run
        disk :=
    run_bind_of_ok (run_get disk) fun disk => liftM (disk.writeFile path content) >>= set
  rw [hwrite]
  cases disk.writeFile path content <;> rfl

variable {disk disk' : Disk} {location : Location}

/-- There is nothing in a place that no entry is for. -/
theorem get?_eq_none_iff (h : location ≠ []) :
    disk.get? location = none ↔ ∀ entry ∈ disk.entries, entry.1 ≠ location := by
  simp [get?, h]

/-- The names in a directory are those behind which there is something. -/
theorem not_mem_children_iff {name : String} {directory : Location} :
    name ∉ disk.children directory ↔ disk.get? (name :: directory) = none := by
  rw [get?_eq_none_iff (List.cons_ne_nil _ _)]
  constructor
  · rintro h ⟨_, entry⟩ hmem rfl
    exact h (List.mem_filterMap.mpr ⟨_, hmem, if_pos rfl⟩)
  · intro h hname
    obtain ⟨⟨there, entry⟩, hmem, hname⟩ := List.mem_filterMap.mp hname
    cases there with
    | nil => cases hname
    | cons other parent =>
      dsimp only at hname
      split at hname
      · next hparent =>
        cases hname
        exact h _ hmem (congrArg (name :: ·) hparent)
      · cases hname

/-- What is put where nothing was is one more name in its directory. -/
theorem children_put {name : String} {parent : Location} (h : disk.get? (name :: parent) = none)
    (entry : Entry) (directory : Location) :
    (disk.put (name :: parent) entry).children directory =
      if parent = directory then name :: disk.children directory else disk.children directory := by
  have hall := (get?_eq_none_iff (List.cons_ne_nil _ _)).mp h
  have hfilter : disk.entries.filter (fun old => old.1 ≠ name :: parent) = disk.entries :=
    List.filter_eq_self.mpr fun old hold => decide_eq_true (hall old hold)
  rw [put, children, hfilter, List.filterMap_cons]
  dsimp only
  by_cases hparent : parent = directory
  · rw [if_pos hparent, if_pos hparent]
    rfl
  · rw [if_neg hparent, if_neg hparent]
    rfl

/-- Something new is in the directory that it was put in, and nowhere else. -/
theorem mem_children_put {name other : String} {parent directory : Location}
    (h : disk.get? (name :: parent) = none) (entry : Entry) :
    other ∈ (disk.put (name :: parent) entry).children directory ↔
      parent = directory ∧ other = name ∨ other ∈ disk.children directory := by
  rw [children_put h]
  by_cases hparent : parent = directory
  · rw [if_pos hparent, List.mem_cons, and_iff_right hparent]
  · rw [if_neg hparent, or_iff_right fun h => hparent h.1]

/-- A disk that has grown out of another one by some files, and perhaps by directories. -/
structure Grown (disk disk' : Disk) (files : List (Location × Bytes)) : Prop where
  working : disk'.working = disk.working
  kept : ∀ location entry, disk.get? location = some entry → disk'.get? location = some entry
  file_iff : ∀ location content, disk'.get? location = some (.file content) ↔
    disk.get? location = some (.file content) ∨ (location, content) ∈ files

namespace Grown

/-- A disk on which nothing happens has grown by nothing. -/
theorem refl (disk : Disk) : disk.Grown disk [] :=
  ⟨rfl, fun _ _ h => h, fun _ _ => by simp⟩

/-- A disk that grows twice has grown by the files of both times. -/
theorem trans {disk'' : Disk} {files files' : List (Location × Bytes)}
    (h : disk.Grown disk' files) (h' : disk'.Grown disk'' files') :
    disk.Grown disk'' (files ++ files') where
  working := h'.working.trans h.working
  kept location entry hentry := h'.kept location entry (h.kept location entry hentry)
  file_iff location content := by
    rw [h'.file_iff, h.file_iff, List.mem_append, or_assoc]

/-- Where there is nothing, there was nothing before. -/
theorem eq_none {files : List (Location × Bytes)} (h : disk.Grown disk' files)
    (hnone : disk'.get? location = none) : disk.get? location = none := by
  cases hentry : disk.get? location with
  | none => rfl
  | some entry =>
    rw [h.kept location entry hentry] at hnone
    cases hnone

/-- A new directory adds no file. -/
theorem put_directory (hne : location ≠ []) (h : disk.get? location = none) :
    disk.Grown (disk.put location .directory) [] where
  working := rfl
  kept other entry hentry := by
    rw [get?_put disk hne, if_neg]
    · exact hentry
    · rintro rfl
      rw [h] at hentry
      cases hentry
  file_iff other content := by
    rw [get?_put disk hne]
    by_cases hother : location = other
    · subst hother
      rw [if_pos rfl, h]
      simp
    · rw [if_neg hother]
      simp

/-- A new file is all that is added when it is put. -/
theorem put_file (hne : location ≠ []) (h : disk.get? location = none) (content : Bytes) :
    disk.Grown (disk.put location (.file content)) [(location, content)] where
  working := rfl
  kept other entry hentry := by
    rw [get?_put disk hne, if_neg]
    · exact hentry
    · rintro rfl
      rw [h] at hentry
      cases hentry
  file_iff other bytes := by
    rw [get?_put disk hne, List.mem_singleton, Prod.mk.injEq]
    by_cases hother : location = other
    · subst hother
      rw [if_pos rfl, h]
      simp [eq_comm]
    · rw [if_neg hother]
      simp [Ne.symm hother]

end Grown

/-- From a directory every name leads somewhere unless it is too long. -/
theorem enter_of_directory {here : Location} (h : disk.get? here = some .directory)
    (name : String) : disk.enter here name =
      if name = "" ∨ name = "." then .ok here
      else if name = ".." then .ok here.tail
      else if nameLimit < name.utf8ByteSize then .error .nameTooLong
      else .ok (name :: here) := by
  rw [enter, h]

/-- A name leads down from a directory unless it is too long. -/
theorem enter_of_isChildName {here : Location} (h : disk.get? here = some .directory)
    {name : String} (hname : Path.IsChildName name) : disk.enter here name =
      if nameLimit < name.utf8ByteSize then .error .nameTooLong else .ok (name :: here) := by
  rw [enter_of_directory h, if_neg (not_or_intro hname.ne_empty hname.ne_here),
    if_neg hname.ne_parent]

/-- Only a directory can be entered. -/
theorem directory_of_enter {here there : Location} {name : String}
    (h : disk.enter here name = .ok there) : disk.get? here = some .directory := by
  rw [enter] at h
  split at h
  · cases h
  · cases h
  · next hdirectory => exact hdirectory

/-- Where a name led to before, it leads to on a disk that has grown. -/
theorem Grown.enter {files : List (Location × Bytes)} (hgrown : disk.Grown disk' files)
    {here there : Location} {name : String} (h : disk.enter here name = .ok there) :
    disk'.enter here name = .ok there := by
  have hdirectory := directory_of_enter h
  rw [enter_of_directory (hgrown.kept _ _ hdirectory), ← enter_of_directory hdirectory]
  exact h

/-- Where names led to before, they lead to on a disk that has grown. -/
theorem Grown.foldlM_enter {files : List (Location × Bytes)} (hgrown : disk.Grown disk' files)
    {names : List String} {here there : Location} (h : names.foldlM disk.enter here = .ok there) :
    names.foldlM disk'.enter here = .ok there := by
  induction names generalizing here with
  | nil => exact h
  | cons name names ih =>
    rw [List.foldlM_cons] at h ⊢
    obtain ⟨next, hnext, h⟩ := exists_of_bind_eq_ok h
    rw [hgrown.enter hnext]
    exact ih h

/-- A path leads to a directory. Unlike in `locate`, the empty path leads nowhere else. -/
structure LeadsTo (disk : Disk) (path : String) (place : Location) : Prop where
  walk : (Path.names path).foldlM disk.enter (disk.start path) = .ok place
  directory : disk.get? place = some .directory

namespace LeadsTo

variable {path root : String} {place base : Location} {inner : List String}

/-- Where a path leads to is the place that it spells. -/
theorem eq_place (h : disk.LeadsTo path place) : place = Path.place disk.working path :=
  eq_foldl_step_of_foldlM_enter h.walk

/-- A path leads to the same place on a disk that has grown. -/
theorem grown (h : disk.LeadsTo path place) {files : List (Location × Bytes)}
    (hgrown : disk.Grown disk' files) : disk'.LeadsTo path place where
  walk := by
    rw [start, hgrown.working]
    exact hgrown.foldlM_enter h.walk
  directory := hgrown.kept _ _ h.directory

/-- The names of the path that stay when a name is joined to it lead to the same place. -/
theorem walk_stem (h : disk.LeadsTo path place) :
    (Path.stem path).foldlM disk.enter (disk.start path) = .ok place := by
  have hwalk := h.walk
  by_cases hopen : Path.IsOpen path
  · rw [Path.names_of_isOpen hopen, List.foldlM_append] at hwalk
    obtain ⟨there, hthere, hwalk⟩ := exists_of_bind_eq_ok hwalk
    rw [List.foldlM_cons] at hwalk
    obtain ⟨last, hlast, hwalk⟩ := exists_of_bind_eq_ok hwalk
    obtain rfl : last = place := Except.ok.inj hwalk
    rw [enter_of_directory (directory_of_enter hlast), if_pos (.inl rfl)] at hlast
    rw [hthere, hlast]
  · rw [Path.stem, if_neg hopen]
    exact hwalk

/-- From the end of a path, names that are joined to it lead on. -/
theorem foldl_join (h : disk.LeadsTo root base) (hinner : ∀ name ∈ inner, Path.IsChildName name)
    (hne : inner ≠ []) (hwalk : inner.foldlM disk.enter base = .ok place)
    (hdirectory : disk.get? place = some .directory) :
    disk.LeadsTo (inner.foldl Path.join root) place where
  walk := by
    obtain ⟨hnames, -, habsolute⟩ := Path.names_foldl_join hinner hne root
    rw [hnames, start, habsolute, ← start, List.foldlM_append, h.walk_stem]
    exact hwalk
  directory := hdirectory

/-- The name that leads nowhere can be joined to a path. -/
theorem here (h : disk.LeadsTo root base) : disk.LeadsTo (Path.join root ".") base where
  walk := by
    rw [Path.names_join (by decide), start, Path.isAbsolute_join (by decide), ← start,
      List.foldlM_append, h.walk_stem]
    show [("." : String)].foldlM disk.enter base = .ok base
    rw [List.foldlM_cons, enter_of_directory h.directory, if_pos (.inr rfl)]
    rfl
  directory := h.directory

/-- A name in a directory is found through the path of the directory. -/
theorem locate_join (h : disk.LeadsTo path place) {name : String} (hname : Path.IsChildName name) :
    disk.locate (Path.join path name) = disk.enter place name := by
  have hne : Path.join path name ≠ "" := fun hempty => Path.not_isOpen_join hname path (.inl hempty)
  rw [locate, if_neg hne, Path.names_join hname.slash_not_mem, start,
    Path.isAbsolute_join hname.slash_not_mem, ← start, List.foldlM_append, h.walk_stem]
  show [name].foldlM disk.enter place = _
  rw [List.foldlM_cons]
  cases disk.enter place name <;> rfl

/-- The names in a directory are listed by a path that leads to it. -/
theorem listDirectory (h : disk.LeadsTo path place) (hpath : path ≠ "") :
    disk.listDirectory path = .ok (disk.children place) := by
  have hlocate : disk.locate path = .ok place := by
    rw [locate, if_neg hpath, h.walk]
  simp only [Disk.listDirectory, hlocate, bind, Except.bind, h.directory]

/-- Where nothing is, a file can be written unless its name is too long. -/
theorem writeFile (h : disk.LeadsTo path place) {name : String} (hname : Path.IsChildName name)
    (hfree : disk.get? (name :: place) = none) (content : Bytes) :
    disk.writeFile (Path.join path name) content =
      if nameLimit < name.utf8ByteSize then .error .nameTooLong
      else .ok (disk.put (name :: place) (.file content)) := by
  rw [Disk.writeFile, h.locate_join hname, enter_of_isChildName h.directory hname]
  split
  · rfl
  · simp only [bind, Except.bind, hfree]

/-- A file in a directory is read by the path of the directory and its name. -/
theorem readFile (h : disk.LeadsTo path place) {name : String} (hname : Path.IsChildName name)
    (hshort : name.utf8ByteSize ≤ nameLimit) {content : Bytes}
    (hfile : disk.get? (name :: place) = some (.file content)) :
    disk.readFile (Path.join path name) = .ok content := by
  rw [Disk.readFile, h.locate_join hname, enter_of_isChildName h.directory hname,
    if_neg (Nat.not_lt.mpr hshort)]
  simp only [bind, Except.bind, hfile]

end LeadsTo

/-- Where there are directories already, none is made. -/
theorem createAlong_append {names : List String} {here there : Location}
    (hwalk : names.foldlM disk.enter here = .ok there) (hthere : disk.get? there = some .directory)
    (rest : List String) :
    disk.createAlong here (names ++ rest) = disk.createAlong there rest := by
  induction names generalizing here with
  | nil =>
    obtain rfl : here = there := Except.ok.inj hwalk
    rfl
  | cons name names ih =>
    rw [List.foldlM_cons] at hwalk
    obtain ⟨next, hnext, hwalk⟩ := exists_of_bind_eq_ok hwalk
    have hdirectory : disk.get? next = some .directory := by
      cases names with
      | nil =>
        obtain rfl : next = there := Except.ok.inj hwalk
        exact hthere
      | cons second names =>
        rw [List.foldlM_cons] at hwalk
        obtain ⟨_, hsecond, -⟩ := exists_of_bind_eq_ok hwalk
        exact directory_of_enter hsecond
    rw [List.cons_append, createAlong, hnext]
    dsimp only
    rw [hdirectory]
    exact ih hwalk

/-- The directories of a path that is joined from a root are made from where the root leads. -/
theorem LeadsTo.createAlong {root : String} {base : Location} {inner : List String}
    (h : disk.LeadsTo root base) (hinner : ∀ name ∈ inner, Path.IsChildName name)
    (hne : inner ≠ []) :
    let path := inner.foldl Path.join root
    disk.createAlong (disk.start path) (Path.names path) = disk.createAlong base inner := by
  intro path
  obtain ⟨hnames, -, habsolute⟩ := Path.names_foldl_join hinner hne root
  rw [hnames, start, habsolute, ← start]
  exact createAlong_append h.walk_stem h.directory inner

/-- Along one name, there is a directory to go on from, unless the name is too long or a file is in
the way. -/
theorem createAlong_cons {keeps : Disk → Prop} {name : String} {here : Location}
    (hname : Path.IsChildName name)
    (hclear : ∀ content, disk.get? (name :: here) ≠ some (.file content))
    (hput : disk.get? (name :: here) = none → keeps (disk.put (name :: here) .directory))
    (hkeeps : keeps disk) (hhere : disk.get? here = some .directory) (names : List String) :
    disk.createAlong here (name :: names) = (.error .nameTooLong, disk) ∨
      name.utf8ByteSize ≤ nameLimit ∧ ∃ opened : Disk, keeps opened ∧
        opened.get? here = some .directory ∧ opened.get? (name :: here) = some .directory ∧
        disk.createAlong here (name :: names) = opened.createAlong (name :: here) names := by
  have henter := enter_of_isChildName hhere hname
  by_cases hlong : nameLimit < name.utf8ByteSize
  · rw [if_pos hlong] at henter
    refine .inl ?_
    rw [createAlong, henter]
  · rw [if_neg hlong] at henter
    refine .inr ⟨Nat.not_lt.mp hlong, ?_⟩
    rw [createAlong, henter]
    dsimp only
    cases hthere : disk.get? (name :: here) with
    | none =>
      refine ⟨disk.put (name :: here) .directory, hput hthere, ?_, ?_, rfl⟩
      · rw [get?_put disk (List.cons_ne_nil _ _), if_neg (List.cons_ne_self _ _)]
        exact hhere
      · rw [get?_put disk (List.cons_ne_nil _ _), if_pos rfl]
    | some entry =>
      cases entry with
      | file content => exact absurd hthere (hclear content)
      | directory => exact ⟨disk, hkeeps, hhere, hthere, rfl⟩

/-- Directories are made along some names one after the other. What the making of each of them keeps
is kept, and where no file is in the way, only a name that is too long is a reason not to go on. -/
theorem createAlong_keeps (keeps : Disk → Prop) {names : List String} {here : Location}
    (hnames : ∀ name ∈ names, Path.IsChildName name)
    (hclear : ∀ disk, keeps disk → ∀ before name, before ++ [name] <+: names →
      ∀ content, disk.get? (name :: (before.reverse ++ here)) ≠ some (.file content))
    (hput : ∀ disk, keeps disk → ∀ before name, before ++ [name] <+: names →
      disk.get? (name :: (before.reverse ++ here)) = none →
        keeps (disk.put (name :: (before.reverse ++ here)) .directory))
    (hkeeps : keeps disk) (hhere : disk.get? here = some .directory) :
    let made := disk.createAlong here names
    keeps made.2 ∧
      (made.1 = .ok () ∧ names.foldlM made.2.enter here = .ok (names.reverse ++ here) ∧
          made.2.get? (names.reverse ++ here) = some .directory ∨
        made.1 = .error .nameTooLong) := by
  intro made
  induction names generalizing disk here keeps with
  | nil => exact ⟨hkeeps, .inl ⟨rfl, rfl, hhere⟩⟩
  | cons name names ih =>
    obtain ⟨hname, hnames⟩ := List.forall_mem_cons.mp hnames
    have hfirst : [] ++ [name] <+: name :: names := List.prefix_append [name] names
    have hreverse : ∀ before : List String,
        before.reverse ++ name :: here = (name :: before).reverse ++ here := by
      intro before
      rw [List.reverse_cons, List.append_assoc, List.singleton_append]
    have hclear' : ∀ content, disk.get? (name :: here) ≠ some (.file content) :=
      hclear disk hkeeps [] name hfirst
    have hput' : disk.get? (name :: here) = none → keeps (disk.put (name :: here) .directory) :=
      hput disk hkeeps [] name hfirst
    rcases createAlong_cons hname hclear' hput' hkeeps hhere names with
      hlong | ⟨hshort, opened, hopened, hhere, hthere, hnext⟩
    · have hmade : made = (.error .nameTooLong, disk) := hlong
      rw [hmade]
      exact ⟨hkeeps, .inr rfl⟩
    · have hmade : made = opened.createAlong (name :: here) names := hnext
      -- The directory that the names are in is kept as well, so that it can still be entered.
      have hrest := ih (fun disk => keeps disk ∧ disk.get? here = some .directory) hnames
        (fun disk h before inner hfront => ?_) (fun disk h before inner hfront hfree => ?_)
        ⟨hopened, hhere⟩ hthere
      · obtain ⟨⟨hkept, hdirectory⟩, hresult⟩ := hrest
        rw [hmade]
        refine ⟨hkept, hresult.imp_left ?_⟩
        rintro ⟨hok, hwalk, hlast⟩
        refine ⟨hok, ?_, hreverse names ▸ hlast⟩
        rw [List.foldlM_cons, enter_of_isChildName hdirectory hname,
          if_neg (Nat.not_lt.mpr hshort), ← hreverse]
        exact hwalk
      · rw [hreverse]
        exact hclear disk h.1 (name :: before) inner (List.cons_prefix_cons.mpr ⟨rfl, hfront⟩)
      · rw [hreverse] at hfree ⊢
        refine ⟨hput disk h.1 (name :: before) inner
          (List.cons_prefix_cons.mpr ⟨rfl, hfront⟩) hfree, ?_⟩
        rw [get?_put disk (List.cons_ne_nil _ _), if_neg]
        · exact h.2
        · intro heq
          have hlength := congrArg List.length heq
          simp only [List.length_cons, List.length_append] at hlength
          omega

end Disk

end MailFilter
