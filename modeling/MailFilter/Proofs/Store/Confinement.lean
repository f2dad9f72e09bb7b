import MailFilter.Proofs.Evaluation.Faults
import MailFilter.Proofs.Files.Place
import MailFilter.Store.Folder

/-!
# Mailboxes are apart

A recipient's folder has a directory below the root: one level down for the recipient, and one more
for each level of the folder. So nothing is delivered to two recipients in one place, and nothing to
the outbox, as long as the names lead down. All but one of the names that do not are refused: `.` is
let through for a recipient, though no level of a folder can be that. It leads nowhere, so that the
folders of this recipient are other recipients' mailboxes, or the outbox.
-/

namespace MailFilter

/-- Trimming a text brings no characters into it. -/
theorem Text.mem_of_mem_trim {c : Char} {s : String} (h : c ∈ (trim s).toList) : c ∈ s.toList := by
  rw [trim, String.toList_ofList, dropTrailing, List.mem_reverse] at h
  exact (List.dropWhile_sublist _).subset
    (List.mem_reverse.mp ((List.dropWhile_sublist _).subset h))

namespace FolderStore

/-- The characters that no name may have are slash, backslash and the null character. -/
theorem any_isForbidden_eq_false_iff {chars : List Char} :
    chars.any isForbidden = false ↔ '/' ∉ chars ∧ '\\' ∉ chars ∧ '\x00' ∉ chars := by
  rw [List.any_eq_false]
  constructor
  · intro h
    exact ⟨fun hmem => h _ hmem rfl, fun hmem => h _ hmem rfl, fun hmem => h _ hmem rfl⟩
  · rintro ⟨hslash, hbackslash, hnul⟩ c hc hforbidden
    simp only [isForbidden, Bool.or_eq_true, beq_iff_eq] at hforbidden
    obtain (rfl | rfl) | rfl := hforbidden
    · exact hslash hc
    · exact hbackslash hc
    · exact hnul hc

/-- A name is taken if it leads down, but `.` is taken as well. -/
theorem component_eq_ok_iff {name out : String} :
    component name = .ok out ↔
      out = Text.trim name ∧ (out = "." ∨ Path.IsChildName out) := by
  rw [component]
  split
  · next hrefused =>
    refine iff_of_false nofun ?_
    rintro ⟨rfl, hhere | hchild⟩
    · rw [hhere] at hrefused
      exact absurd hrefused (by decide)
    · obtain hempty | hparent | hforbidden := hrefused
      · exact hchild.ne_empty hempty
      · exact hchild.ne_parent hparent
      · have hclean := any_isForbidden_eq_false_iff.mpr
          ⟨hchild.slash_not_mem, hchild.backslash_not_mem, hchild.nul_not_mem⟩
        rw [hclean] at hforbidden
        cases hforbidden
  · next htaken =>
    simp only [not_or, Bool.not_eq_true] at htaken
    obtain ⟨hempty, hparent, hclean⟩ := htaken
    obtain ⟨hslash, hbackslash, hnul⟩ := any_isForbidden_eq_false_iff.mp hclean
    constructor
    · rintro ⟨⟩
      refine ⟨rfl, Decidable.or_iff_not_imp_left.mpr fun hhere => ?_⟩
      exact ⟨hempty, hhere, hparent, hslash, hbackslash, hnul⟩
    · rintro ⟨rfl, -⟩
      rfl

/-- Names are taken if each leads down or is `.`, and come without the blanks at their ends. -/
theorem mapM_component_eq_ok_iff {names out : List String} :
    names.mapM component = .ok out ↔
      out = names.map Text.trim ∧ ∀ name ∈ out, name = "." ∨ Path.IsChildName name := by
  induction names generalizing out with
  | nil =>
    rw [List.mapM_nil]
    constructor
    · rintro ⟨⟩
      exact ⟨rfl, nofun⟩
    · rintro ⟨rfl, -⟩
      rfl
  | cons name names ih =>
    rw [List.mapM_cons]
    constructor
    · intro h
      obtain ⟨first, hfirst, h⟩ := exists_of_bind_eq_ok h
      obtain ⟨others, hothers, ⟨⟩⟩ := exists_of_bind_eq_ok h
      obtain ⟨rfl, hname⟩ := component_eq_ok_iff.mp hfirst
      obtain ⟨rfl, hnames⟩ := ih.mp hothers
      exact ⟨rfl, List.forall_mem_cons.mpr ⟨hname, hnames⟩⟩
    · rintro ⟨rfl, h⟩
      obtain ⟨hname, hnames⟩ := List.forall_mem_cons.mp h
      rw [component_eq_ok_iff.mpr ⟨rfl, hname⟩, ih.mpr ⟨rfl, hnames⟩]
      rfl

/-- No level of a folder can be `.`, for the dot would have parted it. -/
theorem trim_ne_here_of_mem_levels {folder level : String} (h : level ∈ levels folder) :
    Text.trim level ≠ "." := by
  intro hhere
  have hdot : '.' ∈ (Text.trim level).toList := by
    rw [hhere]
    exact List.mem_singleton_self _
  exact absurd (Text.eq_false_of_mem_split h _ (Text.mem_of_mem_trim hdot)) (by decide)

/-- The directory of a folder has one name for the recipient and one for each level of the folder.
All of them lead down, unless the recipient is `.`. -/
theorem folderPath_eq_ok_iff {root recipient folder path : String} :
    folderPath root recipient folder = .ok path ↔
      path = ((recipient :: levels folder).map Text.trim).foldl Path.join root ∧
        (Text.trim recipient = "." ∨ Path.IsChildName (Text.trim recipient)) ∧
        ∀ level ∈ (levels folder).map Text.trim, Path.IsChildName level := by
  have hlevels : ∀ level ∈ (levels folder).map Text.trim, level ≠ "." := by
    rintro _ hmem
    obtain ⟨level, hlevel, rfl⟩ := List.mem_map.mp hmem
    exact trim_ne_here_of_mem_levels hlevel
  constructor
  · intro h
    obtain ⟨names, hnames, ⟨⟩⟩ := exists_of_bind_eq_ok h
    obtain ⟨rfl, htaken⟩ := mapM_component_eq_ok_iff.mp hnames
    obtain ⟨hrecipient, htaken⟩ := List.forall_mem_cons.mp htaken
    exact ⟨rfl, hrecipient, fun level hlevel =>
      (htaken level hlevel).resolve_left (hlevels level hlevel)⟩
  · rintro ⟨rfl, hrecipient, htaken⟩
    have htaken : ∀ name ∈ (recipient :: levels folder).map Text.trim,
        name = "." ∨ Path.IsChildName name :=
      List.forall_mem_cons.mpr ⟨hrecipient, fun level hlevel => .inr (htaken level hlevel)⟩
    rw [folderPath, components, mapM_component_eq_ok_iff.mpr ⟨rfl, htaken⟩]
    rfl

variable {root recipient folder path : String}

/-- The outbox is one level below the root. -/
theorem place_outbox (working : Location) (root : String) :
    Path.place working (outbox root) = "outbox" :: Path.place working root :=
  Path.place_join working root (by decide)

/-- The levels of a folder lead down from where the recipient's name leads. -/
theorem place_folderPath (h : folderPath root recipient folder = .ok path) (working : Location) :
    Path.place working path =
      ((levels folder).map Text.trim).reverse ++
        Path.step (Path.place working root) (Text.trim recipient) := by
  obtain ⟨rfl, hrecipient, hlevels⟩ := folderPath_eq_ok_iff.mp h
  have hslash : '/' ∉ (Text.trim recipient).toList := by
    obtain hhere | hchild := hrecipient
    · rw [hhere]
      decide
    · exact hchild.slash_not_mem
  rw [Path.place_foldl_join working, List.map_cons, List.foldl_cons,
    Path.foldl_step_of_isChildName hlevels]
  exact List.forall_mem_cons.mpr ⟨hslash, fun level hlevel => (hlevels level hlevel).slash_not_mem⟩

/-- The folders of a recipient other than `.` are below a directory that has the recipient's name.
-/
theorem place_folderPath_of_ne_here (h : folderPath root recipient folder = .ok path)
    (hrecipient : Text.trim recipient ≠ ".") (working : Location) :
    Path.place working path =
      ((levels folder).map Text.trim).reverse ++
        Text.trim recipient :: Path.place working root := by
  have hchild := (folderPath_eq_ok_iff.mp h).2.1.resolve_left hrecipient
  rw [place_folderPath h, Path.step_of_isChildName hchild]

/-- A folder is the outbox only if it is the one that is called so of the recipient `.`. -/
theorem place_folderPath_eq_outbox_iff (h : folderPath root recipient folder = .ok path)
    (working : Location) :
    Path.place working path = Path.place working (outbox root) ↔
      Text.trim recipient = "." ∧ (levels folder).map Text.trim = ["outbox"] := by
  rw [place_outbox]
  by_cases hrecipient : Text.trim recipient = "."
  · have hstay : Path.step (Path.place working root) "." = Path.place working root := rfl
    rw [place_folderPath h, hrecipient, hstay, ← List.singleton_append, List.append_cancel_right_eq,
      List.reverse_eq_iff, List.reverse_singleton]
    exact (and_iff_right rfl).symm
  · -- A folder has a level besides the recipient's name, and so it is deeper than the outbox.
    refine iff_of_false (fun heq => ?_) fun h => hrecipient h.1
    rw [place_folderPath_of_ne_here h hrecipient] at heq
    have hlength := congrArg List.length heq
    have hlevels : 0 < (levels folder).length :=
      List.length_pos_iff.mpr (Text.split_ne_nil folder)
    simp only [List.length_append, List.length_reverse, List.length_map, List.length_cons]
      at hlength
    omega

/-- The directory of a recipient's folder is the root, and below it one name for the recipient and
one for each level of the folder. All of these lead down just if the recipient is not `.`. If so,
the folder is not the outbox, and it is neither in one place with a folder of another such recipient
nor within one. -/
theorem folderPath_confined (h : folderPath root recipient folder = .ok path) :
    let names := (recipient :: levels folder).map Text.trim
    path = names.foldl Path.join root ∧
      ((∀ name ∈ names, Path.IsChildName name) ↔ Text.trim recipient ≠ ".") ∧
      (∀ working, Path.place working path = Path.place working (outbox root) ↔
        Text.trim recipient = "." ∧ (levels folder).map Text.trim = ["outbox"]) ∧
      (Text.trim recipient ≠ "." →
        (∀ (disk : Disk) (location : Location), disk.locate path = .ok location →
          location = names.reverse ++ Path.place disk.working root) ∧
        ∀ working other folder' path', folderPath root other folder' = .ok path' →
          Text.trim other ≠ "." → Text.trim recipient ≠ Text.trim other →
          Location.Apart (Path.place working path) (Path.place working path')) := by
  obtain ⟨hpath, htaken, hlevels⟩ := folderPath_eq_ok_iff.mp h
  refine ⟨hpath, ⟨fun hnames => ?_, fun hrecipient => ?_⟩, place_folderPath_eq_outbox_iff h,
    fun hrecipient => ⟨fun disk location hlocate => ?_, ?_⟩⟩
  · exact (hnames _ List.mem_cons_self).ne_here
  · exact List.forall_mem_cons.mpr ⟨htaken.resolve_left hrecipient, hlevels⟩
  · rw [Disk.eq_place_of_locate hlocate, place_folderPath_of_ne_here h hrecipient, List.map_cons,
      List.reverse_cons, List.append_assoc, List.singleton_append]
  · intro working other folder' path' hother hne hdiffer
    rw [place_folderPath_of_ne_here h hrecipient, place_folderPath_of_ne_here hother hne]
    exact Location.apart_append_cons hdiffer _ _ _

/-- The folder `Lists.rust` of `bob` is apart from the inbox of `carol`. -/
theorem folderPath_confined_bob :
    folderPath "/mail" " bob " "Lists.rust" = .ok "/mail/bob/Lists/rust" ∧
      folderPath "/mail" "carol" "INBOX" = .ok "/mail/carol/INBOX" ∧
      Location.Apart (Path.place [] "/mail/bob/Lists/rust")
        (Path.place [] "/mail/carol/INBOX") := by
  have hbob : folderPath "/mail" " bob " "Lists.rust" = .ok "/mail/bob/Lists/rust" := by rfl
  have hcarol : folderPath "/mail" "carol" "INBOX" = .ok "/mail/carol/INBOX" := by rfl
  have hconfined := (folderPath_confined hbob).2.2.2 (by decide)
  exact ⟨hbob, hcarol, hconfined.2 [] "carol" "INBOX" _ hcarol (by decide) (by decide)⟩

/-- The folders of the recipient `.` are the outbox and another recipient's inbox. -/
theorem folderPath_unconfined_here :
    ¬ Path.IsChildName "." ∧
      folderPath "/mail" "." "outbox" = .ok "/mail/./outbox" ∧
      Path.place [] "/mail/./outbox" = Path.place [] (outbox "/mail") ∧
      folderPath "/mail" "." "bob.INBOX" = .ok "/mail/./bob/INBOX" ∧
      folderPath "/mail" "bob" "INBOX" = .ok "/mail/bob/INBOX" ∧
      Path.place [] "/mail/./bob/INBOX" = Path.place [] "/mail/bob/INBOX" := by
  refine ⟨fun h => h.ne_here rfl, ?_, by decide +kernel, ?_, ?_, by decide +kernel⟩ <;> rfl

end FolderStore

end MailFilter
