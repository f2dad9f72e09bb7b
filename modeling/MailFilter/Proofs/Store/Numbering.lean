import Mathlib.Logic.Function.Basic
import MailFilter.Proofs.Files.Growth
import MailFilter.Proofs.Store.Confinement

/-!
# Messages are numbered

The number of the next message is guessed from the number of messages that there are, and it is free
because of what every directory looks like: its messages have the numbers from one on, and no
envelope has a higher number. Directories within it do not count, for no dot is in their names. All
this is kept when a directory is made, when a message is saved and when its envelope is written.
-/

namespace MailFilter

namespace FolderStore

/-- A number is written with digits alone. -/
theorem isDigit_of_mem_toString {number : Nat} {c : Char} (h : c ∈ (toString number).toList) :
    c.isDigit = true := by
  rw [Nat.toString_eq_ofList_toDigits, String.toList_ofList] at h
  exact Nat.isDigit_of_mem_toDigits (by decide) (by decide) h

/-- A number with an ending behind it leads to something in a directory. -/
theorem isChildName_numbered (number : Nat) {ending : String} (hlength : 2 < ending.length)
    (hending : '/' ∉ ending.toList ∧ '\\' ∉ ending.toList ∧ '\x00' ∉ ending.toList) :
    Path.IsChildName (toString number ++ ending) := by
  have hshort : ∀ short : String, short.length ≤ 2 → toString number ++ ending ≠ short := by
    rintro _ hshort rfl
    rw [String.length_append] at hshort
    omega
  have hmem : ∀ c, c.isDigit = false → c ∉ ending.toList →
      c ∉ (toString number ++ ending).toList := by
    intro c hdigit hc hmem
    rw [String.toList_append, List.mem_append] at hmem
    rcases hmem with hmem | hmem
    · rw [isDigit_of_mem_toString hmem] at hdigit
      cases hdigit
    · exact hc hmem
  obtain ⟨hslash, hbackslash, hnul⟩ := hending
  exact ⟨hshort "" (by decide), hshort "." (by decide), hshort ".." (by decide),
    hmem '/' (by decide) hslash, hmem '\\' (by decide) hbackslash, hmem '\x00' (by decide) hnul⟩

/-- The file of a message is something in a directory. -/
theorem isChildName_messageFile (number : Nat) : Path.IsChildName (messageFile number) :=
  isChildName_numbered number (by decide) (by decide)

/-- The file of an envelope is something in a directory. -/
theorem isChildName_envelopeFile (number : Nat) : Path.IsChildName (envelopeFile number) :=
  isChildName_numbered number (by decide) (by decide)

/-- There is a dot in the name of a message. -/
theorem dot_mem_messageFile (number : Nat) : '.' ∈ (messageFile number).toList := by
  rw [messageFile, String.toList_append]
  exact List.mem_append_right _ (by decide)

/-- There is a dot in the name of an envelope. -/
theorem dot_mem_envelopeFile (number : Nat) : '.' ∈ (envelopeFile number).toList := by
  rw [envelopeFile, String.toList_append]
  exact List.mem_append_right _ (by decide)

/-- Different numbers have different names, whatever stands behind them. -/
theorem numbered_inj {number other : Nat} {ending : String} :
    toString number ++ ending = toString other ++ ending ↔ number = other := by
  rw [String.append_left_inj]
  refine ⟨fun h => ?_, congrArg toString⟩
  rw [Nat.toString_eq_ofList_toDigits, Nat.toString_eq_ofList_toDigits] at h
  have hvalues := congrArg (Nat.ofDigitChars 10 · 0) (String.ofList_injective h)
  simpa only [Nat.ofDigitChars_ten_toDigits] using hvalues

/-- Messages of different numbers have different names. -/
theorem messageFile_inj {number other : Nat} :
    messageFile number = messageFile other ↔ number = other :=
  numbered_inj

/-- Envelopes of different numbers have different names. -/
theorem envelopeFile_inj {number other : Nat} :
    envelopeFile number = envelopeFile other ↔ number = other :=
  numbered_inj

/-- The name of a message is counted as one. -/
theorem isMessageFile_messageFile (number : Nat) : isMessageFile (messageFile number) = true := by
  have hsuffix : messageEnding.toList <:+ (messageFile number).toList := by
    rw [messageFile, String.toList_append]
    exact List.suffix_append _ _
  have hne : messageFile number ≠ messageEnding := by
    intro heq
    have hlength := congrArg String.length heq
    have hpos : 0 < (toString number).length := by
      rw [Nat.toString_eq_ofList_toDigits, String.length_ofList]
      exact Nat.length_toDigits_pos
    rw [messageFile, String.length_append] at hlength
    omega
  rw [isMessageFile, List.isSuffixOf_iff_suffix.mpr hsuffix, bne_iff_ne.mpr hne]
  rfl

/-- The files of messages are known by their ending. -/
theorem messageEnding_suffix {name : String} (h : isMessageFile name = true) :
    messageEnding.toList <:+ name.toList := by
  rw [isMessageFile, Bool.and_eq_true] at h
  exact List.isSuffixOf_iff_suffix.mp h.1

/-- The name of an envelope is not counted as a message. -/
theorem isMessageFile_envelopeFile (number : Nat) :
    isMessageFile (envelopeFile number) = false := by
  rw [Bool.eq_false_iff]
  intro h
  obtain ⟨front, hfront⟩ := messageEnding_suffix h
  have hlast := congrArg List.getLast? hfront
  have hmessage : messageEnding.toList.getLast? = some 'l' := rfl
  have henvelope : ".json".toList.getLast? = some 'n' := rfl
  rw [envelopeFile, String.toList_append, List.getLast?_append, List.getLast?_append, hmessage,
    henvelope, Option.some_or, Option.some_or] at hlast
  exact absurd hlast (by decide)

/-- A name without a dot is not counted as a message. -/
theorem isMessageFile_eq_false {name : String} (h : '.' ∉ name.toList) :
    isMessageFile name = false := by
  rw [Bool.eq_false_iff]
  intro hmessage
  exact h ((messageEnding_suffix hmessage).subset (by decide))

/-- No message has the name of an envelope. -/
theorem messageFile_ne_envelopeFile (number other : Nat) :
    messageFile number ≠ envelopeFile other := by
  intro heq
  have hmessage := isMessageFile_messageFile number
  rw [heq, isMessageFile_envelopeFile] at hmessage
  cases hmessage

/-- Where there are as many messages as the highest number says, the next number is one more. -/
theorem nextNumber_eq {names : List String} {count : Nat}
    (hcount : names.countP isMessageFile = count) (hfree : messageFile (count + 1) ∉ names) :
    nextNumber names = count + 1 := by
  have hfirst : (!names.contains (messageFile (count + 1))) = true := by simpa using hfree
  rw [nextNumber, hcount, List.range'_succ, List.find?_cons, hfirst]
  rfl

end FolderStore

/-- A place is strictly within another one. -/
def Location.Inside (base place : Location) : Prop :=
  base <:+ place ∧ place ≠ base

/-- Everything in a directory that is at or below a place is inside it. -/
theorem Location.inside_cons {base parent : Location} (h : base <:+ parent) (name : String) :
    Inside base (name :: parent) := by
  refine ⟨h.trans (List.suffix_cons name parent), fun heq => ?_⟩
  have hlength := h.length_le
  rw [← heq, List.length_cons] at hlength
  omega

namespace FolderStore

/-- A disk on which each directory within `base` holds so many messages. They have the numbers from
one on, and no envelope has a higher number. There are no files beside the directories in `base`
itself, and elsewhere within it the names of files have a dot. -/
structure Numbered (disk : Disk) (base : Location) (count : Location → Nat) : Prop where
  counted : ∀ directory, base.Inside directory →
    (disk.children directory).countP isMessageFile = count directory
  message_le : ∀ directory, base.Inside directory →
    ∀ number, messageFile number ∈ disk.children directory → number ≤ count directory
  envelope_le : ∀ directory, base.Inside directory →
    ∀ number, envelopeFile number ∈ disk.children directory → number ≤ count directory
  of_file : ∀ name parent content, base <:+ parent →
    disk.get? (name :: parent) = some (.file content) → parent ≠ base ∧ '.' ∈ name.toList

namespace Numbered

variable {disk : Disk} {base parent : Location} {count : Location → Nat} {name : String}

/-- The number of the next message of a directory has been used neither for a message nor for an
envelope. -/
theorem next_free (h : Numbered disk base count) {directory : Location}
    (hinside : base.Inside directory) :
    disk.get? (messageFile (count directory + 1) :: directory) = none ∧
      disk.get? (envelopeFile (count directory + 1) :: directory) = none := by
  rw [← Disk.not_mem_children_iff, ← Disk.not_mem_children_iff]
  constructor
  · intro hmem
    have hle := h.message_le directory hinside _ hmem
    omega
  · intro hmem
    have hle := h.envelope_le directory hinside _ hmem
    omega

/-- The next number of a directory is one more than it has messages. -/
theorem nextNumber_eq (h : Numbered disk base count) {directory : Location}
    (hinside : base.Inside directory) :
    nextNumber (disk.children directory) = count directory + 1 :=
  FolderStore.nextNumber_eq (h.counted directory hinside)
    (Disk.not_mem_children_iff.mpr (h.next_free hinside).1)

/-- One more name in a directory is no trouble if it is counted as a message just if it is one, if
its number is not too high, and if it has a dot in it in case it is that of a file. -/
theorem put (h : Numbered disk base count) (hfree : disk.get? (name :: parent) = none)
    {entry : Entry} {count' : Location → Nat}
    (hcount : ∀ directory, base.Inside directory → count' directory =
      count directory + if parent = directory ∧ isMessageFile name = true then 1 else 0)
    (hmessage : base.Inside parent → ∀ number, messageFile number = name → number ≤ count' parent)
    (henvelope : base.Inside parent →
      ∀ number, envelopeFile number = name → number ≤ count' parent)
    (hfile : ∀ content, entry = .file content → parent ≠ base ∧ '.' ∈ name.toList) :
    Numbered (disk.put (name :: parent) entry) base count' where
  counted directory hinside := by
    rw [Disk.children_put hfree, hcount directory hinside, ← h.counted directory hinside]
    by_cases hparent : parent = directory
    · simp only [hparent, if_true, true_and, List.countP_cons]
    · simp only [hparent, if_false, false_and, Nat.add_zero]
  message_le directory hinside number hmem := by
    rcases (Disk.mem_children_put hfree entry).mp hmem with ⟨rfl, hname⟩ | hmem
    · exact hmessage hinside number hname
    · have hle := h.message_le directory hinside number hmem
      have hmore := hcount directory hinside
      omega
  envelope_le directory hinside number hmem := by
    rcases (Disk.mem_children_put hfree entry).mp hmem with ⟨rfl, hname⟩ | hmem
    · exact henvelope hinside number hname
    · have hle := h.envelope_le directory hinside number hmem
      have hmore := hcount directory hinside
      omega
  of_file other within content hwithin hget := by
    rw [Disk.get?_put disk (List.cons_ne_nil _ _)] at hget
    split at hget
    · next heq =>
      obtain ⟨rfl, rfl⟩ := List.cons.inj heq
      exact hfile content (Option.some.inj hget)
    · exact h.of_file other within content hwithin hget

/-- A directory is no message, and its name is none that an envelope has. -/
theorem put_directory (h : Numbered disk base count) (hfree : disk.get? (name :: parent) = none)
    (hname : parent ≠ base → '.' ∉ name.toList) :
    Numbered (disk.put (name :: parent) .directory) base count := by
  refine h.put hfree (fun directory hinside => ?_) (fun hinside number heq => ?_)
    (fun hinside number heq => ?_) nofun
  · rw [if_neg, Nat.add_zero]
    rintro ⟨rfl, hmessage⟩
    rw [isMessageFile_eq_false (hname hinside.2)] at hmessage
    cases hmessage
  · exact absurd (heq ▸ dot_mem_messageFile number) (hname hinside.2)
  · exact absurd (heq ▸ dot_mem_envelopeFile number) (hname hinside.2)

/-- The next message makes one more. -/
theorem put_message (h : Numbered disk base count) (hinside : base.Inside parent)
    (content : Bytes) :
    Numbered (disk.put (messageFile (count parent + 1) :: parent) (.file content)) base
      (Function.update count parent (count parent + 1)) := by
  refine h.put (h.next_free hinside).1 (fun directory _ => ?_) (fun _ number heq => ?_)
    (fun _ number heq => ?_) fun _ _ => ⟨hinside.2, dot_mem_messageFile _⟩
  · rw [isMessageFile_messageFile, Function.update_apply]
    by_cases hparent : parent = directory
    · rw [if_pos hparent.symm, if_pos ⟨hparent, rfl⟩, hparent]
    · rw [if_neg (Ne.symm hparent), if_neg fun heq => hparent heq.1, Nat.add_zero]
  · exact Nat.le_of_eq (by rw [Function.update_self, messageFile_inj.mp heq])
  · exact absurd heq.symm (messageFile_ne_envelopeFile _ number)

/-- The envelope of a message makes no more of them. -/
theorem put_envelope (h : Numbered disk base count) (hinside : base.Inside parent) {number : Nat}
    (hnumber : number ≤ count parent)
    (hfree : disk.get? (envelopeFile number :: parent) = none) (content : Bytes) :
    Numbered (disk.put (envelopeFile number :: parent) (.file content)) base count := by
  refine h.put hfree (fun directory _ => ?_) (fun _ other heq => ?_) (fun _ other heq => ?_)
    fun _ _ => ⟨hinside.2, dot_mem_envelopeFile _⟩
  · rw [isMessageFile_envelopeFile, if_neg (by simp), Nat.add_zero]
  · exact absurd heq (messageFile_ne_envelopeFile other number)
  · rw [envelopeFile_inj.mp heq]
    exact hnumber

end Numbered

/-- The names that lead from the root to a mailbox or to the outbox: all of them lead down, and no
dot is in any but the first. -/
structure IsMailbox (inner : List String) : Prop where
  ne_nil : inner ≠ []
  leads : ∀ name ∈ inner, Path.IsChildName name
  plain : ∀ name ∈ inner.tail, '.' ∉ name.toList

variable {disk : Disk} {root : String} {base : Location} {count : Location → Nat}
  {inner : List String}

/-- The directories on the way to a mailbox have no dot in their names, all but the first. -/
theorem IsMailbox.plain_of_prefix (h : IsMailbox inner) {before : List String} {name : String}
    (hfront : before ++ [name] <+: inner) (hne : before.reverse ++ base ≠ base) :
    '.' ∉ name.toList := by
  obtain ⟨rest, rfl⟩ := hfront
  cases before with
  | nil => exact absurd rfl hne
  | cons first before => exact h.plain name (by simp)

/-- A mailbox is inside the place that it starts from. -/
theorem IsMailbox.inside (h : IsMailbox inner) (base : Location) :
    base.Inside (inner.reverse ++ base) := by
  refine ⟨List.suffix_append _ _, fun heq => h.ne_nil ?_⟩
  simpa using heq

/-- To make the directories of a mailbox makes no messages. -/
theorem Numbered.createAlong (h : Numbered disk base count) (hinner : IsMailbox inner)
    (hbase : disk.get? base = some .directory) :
    let made := disk.createAlong base inner
    (Numbered made.2 base count ∧ disk.Grown made.2 []) ∧
      (made.1 = .ok () ∧ inner.foldlM made.2.enter base = .ok (inner.reverse ++ base) ∧
          made.2.get? (inner.reverse ++ base) = some .directory ∨
        made.1 = .error .nameTooLong) := by
  refine Disk.createAlong_keeps (fun made => Numbered made base count ∧ disk.Grown made [])
    hinner.leads (fun made hmade before name hfront content hfile => ?_)
    (fun made hmade before name hfront hfree => ?_) ⟨h, .refl disk⟩ hbase
  · obtain ⟨hne, hdot⟩ := hmade.1.of_file name _ content (List.suffix_append _ _) hfile
    exact hinner.plain_of_prefix hfront hne hdot
  · refine ⟨hmade.1.put_directory hfree (hinner.plain_of_prefix hfront), ?_⟩
    exact hmade.2.trans (.put_directory (List.cons_ne_nil _ _) hfree)

/-- What it means that some files were filed in a directory, as the next ones of it. -/
structure Filed (disk disk' : Disk) (directory : String) (base place : Location)
    (count : Location → Nat) (files : List (Location × Bytes)) : Prop where
  leadsTo : disk'.LeadsTo directory place
  grown : disk.Grown disk' files
  numbered : Numbered disk' base (Function.update count place (count place + 1))
  free : ∀ file ∈ files, disk.get? file.1 = none
  named : ∀ name content, (name :: place, content) ∈ files →
    Path.IsChildName name ∧ name.utf8ByteSize ≤ Disk.nameLimit

/-- What was filed is read from the directory. -/
theorem Filed.readFile {disk disk' : Disk} {directory : String} {base place : Location}
    {count : Location → Nat} {files : List (Location × Bytes)}
    (h : Filed disk disk' directory base place count files) {name : String} {content : Bytes}
    (hfile : (name :: place, content) ∈ files) :
    disk'.readFile (Path.join directory name) = .ok content := by
  obtain ⟨hname, hshort⟩ := h.named name content hfile
  exact h.leadsTo.readFile hname hshort ((h.grown.file_iff _ _).mpr (.inr hfile))

/-- A message is saved as the next one of its directory, unless a name is too long. Its number is
free for an envelope. -/
theorem save_filed (hnumbered : Numbered disk base count) (hroot : disk.LeadsTo root base)
    (hinner : IsMailbox inner) (message : Bytes) :
    let directory := inner.foldl Path.join root
    let place := inner.reverse ++ base
    let number := count place + 1
    let saved := (save Disk.files directory message).run.run disk
    saved.1 = .error .nameTooLong ∨
      saved.1 = .ok number ∧
        Filed disk saved.2 directory base place count [(messageFile number :: place, message)] ∧
        saved.2.get? (envelopeFile number :: place) = none := by
  intro directory place number saved
  have hinside : base.Inside place := hinner.inside base
  obtain ⟨⟨hmade, hgrown⟩, hresult⟩ := hnumbered.createAlong hinner hroot.directory
  have hcreate : (Disk.files.createDirectories directory).run.run disk =
      disk.createAlong base inner := by
    rw [Disk.run_createDirectories]
    exact hroot.createAlong hinner.leads hinner.ne_nil
  generalize disk.createAlong base inner = made at *
  obtain ⟨result, made⟩ := made
  rcases hresult with ⟨hok, hwalk, hdirectory⟩ | hlong
  · dsimp only at hmade hgrown hok hwalk hdirectory
    subst hok
    have hleads : made.LeadsTo directory place :=
      (hroot.grown hgrown).foldl_join hinner.leads hinner.ne_nil hwalk hdirectory
    have hpath : directory ≠ "" := fun hempty =>
      (Path.names_foldl_join hinner.leads hinner.ne_nil root).2.1 (.inl hempty)
    have hlist : (Disk.files.list directory).run.run made = (.ok (made.children place), made) := by
      rw [Disk.run_list, hleads.listDirectory hpath]
    obtain ⟨hfree, henvelope⟩ := hmade.next_free hinside
    have hsaved : saved = _ := run_bind_of_ok hcreate _
    rw [run_bind_of_ok hlist, hmade.nextNumber_eq hinside] at hsaved
    have hwrite := Disk.run_write made (Path.join directory (messageFile number)) message
    rw [hleads.writeFile (isChildName_messageFile number) hfree] at hwrite
    by_cases hlong : Disk.nameLimit < (messageFile number).utf8ByteSize
    · rw [if_pos hlong] at hwrite
      rw [run_bind_of_error hwrite] at hsaved
      rw [hsaved]
      exact .inl rfl
    · rw [if_neg hlong] at hwrite
      rw [run_bind_of_ok hwrite] at hsaved
      rw [hsaved]
      have hput := hgrown.trans (.put_file (List.cons_ne_nil _ _) hfree message)
      refine .inr ⟨rfl, ⟨hleads.grown (.put_file (List.cons_ne_nil _ _) hfree message), hput,
        hmade.put_message hinside message, ?_, fun name content hfile => ?_⟩, ?_⟩
      · rw [List.forall_mem_singleton]
        exact hgrown.eq_none hfree
      · obtain rfl := (List.cons.inj (Prod.mk.inj (List.mem_singleton.mp hfile)).1).1
        exact ⟨isChildName_messageFile number, Nat.not_lt.mp hlong⟩
      · have hother : ¬ messageFile number :: place = envelopeFile number :: place :=
          fun heq => messageFile_ne_envelopeFile number number (List.cons.inj heq).1
        refine (Disk.get?_put made (List.cons_ne_nil _ _) _ _).trans ?_
        rw [if_neg hother]
        exact henvelope
  · have hsaved : saved = _ := run_bind_of_error (hcreate.trans (Prod.ext hlong rfl)) _
    rw [hsaved]
    exact .inl rfl

/-- The outbox is a mailbox. -/
theorem isMailbox_outbox : IsMailbox ["outbox"] where
  ne_nil := List.cons_ne_nil _ _
  leads := by
    rw [List.forall_mem_singleton]
    exact ⟨by decide, by decide, by decide, by decide, by decide, by decide⟩
  plain := nofun

/-- A message is queued in the outbox with its envelope beside it. -/
theorem queue_filed (hnumbered : Numbered disk base count) (hroot : disk.LeadsTo root base)
    (envelope : Envelope) (message : Bytes) :
    let place := "outbox" :: base
    let number := count place + 1
    let queued := (queue Disk.files root envelope message).run.run disk
    queued.1 = .error .nameTooLong ∨
      queued.1 = .ok () ∧ Filed disk queued.2 (outbox root) base place count
        [(messageFile number :: place, message),
          (envelopeFile number :: place, Utf8.encode envelope.text)] := by
  intro place number queued
  have hinside : base.Inside place := isMailbox_outbox.inside base
  let saved := (save Disk.files (outbox root) message).run.run disk
  have hsave : saved.1 = .error .nameTooLong ∨ saved.1 = .ok number ∧
      Filed disk saved.2 (outbox root) base place count [(messageFile number :: place, message)] ∧
        saved.2.get? (envelopeFile number :: place) = none :=
    save_filed hnumbered hroot isMailbox_outbox message
  rcases hsave with hlong | ⟨hok, hfiled, hfree⟩
  · have hqueued : queued = _ := run_bind_of_error (Prod.ext hlong rfl) _
    rw [hqueued]
    exact .inl rfl
  · have hqueued : queued = _ := run_bind_of_ok (Prod.ext hok rfl) _
    have hwrite := Disk.run_write saved.2 (Path.join (outbox root) (envelopeFile number))
      (Utf8.encode envelope.text)
    rw [hfiled.leadsTo.writeFile (isChildName_envelopeFile number) hfree] at hwrite
    rw [hwrite] at hqueued
    by_cases hlong : Disk.nameLimit < (envelopeFile number).utf8ByteSize
    · rw [if_pos hlong] at hqueued
      rw [hqueued]
      exact .inl rfl
    · rw [if_neg hlong] at hqueued
      rw [hqueued]
      have hgrown := Disk.Grown.put_file (List.cons_ne_nil _ _) hfree (Utf8.encode envelope.text)
      have hlast : number ≤ Function.update count place number place :=
        Nat.le_of_eq (Function.update_self place number count).symm
      refine .inr ⟨rfl, hfiled.leadsTo.grown hgrown, hfiled.grown.trans hgrown,
        hfiled.numbered.put_envelope hinside hlast hfree _, ?_, fun name content hfile => ?_⟩
      · rw [List.forall_mem_cons, List.forall_mem_singleton]
        exact ⟨hfiled.free _ List.mem_cons_self, hfiled.grown.eq_none hfree⟩
      · rcases List.mem_cons.mp hfile with hmessage | henvelope
        · exact hfiled.named name content (List.mem_singleton.mpr hmessage)
        · obtain rfl := (List.cons.inj (Prod.mk.inj (List.mem_singleton.mp henvelope)).1).1
          exact ⟨isChildName_envelopeFile number, Nat.not_lt.mp hlong⟩

/-- The mailbox of a recipient is below the root, or below the same place with `.` behind it. -/
theorem exists_isMailbox {recipient folder path : String}
    (h : folderPath root recipient folder = .ok path) :
    ∃ start inner, (start = root ∨ start = Path.join root ".") ∧
      path = inner.foldl Path.join start ∧ IsMailbox inner := by
  obtain ⟨rfl, hrecipient, hlevels⟩ := folderPath_eq_ok_iff.mp h
  have hplain : ∀ level ∈ (levels folder).map Text.trim, '.' ∉ level.toList := by
    intro _ hmem hdot
    obtain ⟨level, hlevel, rfl⟩ := List.mem_map.mp hmem
    exact absurd (Text.eq_false_of_mem_split hlevel _ (Text.mem_of_mem_trim hdot)) (by decide)
  by_cases hhere : Text.trim recipient = "."
  · have hne : (levels folder).map Text.trim ≠ [] :=
      mt List.map_eq_nil_iff.mp (Text.split_ne_nil folder)
    refine ⟨_, (levels folder).map Text.trim, .inr rfl, ?_, hne, hlevels, fun level hlevel =>
      hplain level (List.mem_of_mem_tail hlevel)⟩
    rw [List.map_cons, List.foldl_cons, hhere]
  · exact ⟨_, (recipient :: levels folder).map Text.trim, .inl rfl, rfl, List.cons_ne_nil _ _,
      List.forall_mem_cons.mpr ⟨hrecipient.resolve_left hhere, hlevels⟩, hplain⟩

end FolderStore

end MailFilter
