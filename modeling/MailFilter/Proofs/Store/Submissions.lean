import MailFilter.Proofs.Json.RoundTrip
import MailFilter.Proofs.Store.Numbering

/-!
# Nothing that was stored is lost

A store that began with an empty root is called any number of times, and the file system does not
fail it. Each call that succeeds adds the message under the number that it has among those of its
directory, and an envelope beside it if the message is to be sent. What was written before stays,
since the numbers go up in every directory, whatever other directories lie within it. A call that is
refused for a name changes nothing.
-/

namespace MailFilter

open FolderStore (folderPath outbox messageFile envelopeFile)

namespace Consignment

/-- The names that lead from the root to the directory of a consignment: the recipient and the
levels of the folder, which slashes and dots part, without the blanks at their ends; or the
outbox. -/
def names : Consignment → List String
  | .delivery recipient folder _ =>
    (recipient :: Text.split (fun c => c == '/' || c == '.') folder).map Text.trim
  | .forward _ _ _ | .reply _ _ _ => ["outbox"]

/-- The directory that a consignment goes to. -/
def directory (root : String) (consignment : Consignment) : String :=
  consignment.names.foldl Path.join root

/-- A text spells, in JSON, an object that says of a message in the outbox of which kind it is, who
it is from and whom it is for. -/
def Labels (kind : String) (sender : Option String) (recipients : List String) (text : String) :
    Prop :=
  Json.parse? text = some (.object [("kind", .string kind), ("sender", sender.elim .null .string),
    ("recipients", .array (recipients.map .string))])

/-- The files that a consignment becomes as the one of a number in its directory. Each message has
one, and beside that of a message to be sent there is one that says where it goes. -/
inductive Becomes (number : Nat) (place : Location) :
    Consignment → List (Location × Bytes) → Prop
  | delivery (recipient folder : String) (message : Bytes) :
    Becomes number place (.delivery recipient folder message)
      [((toString number ++ ".eml") :: place, message)]
  | forward {sender : Option String} {recipients : List String} {text : String}
    (htext : Labels "send" sender recipients text) (message : Bytes) :
    Becomes number place (.forward sender recipients message)
      [((toString number ++ ".eml") :: place, message),
        ((toString number ++ ".json") :: place, Utf8.encode text)]
  | reply {sender : String} {recipients : List String} {text : String}
    (htext : Labels "reply" (some sender) recipients text) (notice : String) :
    Becomes number place (.reply sender recipients notice)
      [((toString number ++ ".eml") :: place, Utf8.encode notice),
        ((toString number ++ ".json") :: place, Utf8.encode text)]

/-- The path that is opened for a consignment, unless a name in it is refused. -/
def opened (root : String) : Consignment → Except Fault String
  | .delivery recipient folder _ => folderPath root recipient folder
  | .forward _ _ _ | .reply _ _ _ => .ok (outbox root)

/-- The message that a consignment brings. -/
def message : Consignment → Bytes
  | .delivery _ _ message | .forward _ _ message => message
  | .reply _ _ notice => Utf8.encode notice

/-- The envelope of a consignment that is to be sent. -/
def envelope? : Consignment → Option FolderStore.Envelope
  | .delivery _ _ _ => none
  | .forward sender recipients _ => some ⟨"send", sender, recipients⟩
  | .reply sender recipients _ => some ⟨"reply", some sender, recipients⟩

/-- The files that are written for a consignment. -/
def files (number : Nat) (place : Location) (consignment : Consignment) :
    List (Location × Bytes) :=
  (messageFile number :: place, consignment.message) ::
    consignment.envelope?.toList.map fun envelope =>
      (envelopeFile number :: place, Utf8.encode envelope.text)

/-- The path that is opened is the directory of the consignment. -/
theorem eq_directory_of_opened {root path : String} {consignment : Consignment}
    (h : consignment.opened root = .ok path) : path = consignment.directory root := by
  cases consignment with
  | delivery recipient folder message => exact (FolderStore.folderPath_eq_ok_iff.mp h).1
  | forward sender recipients message => exact (Except.ok.inj h).symm
  | reply sender recipients notice => exact (Except.ok.inj h).symm

/-- What is written of an envelope says what it should. -/
theorem labels_text (kind : String) (sender : Option String) (recipients : List String) :
    Labels kind sender recipients (FolderStore.Envelope.text ⟨kind, sender, recipients⟩) := by
  have hsender : Json.optional sender = sender.elim .null .string := by cases sender <;> rfl
  refine (Json.parse?_pretty ?_).trans (by rw [hsender]; rfl)
  refine .object (List.forall_mem_cons.mpr ⟨.string kind, List.forall_mem_cons.mpr ⟨?_,
    List.forall_mem_singleton.mpr (.array fun item hitem => ?_)⟩⟩)
  · cases sender with
    | none => exact .null
    | some sender => exact .string sender
  · obtain ⟨recipient, -, rfl⟩ := List.mem_map.mp hitem
    exact .string recipient

/-- The files that are written are those that the consignment should become. -/
theorem becomes_files (number : Nat) (place : Location) (consignment : Consignment) :
    consignment.Becomes number place (consignment.files number place) := by
  cases consignment with
  | delivery recipient folder message => exact .delivery recipient folder message
  | forward sender recipients message => exact .forward (labels_text _ _ _) message
  | reply sender recipients notice => exact .reply (labels_text _ _ _) notice

end Consignment

/-- A path leads to a directory with nothing in it. -/
structure Disk.IsEmptyDirectory (disk : Disk) (path : String) (place : Location) : Prop
    extends disk.LeadsTo path place where
  empty : ∀ location, place.Inside location → disk.get? location = none

namespace FolderStore

/-- The names of a mailbox are refused only for one that no directory can have. -/
theorem failsOnly_components (recipient folder : String) :
    FailsOnly (fun fault => ∃ name, fault = .mailboxName name) (components recipient folder) := by
  have hcomponent : ∀ name,
      FailsOnly (fun fault => ∃ name, fault = .mailboxName name) (component name) := by
    intro name
    rw [component]
    split
    · exact failsOnly_error ⟨_, rfl⟩
    · exact failsOnly_ok _
  rw [components]
  generalize recipient :: levels folder = names
  induction names with
  | nil => exact failsOnly_ok []
  | cons name names ih =>
    rw [List.mapM_cons]
    exact (hcomponent name).bind fun _ _ => ih.bind fun _ _ => failsOnly_ok _

/-- Only a name that no directory can have keeps the path of a consignment from being opened. -/
theorem failsOnly_opened (root : String) (consignment : Consignment) :
    FailsOnly (fun fault => ∃ name, fault = .mailboxName name) (consignment.opened root) := by
  cases consignment with
  | delivery recipient folder message =>
    exact (failsOnly_components recipient folder).bind fun _ _ => failsOnly_ok _
  | forward sender recipients message => exact failsOnly_ok _
  | reply sender recipients notice => exact failsOnly_ok _

variable {disk : Disk} {root : String} {base : Location} {count : Location → Nat}

/-- A delivery to a mailbox is the saving of its message. -/
theorem submit_delivery {recipient folder directory : String}
    (h : folderPath root recipient folder = .ok directory) (message : Bytes) (disk : Disk) :
    let saved := (save Disk.files directory message).run.run disk
    ((store Disk.files root).submit (.delivery recipient folder message)).run disk =
      ((saved.1.map fun _ => ()).mapError (.file none), saved.2) := by
  intro saved
  have hpath : (liftM (folderPath root recipient folder) :
      ExceptT Fault (StateM Disk) String).run.run disk = (.ok directory, disk) := by
    rw [h]
    rfl
  refine (run_bind_of_ok hpath _).trans ?_
  cases hsaved : saved.1 with
  | error fault =>
    have hadapt : ((save Disk.files directory message).adapt (Fault.file none)).run.run disk =
        (.error (.file none fault), saved.2) :=
      Prod.ext (congrArg (Except.mapError (Fault.file none)) hsaved) rfl
    exact run_bind_of_error hadapt _
  | ok number =>
    have hadapt : ((save Disk.files directory message).adapt (Fault.file none)).run.run disk =
        (.ok number, saved.2) :=
      Prod.ext (congrArg (Except.mapError (Fault.file none)) hsaved) rfl
    exact run_bind_of_ok hadapt _

/-- A consignment with an envelope is queued with it. -/
theorem submit_queued {consignment : Consignment} {envelope : Envelope}
    (h : consignment.envelope? = some envelope) (disk : Disk) :
    let queued := (queue Disk.files root envelope consignment.message).run.run disk
    ((store Disk.files root).submit consignment).run disk =
      (queued.1.mapError (.file none), queued.2) := by
  cases consignment with
  | delivery recipient folder message => cases h
  | forward sender recipients message =>
    cases h
    rfl
  | reply sender recipients notice =>
    cases h
    rfl

/-- A consignment with an envelope is filed in the outbox, unless a name is too long. -/
theorem submit_queued_filed (hnumbered : Numbered disk base count) (hroot : disk.LeadsTo root base)
    {consignment : Consignment} {envelope : Envelope}
    (h : consignment.envelope? = some envelope) :
    let place := "outbox" :: base
    let submitted := ((store Disk.files root).submit consignment).run disk
    submitted.1 = .error (.file none .nameTooLong) ∨
      submitted.1 = .ok () ∧ Filed disk submitted.2 (outbox root) base place count
        (consignment.files (count place + 1) place) := by
  intro place submitted
  have hsubmitted : submitted = _ := submit_queued h disk
  rw [hsubmitted, Consignment.files, h]
  rcases queue_filed hnumbered hroot envelope consignment.message with hlong | ⟨hok, hfiled⟩
  · rw [hlong]
    exact .inl rfl
  · rw [hok]
    exact .inr ⟨rfl, hfiled⟩

/-- A consignment whose path is opened is filed there, unless a name is too long. -/
theorem submit_filed (hnumbered : Numbered disk base count) (hroot : disk.LeadsTo root base)
    {consignment : Consignment} {directory : String}
    (hopened : consignment.opened root = .ok directory) :
    ∃ place, base.Inside place ∧
      let submitted := ((store Disk.files root).submit consignment).run disk
      submitted.1 = .error (.file none .nameTooLong) ∨
        submitted.1 = .ok () ∧ Filed disk submitted.2 directory base place count
          (consignment.files (count place + 1) place) := by
  cases consignment with
  | delivery recipient folder message =>
    obtain ⟨start, inner, hstart, rfl, hinner⟩ := exists_isMailbox hopened
    have hleads : disk.LeadsTo start base := by
      rcases hstart with rfl | rfl
      · exact hroot
      · exact hroot.here
    refine ⟨inner.reverse ++ base, hinner.inside base, ?_⟩
    rw [submit_delivery hopened]
    rcases save_filed hnumbered hleads hinner message with hlong | ⟨hok, hfiled, -⟩
    · rw [hlong]
      exact .inl rfl
    · rw [hok]
      exact .inr ⟨rfl, hfiled⟩
  | forward sender recipients message =>
    obtain rfl : outbox root = directory := Except.ok.inj hopened
    exact ⟨"outbox" :: base, isMailbox_outbox.inside base, submit_queued_filed hnumbered hroot rfl⟩
  | reply sender recipients notice =>
    obtain rfl : outbox root = directory := Except.ok.inj hopened
    exact ⟨"outbox" :: base, isMailbox_outbox.inside base, submit_queued_filed hnumbered hroot rfl⟩

/-- A consignment whose path is not opened is refused, and nothing is done. -/
theorem submit_refused {consignment : Consignment} {fault : Fault}
    (h : consignment.opened root = .error fault) (disk : Disk) :
    ((store Disk.files root).submit consignment).run disk = (.error fault, disk) := by
  cases consignment with
  | delivery recipient folder message =>
    have hpath : (liftM (folderPath root recipient folder) :
        ExceptT Fault (StateM Disk) String).run.run disk = (.error fault, disk) := by
      rw [show folderPath root recipient folder = .error fault from h]
      rfl
    exact run_bind_of_error hpath _
  | forward sender recipients message => cases h
  | reply sender recipients notice => cases h

/-- The results of some calls, one after the other. -/
def submitAll (root : String) (consignments : List Consignment) :
    StateM Disk (List (Except Fault Unit)) :=
  consignments.mapM (store Disk.files root).submit

/-- Whether a call, given with its result, has filed a message at a place. -/
def isFiledAt (root : String) (working place : Location)
    (call : Consignment × Except Fault Unit) : Bool :=
  call.2.isOk && decide (Path.place working (call.1.directory root) = place)

/-- How many of some calls have filed a message at a place. -/
def filedAt (root : String) (working place : Location)
    (calls : List (Consignment × Except Fault Unit)) : Nat :=
  calls.countP (isFiledAt root working place)

/-- The first call counts besides the others. -/
theorem filedAt_cons (root : String) (working place : Location)
    (call : Consignment × Except Fault Unit) (calls : List (Consignment × Except Fault Unit)) :
    filedAt root working place (call :: calls) =
      filedAt root working place [call] + filedAt root working place calls := by
  rw [← List.singleton_append, filedAt, List.countP_append]
  rfl

/-- A call that fails does not count. -/
theorem filedAt_error (root : String) (working place : Location) (consignment : Consignment)
    (fault : Fault) : filedAt root working place [(consignment, .error fault)] = 0 :=
  rfl

/-- A call that succeeds counts at the place of its directory. -/
theorem filedAt_ok (root : String) (working place : Location) (consignment : Consignment) :
    filedAt root working place [(consignment, .ok ())] =
      if Path.place working (consignment.directory root) = place then 1 else 0 := by
  rw [filedAt, List.countP_singleton, isFiledAt]
  simp only [Except.isOk, Except.toBool, Bool.true_and, decide_eq_true_eq]

/-- A message that was filed counts where it was filed, and one that was refused does not. -/
theorem submit_numbered (hnumbered : Numbered disk base count) (hroot : disk.LeadsTo root base)
    (consignment : Consignment) :
    let submitted := ((store Disk.files root).submit consignment).run disk
    (∀ path fault, submitted.1 ≠ .error (.file path fault)) →
      submitted.2.working = disk.working ∧ submitted.2.LeadsTo root base ∧
        Numbered submitted.2 base fun place =>
          count place + filedAt root disk.working place [(consignment, submitted.1)] := by
  intro submitted hnofault
  cases hopened : consignment.opened root with
  | error fault =>
    have hsubmitted : submitted = (.error fault, disk) := submit_refused hopened disk
    have hcount : (fun place => count place +
        filedAt root disk.working place [(consignment, submitted.1)]) = count := by
      funext place
      rw [hsubmitted, filedAt_error, Nat.add_zero]
    rw [hcount, hsubmitted]
    exact ⟨rfl, hroot, hnumbered⟩
  | ok directory =>
    obtain rfl := Consignment.eq_directory_of_opened hopened
    obtain ⟨place, hinside, hlong | ⟨hok, hfiled⟩⟩ := submit_filed hnumbered hroot hopened
    · exact absurd hlong (hnofault none .nameTooLong)
    · have hok : submitted.1 = .ok () := hok
      have hplace : place = Path.place disk.working (consignment.directory root) := by
        rw [hfiled.leadsTo.eq_place, hfiled.grown.working]
      have hcount : Function.update count place (count place + 1) = fun other =>
          count other + filedAt root disk.working other [(consignment, submitted.1)] := by
        funext other
        rw [hok, filedAt_ok, ← hplace, Function.update_apply]
        by_cases hother : other = place
        · rw [if_pos hother, if_pos hother.symm, hother]
        · rw [if_neg hother, if_neg (Ne.symm hother), Nat.add_zero]
      rw [← hcount]
      exact ⟨hfiled.grown.working, hroot.grown hfiled.grown, hfiled.numbered⟩

/-- The first call is made, and then the others on the disk that it leaves. -/
theorem submitAll_cons (root : String) (consignment : Consignment)
    (consignments : List Consignment) (disk : Disk) :
    let first := ((store Disk.files root).submit consignment).run disk
    let others := (submitAll root consignments).run first.2
    (submitAll root (consignment :: consignments)).run disk = (first.1 :: others.1, others.2) := by
  intro first others
  rw [submitAll, List.mapM_cons]
  rfl

/-- While the file system does not fail, every message that was filed counts. -/
theorem submitAll_numbered {consignments : List Consignment} (hnumbered : Numbered disk base count)
    (hroot : disk.LeadsTo root base) :
    let done := (submitAll root consignments).run disk
    (∀ path fault, .error (.file path fault) ∉ done.1) →
      done.2.working = disk.working ∧ done.2.LeadsTo root base ∧
        Numbered done.2 base fun place =>
          count place + filedAt root disk.working place (consignments.zip done.1) := by
  intro done hnofault
  induction consignments generalizing disk count with
  | nil => exact ⟨rfl, hroot, hnumbered⟩
  | cons consignment consignments ih =>
    let first := ((store Disk.files root).submit consignment).run disk
    let others := (submitAll root consignments).run first.2
    have hdone : done = (first.1 :: others.1, others.2) :=
      submitAll_cons root consignment consignments disk
    rw [hdone] at hnofault ⊢
    have hhead : ∀ path fault, first.1 ≠ .error (.file path fault) := fun path fault heq =>
      hnofault path fault (heq ▸ List.mem_cons_self)
    have htail : ∀ path fault, .error (.file path fault) ∉ others.1 := fun path fault hmem =>
      hnofault path fault (List.mem_cons_of_mem _ hmem)
    obtain ⟨hworking, hleads, hfirst⟩ := submit_numbered hnumbered hroot consignment hhead
    obtain ⟨hworking', hleads', hothers⟩ := ih hfirst hleads htail
    refine ⟨hworking'.trans hworking, hleads', ?_⟩
    have hcount : ∀ place, filedAt root disk.working place
        ((consignment :: consignments).zip (first.1 :: others.1)) =
          filedAt root disk.working place [(consignment, first.1)] +
            filedAt root disk.working place (consignments.zip others.1) := fun place =>
      filedAt_cons root disk.working place _ _
    rw [hworking] at hothers
    simpa only [hcount, ← Nat.add_assoc] using hothers

/-- In an empty directory there are no messages. -/
theorem numbered_of_isEmptyDirectory (h : disk.IsEmptyDirectory root base) :
    Numbered disk base fun _ => 0 := by
  have hchildren : ∀ directory, base.Inside directory → disk.children directory = [] := by
    intro directory hinside
    refine List.eq_nil_iff_forall_not_mem.mpr fun name => ?_
    rw [Disk.not_mem_children_iff]
    exact h.empty _ (Location.inside_cons hinside.1 name)
  refine ⟨fun directory hinside => ?_, fun directory hinside number hmem => ?_,
    fun directory hinside number hmem => ?_, fun name parent content hbase hfile => ?_⟩
  · rw [hchildren directory hinside]
    rfl
  · rw [hchildren directory hinside] at hmem
    cases hmem
  · rw [hchildren directory hinside] at hmem
    cases hmem
  · rw [h.empty _ (Location.inside_cons hbase name)] at hfile
    cases hfile

/-- A store begins with an empty root, and the file system has not failed it in any number of calls.
If the next call succeeds, there is one more message, under the number that it has among the
messages of its directory, and beside it what says where it goes if it is to be sent. Nothing was in
the place of either, both can be read there, and every other file is as it was. If the call is
refused for a name, nothing is done. -/
theorem submissions_numbered (hroot : disk.IsEmptyDirectory root base)
    (consignments : List Consignment) (consignment : Consignment) :
    let earlier := (submitAll root consignments).run disk
    (∀ path fault, .error (.file path fault) ∉ earlier.1) →
      let now := ((store Disk.files root).submit consignment).run earlier.2
      let directory := consignment.directory root
      let place := Path.place disk.working directory
      let number := filedAt root disk.working place (consignments.zip earlier.1) + 1
      (∀ fault, now.1 = .error fault →
        (∃ name, fault = .mailboxName name) ∧ now.2 = earlier.2 ∨
          fault = .file none .nameTooLong) ∧
      (now.1 = .ok () → ∃ files, consignment.Becomes number place files ∧
        (∀ file ∈ files, earlier.2.get? file.1 = none) ∧
        (∀ location content, now.2.get? location = some (.file content) ↔
          earlier.2.get? location = some (.file content) ∨ (location, content) ∈ files) ∧
        ∀ name content, (name :: place, content) ∈ files →
          now.2.readFile (Path.join directory name) = .ok content) := by
  intro earlier hnofault now directory place number
  obtain ⟨hworking, hleads, hnumbered⟩ := submitAll_numbered
    (numbered_of_isEmptyDirectory hroot) hroot.toLeadsTo hnofault
  cases hopened : consignment.opened root with
  | error fault =>
    have hnow : now = (.error fault, earlier.2) := submit_refused hopened earlier.2
    rw [hnow]
    constructor
    · rintro _ ⟨⟩
      exact .inl ⟨failsOnly_opened root consignment fault hopened, rfl⟩
    · intro hok
      cases hok
  | ok path =>
    obtain rfl := Consignment.eq_directory_of_opened hopened
    obtain ⟨filed, -, hlong | ⟨hok, hfiled⟩⟩ := submit_filed hnumbered hleads hopened
    · have hlong : now.1 = .error (.file none .nameTooLong) := hlong
      rw [hlong]
      constructor
      · rintro _ ⟨⟩
        exact .inr rfl
      · intro hok
        cases hok
    · have hok : now.1 = .ok () := hok
      obtain rfl : filed = place := by
        rw [hfiled.leadsTo.eq_place, hfiled.grown.working, hworking]
      rw [hok]
      simp only [Nat.zero_add] at hfiled
      exact ⟨nofun, fun _ => ⟨_, consignment.becomes_files number place, hfiled.free,
        hfiled.grown.file_iff, fun name content => hfiled.readFile⟩⟩

/-- A refused delivery leaves no gap, and the messages in the outbox have numbers of their own. A
second reply is read back there, and so is what says where it goes. -/
theorem submissions_numbered_second :
    let disk : Disk := ⟨[(["mail"], .directory)], []⟩
    let consignments : List Consignment := [.delivery "bob" "INBOX" [1],
      .delivery ".." "INBOX" [2], .forward none ["amy"] [3]]
    let earlier := (submitAll "/mail" consignments).run disk
    let delivered :=
      ((store Disk.files "/mail").submit (.delivery " bob " "INBOX" [4])).run earlier.2
    let replied :=
      ((store Disk.files "/mail").submit (.reply "bob" ["amy", "cleo"] "Hi")).run earlier.2
    (disk.IsEmptyDirectory "/mail" ["mail"] ∧
      earlier.1 = [.ok (), .error (.mailboxName ".."), .ok ()]) ∧
      (delivered.1 = .ok () ∧ delivered.2.readFile "/mail/bob/INBOX/2.eml" = .ok [4]) ∧
      (replied.1 = .ok () ∧ replied.2.readFile "/mail/outbox/2.eml" = .ok (Utf8.encode "Hi")) ∧
      ∃ text, replied.2.readFile "/mail/outbox/2.json" = .ok (Utf8.encode text) ∧
        Json.parse? text = some (.object [("kind", .string "reply"), ("sender", .string "bob"),
          ("recipients", .array [.string "amy", .string "cleo"])]) := by
  intro disk consignments earlier delivered replied
  have hroot : disk.IsEmptyDirectory "/mail" ["mail"] := by
    refine ⟨⟨by decide +kernel, by decide⟩, fun location hinside => ?_⟩
    obtain ⟨hsuffix, hne⟩ := hinside
    have hlocation : location ≠ [] := by
      rintro rfl
      exact absurd hsuffix (by decide)
    exact (Disk.get?_eq_none_iff hlocation).mpr (List.forall_mem_singleton.mpr hne.symm)
  have hearlier : earlier.1 = [.ok (), .error (.mailboxName ".."), .ok ()] := by decide +kernel
  have hdelivered : delivered.1 = .ok () := by decide +kernel
  have hreplied : replied.1 = .ok () := by decide +kernel
  have hnofault : ∀ path fault, .error (.file path fault) ∉ earlier.1 := by
    intro path fault hmem
    rw [hearlier] at hmem
    simp at hmem
  obtain ⟨-, hdelivery⟩ :=
    submissions_numbered hroot consignments (.delivery " bob " "INBOX" [4]) hnofault
  obtain ⟨-, hreply⟩ :=
    submissions_numbered hroot consignments (.reply "bob" ["amy", "cleo"] "Hi") hnofault
  have hmessage : toString (1 + 1) ++ ".eml" = "2.eml" := by decide +kernel
  have henvelope : toString (1 + 1) ++ ".json" = "2.json" := by decide +kernel
  refine ⟨⟨hroot, hearlier⟩, ⟨hdelivered, ?_⟩, ?_⟩
  · obtain ⟨files, hfiles, -, -, hread⟩ := hdelivery hdelivered
    have hpath : Path.join (Consignment.directory "/mail" (.delivery " bob " "INBOX" [4])) "2.eml" =
        "/mail/bob/INBOX/2.eml" := by decide +kernel
    have hnumber : filedAt "/mail" disk.working (Path.place disk.working
        (Consignment.directory "/mail" (.delivery " bob " "INBOX" [4])))
          (consignments.zip earlier.1) = 1 := by decide +kernel
    rw [hnumber] at hfiles
    cases hfiles
    rw [hmessage] at hread
    exact hpath ▸ hread _ _ (List.mem_singleton_self _)
  · obtain ⟨files, hfiles, -, -, hread⟩ := hreply hreplied
    have hdirectory : Consignment.directory "/mail" (.reply "bob" ["amy", "cleo"] "Hi") =
        "/mail/outbox" := by decide +kernel
    have hnumber : filedAt "/mail" disk.working (Path.place disk.working "/mail/outbox")
        (consignments.zip earlier.1) = 1 := by decide +kernel
    rw [hdirectory, hnumber] at hfiles
    rw [hdirectory] at hread
    cases hfiles with
    | @reply _ _ text htext =>
      rw [hmessage, henvelope] at hread
      have heml : Path.join "/mail/outbox" "2.eml" = "/mail/outbox/2.eml" := by decide +kernel
      have hjson : Path.join "/mail/outbox" "2.json" = "/mail/outbox/2.json" := by decide +kernel
      exact ⟨⟨hreplied, heml ▸ hread _ _ List.mem_cons_self⟩, text,
        hjson ▸ hread _ _ (List.mem_cons_of_mem _ (List.mem_singleton_self _)), htext⟩

end FolderStore

end MailFilter
