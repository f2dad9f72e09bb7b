import MailFilter.Files.Basic
import MailFilter.Files.Path

/-!
# A disk in memory

A disk binds places to directories and files. It answers the operations on files the way a file
system without links or permissions does that nothing else changes.
-/

namespace MailFilter

/-- A place on a disk: the names that lead to it from the root, the innermost first. -/
abbrev Location := List String

/-- What there is at a place. -/
inductive Entry where
  | directory
  | file (content : Bytes)
  deriving DecidableEq

/-- A disk, and the place that paths start from. -/
structure Disk where
  entries : List (Location × Entry)
  working : Location
  deriving DecidableEq

namespace Disk

/-- The number of bytes a name may have. -/
def nameLimit : Nat := 255

/-- What there is at a place. The root is always a directory. -/
def get? (disk : Disk) (location : Location) : Option Entry :=
  if location = [] then some .directory
  else (disk.entries.find? fun entry => entry.1 = location).map Prod.snd

/-- Puts a directory or a file at a place. -/
def put (disk : Disk) (location : Location) (entry : Entry) : Disk :=
  { disk with
    entries := (location, entry) :: disk.entries.filter fun old => old.1 ≠ location }

/-- What was just put at a place is there, and every other place but the root is as it was. -/
theorem get?_put (disk : Disk) {location : Location} (h : location ≠ []) (entry : Entry)
    (other : Location) :
    (disk.put location entry).get? other =
      if location = other then some entry else disk.get? other := by
  by_cases heq : location = other
  · subst heq
    simp [get?, put, h]
  · have hsame : ∀ old : Location × Entry,
        (!decide (old.1 = location) && decide (old.1 = other)) = decide (old.1 = other) := by
      intro old
      by_cases hother : old.1 = other <;> simp [hother, Ne.symm heq]
    simp [get?, put, List.find?_filter, heq, hsame]

/-- The names in a directory. -/
def children (disk : Disk) (directory : Location) : List String :=
  disk.entries.filterMap fun (location, _) =>
    match location with
    | name :: parent => if parent = directory then some name else none
    | [] => none

/-- The place that a name leads to from another place, which has to be a directory. -/
def enter (disk : Disk) (here : Location) (name : String) : Except FileFault Location :=
  match disk.get? here with
  | none => .error .notFound
  | some (.file _) => .error .notDirectory
  | some .directory =>
    if name = "" ∨ name = "." then .ok here
    else if name = ".." then .ok here.tail
    else if nameLimit < name.utf8ByteSize then .error .nameTooLong
    else .ok (name :: here)

/-- The place that a path starts from. -/
def start (disk : Disk) (path : String) : Location :=
  if Path.isAbsolute path then [] else disk.working

/-- The place that a path leads to. There need not be anything at its last name. -/
def locate (disk : Disk) (path : String) : Except FileFault Location :=
  if path = "" then .error .notFound
  else (Path.names path).foldlM disk.enter (disk.start path)

/-- The bytes of a file. -/
def readFile (disk : Disk) (path : String) : Except FileFault Bytes := do
  match disk.get? (← disk.locate path) with
  | none => .error .notFound
  | some .directory => .error .isDirectory
  | some (.file content) => .ok content

/-- The disk after some bytes have become the content of a file. -/
def writeFile (disk : Disk) (path : String) (content : Bytes) : Except FileFault Disk := do
  let location ← disk.locate path
  match disk.get? location with
  | some .directory => .error .isDirectory
  | _ => .ok (disk.put location (.file content))

/-- The names in the directory at a path. -/
def listDirectory (disk : Disk) (path : String) : Except FileFault (List String) := do
  let location ← disk.locate path
  match disk.get? location with
  | none => .error .notFound
  | some (.file _) => .error .notDirectory
  | some .directory => .ok (disk.children location)

/-- Makes directories along some names. Those made before a failure remain. -/
def createAlong (disk : Disk) (here : Location) : List String → Except FileFault Unit × Disk
  | [] => (.ok (), disk)
  | name :: names =>
    match disk.enter here name with
    | .error fault => (.error fault, disk)
    | .ok there =>
      match disk.get? there with
      | some .directory => disk.createAlong there names
      | some (.file _) =>
        (.error (if names.isEmpty then .alreadyExists else .notDirectory), disk)
      | none => (disk.put there .directory).createAlong there names

/-- The operations on a disk, as those of a file system. -/
def files : FileSystem (StateM Disk) where
  read path := do
    let disk ← get
    disk.readFile path
  write path content := do
    let disk ← get
    set (← disk.writeFile path content)
  createDirectories path := ExceptT.mk fun disk =>
    disk.createAlong (disk.start path) (Path.names path)
  list path := do
    let disk ← get
    disk.listDirectory path
  isFile path := do
    let disk ← get
    return (disk.readFile path).isOk

end Disk

end MailFilter
