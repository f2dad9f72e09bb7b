import MailFilter.Files.Basic
import MailFilter.Files.Path
import MailFilter.Json.Printer
import MailFilter.Store.Basic
import MailFilter.Text.Blank

/-!
# A store in directories

This store keeps one file for each message. What is delivered goes to a directory for the recipient
and the folder; what is to be sent goes to an outbox, with its envelope in a second file. The files
of a directory are numbered, and no number is used twice.
-/

namespace MailFilter.FolderStore

/-- The directory of messages to be sent. -/
def outbox (root : String) : String :=
  Path.join root "outbox"

/-- A character that could lead out of a directory, or that no file name may have. -/
def isForbidden (c : Char) : Bool :=
  c == '/' || c == '\\' || c == '\x00'

/-- The directory name for a mailbox or a folder level, without the blanks at its ends. -/
def component (name : String) : Except Fault String :=
  let name := Text.trim name
  if name = "" ∨ name = ".." ∨ name.toList.any isForbidden then .error (.mailboxName name)
  else .ok name

/-- The levels of a folder name: both a slash and a dot lead one level down. -/
def levels (folder : String) : List String :=
  Text.split (fun c => c == '/' || c == '.') folder

/-- The directory names that lead from the root to a recipient's folder. -/
def components (recipient folder : String) : Except Fault (List String) :=
  (recipient :: levels folder).mapM component

/-- The path of a recipient's folder. -/
def folderPath (root recipient folder : String) : Except Fault String := do
  let names ← components recipient folder
  return names.foldl Path.join root

/-- The ending of the files that hold messages. -/
def messageEnding : String := ".eml"

/-- The file that holds the message of a number. -/
def messageFile (number : Nat) : String :=
  toString number ++ messageEnding

/-- The file that holds the envelope of the message of a number. -/
def envelopeFile (number : Nat) : String :=
  toString number ++ ".json"

/-- Whether a file name is that of a message: the ending has something before it. -/
def isMessageFile (name : String) : Bool :=
  messageEnding.toList.isSuffixOf name.toList && name != messageEnding

/-- The number for the next message of a directory with the given names in it. It is one more than
there are messages, or the first free number after that. Of as many numbers as there are names, and
one more, at least one is free. -/
def nextNumber (names : List String) : Nat :=
  let first := names.countP isMessageFile + 1
  ((List.range' first (names.length + 1)).find? fun number =>
    !names.contains (messageFile number)).getD first

/-- Who a message in the outbox is from and whom it is for, and what sort of message it is. -/
structure Envelope where
  kind : String
  sender : Option String
  recipients : List String
  deriving DecidableEq

/-- The content of the file of an envelope. -/
def Envelope.text (envelope : Envelope) : String :=
  (Json.object [("kind", .string envelope.kind), ("sender", .optional envelope.sender),
    ("recipients", .strings envelope.recipients)]).pretty

variable {m : Type → Type} [Monad m]

/-- Adds a message to a directory and returns its number. -/
def save (files : FileSystem m) (directory : String) (message : Bytes) :
    ExceptT FileFault m Nat := do
  files.createDirectories directory
  let number := nextNumber (← files.list directory)
  files.write (Path.join directory (messageFile number)) message
  return number

/-- Adds a message to the outbox, and its envelope beside it. -/
def queue (files : FileSystem m) (root : String) (envelope : Envelope) (message : Bytes) :
    ExceptT FileFault m Unit := do
  let number ← save files (outbox root) message
  files.write (Path.join (outbox root) (envelopeFile number)) (Utf8.encode envelope.text)

/-- Takes a consignment. A name that no directory can have is found out before anything is done. -/
def submit (files : FileSystem m) (root : String) : Consignment → ExceptT Fault m Unit
  | .delivery recipient folder message => do
    let directory ← folderPath root recipient folder
    let _ ← (save files directory message).adapt (.file none)
  | .forward sender recipients message =>
    (queue files root ⟨"send", sender, recipients⟩ message).adapt (.file none)
  | .reply sender recipients notice =>
    (queue files root ⟨"reply", some sender, recipients⟩ (Utf8.encode notice)).adapt (.file none)

/-- The store whose directories lie within `root`. -/
def store (files : FileSystem m) (root : String) : MailStore m where
  submit consignment := (submit files root consignment).run

end MailFilter.FolderStore
