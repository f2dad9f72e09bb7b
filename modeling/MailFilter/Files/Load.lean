import MailFilter.Files.Basic
import MailFilter.Json.Reader
import MailFilter.Mail.Message
import MailFilter.Settings

/-!
# Loading what a user names

Scripts, messages and settings are read from files. A failure to read a script or a message names
the file; settings are read before anything else, and their failures do not.
-/

namespace MailFilter.FileSystem

variable {m : Type → Type} [Monad m] [MailReader]

/-- The text of a file, which has to be UTF-8. -/
def readText (files : FileSystem m) (path : String) : ExceptT FileFault m String := do
  match Utf8.decode? (← files.read path) with
  | some text => return text
  | none => throw .notUtf8

/-- The text of a script. -/
def loadScript (files : FileSystem m) (path : String) : ExceptT Fault m String :=
  (files.readText path).adapt (.file (some path))

/-- A message, byte for byte, with its envelope. -/
def loadMessage (files : FileSystem m) (path : String) (sender recipient : Option String) :
    ExceptT Fault m Message := do
  let raw ← (files.read path).adapt (.file (some path))
  return .ofBytes raw sender recipient

/-- The settings that a file holds. -/
def loadSettings (files : FileSystem m) (path : String) : ExceptT Fault m Settings := do
  let text ← (files.readText path).adapt (.file none)
  match (Json.parse? text).bind Settings.ofJson? with
  | some settings => return settings
  | none => throw .config

/-- The settings to be used. A file that is asked for has to be there; the user's own file counts if
there is one; otherwise the settings are the default. -/
def findSettings (files : FileSystem m) (asked own : Option String) : ExceptT Fault m Settings := do
  match asked, own with
  | some path, _ => files.loadSettings path
  | none, some path => if ← files.isFile path then files.loadSettings path else return .default
  | none, none => return .default

end MailFilter.FileSystem
