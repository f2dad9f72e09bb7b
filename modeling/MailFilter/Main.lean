import MailFilter.CommandLine.Execution
import MailFilter.Host.Reader

/-!
# The program

Requests are carried out on the file system of the host and with its library for mail. All that is
decided is decided elsewhere; here are only the operations on files, the environment, and the
printing.
-/

namespace MailFilter.Host

/-- What a failed operation of the host means. -/
def faultOf : IO.Error → FileFault
  | .noFileOrDirectory .. => .notFound
  | .alreadyExists .. => .alreadyExists
  | .inappropriateType _ 20 _ => .notDirectory
  | .inappropriateType _ 21 _ => .isDirectory
  | error => .other error.toString

/-- An operation of the host. -/
def attempt {α : Type} (operation : IO α) : ExceptT FileFault IO α :=
  ExceptT.mk do
    try return .ok (← operation)
    catch error => return .error (faultOf error)

/-- Makes a directory and those that lead to it. -/
partial def createDirectories (path : String) : IO Unit := do
  let directory := System.mkFilePath [path]
  try IO.FS.createDir directory
  catch
    | .noFileOrDirectory name code details =>
      match directory.parent with
      | none => throw (.noFileOrDirectory name code details)
      | some parent =>
        createDirectories parent.toString
        unless ← directory.isDir do IO.FS.createDir directory
    | error => unless ← directory.isDir do throw error

/-- The file system of the host. -/
def files : FileSystem IO where
  read path := attempt do return (← IO.FS.readBinFile path).toList
  write path content := attempt (IO.FS.writeBinFile path ⟨content.toArray⟩)
  createDirectories path := attempt (createDirectories path)
  list path := attempt do
    return (← (System.mkFilePath [path]).readDir).toList.map fun entry => entry.fileName
  isFile path := do
    try return (← (System.mkFilePath [path]).metadata).type == .file
    catch _ => return false

/-- The directory for the settings of the user's programs. -/
def settingsDirectory : IO (Option String) := do
  match (← IO.getEnv "XDG_CONFIG_HOME").filter Path.isAbsolute with
  | some directory => return some directory
  | none =>
    let home := (← IO.getEnv "HOME").filter (· ≠ "")
    return home.map fun home => Path.join home ".config"

/-- Does what the words of a command line ask for, and gives the exit code. -/
def run (words : List String) : IO UInt32 := do
  match CommandLine.Request.ofWords words with
  | .error halt =>
    IO.print halt.output
    if halt = .usage then IO.eprint CommandLine.usage
    return halt.exitCode.toUInt32
  | .ok request =>
    let own := (← settingsDirectory).map CommandLine.settingsFile
    let report ← request.execute files own
    IO.print report.output
    for line in report.log request.verbosity do IO.eprintln line
    return report.exitCode.toUInt32

end MailFilter.Host

/-- Runs the program with the words of its command line. -/
def main (words : List String) : IO UInt32 :=
  MailFilter.Host.run words
