import MailFilter.Fault
import MailFilter.Text.Utf8

/-!
# File systems

What the program asks of a file system, for programs of any `m`: the one outside, or a disk that is
a value. Every operation but a question may fail, and what it did before that stays done.
-/

namespace MailFilter

/-- The operations on files. -/
structure FileSystem (m : Type → Type) where
  /-- The bytes of a file. -/
  read : String → ExceptT FileFault m Bytes
  /-- Makes some bytes the content of a file, which need not exist before. -/
  write : String → Bytes → ExceptT FileFault m Unit
  /-- Makes a directory and those that lead to it, where they do not exist yet. -/
  createDirectories : String → ExceptT FileFault m Unit
  /-- The names in a directory, in any order. -/
  list : String → ExceptT FileFault m (List String)
  /-- Whether a path leads to a file that is no directory. -/
  isFile : String → m Bool

end MailFilter
