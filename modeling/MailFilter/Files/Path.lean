import MailFilter.Text.Split

/-!
# Paths

A path names a file by the names that lead to it, with a slash between them. A path is kept as it
was written; what it leads to is decided by the file system.
-/

namespace MailFilter.Path

/-- The path of a name within a directory. -/
def join (directory name : String) : String :=
  if directory = "" ∨ directory.toList.getLast? = some '/' then directory ++ name
  else directory ++ "/" ++ name

/-- Whether a path starts from the root whatever the working directory is. -/
def isAbsolute (path : String) : Bool :=
  path.toList.head? = some '/'

/-- The names of a path. A name is empty where slashes meet or stand at an end. -/
def names (path : String) : List String :=
  Text.split (· == '/') path

end MailFilter.Path
