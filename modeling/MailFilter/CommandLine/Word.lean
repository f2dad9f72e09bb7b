/-!
# The words of a command line

A word that begins with a dash sets options: two dashes and a name set one of them, a single dash
and some letters set one for each letter. Two dashes alone end the options. A single dash, like any
other word, is an operand or the value of the option before it.
-/

namespace MailFilter.CommandLine

/-- A word, by its form. -/
inductive Word where
  | operand (text : String)
  | endOfOptions
  /-- An option by its name, with what follows an equals sign. -/
  | long (name : String) (value : Option String)
  /-- Options by their letters, or one with its value behind it. -/
  | short (letters : List Char)
  deriving DecidableEq

/-- The form of a word. -/
def Word.ofText (text : String) : Word :=
  match text.toList with
  | ['-', '-'] => endOfOptions
  | '-' :: '-' :: rest =>
    let value := match rest.dropWhile (· ≠ '=') with
      | [] => none
      | _ :: value => some (String.ofList value)
    long (String.ofList (rest.takeWhile (· ≠ '='))) value
  | '-' :: c :: letters => short (c :: letters)
  | _ => operand text

end MailFilter.CommandLine
