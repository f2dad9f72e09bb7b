import MailFilter.Text.Utf8

/-!
# What reads mail

Where the header fields of a message are, what text a header value spells and which addresses a
list holds is found out by a library. The program is written for any such library and relies on no
law of it: bytes without a header block are a message without fields, a value that does not lie in
the message is empty, and a list that is none has no addresses. The host says which library it is.
-/

namespace MailFilter

/-- A header field of a message: its name, and where in the message its raw value begins and
ends. -/
structure FieldSpan where
  name : String
  start : Nat
  stop : Nat
  deriving DecidableEq

/-- A header block: its fields in order, and where in the message the body begins. -/
structure HeaderIndex where
  fields : List FieldSpan
  bodyStart : Nat
  deriving DecidableEq

/-- A library that reads mail. Definitions take it as an instance, so that a statement about all
messages is one about all libraries as well. -/
class MailReader where
  /-- The header block of a message, unless nothing can be made of the bytes. -/
  index? : Bytes → Option HeaderIndex
  /-- The text that the raw value of a header spells, if it is a text. -/
  text? : Bytes → Option String
  /-- The entries of a raw address list, if it is one: the mailboxes in order, groups flattened,
  each with its address if it has one. -/
  entries? : Bytes → Option (List (Option String))

end MailFilter
