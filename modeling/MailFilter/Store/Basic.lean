import MailFilter.Fault
import MailFilter.Text.Utf8

/-!
# Mail stores

A mail store takes what dispatch hands over: messages for a folder, messages to be forwarded, and
notices to be sent. Where it puts them is its own affair; it may also fail.
-/

namespace MailFilter

/-- Something handed to a mail store. -/
inductive Consignment where
  /-- A message for a folder of a recipient's mailbox. -/
  | delivery (recipient folder : String) (message : Bytes)
  /-- A message to be forwarded unchanged; without a sender it is a bounce. -/
  | forward (sender : Option String) (recipients : List String) (message : Bytes)
  /-- A notice to be sent in the name of `sender`. -/
  | reply (sender : String) (recipients : List String) (notice : String)
  deriving DecidableEq

/-- How the programs of `m` hand something to a mail store. -/
structure MailStore (m : Type → Type) where
  submit : Consignment → m (Except Fault Unit)

end MailFilter
