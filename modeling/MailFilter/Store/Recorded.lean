import MailFilter.Store.Basic

/-!
# A store that records

This store keeps what it is given, each sort in the order it came, and never fails.
-/

namespace MailFilter

/-- A message that was delivered. -/
structure Delivered where
  recipient : String
  folder : String
  message : Bytes
  deriving DecidableEq

/-- A message that was forwarded. -/
structure Forwarded where
  sender : Option String
  recipients : List String
  message : Bytes
  deriving DecidableEq

/-- A notice that was sent. -/
structure Replied where
  sender : String
  recipients : List String
  notice : String
  deriving DecidableEq

/-- Everything a recording store was given. -/
structure RecordedMail where
  delivered : List Delivered
  forwarded : List Forwarded
  replied : List Replied
  deriving DecidableEq

namespace RecordedMail

/-- Nothing yet. -/
def empty : RecordedMail := ⟨[], [], []⟩

/-- What has been recorded after one more consignment. -/
def add (mail : RecordedMail) : Consignment → RecordedMail
  | .delivery recipient folder message =>
    { mail with delivered := mail.delivered ++ [⟨recipient, folder, message⟩] }
  | .forward sender recipients message =>
    { mail with forwarded := mail.forwarded ++ [⟨sender, recipients, message⟩] }
  | .reply sender recipients notice =>
    { mail with replied := mail.replied ++ [⟨sender, recipients, notice⟩] }

/-- The recording store. -/
def store : MailStore (StateM RecordedMail) where
  submit consignment := do
    modify (·.add consignment)
    return .ok ()

end RecordedMail

end MailFilter
