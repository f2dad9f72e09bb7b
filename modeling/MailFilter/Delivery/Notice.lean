/-!
# Notices

A rejection and a vacation reply are sent as small messages of their own, marked as written by a
program so that no program answers them (RFC 3834).
-/

namespace MailFilter

/-- What a notice says. -/
structure Notice where
  sender : String
  recipient : String
  subject : String
  /-- The identifier of the message it answers. -/
  answered : Option String
  /-- Whether the body begins with MIME headers of its own. -/
  mime : Bool
  body : String
  deriving DecidableEq

namespace Notice

/-- The lines that tie a notice to the message it answers. -/
def threadLines : Option String → String
  | some id => "In-Reply-To: " ++ id ++ "\r\nReferences: " ++ id ++ "\r\n"
  | none => ""

/-- The body with its headers: those it brings, or those of plain text and a line end that it may
lack. -/
def content (notice : Notice) : String :=
  if notice.mime then "MIME-Version: 1.0\r\n" ++ notice.body
  else
    "Content-Type: text/plain; charset=utf-8\r\n\r\n" ++ notice.body ++
      (if notice.body.toList.getLast? = some '\n' then "" else "\r\n")

/-- The text of a notice. -/
def text (notice : Notice) : String :=
  "From: <" ++ notice.sender ++ ">\r\nTo: <" ++ notice.recipient ++ ">\r\nSubject: " ++
    notice.subject ++ "\r\n" ++ threadLines notice.answered ++
    "Auto-Submitted: auto-replied\r\n" ++ notice.content

end Notice

end MailFilter
