import MailFilter.Fault
import MailFilter.Mail.Reader
import MailFilter.Match.Mode
import MailFilter.Text.Blank

/-!
# Mailbox addresses

An address is a local part and, mostly, a domain. Address headers hold lists of them; envelopes and
redirections name exactly one.
-/

namespace MailFilter

/-- The address of a mailbox. The null reverse path has neither local part nor domain. -/
structure Address where
  localPart : String
  domain : Option String
  deriving DecidableEq, Inhabited

namespace Address

/-- The null reverse path. -/
def null : Address := ⟨"", none⟩

/-- A written address without a route before it, such as `@relay:`. -/
def dropRoute : List Char → List Char
  | '@' :: route =>
    match route.dropWhile (· != ':') with
    | _ :: mailbox => mailbox
    | [] => '@' :: route
  | mailbox => mailbox

/-- The address that a text spells: what stands before the last at sign, and what behind it. -/
def ofText (text : String) : Address :=
  let mailbox := dropRoute text.toList
  let domain := (mailbox.reverse.takeWhile (· != '@')).reverse
  if mailbox.contains '@' then
    ⟨String.ofList (mailbox.take (mailbox.length - domain.length - 1)), some (String.ofList domain)⟩
  else ⟨String.ofList mailbox, none⟩

/-- The whole address. -/
def text (address : Address) : String :=
  match address.domain with
  | some domain => address.localPart ++ "@" ++ domain
  | none => address.localPart

/-- The part of an address that a test compares. An absent domain counts as empty. -/
def part (address : Address) : AddressPart → String
  | .all => address.text
  | .localpart => address.localPart
  | .domain => address.domain.getD ""

variable [MailReader]

/-- The mailboxes of a raw address list, groups flattened. Entries without an address are left
out. -/
def ofList (bytes : Bytes) : List Address :=
  let written := ((MailReader.entries? bytes).getD []).filterMap id
  ((written.map Text.trim).filter (· ≠ "")).map ofText

/-- The address of a text that names exactly one mailbox. -/
def ofMailbox (text : String) : Except MailboxFault Address :=
  let text := Text.trim text
  if text = "" then .error .empty
  else
    match ofList (Utf8.encode (text ++ "\r\n")) with
    | [] => .error .missing
    | [address] =>
      if address.localPart = "" then .error .noLocalPart
      else if address.domain = some "" then .error .noDomain
      else .ok address
    | several => .error (.several several.length)

end Address

end MailFilter
