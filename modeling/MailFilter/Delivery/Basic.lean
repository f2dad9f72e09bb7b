import MailFilter.Delivery.Markers
import MailFilter.Mail.Message

/-!
# Messages in transit

A delivery is a message on its way: the envelope it travels with, its bytes, what a notice about it
needs to know, and its loop markers. All but envelope and markers is read off the message once.
-/

namespace MailFilter

/-- A message on its way. -/
structure Delivery where
  /-- Absent for a bounce, which nothing must answer. -/
  sender : Option String
  recipients : List String
  message : Bytes
  subject : Option String
  messageId : Option String
  /-- Whether a program wrote the message. -/
  autoSubmitted : Bool
  /-- The addresses that the message says it was sent to. -/
  addressedTo : List String
  markers : LoopMarkers

namespace Delivery

variable [MailReader]

/-- The headers that say whom a message was sent to. -/
def destinationHeaders : List String :=
  ["to", "cc", "bcc", "resent-to", "resent-cc", "resent-bcc"]

/-- A message about to travel. An empty sender, or `<>`, is none. -/
def ofMessage (sender : Option String) (recipients : List String) (message : Message) :
    Delivery where
  sender := sender.filter fun sender => sender ≠ "" ∧ sender ≠ "<>"
  recipients := recipients
  message := message.raw
  subject := message.firstHeader "Subject"
  messageId := message.firstHeader "Message-ID"
  autoSubmitted :=
    ((message.firstHeader "Auto-Submitted").map fun value =>
      !Ascii.eqIgnoreCase (Text.trim value) "no").getD false
  addressedTo := (destinationHeaders.flatMap message.addresses).map Address.text
  markers := .none

/-- An address without the blanks and the angle brackets around it. -/
def bareAddress (address : String) : String :=
  String.ofList (Text.dropTrailing (· == '>') ((Text.trim address).toList.dropWhile (· == '<')))

/-- Whether the message says it was sent to a recipient or to one of the recipient's other
addresses. -/
def isAddressedTo (delivery : Delivery) (recipient : String) (others : List String) : Bool :=
  (recipient :: others).any fun wanted =>
    delivery.addressedTo.any fun address => Ascii.eqIgnoreCase address (bareAddress wanted)

/-- The recipient that an action is taken for: there has to be exactly one. -/
def soleRecipient (delivery : Delivery) (action : String) : Except Fault String :=
  match delivery.recipients with
  | [recipient] => .ok recipient
  | recipients => .error (.recipients action recipients.length)

end Delivery

end MailFilter
