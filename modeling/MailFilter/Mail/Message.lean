import MailFilter.Mail.Address

/-!
# Messages

A message keeps its bytes as they came: they are what is delivered and what its size counts. Its
header fields are found once; their texts and addresses are read when a test asks for them. The
envelope comes from outside the message.
-/

namespace MailFilter

/-- A header field: its name, and the bytes of its value as they came. -/
structure HeaderField where
  name : String
  value : Bytes
  deriving DecidableEq, Inhabited

/-- The field that a message has at a span. A span that does not lie in the message has no
bytes. -/
def FieldSpan.field (span : FieldSpan) (raw : Bytes) : HeaderField :=
  let value := if span.start ≤ span.stop ∧ span.stop ≤ raw.length then
      (raw.take span.stop).drop span.start
    else []
  ⟨span.name, value⟩

/-- A message with its envelope. -/
structure Message where
  raw : Bytes
  fields : List HeaderField
  body : Bytes
  envelopeSender : Option String
  envelopeRecipient : Option String
  deriving Inhabited

namespace Message

variable [MailReader]

/-- The message that some bytes are. Every list of bytes is a message: one without a header block
is all body. -/
def ofBytes (raw : Bytes) (sender recipient : Option String) : Message :=
  let index := (MailReader.index? raw).getD ⟨[], 0⟩
  ⟨raw, index.fields.map fun span => span.field raw, raw.drop index.bodyStart, sender, recipient⟩

/-- The number of bytes. -/
def size (message : Message) : Nat :=
  message.raw.length

/-- The raw values of the fields of a name, in any case of its letters, in order. -/
def values (message : Message) (name : String) : List Bytes :=
  (message.fields.filter fun field => Ascii.eqIgnoreCase field.name name).map HeaderField.value

/-- The text of a raw header value, without blanks at its ends. A value that spells no text has the
empty one. -/
def headerText (value : Bytes) : String :=
  ((MailReader.text? value).map Text.trim).getD ""

/-- The texts of the fields of a name, in order. -/
def header (message : Message) (name : String) : List String :=
  (message.values name).map headerText

/-- The text of the first field of a name. -/
def firstHeader (message : Message) (name : String) : Option String :=
  (message.header name).head?

/-- The mailboxes that the fields of a name list, in order. -/
def addresses (message : Message) (name : String) : List Address :=
  (message.values name).flatMap Address.ofList

/-- The names of the fields, each once, in the spelling and place where it first occurs. -/
def headerNames (message : Message) : List String :=
  message.fields.foldl
    (fun names field =>
      if names.any (Ascii.eqIgnoreCase · field.name) then names else names ++ [field.name]) []

/-- The path of an envelope part. -/
def envelope (message : Message) : EnvelopePart → Option String
  | .sender => message.envelopeSender
  | .recipient => message.envelopeRecipient

end Message

end MailFilter
