import MailFilter.Host.DateExtent
import MailFilter.Mail.Reader

/-!
# The header block of a message

A message begins with header fields, one per line or folded over several, and an empty line ends
them (RFC 5322, section 2.2). The raw value of a field goes from behind its colon through its last
newline; that of a date goes as far as the date does. Lines without a colon are no fields and are
passed over.
-/

namespace MailFilter.Host.HeaderBlock

open EncodedWord (code isGap)

/-- Space, tab, line feed, form feed or carriage return. -/
def isSpace (b : UInt8) : Bool :=
  b == code ' ' || b == code '\t' || b == code '\n' || b == code '\x0c' || b == code '\r'

/-- Field names with a usual spelling, which they get whatever the case of their letters. -/
def usualNames : List String :=
  ["Subject", "From", "To", "Cc", "Date", "Bcc", "Reply-To", "Sender", "Comments", "In-Reply-To",
    "Keywords", "Received", "Message-ID", "References", "Return-Path", "MIME-Version",
    "Content-Description", "Content-ID", "Content-Language", "Content-Location",
    "Content-Transfer-Encoding", "Content-Type", "Content-Disposition", "Resent-To", "Resent-From",
    "Resent-Bcc", "Resent-Cc", "Resent-Sender", "Resent-Date", "Resent-Message-ID", "List-Archive",
    "List-Help", "List-ID", "List-Owner", "List-Post", "List-Subscribe", "List-Unsubscribe",
    "DKIM-Signature", "Auto-Submitted", "Delivered-To", "Organization", "Priority", "Importance",
    "Sensitivity", "Language", "Encoding", "Expires", "Supersedes", "Author", "Face"]

/-- The name that the bytes before a colon spell. White space inside a usual name is forgiven. -/
def fieldName (bytes : Bytes) : String :=
  let letters := Ascii.lower (Utf8.decodeLossy (bytes.filter (!isSpace ·)))
  match usualNames.find? fun name => Ascii.lower name == letters with
  | some name => name
  | none =>
    let trimmed := ((bytes.dropWhile isSpace).reverse.dropWhile isSpace).reverse
    Utf8.decodeLossy trimmed

/-- What stands at the front of some bytes before a field's value. -/
inductive NameRead where
  /-- A name, and the bytes behind its colon. -/
  | name (bytes : Bytes) (rest : Bytes)
  /-- A line without a colon, and the bytes behind it. -/
  | noField (rest : Bytes)
  /-- The input ended before a colon; these bytes may be a name. -/
  | cut (bytes : Bytes)

/-- Reads a field's name. Colons before its first letter do not end it. The bytes before are in
reverse, and `named` tells whether one of them is no white space. -/
def readName (found : Bytes) (named : Bool) : Bytes → NameRead
  | [] => .cut found.reverse
  | b :: bytes =>
    if b = code ':' then
      if named then .name found.reverse bytes else readName found named bytes
    else if b = code '\n' then .noField bytes
    else readName (b :: found) (named || !isSpace b) bytes

/-- The bytes behind a field's value: it goes through the first newline that no blank follows. -/
def behindText : Bytes → Bytes
  | [] => []
  | b :: bytes =>
    if b = code '\n' ∧ (bytes.head?.map isGap).getD false = false then bytes else behindText bytes

/-- The fields whose value is a date. -/
def dateNames : List String := ["Date", "Resent-Date"]

/-- The bytes behind the value of the field of a name. -/
def behindValue (name : String) (bytes : Bytes) : Bytes :=
  if dateNames.contains name then bytes.drop (DateReading.start.extent bytes)
  else behindText bytes

/-- White space at the front of a line, newlines excepted, does not count. -/
def skipBlanks (bytes : Bytes) : Bytes :=
  bytes.dropWhile fun b => isSpace b && b != code '\n'

/-- Reading a name takes at least its colon. -/
theorem readName_name_length {found name rest : Bytes} {named : Bool} {bytes : Bytes}
    (h : readName found named bytes = .name name rest) : rest.length < bytes.length := by
  fun_induction readName found named bytes <;> grind

/-- Passing over a line takes at least its newline. -/
theorem readName_noField_length {found rest : Bytes} {named : Bool} {bytes : Bytes}
    (h : readName found named bytes = .noField rest) : rest.length < bytes.length := by
  fun_induction readName found named bytes <;> grind

/-- Behind a value there are no more bytes than from it on. -/
theorem behindText_length (bytes : Bytes) : (behindText bytes).length ≤ bytes.length := by
  fun_induction behindText bytes <;> grind

/-- Behind the value of a field there are no more bytes than from it on, be it a date or not. -/
theorem behindValue_length (name : String) (bytes : Bytes) :
    (behindValue name bytes).length ≤ bytes.length := by
  unfold behindValue
  split
  · exact (List.drop_sublist _ _).length_le
  · exact behindText_length bytes

/-- Without the white space at its front a line is no longer. -/
theorem skipBlanks_length (bytes : Bytes) : (skipBlanks bytes).length ≤ bytes.length :=
  (List.dropWhile_sublist _).length_le

/-- The fields at the front of some bytes, behind those found before, which are in reverse, and the
body behind the empty line. Without an empty line there is no body. A place is told by the number
of bytes behind it, for `size` is how many the message has. -/
def readFields (size : Nat) (found : List FieldSpan) (bytes : Bytes) :
    List FieldSpan × Option Bytes :=
  match _hskip : skipBlanks bytes with
  | [] => (found.reverse, none)
  | b :: line =>
    if b = code '\n' then (found.reverse, some line)
    else
      match _hname : readName [] false (b :: line) with
      | .name written rest =>
        let name := fieldName written
        let behind := behindValue name rest
        readFields size (⟨name, size - rest.length, size - behind.length⟩ :: found) behind
      | .noField rest => readFields size found rest
      | .cut written =>
        if written.any (!isSpace ·) then ((⟨fieldName written, size, size⟩ :: found).reverse, none)
        else (found.reverse, none)
termination_by bytes.length
decreasing_by
  · have hline := skipBlanks_length bytes
    have hrest := readName_name_length ‹_›
    have hvalue := behindValue_length (fieldName written) rest
    rw [_hskip] at hline
    omega
  · have hline := skipBlanks_length bytes
    have hrest := readName_noField_length ‹_›
    rw [_hskip] at hline
    omega

/-- The header block of a message. A message that ends inside its fields has an empty body; one
without any field has no header block, unless an empty line begins it. -/
def index? (message : Bytes) : Option HeaderIndex :=
  match readFields message.length [] message with
  | (fields, some body) => some ⟨fields, message.length - body.length⟩
  | ([], none) => none
  | (fields, none) => some ⟨fields, message.length⟩

end MailFilter.Host.HeaderBlock
