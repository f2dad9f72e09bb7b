import MailFilter.Host.EncodedWord
import MailFilter.Host.OpenToken

/-!
# The text of a header

The raw value of a header becomes one line of text: folds and the blanks around them turn into one
space, encoded words into their text, and two encoded words that only blanks separate are joined.
-/

namespace MailFilter.Host.HeaderText

open EncodedWord (code isGap)

/-- What has been read of a value: the parts of its text, in reverse, the run that is open, and
whether nothing but encoded words stands behind the last part. -/
structure Reading where
  parts : List String
  token : OpenToken
  joined : Bool

namespace Reading

/-- Nothing read yet. -/
def start : Reading := ⟨[], .none, true⟩

/-- Ends the open run: its text becomes a part, behind a space unless it is the first. -/
def flush (reading : Reading) : Reading :=
  if reading.token.isOpen then
    let parts := if reading.parts.isEmpty then [] else " " :: reading.parts
    ⟨reading.token.text :: parts, .none, false⟩
  else reading

/-- Adds the text of an encoded word, which a space separates from a run before it. -/
def addWord (reading : Reading) (text : String) : Reading :=
  let reading := reading.flush
  ⟨text :: (if reading.joined then reading.parts else " " :: reading.parts), .none, true⟩

/-- The text of all parts. -/
def text (reading : Reading) : String :=
  String.join reading.parts.reverse

end Reading

/-- A space, a tab or a carriage return. -/
def isBlank (b : UInt8) : Bool :=
  isGap b || b == code '\r'

/-- Reads the bytes of a value. A newline ends it unless a blank follows, which belongs to the
fold; a value without such an end has no text. -/
def read (charsets : Charsets) (reading : Reading) (bytes : Bytes) : Option String :=
  match bytes with
  | [] => none
  | b :: bytes =>
    if b = code '\n' then
      let reading := reading.flush
      match bytes with
      | next :: rest => if isGap next then read charsets reading rest else some reading.text
      | [] => some reading.text
    else if isBlank b then
      read charsets { reading with token := reading.token.skip b } bytes
    else
      match _h : EncodedWord.first? charsets b bytes with
      | some (text, rest) => read charsets (reading.addWord text) rest
      | none => read charsets { reading with token := reading.token.extend b } bytes
termination_by bytes.length
decreasing_by
  · simp only [List.length_cons]; omega
  · simp only [List.length_cons]; omega
  · exact EncodedWord.first?_length charsets ‹_›
  · simp only [List.length_cons]; omega

/-- The text of a raw header value. -/
def decode? (charsets : Charsets) (value : Bytes) : Option String :=
  read charsets .start value

end MailFilter.Host.HeaderText
