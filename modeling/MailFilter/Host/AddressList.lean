import MailFilter.Host.EncodedWord
import MailFilter.Host.OpenToken
import MailFilter.Text.Blank

/-!
# Address lists

An address header lists mailboxes and groups of mailboxes (RFC 5322, section 3.4). The reader goes
over the bytes once with a mode, a stack of the modes around it, and the texts collected for the
entry at hand; at the end of each entry it emits it, with its address if it has one. It accepts any
bytes: what is no address list still gives whatever addresses can be recognised.
-/

namespace MailFilter.Host.AddressList

open EncodedWord (code isGap)

/-- What the bytes at hand belong to. -/
inductive Mode where
  | name
  | address
  | quote
  | comment
  deriving DecidableEq

/-- What has been read. The texts of the entry at hand and the entries before it are in reverse. -/
structure Reading where
  mode : Mode
  stack : List Mode
  names : List String
  mails : List String
  comments : List String
  token : OpenToken
  /-- An at sign has been seen in a bare name, so that it is an address. -/
  email : Bool
  /-- An encoded word may begin here. -/
  atStart : Bool
  escaped : Bool
  /-- Nothing but encoded words stands behind the last text. -/
  joined : Bool
  /-- The addresses of the entries, absent where an entry has none. -/
  entries : List (Option String)

namespace Reading

/-- Nothing read yet. -/
def start : Reading := ⟨.name, [], [], [], [], .none, false, true, false, true, []⟩

/-- A text put in front of others, behind a space if there are any. -/
def addSpaced (texts : List String) (text : String) : List String :=
  if texts.isEmpty then [text] else text :: " " :: texts

/-- Ends the open run, whose text goes where the mode says. In a bare name with an at sign it is
the address. -/
def flush (reading : Reading) : Reading :=
  if reading.token.isOpen then
    let text := reading.token.text
    let closed :=
      { reading with
        token := .none, email := false, atStart := true, escaped := false, joined := false }
    match reading.mode with
    | .address => { closed with mails := text :: reading.mails }
    | .name =>
      if reading.email then { closed with mails := text :: reading.mails }
      else { closed with names := addSpaced reading.names text }
    | .quote => { closed with names := text :: reading.names }
    | .comment => { closed with comments := addSpaced reading.comments text }
  else reading

/-- The address of the entry at hand. A name with a comment and without blanks counts as one. -/
def entryAddress? (reading : Reading) : Option String :=
  if !reading.mails.isEmpty then some (String.join reading.mails.reverse)
  else if !reading.names.isEmpty && !reading.comments.isEmpty then
    let name := String.join reading.names.reverse
    if name.toList.any Text.isBlank then none else some name
  else none

/-- Ends the entry at hand, if anything has been read of it. -/
def emit (reading : Reading) : Reading :=
  if reading.names.isEmpty && reading.mails.isEmpty && reading.comments.isEmpty then reading
  else
    { reading with
      names := [], mails := [], comments := []
      entries := reading.entryAddress? :: reading.entries }

/-- Goes back to the mode around the present one. -/
def leave (reading : Reading) : Reading :=
  { reading with mode := reading.stack.headD .name, stack := reading.stack.tail }

/-- Goes into a mode inside the present one. -/
def enter (reading : Reading) (mode : Mode) : Reading :=
  { reading with mode := mode, stack := reading.mode :: reading.stack }

/-- A byte that means nothing special belongs to the run. -/
def take (reading : Reading) (b : UInt8) : Reading :=
  { reading with escaped := false, atStart := false, token := reading.token.extend b }

/-- The text of an encoded word joins the comment or the name at hand. -/
def addWord (reading : Reading) (text : String) : Reading :=
  let reading := reading.flush
  let add (texts : List String) : List String :=
    if reading.joined || reading.mode = .quote then text :: texts else addSpaced texts text
  if reading.mode = .comment then { reading with comments := add reading.comments, joined := true }
  else { reading with names := add reading.names, joined := true }

/-- A backslash outside bare names protects the next byte; the run before it ends. -/
def escape (reading : Reading) : Reading :=
  let token := if reading.mode = .quote ∧ reading.token.isOpen then reading.token.takeGap
    else reading.token
  { { reading with token := token }.flush with escaped := true }

/-- An opening parenthesis begins a comment, or stands for itself inside one. -/
def openComment (reading : Reading) (b : UInt8) : Reading :=
  if reading.mode = .comment then (reading.enter .comment).take b
  else { reading.flush.enter .comment with joined := false }

/-- A closing parenthesis ends a comment, or stands for itself if that was inside another. -/
def closeComment (reading : Reading) (b : UInt8) : Reading :=
  if reading.leave.mode = .comment then reading.leave.take b
  else { reading.flush.leave with joined := false }

/-- A blank separates words. Between quotes it belongs to the text. -/
def passBlank (reading : Reading) (b : UInt8) : Reading :=
  let token := if reading.mode = .quote then reading.token.extend b else reading.token.skip b
  { reading with atStart := true, escaped := false, token := token }

/-- Reads one byte that is neither a newline nor the beginning of an encoded word. -/
def step (reading : Reading) (b : UInt8) : Reading :=
  if b = code '\\' ∧ reading.mode ≠ .name ∧ !reading.escaped then reading.escape
  else if (b = code ',' ∨ b = code ';') ∧ reading.mode = .name then reading.flush.emit
  else if b = code '<' ∧ reading.mode = .name then
    { reading with email := false }.flush.enter .address
  else if b = code '>' ∧ reading.mode = .address then reading.flush.leave
  else if b = code '"' ∧ !reading.escaped ∧ reading.mode = .name then (reading.enter .quote).flush
  else if b = code '"' ∧ !reading.escaped ∧ reading.mode = .quote then reading.flush.leave
  else if b = code '@' ∧ reading.mode = .name then { reading with email := true }.take b
  else if isGap b then reading.passBlank b
  else if b = code '\r' then { reading with token := reading.token.skip b }
  else if b = code '(' ∧ reading.mode ≠ .quote ∧ !reading.escaped then reading.openComment b
  else if b = code ')' ∧ reading.mode = .comment ∧ !reading.escaped then reading.closeComment b
  else if b = code ':' ∧ reading.mode = .name ∧ !reading.escaped then
    { reading.flush with names := [], mails := [], comments := [] }
  else reading.take b

end Reading

/-- Reads the bytes of a list. A newline ends it unless a blank follows. -/
def read (charsets : Charsets) (reading : Reading) (bytes : Bytes) : Reading :=
  match bytes with
  | [] => reading
  | b :: bytes =>
    if b = code '\n' then
      let reading := reading.flush
      match bytes with
      | next :: rest =>
        if isGap next then
          if reading.mode = .quote then read charsets reading (next :: rest)
          else read charsets { reading with atStart := true } rest
        else reading
      | [] => reading
    else
      match _h : EncodedWord.first? charsets b bytes with
      | some (text, rest) =>
        if reading.atStart && !reading.escaped then read charsets (reading.addWord text) rest
        else read charsets (reading.step b) bytes
      | none => read charsets (reading.step b) bytes
termination_by bytes.length
decreasing_by
  · simp only [List.length_cons]; omega
  · simp only [List.length_cons]; omega
  · exact EncodedWord.first?_length charsets ‹_›
  · simp only [List.length_cons]; omega
  · simp only [List.length_cons]; omega

/-- The entries of a list, in order, each with its address as it was written. -/
def entries (charsets : Charsets) (bytes : Bytes) : List (Option String) :=
  (read charsets .start bytes).emit.entries.reverse

end MailFilter.Host.AddressList
