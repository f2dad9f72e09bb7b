import MailFilter.Host.EncodedWord

/-!
# How far a date reaches

The value of a date field ends where its date does. The parts of a date are day, month, year, hour,
minute, second and zone; blanks stand between them, and colons between those of the time. A zone is
an offset of digits behind a sign, or a word that begins with a letter. Such a word has at least
three bytes: after a shorter zone the end of the line is part of it, and the value goes on on the
next line.
-/

namespace MailFilter.Host

open EncodedWord (code isGap)

/-- How much of a date has been read. -/
structure DateReading where
  /-- The number of parts that are complete. -/
  parts : Nat
  /-- Whether anything of the present part has been read. -/
  begun : Bool
  /-- Whether a digit has been read. What stands before the first one, such as the day of the week,
  is no part of the date. -/
  counted : Bool
  /-- The number of comments that are open. -/
  comments : Nat
  deriving DecidableEq

namespace DateReading

/-- Nothing read. -/
def start : DateReading :=
  ⟨0, false, false, 0⟩

/-- How many parts there are before the zone. -/
def zone : Nat := 6

/-- A letter of either case. -/
def isLetter (b : UInt8) : Bool :=
  (code 'a' ≤ b && b ≤ code 'z') || (code 'A' ≤ b && b ≤ code 'Z')

/-- A decimal digit. -/
def isDigit (b : UInt8) : Bool :=
  code '0' ≤ b && b ≤ code '9'

/-- The end of a part, if there is anything to end. -/
def close (reading : DateReading) : DateReading :=
  if reading.begun && reading.counted then
    { reading with parts := reading.parts + 1, begun := false }
  else reading

/-- Reads a byte inside a comment. Comments can hold comments, and lines may be folded in them. -/
def stepComment (reading : DateReading) (b : UInt8) : DateReading :=
  if b = code '(' then { reading with comments := reading.comments + 1 }
  else if b = code ')' then { reading with comments := reading.comments - 1 }
  else reading

/-- Reads a byte. Colons end an hour or a minute, and a sign begins the zone wherever it stands. -/
def step (reading : DateReading) (b : UInt8) : DateReading :=
  if 0 < reading.comments then reading.stepComment b
  else if isDigit b then { reading with begun := true, counted := true }
  else if isLetter b then { reading with begun := true }
  else if b = code ':' then
    if reading.parts = 3 ∨ reading.parts = 4 then reading.close else reading
  else if b = code '+' ∨ b = code '-' then { reading with parts := zone }
  else if isGap b || b = code '\n' then reading.close
  else if b = code '(' then { reading with comments := 1 }
  else reading

/-- How many bytes behind `b` are read with it: the blank behind a fold, a parenthesis behind a
backslash in a comment, and two more bytes, whatever they are, behind a letter that begins the
zone. -/
def joined (reading : DateReading) (b : UInt8) (bytes : Bytes) : Nat :=
  if b = code '\n' then 1
  else if 0 < reading.comments then
    if b = code '\\' ∧ bytes.head? = some (code ')') then 1 else 0
  else if reading.parts = zone ∧ !reading.begun ∧ isLetter b then 2
  else 0

/-- The number of bytes up to the end of the date. Only a newline that no blank follows ends it. -/
def extent (reading : DateReading) (bytes : Bytes) : Nat :=
  match bytes with
  | [] => 0
  | b :: bytes =>
    if b = code '\n' ∧ (bytes.head?.map isGap).getD false = false then 1
    else
      let more := reading.joined b bytes
      1 + more + (reading.step b).extent (bytes.drop more)
termination_by bytes.length
decreasing_by simp only [List.length_drop, List.length_cons]; omega

end DateReading

end MailFilter.Host
