import Mathlib.Data.String.Basic
import MailFilter.Proofs.Loop
import MailFilter.Proofs.Script.Spelling
import MailFilter.Text.Utf8

/-!
# Cutting a script by byte positions

The lexer can also be run on the bytes of a text, with a position that is moved on byte by byte. The
bytes of one character are then not looked at together, and nothing in the form of the loops says
that a position is in range, that a slice begins and ends with a character, or that a loop ends. So
each access here is checked where it is made and halts the reading if it is wrong, and a reading has
no result at all if a loop in it goes on for ever.
-/

namespace MailFilter.Script.Bytewise

open Ascii (isSpace isDigit isLetter isWordChar lowerChar)

/-- Why a reading halts. A refusal is about the text. All the rest are wrong accesses: an index out
of range, a slice that is out of order or range or cuts a character in two, a difference below zero,
and bytes taken for a text that would get a replacement character. -/
inductive Halt where
  | refused (fault : Fault)
  | index (position : Nat)
  | slice (first last : Nat)
  | underflow (minuend subtrahend : Nat)
  | garbled (bytes : Bytes)

/-- A reading by positions. It has no result if a loop in it never ends. -/
abbrev Scan := ExceptT Halt Option

/-- The number of bytes of a text. -/
def size (text : String) : Nat :=
  (Utf8.encode text).length

/-- The byte at a position. -/
def byte (text : String) (i : Nat) : Scan UInt8 :=
  match (Utf8.encode text)[i]? with
  | some b => return b
  | none => throw (.index i)

/-- The byte at a position, to be compared with ASCII characters. -/
def look (text : String) (i : Nat) : Scan Char :=
  return Char.ofUInt8 (← byte text i)

/-- The bytes between two positions. -/
def bytes (text : String) (first last : Nat) : Scan Bytes :=
  if first ≤ last ∧ last ≤ size text then
    return ((Utf8.encode text).drop first).take (last - first)
  else throw (.index last)

/-- The text between two positions, which must be in order and at the ends of characters. -/
def slice (text : String) (first last : Nat) : Scan String :=
  if h : first ≤ last ∧ String.Pos.Raw.IsValid text ⟨first⟩ ∧
      String.Pos.Raw.IsValid text ⟨last⟩ then
    return @String.extract text ⟨⟨first⟩, h.2.1⟩ ⟨⟨last⟩, h.2.2⟩
  else throw (.slice first last)

/-- The difference of two positions, which must not be below zero. -/
def difference (minuend subtrahend : Nat) : Scan Nat :=
  if subtrahend ≤ minuend then return minuend - subtrahend
  else throw (.underflow minuend subtrahend)

/-- The text of some bytes. What is no UTF-8 would be replaced. -/
def decode (bytes : Bytes) : Scan String :=
  if (Utf8.decode? bytes).isSome then return Utf8.decodeLossy bytes else throw (.garbled bytes)

/-- The positions behind the newlines of some characters, the first of which is at an offset. -/
def startsBehind (offset : Nat) : List Char → List Nat
  | [] => []
  | c :: cs =>
    if c = '\n' then (offset + 1) :: startsBehind (offset + 1) cs
    else startsBehind (offset + c.utf8Size) cs

/-- Where the lines of a text begin. -/
def lineStarts (text : String) : List Nat :=
  0 :: startsBehind 0 text.toList

/-- The line and the column of an offset: the lines that begin no later, and the bytes since the
last of them began. -/
def position (text : String) (offset : Nat) : Scan (Nat × Nat) := do
  let line := ((lineStarts text).takeWhile (· ≤ offset)).length
  let last ← difference line 1
  match (lineStarts text)[last]? with
  | some start => return (line, (← difference offset start) + 1)
  | none => throw (.index last)

/-- Refuses a text at an offset. -/
def refuse {α : Type} (text : String) (offset : Nat) (cause : ParseCause) : Scan α := do
  let (line, column) ← position text offset
  throw (.refused (.parse line column cause))

/-- Nothing is done behind a refusal. -/
theorem refuse_bind {α β : Type} {text : String} (offset : Nat) (cause : ParseCause)
    (f : α → Scan β) : refuse text offset cause >>= f = refuse text offset cause := by
  rw [refuse, bind_assoc]
  rfl

/-- The first position from `i` on whose byte is not in a class, or the end of the text. -/
noncomputable def skipWhile (text : String) (p : Char → Bool) (i : Nat) : Scan Nat :=
  Loop.unbounded (fun i => do
    if i < size text then
      if p (← look text i) then return .inl (i + 1) else return .inr i
    else return .inr i) i

/-- One round looks at one byte, and the loop goes on behind it if the byte is in the class. -/
theorem skipWhile_unfold (text : String) (p : Char → Bool) (i : Nat) :
    skipWhile text p i = (do
      if i < size text then
        if p (← look text i) then skipWhile text p (i + 1) else return i
      else return i) := by
  rw [skipWhile, Loop.unbounded_eq]
  split
  · rw [bind_assoc]
    refine bind_congr fun c => ?_
    split <;> rfl
  · rfl

/-- The position behind a block comment that begins at `start`. -/
noncomputable def commentEnd (text : String) (start i : Nat) : Scan Nat :=
  Loop.unbounded (fun i => do
    if size text ≤ i + 1 then refuse text start .openComment
    else
      let c ← look text i
      let next ← look text (i + 1)
      if c = '*' ∧ next = '/' then return .inr (i + 2) else return .inl (i + 1)) i

/-- One round looks at two bytes for the end of the comment. -/
theorem commentEnd_unfold (text : String) (start i : Nat) :
    commentEnd text start i = (do
      if size text ≤ i + 1 then refuse text start .openComment
      else
        let c ← look text i
        let next ← look text (i + 1)
        if c = '*' ∧ next = '/' then return i + 2 else commentEnd text start (i + 1)) := by
  rw [commentEnd, Loop.unbounded_eq]
  split
  · exact refuse_bind _ _ _
  · rw [bind_assoc]
    refine bind_congr fun c => ?_
    rw [bind_assoc]
    refine bind_congr fun next => ?_
    split <;> rfl

/-- The bytes of a quoted string that begins at `start`, and the position behind it. A backslash is
dropped, and one byte behind it is taken as it is. -/
noncomputable def quoted (text : String) (start i : Nat) (buffer : Bytes) : Scan (Bytes × Nat) :=
  Loop.unbounded (fun (i, buffer) => do
    if size text ≤ i then refuse text start .openString
    else
      let b ← byte text i
      if Char.ofUInt8 b = '\\' ∧ i + 1 < size text then
        let escaped ← byte text (i + 1)
        return .inl (i + 2, buffer ++ [escaped])
      else if Char.ofUInt8 b = '"' then return .inr (buffer, i + 1)
      else return .inl (i + 1, buffer ++ [b])) (i, buffer)

/-- One round takes one byte into the string, or two if a backslash escapes the second. -/
theorem quoted_unfold (text : String) (start i : Nat) (buffer : Bytes) :
    quoted text start i buffer = (do
      if size text ≤ i then refuse text start .openString
      else
        let b ← byte text i
        if Char.ofUInt8 b = '\\' ∧ i + 1 < size text then
          let escaped ← byte text (i + 1)
          quoted text start (i + 2) (buffer ++ [escaped])
        else if Char.ofUInt8 b = '"' then return (buffer, i + 1)
        else quoted text start (i + 1) (buffer ++ [b])) := by
  rw [quoted, Loop.unbounded_eq]
  dsimp only
  split
  · exact refuse_bind _ _ _
  · rw [bind_assoc]
    refine bind_congr fun b => ?_
    split
    · rw [bind_assoc]
      rfl
    · split <;> rfl

/-- The end of the line that opens a multi-line string, which holds white space and perhaps a
comment. -/
noncomputable def openerEnd (text : String) (i : Nat) : Scan Nat :=
  Loop.unbounded (fun i => do
    if i < size text then
      let c ← look text i
      if c = '\n' then return .inr i
      else if c = '#' then return .inr (← skipWhile text (· != '\n') i)
      else if isSpace c then return .inl (i + 1)
      else refuse text i .textAfterOpener
    else return .inr i) i

/-- One round passes one blank, or what is left of the line if that is a comment. -/
theorem openerEnd_unfold (text : String) (i : Nat) :
    openerEnd text i = (do
      if i < size text then
        let c ← look text i
        if c = '\n' then return i
        else if c = '#' then skipWhile text (· != '\n') i
        else if isSpace c then openerEnd text (i + 1)
        else refuse text i .textAfterOpener
      else return i) := by
  rw [openerEnd, Loop.unbounded_eq]
  split
  · rw [bind_assoc]
    refine bind_congr fun c => ?_
    split
    · rfl
    split
    · rw [bind_assoc]
      exact bind_pure _
    split
    · rfl
    · exact refuse_bind _ _ _
  · rfl

/-- The offset of the first newline of a text. -/
def newline? (text : String) : Option Nat :=
  if '\n' ∈ text.toList then some (String.utf8Len (text.toList.takeWhile (· != '\n'))) else none

/-- A line without the dot that protects a dot at its front. -/
def unstuffed (line : String) : Scan String :=
  if ['.', '.'] <+: line.toList then slice line 1 (size line) else return line

/-- The contents of a multi-line string that begins at `start`, and the position behind it. -/
noncomputable def body (text : String) (start i : Nat) (contents : String) : Scan (String × Nat) :=
  Loop.unbounded (fun (i, contents) => do
    if size text ≤ i then refuse text start .openMultiline
    else
      let rest ← slice text i (size text)
      let stop := ((newline? rest).map (i + ·)).getD (size text)
      let line ← slice text i stop
      let line := String.ofList (Text.dropTrailing (· == '\r') line.toList)
      let next := min (stop + 1) (size text)
      if line = "." then return .inr (contents, next)
      else
        let line ← unstuffed line
        return .inl (next, contents ++ line ++ "\r\n")) (i, contents)

/-- One round takes one line into the string, without the dot that was stuffed in front. -/
theorem body_unfold (text : String) (start i : Nat) (contents : String) :
    body text start i contents = (do
      if size text ≤ i then refuse text start .openMultiline
      else
        let rest ← slice text i (size text)
        let stop := ((newline? rest).map (i + ·)).getD (size text)
        let line ← slice text i stop
        let line := String.ofList (Text.dropTrailing (· == '\r') line.toList)
        let next := min (stop + 1) (size text)
        if line = "." then return (contents, next)
        else
          let line ← unstuffed line
          body text start next (contents ++ line ++ "\r\n")) := by
  rw [body, Loop.unbounded_eq]
  dsimp only
  split
  · exact refuse_bind _ _ _
  · rw [bind_assoc]
    refine bind_congr fun rest => ?_
    rw [bind_assoc]
    refine bind_congr fun line => ?_
    split
    · rfl
    · rw [bind_assoc]
      rfl

/-- Whether the character `c` at a position opens a block comment. -/
def opensComment (text : String) (c : Char) (i : Nat) : Scan Bool := do
  if c = '/' ∧ i + 1 < size text then return (← look text (i + 1)) = '*' else return false

/-- Whether the character `c` at a position begins the mark of a multi-line string. -/
def opensMultiline (text : String) (c : Char) (i : Nat) : Scan Bool := do
  if (c = 't' ∨ c = 'T') ∧ i + 5 ≤ size text then
    let mark ← bytes text i (i + 5)
    return mark.map (fun b => lowerChar (Char.ofUInt8 b)) = ['t', 'e', 'x', 't', ':']
  else return false

/-- A multi-line string and the position behind it. -/
noncomputable def multiline (text : String) (start : Nat) : Scan (Option Token × Nat) := do
  let stop ← openerEnd text (start + 5)
  let first := if stop < size text then stop + 1 else stop
  let (contents, next) ← body text start first ""
  return (some (.multiline contents), next)

/-- The position behind the scale letter at a position, if there is one. -/
def scaleEnd (text : String) (i : Nat) : Scan Nat := do
  if i < size text then
    if isScale (← look text i) then return i + 1 else return i
  else return i

/-- The token at a position, or none for a stretch to skip, and the position behind it. -/
noncomputable def piece (text : String) (start : Nat) : Scan (Option Token × Nat) := do
  let c ← look text start
  if isSpace c then return (none, start + 1)
  else
    match punctuation? c with
    | some token => return (some token, start + 1)
    | none =>
      if c = '#' then return (none, ← skipWhile text (· != '\n') start)
      else if ← opensComment text c start then return (none, ← commentEnd text start (start + 2))
      else if c = '"' then
        let (buffer, stop) ← quoted text start (start + 1) []
        return (some (.quoted (← decode buffer)), stop)
      else if ← opensMultiline text c start then multiline text start
      else if c = ':' then
        let stop ← skipWhile text isWordChar (start + 1)
        if stop = start + 1 then refuse text start .emptyTag
        else return (some (.tag (Ascii.lower (← slice text start stop))), stop)
      else if isDigit c then
        let stop ← scaleEnd text (← skipWhile text isDigit start)
        return (some (.number (← slice text start stop)), stop)
      else if isLetter c || c == '_' then
        let stop ← skipWhile text isWordChar start
        return (some (.identifier (← slice text start stop)), stop)
      else
        let rest ← slice text start (size text)
        refuse text start (.unexpectedChar (rest.toList.head?.getD '?'))

/-- The tokens from a position on, behind those found before it. -/
noncomputable def tokensFrom (text : String) (i : Nat) (found : List Span) : Scan (List Span) :=
  Loop.unbounded (fun (i, found) => do
    if i < size text then
      match ← piece text i with
      | (none, next) => return .inl (next, found)
      | (some token, next) =>
        let (line, column) ← position text i
        let length ← difference next i
        return .inl (next, found ++ [⟨token, ⟨i, line, column⟩, length⟩])
    else return .inr found) (i, found)

/-- One round reads one piece, and adds its token if it has one. -/
theorem tokensFrom_unfold (text : String) (i : Nat) (found : List Span) :
    tokensFrom text i found = (do
      if i < size text then
        match ← piece text i with
        | (none, next) => tokensFrom text next found
        | (some token, next) =>
          let (line, column) ← position text i
          let length ← difference next i
          tokensFrom text next (found ++ [⟨token, ⟨i, line, column⟩, length⟩])
      else return found) := by
  rw [tokensFrom, Loop.unbounded_eq]
  dsimp only
  split
  · rw [bind_assoc]
    refine bind_congr fun (token?, next) => ?_
    cases token? with
    | none => rfl
    | some token =>
      dsimp only
      rw [bind_assoc]
      refine bind_congr fun (line, column) => ?_
      dsimp only
      rw [bind_assoc]
      rfl
  · rfl

/-- The tokens of a script, read by positions. -/
noncomputable def tokenize (text : String) : Scan (List Span) :=
  tokensFrom text 0 []

end MailFilter.Script.Bytewise
