import MailFilter.Text.Quoted

/-!
# Tokens of a script

A script is cut into words, tags, numbers, strings and punctuation. Every token keeps the place
where it begins, so that a fault can point at it. Columns and offsets count bytes of the UTF-8
form, because that is how editors of mail scripts jump to them.
-/

namespace MailFilter.Script

/-- The smallest meaningful unit of a script. -/
inductive Token where
  /-- A word after a colon, such as `:contains`, colon included and in lower case. -/
  | tag (text : String)
  /-- A bare word, such as `header`, as it was written. -/
  | identifier (text : String)
  /-- A string between double quotes, its escapes resolved. -/
  | quoted (text : String)
  /-- A string after `text:`, its doubled dots reduced and its lines ended by CRLF. -/
  | multiline (text : String)
  /-- Digits with an optional scale letter, as they were written. -/
  | number (text : String)
  | semicolon
  | comma
  | leftParen
  | rightParen
  | leftBrace
  | rightBrace
  | leftBracket
  | rightBracket
  deriving DecidableEq, Inhabited

namespace Token

/-- The way a message about unexpected input names a token. -/
def describe : Token → String
  | tag text => "Tag(" ++ Text.quoted text ++ ")"
  | identifier text => "Identifier(" ++ Text.quoted text ++ ")"
  | quoted text => "QuotedString(" ++ Text.quoted text ++ ")"
  | multiline text => "MultiLineString(" ++ Text.quoted text ++ ")"
  | number text => "Number(" ++ Text.quoted text ++ ")"
  | semicolon => "Semicolon"
  | comma => "Comma"
  | leftParen => "LParen"
  | rightParen => "RParen"
  | leftBrace => "LBrace"
  | rightBrace => "RBrace"
  | leftBracket => "LBracket"
  | rightBracket => "RBracket"

/-- The contents of a string token of either form. -/
def string? : Token → Option String
  | quoted text => some text
  | multiline text => some text
  | _ => none

end Token

/-- A position in a text: the bytes before it, its line and its column, the last two from one. -/
structure Place where
  offset : Nat
  line : Nat
  column : Nat
  deriving DecidableEq, Inhabited

namespace Place

/-- The position before the first character. -/
def start : Place := ⟨0, 1, 1⟩

/-- The position after one more character. A newline opens the next line. -/
def step (place : Place) (c : Char) : Place :=
  if c = '\n' then ⟨place.offset + 1, place.line + 1, 1⟩
  else ⟨place.offset + c.utf8Size, place.line, place.column + c.utf8Size⟩

/-- The position after a stretch of text. -/
def advance (place : Place) (text : List Char) : Place :=
  text.foldl step place

/-- Nothing is passed in an empty text. -/
@[simp] theorem advance_nil (place : Place) : place.advance [] = place := rfl

/-- A text is passed character by character. -/
@[simp] theorem advance_cons (place : Place) (c : Char) (text : List Char) :
    place.advance (c :: text) = (place.step c).advance text := rfl

/-- Two texts are passed one after the other. -/
theorem advance_append (place : Place) (front back : List Char) :
    place.advance (front ++ back) = (place.advance front).advance back :=
  List.foldl_append

end Place

/-- A token with the place where it begins and the number of bytes it is written with. -/
structure Span where
  token : Token
  place : Place
  size : Nat
  deriving DecidableEq, Inhabited

end MailFilter.Script
