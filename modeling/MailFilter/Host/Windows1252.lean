import MailFilter.Text.Utf8

/-!
# The character set windows-1252

Each byte is one character. Below 0x80 and from 0xA0 on, the byte is the code point; between them
stand typographic characters, and five bytes stand for none.
-/

namespace MailFilter.Host.Windows1252

/-- The characters of the bytes 0x80 to 0x9F, in order. -/
def middle : List Char :=
  ['\u20ac', '\ufffd', '\u201a', '\u0192', '\u201e', '\u2026', '\u2020', '\u2021',
    '\u02c6', '\u2030', '\u0160', '\u2039', '\u0152', '\ufffd', '\u017d', '\ufffd',
    '\ufffd', '\u2018', '\u2019', '\u201c', '\u201d', '\u2022', '\u2013', '\u2014',
    '\u02dc', '\u2122', '\u0161', '\u203a', '\u0153', '\ufffd', '\u017e', '\u0178']

/-- The character of one byte. -/
def decodeByte (b : UInt8) : Char :=
  if b.toNat < 0x80 ∨ 0xA0 ≤ b.toNat then Char.ofNat b.toNat
  else middle.getD (b.toNat - 0x80) '\ufffd'

/-- The text of some bytes. -/
def decode (bytes : Bytes) : String :=
  String.ofList (bytes.map decodeByte)

end MailFilter.Host.Windows1252
