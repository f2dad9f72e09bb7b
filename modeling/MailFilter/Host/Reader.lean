import MailFilter.Host.AddressList
import MailFilter.Host.HeaderBlock
import MailFilter.Host.HeaderText
import MailFilter.Host.Windows1252

/-!
# The library of the host

The program runs with a library that reads the forms of RFC 5322 and RFC 2047. Of the character sets
for encoded words the host names those that windows-1252 contains; words of all others are read as
UTF-8.
-/

namespace MailFilter.Host

/-- The library for some character sets. -/
@[reducible] def libraryFor (charsets : Charsets) : MailReader where
  index? := HeaderBlock.index?
  text? := HeaderText.decode? charsets
  entries? bytes := some (AddressList.entries charsets bytes)

/-- The character sets of the host. -/
def charsets : Charsets := fun name =>
  if ["us-ascii", "iso-8859-1", "windows-1252"].contains name then some Windows1252.decode else none

/-- The library that the program runs with. -/
instance library : MailReader :=
  libraryFor charsets

end MailFilter.Host
