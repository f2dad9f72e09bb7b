import MailFilter.Text.Utf8

/-!
# Tokens with blanks inside

Header readers collect runs of bytes. A run goes from its first to its last byte that counts;
bytes that do not count belong to it only if another that does comes behind them.
-/

namespace MailFilter.Host

/-- A run of bytes that is still open: its bytes so far, in reverse, and behind them those that
belong to it only if it goes on, in reverse too. No bytes at all mean that no run is open. -/
structure OpenToken where
  bytes : Bytes
  gap : Bytes
  deriving DecidableEq

namespace OpenToken

/-- No run. -/
def none : OpenToken := ⟨[], []⟩

/-- Whether a run is open. -/
def isOpen (token : OpenToken) : Bool :=
  !token.bytes.isEmpty

/-- The run that goes on to `b`, or that `b` opens. -/
def extend (token : OpenToken) (b : UInt8) : OpenToken :=
  ⟨b :: (token.gap ++ token.bytes), []⟩

/-- The run behind which `b` stands without belonging to it yet. -/
def skip (token : OpenToken) (b : UInt8) : OpenToken :=
  if token.isOpen then ⟨token.bytes, b :: token.gap⟩ else token

/-- The run with the bytes behind it taken in. -/
def takeGap (token : OpenToken) : OpenToken :=
  ⟨token.gap ++ token.bytes, []⟩

/-- The text of a run. -/
def text (token : OpenToken) : String :=
  Utf8.decodeLossy token.bytes.reverse

end OpenToken

end MailFilter.Host
