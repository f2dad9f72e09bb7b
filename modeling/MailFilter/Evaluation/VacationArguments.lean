import MailFilter.Action
import MailFilter.Fault

/-!
# The arguments of `vacation`

The command takes tags, some with a value behind them, in any order and as often as one likes, and
last the reason for the absence. Of a repeated tag the last value counts.
-/

namespace MailFilter

/-- What a tag of `vacation` sets. -/
inductive VacationTag where
  | days
  | subject
  | sender
  | handle
  | addresses
  | mime
  deriving DecidableEq

/-- What a tag sets, if it is one of `vacation`. -/
def VacationTag.ofTag? : String → Option VacationTag
  | ":days" => some days
  | ":subject" => some subject
  | ":from" => some sender
  | ":handle" => some handle
  | ":addresses" => some addresses
  | ":mime" => some mime
  | _ => none

namespace Vacation

/-- The reply of a command without tags: after a week, to the recipient's own address, with a
subject and a sender that dispatch chooses. -/
def plain : Vacation where
  days := 7
  subject := none
  sender := none
  addresses := []
  mime := false
  handle := none
  reason := ""

/-- The reply that the rest of some arguments describes, given what those before have set. A reply
is never sent more than once a day. -/
def ofArguments (reply : Vacation) : List Argument → Except ArgumentCause Vacation
  | [] => .error .reasonMissing
  | .string reason :: rest =>
    if rest.isEmpty then .ok { reply with reason := reason } else .error .argumentAfterReason
  | .tag tag :: rest =>
    match VacationTag.ofTag? tag with
    | some .days =>
      match rest with
      | .number days :: rest => ofArguments { reply with days := max days 1 } rest
      | _ => .error .daysExpected
    | some .subject =>
      match rest with
      | .string subject :: rest => ofArguments { reply with subject := some subject } rest
      | _ => .error (.tagValueExpected tag)
    | some .sender =>
      match rest with
      | .string sender :: rest => ofArguments { reply with sender := some sender } rest
      | _ => .error (.tagValueExpected tag)
    | some .handle =>
      match rest with
      | .string handle :: rest => ofArguments { reply with handle := some handle } rest
      | _ => .error (.tagValueExpected tag)
    | some .addresses =>
      match rest with
      | .string address :: rest => ofArguments { reply with addresses := [address] } rest
      | .strings addresses :: rest => ofArguments { reply with addresses := addresses } rest
      | _ => .error .addressesExpected
    | some .mime => ofArguments { reply with mime := true } rest
    | none => .error (.unknownTag tag)
  | other :: _ => .error (.unexpectedArgument other)

end Vacation

end MailFilter
