import MailFilter.Json

/-!
# Actions

Evaluating a script does nothing to the outside; it appends actions to a list, which are carried out
afterwards. An action is exchanged as a JSON object whose field `action` says which it is.
-/

namespace MailFilter

/-- What an automatic reply is to say, and to whom it may go. -/
structure Vacation where
  /-- The least number of days between two replies to one sender. -/
  days : Nat
  subject : Option String
  sender : Option String
  /-- Further addresses of the recipient: a reply needs one of them, or the recipient itself, among
  the addresses the message was sent to. -/
  addresses : List String
  /-- Whether the reason carries its own MIME headers. -/
  mime : Bool
  /-- The name under which the host keeps count of replies. -/
  handle : Option String
  reason : String
  deriving DecidableEq, Inhabited

/-- An effect to be carried out after an evaluation. -/
inductive Action where
  | keep
  | fileInto (folder : String)
  | redirect (address : String)
  | reject (text : String)
  | vacation (vacation : Vacation)
  deriving DecidableEq, Inhabited

namespace Action

/-- The name of an action, which is also its tag in JSON. -/
def name : Action → String
  | keep => "keep"
  | fileInto _ => "fileinto"
  | redirect _ => "redirect"
  | reject _ => "reject"
  | vacation _ => "vacation"

/-- Whether an action sends mail back out, so that a message could come round again. -/
def isLoopSensitive : Action → Bool
  | keep => false
  | fileInto _ => false
  | redirect _ => true
  | reject _ => true
  | vacation _ => true

/-- The JSON form of an action. -/
def toJson (action : Action) : Json :=
  let tag := ("action", Json.string action.name)
  match action with
  | keep => .object [tag]
  | fileInto folder => .object [tag, ("destination", .string folder)]
  | redirect address => .object [tag, ("address", .string address)]
  | reject text => .object [tag, ("message", .string text)]
  | vacation reply =>
    .object [tag, ("days", .nat reply.days), ("subject", .optional reply.subject),
      ("from", .optional reply.sender), ("addresses", .strings reply.addresses),
      ("mime", .bool reply.mime), ("handle", .optional reply.handle),
      ("reason", .string reply.reason)]

/-- A text that may be missing or null, but nothing else. -/
def optionalText? : Option Json → Option (Option String)
  | none => some none
  | some .null => some none
  | some (.string text) => some (some text)
  | some _ => none

/-- The fields of the action of a given tag, in order. -/
def fieldNames : String → List String
  | "fileinto" => ["destination"]
  | "redirect" => ["address"]
  | "reject" => ["message"]
  | "vacation" => ["days", "subject", "from", "addresses", "mime", "handle", "reason"]
  | _ => []

/-- The action of a tag and the values of its fields, in order. -/
def ofFields? (tag : String) (values : List (Option Json)) : Option Action :=
  match tag, values with
  | "keep", [] => some keep
  | "fileinto", [some folder] => return fileInto (← folder.string?)
  | "redirect", [some address] => return redirect (← address.string?)
  | "reject", [some text] => return reject (← text.string?)
  | "vacation", [some days, subject, sender, some addresses, some mime, handle, some reason] =>
    return vacation {
      days := ← days.nat?
      subject := ← optionalText? subject
      sender := ← optionalText? sender
      addresses := ← addresses.strings?
      mime := ← mime.bool?
      handle := ← optionalText? handle
      reason := ← reason.string? }
  | _, _ => none

/-- The action of a JSON form: an object, or an array of the tag and every field in order. -/
def ofJson? : Json → Option Action
  | .object fields => do
    let tag ← (← (← Json.uniqueField? fields "action")).string?
    ofFields? tag (← (Json.object fields).record? (fieldNames tag))
  | .array (.string tag :: items) =>
    if items.length = (fieldNames tag).length then ofFields? tag (items.map some) else none
  | _ => none

end Action

end MailFilter
