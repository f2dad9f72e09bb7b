import MailFilter.Fault
import MailFilter.Json
import MailFilter.Match.Mode

/-!
# Events

Evaluation and dispatch leave a trace of what they did, for logs. An event says what happened; its
weight and the fields a log shows follow from that.
-/

namespace MailFilter

/-- The weight of an event in a log. -/
inductive EventLevel where
  | trace
  | debug
  | info
  | warn
  | error
  deriving DecidableEq, Inhabited

/-- The word for a weight. -/
def EventLevel.text : EventLevel → String
  | trace => "TRACE"
  | debug => "DEBUG"
  | info => "INFO"
  | warn => "WARN"
  | error => "ERROR"

/-- Why a reply was not sent. -/
inductive SkipReason where
  | noSender
  | autoSubmitted
  | notAddressed
  deriving DecidableEq, Inhabited

/-- The wording of a reason. -/
def SkipReason.text : SkipReason → String
  | noSender => "no sender"
  | autoSubmitted => "auto-submitted"
  | notAddressed => "not addressed"

/-- Something that happened. -/
inductive Event where
  | started (size : Nat)
  | finished (actions steps : Nat)
  | failed (fault : Fault)
  | commandReady (name : String) (line : Nat)
  | testDone (name : String) (line : Nat) (result : Bool)
  | acted (name : String) (line : Nat)
  | vacationActed (days line : Nat)
  | implicitKeep
  | discarded (line : Nat)
  | logged (level : LogLevel) (line : Nat) (text : String)
  | dispatched (action recipient : String)
  | loopDetected (action recipient : String)
  | rejectSkipped (reason : SkipReason)
  | vacationSkipped (reason : SkipReason)
  | vacationReplied (days : Nat) (handle : String)
  deriving DecidableEq

namespace Event

/-- The weight of a line that a script logs. -/
def levelOfLog : LogLevel → EventLevel
  | .fatal => .error
  | .error => .error
  | .warn => .warn
  | .info => .info
  | .debug => .debug
  | .trace => .trace

/-- The weight of an event. -/
def level : Event → EventLevel
  | started .. => .debug
  | finished .. => .debug
  | failed .. => .warn
  | commandReady .. => .trace
  | testDone .. => .trace
  | acted .. => .debug
  | vacationActed .. => .debug
  | implicitKeep => .debug
  | discarded .. => .debug
  | logged level .. => levelOfLog level
  | dispatched .. => .info
  | loopDetected .. => .warn
  | rejectSkipped .. => .info
  | vacationSkipped .. => .info
  | vacationReplied .. => .debug

/-- A field that names the event. -/
def named (name : String) : String × Json :=
  ("event", .string name)

/-- The fields that a log shows. A line that a script logs is its own text and has no name. -/
def fields : Event → List (String × Json)
  | started size => [named "start", ("size", .nat size)]
  | finished actions steps => [named "end", ("actions", .nat actions), ("steps", .nat steps)]
  | failed fault =>
    [named "error", ("kind", .string fault.kind), ("reason", .string fault.message)]
  | commandReady name line => [named "command", ("command", .string name), ("line", .nat line)]
  | testDone name line result =>
    [named "test", ("test", .string name), ("line", .nat line), ("result", .bool result)]
  | acted name line => [named "action", ("action", .string name), ("line", .nat line)]
  | vacationActed days line =>
    [named "action", ("action", .string "vacation"), ("days", .nat days), ("line", .nat line)]
  | implicitKeep => [named "action", ("action", .string "keep"), ("implicit", .bool true)]
  | discarded line => [named "discard", ("line", .nat line)]
  | logged level line text =>
    (if level = .fatal then [("fatal", .bool true)] else []) ++
      [("line", .nat line), ("message", .string text)]
  | dispatched action recipient =>
    [named "dispatch", ("action", .string action), ("recipient", .string recipient)]
  | loopDetected action recipient =>
    [named "loop-detected", ("action", .string action), ("recipient", .string recipient)]
  | rejectSkipped reason => [named "reject-skipped", ("reason", .string reason.text)]
  | vacationSkipped reason => [named "vacation-skipped", ("reason", .string reason.text)]
  | vacationReplied days handle =>
    [named "vacation", ("days", .nat days), ("handle", .string handle)]

end Event

end MailFilter
