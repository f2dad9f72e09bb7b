import MailFilter.Action
import MailFilter.Delivery.Basic
import MailFilter.Delivery.Notice
import MailFilter.Evaluation.Event
import MailFilter.Store.Basic

/-!
# Dispatch

Dispatch carries out the actions of an evaluation in order, for the only recipient of a delivery.
What each action comes to is a plan that depends on the delivery alone; carrying it out means
leaving its events and handing at most one consignment to the store. The first failure ends the
rest, and what was done before it stays done.
-/

namespace MailFilter

/-- What an action comes to: events to leave, and what to hand to the store, if anything. -/
structure Plan where
  events : List Event
  consignment : Option Consignment
  deriving DecidableEq

namespace Delivery

/-- The notice that tells the sender of a message about its rejection. -/
def rejection (delivery : Delivery) (recipient sender text : String) : Notice where
  sender := recipient
  recipient := sender
  subject := "Message rejected: " ++ delivery.subject.getD "(no subject)"
  answered := delivery.messageId
  mime := false
  body := text

/-- The subject of a vacation reply. -/
def replySubject (delivery : Delivery) (reply : Vacation) : String :=
  match reply.subject, delivery.subject with
  | some subject, _ => subject
  | none, some answered => "Auto: " ++ answered
  | none, none => "Automated reply"

/-- The notice that tells the sender of a message about an absence. -/
def absence (delivery : Delivery) (reply : Vacation) (recipient sender : String) : Notice where
  sender := reply.sender.getD recipient
  recipient := sender
  subject := delivery.replySubject reply
  answered := delivery.messageId
  mime := reply.mime
  body := reply.reason

/-- What a rejection comes to. There is nobody to tell if the message has no sender. -/
def planReject (delivery : Delivery) (recipient text : String) : Plan :=
  match delivery.sender with
  | none => ⟨[.rejectSkipped .noSender], none⟩
  | some sender =>
    ⟨[], some (.reply recipient [sender] (delivery.rejection recipient sender text).text)⟩

/-- What a vacation reply comes to. Programs are not answered, nor are messages that were not sent
to the recipient openly. -/
def planVacation (delivery : Delivery) (recipient : String) (reply : Vacation) : Plan :=
  match delivery.sender with
  | none => ⟨[.vacationSkipped .noSender], none⟩
  | some sender =>
    if delivery.autoSubmitted then ⟨[.vacationSkipped .autoSubmitted], none⟩
    else if !delivery.isAddressedTo recipient reply.addresses then
      ⟨[.vacationSkipped .notAddressed], none⟩
    else
      let notice := delivery.absence reply recipient sender
      ⟨[.vacationReplied reply.days (reply.handle.getD "")],
        some (.reply notice.sender [sender] notice.text)⟩

/-- What an action for a recipient comes to. -/
def plan (delivery : Delivery) (inbox recipient : String) : Action → Plan
  | .keep => ⟨[], some (.delivery recipient inbox delivery.message)⟩
  | .fileInto folder => ⟨[], some (.delivery recipient folder delivery.message)⟩
  | .redirect address => ⟨[], some (.forward delivery.sender [address] delivery.message)⟩
  | .reject text => delivery.planReject recipient text
  | .vacation reply => delivery.planVacation recipient reply

end Delivery

/-- A delivery being dispatched, and the events so far. -/
structure Transit where
  delivery : Delivery
  events : List Event

/-- Leaves events in the trace. -/
def Transit.note (transit : Transit) (events : List Event) : Transit :=
  { transit with events := transit.events ++ events }

/-- Admits an action: there is one recipient, and the message has not come round. The markers are
set here, whatever becomes of the action. -/
def Transit.admission (transit : Transit) (action : Action) : Except Fault String × Transit :=
  match transit.delivery.soleRecipient action.name with
  | .error fault => (.error fault, transit)
  | .ok recipient =>
    if action.isLoopSensitive then
      match transit.delivery.markers.checkAndMark action.name recipient with
      | .error fault => (.error fault, transit.note [.loopDetected action.name recipient])
      | .ok markers =>
        let delivery := { transit.delivery with markers := markers }
        (.ok recipient, { transit with delivery := delivery }.note
          [.dispatched action.name recipient])
    else (.ok recipient, transit.note [.dispatched action.name recipient])

/-- Carries out actions in order. -/
def dispatch {m : Type → Type} [Monad m] (store : MailStore m) (inbox : String)
    (transit : Transit) : List Action → m (Except Fault Unit × Transit)
  | [] => return (.ok (), transit)
  | action :: actions =>
    match transit.admission action with
    | (.error fault, transit) => return (.error fault, transit)
    | (.ok recipient, transit) => do
      let plan := transit.delivery.plan inbox recipient action
      let transit := transit.note plan.events
      match plan.consignment with
      | none => dispatch store inbox transit actions
      | some consignment =>
        match ← store.submit consignment with
        | .error fault => return (.error fault, transit)
        | .ok () => dispatch store inbox transit actions

end MailFilter
