import MailFilter.Delivery.Dispatch
import MailFilter.Store.Recorded

/-!
# Which actions are admitted

An action is admitted if the delivery has one recipient and the message has not come round for it.
Nothing but an admission changes the markers, and it changes only the one of its own kind. What an
admitted action comes to depends neither on the markers nor on the trace.
-/

namespace MailFilter

/-- The kinds of actions that send mail, which are those with a marker. -/
def Action.markedKinds : List String := ["redirect", "reject", "vacation"]

/-- The actions that can loop are those of the kinds that are marked. -/
theorem Action.isLoopSensitive_iff {action : Action} :
    action.isLoopSensitive = true ↔ action.name ∈ markedKinds := by
  cases action <;> simp [isLoopSensitive, name, markedKinds]

/-- A text agrees with itself. -/
theorem Ascii.eqIgnoreCase_self (s : String) : eqIgnoreCase s s = true :=
  beq_self_eq_true _

namespace LoopMarkers

/-- Whether the message has come round for an action. -/
def refuses (markers : LoopMarkers) (recipient : String) (action : Action) : Bool :=
  action.isLoopSensitive && markers.isMarked action.name recipient

/-- The markers once an action has been admitted. -/
def admitting (markers : LoopMarkers) (recipient : String) (action : Action) : LoopMarkers :=
  if action.isLoopSensitive then markers.mark action.name recipient else markers

/-- An action that is admitted sets the marker of its own kind, if that kind has one. -/
theorem recipient?_admitting (markers : LoopMarkers) (recipient : String) (action : Action)
    (kind : String) :
    (markers.admitting recipient action).recipient? kind =
      if action.isLoopSensitive ∧ action.name = kind then some recipient
      else markers.recipient? kind := by
  rw [admitting]
  by_cases hsensitive : action.isLoopSensitive = true
  · rw [if_pos hsensitive, recipient?, mark, NameTable.find?_insert]
    simp only [hsensitive, true_and]
    rfl
  · rw [if_neg hsensitive, if_neg fun h => hsensitive h.1]

/-- An action that is admitted marks its recipient under its own kind, and takes no mark away. -/
theorem isMarked_admitting (markers : LoopMarkers) (recipient : String) (action : Action)
    (kind : String) :
    (markers.admitting recipient action).isMarked kind recipient =
      ((action.isLoopSensitive && action.name == kind) || markers.isMarked kind recipient) := by
  rw [isMarked, isMarked, recipient?_admitting]
  by_cases hkind : action.isLoopSensitive ∧ action.name = kind
  · simp [hkind, Ascii.eqIgnoreCase_self]
  · rw [if_neg hkind]
    simp_all

end LoopMarkers

namespace Transit

/-- A delivery whose action has been admitted. -/
def admitted (transit : Transit) (recipient : String) (action : Action) : Transit where
  delivery := { transit.delivery with
    markers := transit.delivery.markers.admitting recipient action }
  events := transit.events ++ [.dispatched action.name recipient]

variable {transit : Transit} {recipient : String}

/-- For a single recipient an action is refused just if the message has come round for it. -/
theorem admission_of_sole (hsole : transit.delivery.recipients = [recipient]) (action : Action) :
    transit.admission action =
      if transit.delivery.markers.refuses recipient action then
        (.error (.loopDetected action.name recipient),
          transit.note [.loopDetected action.name recipient])
      else (.ok recipient, transit.admitted recipient action) := by
  have hrecipient : transit.delivery.soleRecipient action.name = .ok recipient := by
    rw [Delivery.soleRecipient, hsole]
  rw [admission, hrecipient]
  dsimp only
  by_cases hsensitive : action.isLoopSensitive = true
  · by_cases hmarked : transit.delivery.markers.isMarked action.name recipient = true <;>
      simp [hsensitive, hmarked, LoopMarkers.checkAndMark, LoopMarkers.refuses, admitted,
        LoopMarkers.admitting, note]
  · simp [hsensitive, LoopMarkers.refuses, admitted, LoopMarkers.admitting, note]

/-- Without a single recipient every action is refused, and nothing else happens. -/
theorem admission_of_not_sole (hsole : ∀ recipient, transit.delivery.recipients ≠ [recipient])
    (action : Action) :
    transit.admission action =
      (.error (.recipients action.name transit.delivery.recipients.length), transit) := by
  have hrecipient : transit.delivery.soleRecipient action.name =
      .error (.recipients action.name transit.delivery.recipients.length) := by
    rw [Delivery.soleRecipient]
    split
    · next found hfound => exact absurd hfound (hsole found)
    · rfl
  rw [admission, hrecipient]

end Transit

/-- What has been recorded once a plan has been carried out. -/
def RecordedMail.carryOut (mail : RecordedMail) (plan : Plan) : RecordedMail :=
  plan.consignment.elim mail mail.add

/-- A delivery whose action has been carried out. -/
def Transit.carriedOut (transit : Transit) (inbox recipient : String) (action : Action) : Transit :=
  (transit.admitted recipient action).note (transit.delivery.plan inbox recipient action).events

section

variable {transit : Transit} {recipient : String} {action : Action}

/-- A refused action ends the dispatch and leaves delivery and store as they were. -/
theorem dispatch_run_refused {fault : Fault} {after : Transit}
    (hrefused : transit.admission action = (.error fault, after)) (inbox : String)
    (actions : List Action) (mail : RecordedMail) :
    (dispatch RecordedMail.store inbox transit (action :: actions)).run mail =
      ((.error fault, after), mail) := by
  rw [dispatch, hrefused]
  rfl

/-- The recording store takes everything, so the dispatch goes on behind an admitted action. -/
theorem dispatch_run_admitted
    (hadmitted : transit.admission action = (.ok recipient, transit.admitted recipient action))
    (inbox : String) (actions : List Action) (mail : RecordedMail) :
    (dispatch RecordedMail.store inbox transit (action :: actions)).run mail =
      (dispatch RecordedMail.store inbox (transit.carriedOut inbox recipient action) actions).run
        (mail.carryOut (transit.delivery.plan inbox recipient action)) := by
  have hplan : (transit.admitted recipient action).delivery.plan inbox recipient action =
      transit.delivery.plan inbox recipient action := by
    cases action <;> rfl
  rw [dispatch, hadmitted]
  dsimp only
  rw [hplan, RecordedMail.carryOut, Transit.carriedOut]
  cases (transit.delivery.plan inbox recipient action).consignment <;> rfl

end

end MailFilter
