import Mathlib.Data.List.Chain
import MailFilter.Host.Reader
import MailFilter.Proofs.Delivery.Effects
import MailFilter.Proofs.Evaluation.Changes

/-!
# Loop protection

The marker of a kind of actions is the recipient of the last action of that kind that has passed the
check. So of the actions of one kind that pass, no two in a row are for the same recipient, however
many runs a delivery goes through, whatever their scripts do and whoever the recipients of each run
are. Passages compose; so this is shown for one action, and follows for a dispatch, for a run and
for any sequence of runs.
-/

namespace MailFilter

namespace Event

/-- The recipient for whom an event says that an action of a kind has passed the check. -/
def passed? (kind : String) : Event → Option String
  | dispatched action recipient => if action = kind then some recipient else none
  | _ => none

/-- The recipients for whom actions of a kind have passed the check, in order. -/
def passes (kind : String) (events : List Event) : List String :=
  events.filterMap (passed? kind)

/-- What has passed in two lists of events follows each other. -/
theorem passes_append (kind : String) (events more : List Event) :
    passes kind (events ++ more) = passes kind events ++ passes kind more :=
  List.filterMap_append

/-- Nothing passes the check while a script is evaluated. -/
theorem passes_of_isStep {event : Event} (h : event.isStep = true) (kind : String) :
    passes kind [event] = [] := by
  cases event with
  | dispatched _ _ => cases h
  | _ => rfl

end Event

/-- The last recipient of the actions of a kind, and those for whom further ones have passed. -/
def LoopMarkers.trail (markers : LoopMarkers) (kind : String) (passed : List String) :
    List String :=
  (markers.recipient? kind).toList ++ passed

/-- Between two states of a delivery, actions of a kind have passed for some recipients. No two in a
row, the one before them included, are the same, and the last of them is the marker of the kind. -/
structure Passage (kind : String) (before after : Transit) (passed : List String) : Prop where
  passes : Event.passes kind after.events = Event.passes kind before.events ++ passed
  apart : (before.delivery.markers.trail kind passed).IsChain
    fun last next => Ascii.eqIgnoreCase last next = false
  last : after.delivery.markers.recipient? kind =
    (before.delivery.markers.trail kind passed).getLast?

namespace Passage

variable {kind : String} {before middle after : Transit} {passed more : List String}

/-- Where nothing has passed, the marker is as it was. -/
theorem of_eq (hpasses : Event.passes kind after.events = Event.passes kind before.events)
    (hmarker : after.delivery.markers.recipient? kind = before.delivery.markers.recipient? kind) :
    Passage kind before after [] where
  passes := by rw [hpasses, List.append_nil]
  apart := by
    rw [LoopMarkers.trail]
    cases before.delivery.markers.recipient? kind <;> simp
  last := by
    rw [hmarker, LoopMarkers.trail]
    cases before.delivery.markers.recipient? kind <;> rfl

/-- Two passages one behind the other are one. -/
theorem trans (hfirst : Passage kind before middle passed)
    (hsecond : Passage kind middle after more) : Passage kind before after (passed ++ more) := by
  have hsplit : before.delivery.markers.trail kind (passed ++ more) =
      before.delivery.markers.trail kind passed ++ more := (List.append_assoc ..).symm
  have hend (trail : List String) : trail.getLast?.toList.getLast? = trail.getLast? := by
    cases trail.getLast? <;> rfl
  -- The marker in between is the end of the first trail, which is where the second one begins.
  have hrest := hsecond.apart
  have hlast := hsecond.last
  rw [LoopMarkers.trail, hfirst.last] at hrest hlast
  rw [List.isChain_append, hend] at hrest
  refine ⟨?_, ?_, ?_⟩
  · rw [hsecond.passes, hfirst.passes, List.append_assoc]
  · rw [hsplit, List.isChain_append]
    exact ⟨hfirst.apart, hrest.2⟩
  · rw [hsplit, hlast, List.getLast?_append, List.getLast?_append, hend]

/-- What passes in a run of its own also passes behind the events of earlier runs. -/
theorem behind {delivery : Delivery} (h : Passage kind ⟨delivery, []⟩ after passed)
    (hmarkers : before.delivery.markers = delivery.markers) :
    Passage kind before ⟨after.delivery, before.events ++ after.events⟩ passed where
  passes := by
    rw [Event.passes_append, h.passes]
    rfl
  apart := by
    rw [hmarkers]
    exact h.apart
  last := by
    rw [hmarkers]
    exact h.last

/-- Actions that all pass for one recipient are at most one. -/
theorem length_le_one (h : Passage kind before after passed)
    (hsame : ∀ first ∈ passed, ∀ second ∈ passed, first = second) : passed.length ≤ 1 := by
  have hapart := (List.isChain_append.mp h.apart).2.1
  match passed with
  | [] => exact Nat.zero_le 1
  | [_] => exact Nat.le_refl 1
  | first :: second :: _ =>
    have heq : first = second :=
      hsame first List.mem_cons_self second (List.mem_cons_of_mem _ List.mem_cons_self)
    have hne := (List.isChain_cons_cons.mp hapart).1
    rw [heq, Ascii.eqIgnoreCase_self] at hne
    cases hne

end Passage

namespace Transit

variable {transit : Transit} {recipient : String} {action : Action} {kind : String}

/-- Nothing passes the check while an action is carried out. -/
theorem passes_plan (delivery : Delivery) (inbox recipient : String) (action : Action)
    (kind : String) : Event.passes kind (delivery.plan inbox recipient action).events = [] := by
  cases action with
  | keep | fileInto _ | redirect _ => rfl
  | reject text =>
    rw [Delivery.plan, Delivery.planReject]
    cases delivery.sender <;> rfl
  | vacation reply =>
    rw [Delivery.plan, Delivery.planVacation]
    cases delivery.sender with
    | none => rfl
    | some sender =>
      dsimp only
      split
      · rfl
      split <;> rfl

/-- Events in which nothing has passed leave what had passed. -/
theorem passes_note {events : List Event} (h : Event.passes kind events = []) :
    Event.passes kind (transit.note events).events = Event.passes kind transit.events := by
  rw [note, Event.passes_append, h, List.append_nil]

/-- An action that is admitted has passed for its recipient. -/
theorem passes_admitted : Event.passes kind (transit.admitted recipient action).events =
    Event.passes kind transit.events ++ if action.name = kind then [recipient] else [] := by
  rw [admitted, Event.passes_append]
  by_cases hname : action.name = kind <;> simp [Event.passes, Event.passed?, hname]

/-- An action that is not refused passes for the recipient if it is of the kind, and is nothing to
the kind if it is of another. -/
theorem passage_admitted (hkind : kind ∈ Action.markedKinds)
    (hrefuses : ¬transit.delivery.markers.refuses recipient action = true) :
    Passage kind transit (transit.admitted recipient action)
      (if action.name = kind then [recipient] else []) := by
  have hmarker := transit.delivery.markers.recipient?_admitting recipient action kind
  have hpasses : Event.passes kind (transit.admitted recipient action).events = _ :=
    passes_admitted
  by_cases hname : action.name = kind
  · have hsensitive : action.isLoopSensitive = true :=
      Action.isLoopSensitive_iff.mpr (hname ▸ hkind)
    rw [if_pos hname] at hpasses ⊢
    rw [if_pos ⟨hsensitive, hname⟩] at hmarker
    refine ⟨hpasses, ?_, ?_⟩
    · rw [LoopMarkers.refuses, hsensitive, Bool.true_and, LoopMarkers.isMarked, hname] at hrefuses
      rw [LoopMarkers.trail]
      cases hlast : transit.delivery.markers.recipient? kind with
      | none => exact List.isChain_singleton recipient
      | some last =>
        rw [hlast] at hrefuses
        exact List.isChain_pair.mpr (Bool.eq_false_iff.mpr hrefuses)
    · rw [LoopMarkers.trail, List.getLast?_append]
      exact hmarker
  · rw [if_neg hname] at hpasses ⊢
    rw [if_neg fun h => hname h.2] at hmarker
    exact .of_eq (by rw [hpasses, List.append_nil]) hmarker

/-- How an action fares at the check. Only the recipients and the marker of its own kind decide, and
it is nothing to the other kinds, whether it passes or not. -/
inductive Fares (transit : Transit) (action : Action) : Except Fault String × Transit → Prop where
  /-- It passes for the only recipient. -/
  | passes (recipient : String) (sole : transit.delivery.recipients = [recipient])
      (passage : ∀ kind ∈ Action.markedKinds, Passage kind transit
        (transit.admitted recipient action) (if action.name = kind then [recipient] else [])) :
      Fares transit action (.ok recipient, transit.admitted recipient action)
  /-- The last action of its kind was taken for the same recipient. -/
  | comesRound (recipient last : String) (sole : transit.delivery.recipients = [recipient])
      (sensitive : action.isLoopSensitive = true)
      (marker : transit.delivery.markers.recipient? action.name = some last)
      (same : Ascii.eqIgnoreCase last recipient = true) :
      Fares transit action (.error (.loopDetected action.name recipient),
        transit.note [.loopDetected action.name recipient])
  /-- There is not exactly one recipient. -/
  | unaddressed (many : ∀ recipient, transit.delivery.recipients ≠ [recipient]) :
      Fares transit action
        (.error (.recipients action.name transit.delivery.recipients.length), transit)

/-- An action fares at the check as the cases say. -/
theorem fares_admission (transit : Transit) (action : Action) :
    transit.Fares action (transit.admission action) := by
  by_cases hsole : ∃ recipient, transit.delivery.recipients = [recipient]
  · obtain ⟨recipient, hsole⟩ := hsole
    rw [admission_of_sole hsole]
    by_cases hrefuses : transit.delivery.markers.refuses recipient action = true
    · rw [if_pos hrefuses]
      obtain ⟨hsensitive, hmarked⟩ := (Bool.and_eq_true_iff ..).mp hrefuses
      rw [LoopMarkers.isMarked] at hmarked
      cases hlast : transit.delivery.markers.recipient? action.name with
      | none =>
        rw [hlast] at hmarked
        cases hmarked
      | some last =>
        rw [hlast] at hmarked
        exact .comesRound recipient last hsole hsensitive hlast hmarked
    · rw [if_neg hrefuses]
      exact .passes recipient hsole fun kind hkind => passage_admitted hkind hrefuses
  · have hmany : ∀ recipient, transit.delivery.recipients ≠ [recipient] :=
      fun recipient h => hsole ⟨recipient, h⟩
    rw [admission_of_not_sole hmany]
    exact .unaddressed hmany

end Transit

/-- In a dispatch actions of a kind pass for the only recipient, and for nobody if there is not
exactly one. -/
theorem dispatch_passage {kind : String} (hkind : kind ∈ Action.markedKinds) (inbox : String)
    (transit : Transit) (actions : List Action) (mail : RecordedMail) :
    let done := (dispatch RecordedMail.store inbox transit actions).run mail
    ∃ passed, Passage kind transit done.1.2 passed ∧
      ∀ recipient ∈ passed, transit.delivery.recipients = [recipient] := by
  induction actions generalizing transit mail with
  | nil => exact ⟨[], .of_eq rfl rfl, List.forall_mem_nil _⟩
  | cons action actions ih =>
    intro done
    -- A refused action ends the dispatch; behind one that passes, the rest starts from its markers.
    have hfares := transit.fares_admission action
    generalize hchecked : transit.admission action = checked at hfares
    cases hfares with
    | comesRound recipient last sole sensitive marker same =>
      have hdone : done = _ := dispatch_run_refused hchecked inbox actions mail
      rw [hdone]
      exact ⟨[], .of_eq (Transit.passes_note rfl) rfl, List.forall_mem_nil _⟩
    | unaddressed many =>
      have hdone : done = _ := dispatch_run_refused hchecked inbox actions mail
      rw [hdone]
      exact ⟨[], .of_eq rfl rfl, List.forall_mem_nil _⟩
    | passes recipient sole passage =>
      have hdone : done = _ := dispatch_run_admitted hchecked inbox actions mail
      have hcarried : Passage kind (transit.admitted recipient action)
          (transit.carriedOut inbox recipient action) [] :=
        .of_eq (Transit.passes_note (Transit.passes_plan ..)) rfl
      obtain ⟨passed, hpassage, hpassed⟩ := ih (transit.carriedOut inbox recipient action)
        (mail.carryOut (transit.delivery.plan inbox recipient action))
      rw [hdone]
      refine ⟨_, (passage kind hkind).trans (hcarried.trans hpassage), ?_⟩
      intro other hother
      obtain hother | hother := List.mem_append.mp hother
      · split at hother
        · cases List.mem_singleton.mp hother
          exact sole
        · cases hother
      · exact hpassed other hother

/-- Nothing passes the check while a script is evaluated. -/
theorem Session.stepRelation_passes (kind : String) :
    StepRelation fun before after =>
      Event.passes kind after.events = Event.passes kind before.events where
  refl _ := rfl
  trans hfirst hsecond := hsecond.trans hfirst
  counted _ := rfl
  noted session event hevent := by
    rw [noted, Event.passes_append, Event.passes_of_isStep hevent, List.append_nil]
  entered _ := rfl
  required _ _ := rfl
  acted session line action _ := by
    cases action <;> exact (Event.passes_append ..).trans (List.append_nil _)
  discarded _ _ := (Event.passes_append ..).trans (List.append_nil _)
  branched _ _ := rfl
  passed _ := rfl
  closed _ := rfl

/-- The implicit keep lets nothing pass. -/
theorem Session.passes_kept (session : Session) (kind : String) :
    Event.passes kind session.kept.events = Event.passes kind session.events := by
  rw [kept]
  split
  · exact (Event.passes_append ..).trans (List.append_nil _)
  · rfl

/-- Nothing passes the check while a script is evaluated. -/
theorem Engine.passes_evaluate [MailReader] (engine : Engine) (script : Script) (mail : Message)
    (actions : List Action) (kind : String) :
    Event.passes kind (engine.evaluate script mail actions).2.events = [] := by
  have hrun := Command.runAll_change (Session.stepRelation_passes kind) (engine.environment mail)
    script ((Session.start actions).noted (.started mail.size))
  have hstart :
      Event.passes kind ((Session.start actions).noted (.started mail.size)).events = [] := rfl
  rw [evaluate_eq]
  generalize (Command.runAll _ script).apply _ = done at hrun ⊢
  obtain ⟨fault | flow, after⟩ := done
  · dsimp only at hrun ⊢
    rw [Session.noted, Event.passes_append, hrun, hstart]
    rfl
  · dsimp only at hrun ⊢
    rw [Session.noted, Event.passes_append, Session.passes_kept, hrun, hstart]
    rfl

/-- In a run actions of a kind pass for the only recipient, if there is exactly one. -/
theorem Engine.runFrom_passage [MailReader] {kind : String} (hkind : kind ∈ Action.markedKinds)
    (engine : Engine) (script : Script) (mail : Message) (actions : List Action)
    (delivery : Delivery) (store : RecordedMail) :
    let done := (engine.runFrom RecordedMail.store script mail actions delivery).run store
    ∃ passed, Passage kind ⟨delivery, []⟩ done.1.transit passed ∧
      ∀ recipient ∈ passed, delivery.recipients = [recipient] := by
  intro done
  have hquiet := engine.passes_evaluate script mail actions kind
  cases hevaluate : engine.evaluate script mail actions with
  | mk result session =>
  rw [hevaluate] at hquiet
  cases result with
  | error fault =>
    have hdone : done = _ := runFrom_run_of_error hevaluate delivery store
    rw [hdone]
    exact ⟨[], .of_eq hquiet rfl, List.forall_mem_nil _⟩
  | ok _ =>
    have hdone : done = _ := runFrom_run_of_ok hevaluate delivery store
    obtain ⟨passed, hpassage, hpassed⟩ :=
      dispatch_passage hkind engine.inbox ⟨delivery, session.events⟩ session.actions store
    rw [hdone]
    have hquiet : Passage kind ⟨delivery, []⟩ ⟨delivery, session.events⟩ [] := .of_eq hquiet rfl
    exact ⟨passed, hquiet.trans hpassage, hpassed⟩

/-- A run that a delivery is to go through: an engine and a script, a message that some actions may
have been decided for already, and the recipients that the delivery has got by then. -/
structure Call where
  engine : Engine
  script : Script
  mail : Message
  actions : List Action
  recipients : List String

/-- A delivery that goes through several runs, with their events, and the store they share. -/
structure Journey where
  transit : Transit
  store : RecordedMail

namespace Journey

/-- Before the first run. -/
def start (delivery : Delivery) (store : RecordedMail) : Journey :=
  ⟨⟨delivery, []⟩, store⟩

variable [MailReader]

/-- After one more run. -/
def call (journey : Journey) (call : Call) : Journey :=
  let delivery := { journey.transit.delivery with recipients := call.recipients }
  let done := (call.engine.runFrom RecordedMail.store call.script call.mail call.actions
    delivery).run journey.store
  ⟨⟨done.1.transit.delivery, journey.transit.events ++ done.1.transit.events⟩, done.2⟩

/-- After some more runs. -/
def calls (journey : Journey) (calls : List Call) : Journey :=
  calls.foldl call journey

variable {kind : String}

/-- A run whose evaluation fails changes neither markers nor store. -/
theorem call_of_error {call : Call} {fault : Fault}
    (h : (call.engine.evaluate call.script call.mail call.actions).1 = .error fault)
    (journey : Journey) :
    (journey.call call).transit.delivery.markers = journey.transit.delivery.markers ∧
      (journey.call call).store = journey.store := by
  cases hevaluate : call.engine.evaluate call.script call.mail call.actions with
  | mk result session =>
  rw [hevaluate] at h
  cases h
  rw [Journey.call, Engine.runFrom_run_of_error hevaluate]
  exact ⟨rfl, rfl⟩

/-- A call is a passage, and what passes in it passes for its only recipient. -/
theorem call_passage (hkind : kind ∈ Action.markedKinds) (journey : Journey) (call : Call) :
    ∃ passed, Passage kind journey.transit (journey.call call).transit passed ∧
      ∀ recipient ∈ passed, call.recipients = [recipient] := by
  obtain ⟨passed, hpassage, hpassed⟩ := call.engine.runFrom_passage hkind call.script call.mail
    call.actions { journey.transit.delivery with recipients := call.recipients } journey.store
  exact ⟨passed, hpassage.behind rfl, hpassed⟩

/-- Over a sequence of runs, actions of a kind pass for recipients that were the only one. -/
theorem calls_passage (hkind : kind ∈ Action.markedKinds) (journey : Journey)
    (calls : List Call) :
    ∃ passed, Passage kind journey.transit (journey.calls calls).transit passed ∧
      ∀ recipient ∈ passed, ∃ call ∈ calls, call.recipients = [recipient] := by
  induction calls generalizing journey with
  | nil => exact ⟨[], .of_eq rfl rfl, List.forall_mem_nil _⟩
  | cons call calls ih =>
    obtain ⟨passed, hpassage, hpassed⟩ := journey.call_passage hkind call
    obtain ⟨more, hmore, hrest⟩ := ih (journey.call call)
    refine ⟨passed ++ more, hpassage.trans hmore, fun recipient hrecipient => ?_⟩
    obtain hrecipient | hrecipient := List.mem_append.mp hrecipient
    · exact ⟨call, List.mem_cons_self, hpassed recipient hrecipient⟩
    · obtain ⟨other, hother, hsole⟩ := hrest recipient hrecipient
      exact ⟨other, List.mem_cons_of_mem _ hother, hsole⟩

/-- Over any sequence of runs no two actions of a kind pass in a row for the same recipient, and the
marker of the kind is the recipient of the last one; so if the recipients stay the same, at most one
passes. A run whose evaluation fails, and an action that does not pass, change neither markers nor
store. -/
theorem loop_protection (delivery : Delivery) (store : RecordedMail) (calls : List Call) :
    let done := (start delivery store).calls calls
    (∀ kind ∈ Action.markedKinds,
      let passed := Event.passes kind done.transit.events
      Passage kind ⟨delivery, []⟩ done.transit passed ∧
        ∀ recipients, (∀ call ∈ calls, call.recipients = recipients) → passed.length ≤ 1) ∧
    (∀ (call : Call) (fault : Fault),
      (call.engine.evaluate call.script call.mail call.actions).1 = .error fault →
        (done.call call).transit.delivery.markers = done.transit.delivery.markers ∧
          (done.call call).store = done.store) ∧
    ∀ (transit : Transit) (action : Action), transit.Fares action (transit.admission action) ∧
      ∀ fault after, transit.admission action = (.error fault, after) →
        after.delivery = transit.delivery ∧ ∀ inbox rest mail,
          (dispatch RecordedMail.store inbox transit (action :: rest)).run mail =
            ((.error fault, after), mail) := by
  intro done
  refine ⟨fun kind hkind => ?_, fun call fault h => call_of_error h done, fun transit action => ?_⟩
  · intro passed
    obtain ⟨found, hpassage, hfound⟩ := (start delivery store).calls_passage hkind calls
    have hpassed : passed = found := hpassage.passes
    rw [hpassed]
    refine ⟨hpassage, fun recipients hrecipients => ?_⟩
    have hsole : ∀ recipient ∈ found, recipients = [recipient] := fun recipient h => by
      obtain ⟨call, hcall, hsole⟩ := hfound recipient h
      rw [← hrecipients call hcall, hsole]
    refine hpassage.length_le_one fun first hfirst second hsecond => ?_
    exact List.singleton_inj.mp ((hsole first hfirst).symm.trans (hsole second hsecond))
  · refine ⟨transit.fares_admission action, fun fault after hrefused => ⟨?_, ?_⟩⟩
    · have hfares := transit.fares_admission action
      rw [hrefused] at hfares
      cases hfares <;> rfl
    · exact fun inbox rest mail => dispatch_run_refused hrefused inbox rest mail

end Journey

/-- A run of a script of one command for one recipient. -/
def Call.single [MailReader] (name text recipient : String) : Call :=
  ⟨.default, [⟨name, [.string text], none, none, 1⟩], .ofBytes [10, 72] none none, [], [recipient]⟩

/-- A message that is rejected twice for a recipient is rejected once. -/
theorem Journey.loop_protection_rejected_twice :
    let delivery : Delivery := ⟨some "a@x", [], [10, 72], none, none, false, [], .none⟩
    let calls : List Call := [.single "reject" "No." "b@x", .single "reject" "No." "b@x"]
    let done := (start delivery .empty).calls calls
    let passed := Event.passes "reject" done.transit.events
    ((∀ call ∈ calls, call.recipients = ["b@x"]) ∧ passed = ["b@x"] ∧ passed.length ≤ 1 ∧
        done.transit.delivery.markers.recipient? "reject" = some "b@x") ∧
      (done.call (.single "refuse" "No." "b@x")).store = done.store ∧
      ((dispatch RecordedMail.store "INBOX" ⟨delivery, []⟩ [.keep]).run .empty).2 = .empty := by
  intro delivery calls done passed
  obtain ⟨hpasses, hfails, hchecks⟩ := loop_protection delivery .empty calls
  obtain ⟨hpassage, honce⟩ := hpasses "reject" (by decide)
  have hrecipients : ∀ call ∈ calls, call.recipients = ["b@x"] := by decide
  have hpassed : passed = ["b@x"] := rfl
  have hmarker : done.transit.delivery.markers.recipient? "reject" = ["b@x"].getLast? := by
    rw [← hpassed]
    exact hpassage.last
  have hrefused := ((hchecks ⟨delivery, []⟩ .keep).2 (.recipients "keep" 0) ⟨delivery, []⟩ rfl).2
    "INBOX" [] .empty
  exact ⟨⟨hrecipients, hpassed, honce ["b@x"] hrecipients, hmarker⟩,
    (hfails (.single "refuse" "No." "b@x") (.lookup "refuse") rfl).2, congrArg Prod.snd hrefused⟩

end MailFilter
