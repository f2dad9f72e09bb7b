import MailFilter.Host.Reader
import MailFilter.Proofs.Delivery.Effects
import MailFilter.Proofs.Evaluation.Changes

/-!
# No message is lost

A message is accounted for while it is to be kept by default, once a command has discarded it, and
once an action has taken the place of keeping it. No command ends that, whatever a script does. So
if an evaluation ends well and nothing was discarded, some action stands for the message, be it the
keeping at the end; and a dispatch that ends well has carried it out.
-/

namespace MailFilter

/-- Whether an action takes the place of keeping the message. A vacation reply does not. -/
def Action.replacesKeep : Action → Bool
  | keep => true
  | fileInto _ => true
  | redirect _ => true
  | reject _ => true
  | vacation _ => false

namespace Session

/-- The message is still to be kept by default, or has been discarded, or an action has been taken
in place of keeping it. -/
def Accounted (session : Session) : Prop :=
  session.command.implicitKeep = true ∨ (∃ line, Event.discarded line ∈ session.events) ∨
    ∃ action ∈ session.actions, action.replacesKeep = true

/-- A change that adds to the events and the actions and does not revoke the keeping by default
leaves the message accounted for. -/
theorem Accounted.mono {before after : Session} (h : before.Accounted)
    (hkeep : after.command.implicitKeep = before.command.implicitKeep)
    (hevents : before.events ⊆ after.events) (hactions : before.actions ⊆ after.actions) :
    after.Accounted := by
  obtain hkept | ⟨line, hline⟩ | ⟨action, haction, hreplaces⟩ := h
  · exact .inl (hkeep.trans hkept)
  · exact .inr (.inl ⟨line, hevents hline⟩)
  · exact .inr (.inr ⟨action, hactions haction, hreplaces⟩)

/-- A session stays accounted for if an event is noted in it. -/
theorem accounted_noted {session : Session} (h : session.Accounted) (event : Event) :
    (session.noted event).Accounted :=
  h.mono rfl (List.subset_append_left ..) (List.Subset.refl _)

/-- Whoever revokes the keeping by default takes an action in its place. -/
theorem accounted_act {session : Session} (h : session.Accounted) (line : Nat) (action : Action) :
    (session.act line action).Accounted := by
  cases action with
  | vacation reply =>
    exact h.mono rfl (List.subset_append_left ..) (List.subset_append_left ..)
  | keep | fileInto _ | redirect _ | reject _ =>
    exact .inr (.inr ⟨_, List.mem_append_right _ List.mem_cons_self, rfl⟩)

/-- A session stays accounted for if its message is discarded. -/
theorem accounted_discard (session : Session) (line : Nat) : (session.discard line).Accounted :=
  .inr (.inl ⟨line, List.mem_append_right _ List.mem_cons_self⟩)

/-- No elementary change of an evaluation loses the message. -/
theorem stepRelation_accounted :
    StepRelation fun before after => before.Accounted → after.Accounted where
  refl _ := id
  trans hfirst hsecond := hsecond ∘ hfirst
  counted _ := id
  noted _ event _ h := accounted_noted h event
  entered _ := id
  required _ _ := id
  acted _ line action _ h := accounted_act h line action
  discarded session line _ := session.accounted_discard line
  branched _ _ := id
  passed _ := id
  closed _ := id

/-- Once the message has been kept if it was to be, something else than the default accounts for
it. -/
theorem Accounted.kept {session : Session} (h : session.Accounted) :
    (∃ line, Event.discarded line ∈ session.kept.events) ∨
      ∃ action ∈ session.kept.actions, action.replacesKeep = true := by
  rw [Session.kept]
  split
  · exact .inr ⟨.keep, List.mem_append_right _ List.mem_cons_self, rfl⟩
  · next hkeep => exact h.resolve_left hkeep

end Session

/-- An evaluation that ends well has discarded the message or decided on an action in place of
keeping it by default. -/
theorem Engine.evaluate_accounted [MailReader] {engine : Engine} {script : Script} {mail : Message}
    {actions : List Action} {session : Session}
    (h : engine.evaluate script mail actions = (.ok (), session)) :
    (∃ line, Event.discarded line ∈ session.events) ∨
      ∃ action ∈ session.actions, action.replacesKeep = true := by
  have hrun := Command.runAll_change Session.stepRelation_accounted (engine.environment mail) script
    ((Session.start actions).noted (.started mail.size)) (.inl rfl)
  rw [evaluate_eq] at h
  generalize (Command.runAll _ script).apply _ = done at h hrun
  obtain ⟨fault | flow, after⟩ := done
  · cases h
  · cases h
    refine hrun.kept.imp_left fun ⟨line, hline⟩ => ?_
    exact ⟨line, List.mem_append_left _ hline⟩

namespace RecordedMail

/-- A record followed by a further one. -/
def append (mail more : RecordedMail) : RecordedMail where
  delivered := mail.delivered ++ more.delivered
  forwarded := mail.forwarded ++ more.forwarded
  replied := mail.replied ++ more.replied

/-- Whether a consignment has been recorded. -/
def Holds (mail : RecordedMail) : Consignment → Prop
  | .delivery recipient folder message => ⟨recipient, folder, message⟩ ∈ mail.delivered
  | .forward sender recipients message => ⟨sender, recipients, message⟩ ∈ mail.forwarded
  | .reply sender recipients notice => ⟨sender, recipients, notice⟩ ∈ mail.replied

/-- Something can be recorded before two records are joined or after. -/
theorem append_add (mail more : RecordedMail) (consignment : Consignment) :
    (mail.append more).add consignment = mail.append (more.add consignment) := by
  cases consignment <;> simp [append, add]

/-- Nothing is added by an empty record. -/
theorem append_empty (mail : RecordedMail) : mail.append empty = mail := by
  simp [append, empty]

/-- Some things can be recorded before two records are joined or after. -/
theorem foldl_add_append (mail more : RecordedMail) (consignments : List Consignment) :
    consignments.foldl add (mail.append more) = mail.append (consignments.foldl add more) := by
  induction consignments generalizing more with
  | nil => rfl
  | cons consignment consignments ih =>
    rw [List.foldl_cons, append_add, ih, List.foldl_cons]

/-- What was recorded last is held. -/
theorem holds_add_self (mail : RecordedMail) (consignment : Consignment) :
    (mail.add consignment).Holds consignment := by
  cases consignment <;> simp [add, Holds]

/-- What is held is still held when more is recorded. -/
theorem Holds.add {mail : RecordedMail} {consignment : Consignment} (h : mail.Holds consignment)
    (other : Consignment) : (mail.add other).Holds consignment := by
  cases consignment <;> cases other <;> simp_all [RecordedMail.add, Holds]

/-- What is held is still held when some more is recorded. -/
theorem Holds.foldl_add {mail : RecordedMail} {consignment : Consignment}
    (h : mail.Holds consignment) (others : List Consignment) :
    (others.foldl RecordedMail.add mail).Holds consignment := by
  induction others generalizing mail with
  | nil => exact h
  | cons other others ih => exact ih (h.add other)

/-- A store that is handed some consignments has all of them. -/
theorem holds_foldl_add {consignment : Consignment} {consignments : List Consignment}
    (h : consignment ∈ consignments) (mail : RecordedMail) :
    (consignments.foldl add mail).Holds consignment := by
  induction consignments generalizing mail with
  | nil => cases h
  | cons first rest ih =>
    cases h with
    | head => exact (mail.holds_add_self consignment).foldl_add rest
    | tail _ h => exact ih h (mail.add first)

end RecordedMail

/-- A dispatch for one recipient that ends well has carried out every action. -/
theorem dispatch_run_of_ok {transit : Transit} {recipient inbox : String} {actions : List Action}
    {mail : RecordedMail} (hsole : transit.delivery.recipients = [recipient])
    (hok : ((dispatch RecordedMail.store inbox transit actions).run mail).1.1 = .ok ()) :
    ((dispatch RecordedMail.store inbox transit actions).run mail).2 =
      (actions.filterMap (transit.delivery.consignment? inbox recipient)).foldl
        RecordedMail.add mail := by
  obtain ⟨hmail, hresult⟩ := dispatch_run_of_sole inbox transit.delivery.markers [] actions transit
    mail hsole fun action => by simp [LoopMarkers.refuses, comesRound]
  rw [hok] at hresult
  cases hnext : actions[admittedCount transit.delivery.markers recipient [] actions]? with
  | none =>
    rw [List.take_of_length_le (List.getElem?_eq_none_iff.mp hnext)] at hmail
    exact hmail
  | some action =>
    rw [hnext] at hresult
    cases hresult

/-- What an action that takes the place of keeping the message hands over for a recipient, if there
is a sender to be told about a rejection. -/
theorem Delivery.consignment?_of_replacesKeep {delivery : Delivery} {sender : String}
    (hsender : delivery.sender = some sender) (inbox recipient : String) {action : Action}
    (haction : action.replacesKeep = true) :
    (∃ folder, delivery.consignment? inbox recipient action =
        some (.delivery recipient folder delivery.message)) ∨
      (∃ address, delivery.consignment? inbox recipient action =
        some (.forward (some sender) [address] delivery.message)) ∨
      ∃ text, action = .reject text ∧ delivery.consignment? inbox recipient action =
        some (.reply recipient [sender] (delivery.rejection recipient sender text).text) := by
  have hhands := delivery.hands_consignment? inbox recipient
  cases action with
  | keep => exact .inl ⟨_, hhands.keep⟩
  | fileInto folder => exact .inl ⟨_, hhands.fileInto folder⟩
  | redirect address => exact .inr (.inl ⟨address, hsender ▸ hhands.redirect address⟩)
  | reject text =>
    have hreply := hhands.reject text
    rw [hsender] at hreply
    exact .inr (.inr ⟨text, rfl, hreply⟩)
  | vacation _ => cases haction

/-- A run that ends well has not lost the message: unless a command discarded it, it has been
delivered or forwarded, or its sender has been told about the rejection. -/
theorem Engine.run_loses_nothing [MailReader] (engine : Engine) (script : Script) (mail : Message)
    (delivery : Delivery) (store : RecordedMail) {recipient sender : String}
    (hrecipient : delivery.recipients = [recipient]) (hsender : delivery.sender = some sender)
    (hok : ((engine.run RecordedMail.store script mail delivery).run store).1.result = .ok ())
    (hdiscard : ∀ line, Event.discarded line ∉
      ((engine.run RecordedMail.store script mail delivery).run store).1.session.events) :
    let done := (engine.run RecordedMail.store script mail delivery).run store
    ∃ added : RecordedMail, done.2 = store.append added ∧
      ((∃ folder, ⟨recipient, folder, delivery.message⟩ ∈ added.delivered) ∨
        (∃ address, ⟨some sender, [address], delivery.message⟩ ∈ added.forwarded) ∨
        ∃ text, Action.reject text ∈ done.1.session.actions ∧
          ⟨recipient, [sender], (delivery.rejection recipient sender text).text⟩ ∈
            added.replied) := by
  intro done
  cases hevaluate : engine.evaluate script mail [] with
  | mk result session =>
  cases result with
  | error fault =>
    rw [run, runFrom_run_of_error hevaluate] at hok
    cases hok
  | ok _ =>
    have hdone : done = _ := runFrom_run_of_ok hevaluate delivery store
    rw [run, runFrom_run_of_ok hevaluate] at hok hdiscard
    obtain ⟨line, hline⟩ | ⟨action, haction, hreplaces⟩ := evaluate_accounted hevaluate
    · exact absurd hline (hdiscard line)
    -- A store only grows, so what the run adds is what it would record in an empty one.
    have hstore := dispatch_run_of_ok hrecipient hok
    rw [← store.append_empty, RecordedMail.foldl_add_append, store.append_empty] at hstore
    rw [hdone]
    refine ⟨_, hstore, ?_⟩
    have hholds : ∀ consignment,
        delivery.consignment? engine.inbox recipient action = some consignment →
          ((session.actions.filterMap (delivery.consignment? engine.inbox recipient)).foldl
            RecordedMail.add .empty).Holds consignment := fun consignment h =>
      RecordedMail.holds_foldl_add (List.mem_filterMap.mpr ⟨action, haction, h⟩) .empty
    obtain ⟨folder, h⟩ | ⟨address, h⟩ | ⟨text, rfl, h⟩ :=
      Delivery.consignment?_of_replacesKeep hsender engine.inbox recipient hreplaces
    · exact .inl ⟨folder, hholds _ h⟩
    · exact .inr (.inl ⟨address, hholds _ h⟩)
    · exact .inr (.inr ⟨text, haction, hholds _ h⟩)

/-- A script that answers in the recipient's absence, and stops in front of a `discard`. -/
def Script.stopping : Script :=
  [⟨"vacation", [.string "Away."], none, none, 1⟩, ⟨"stop", [], none, none, 2⟩,
    ⟨"discard", [], none, none, 3⟩]

/-- A small message on its way to one recipient. -/
def Delivery.single : Delivery :=
  ⟨some "a@x", ["b@x"], [10, 72], none, none, false, [], .none⟩

/-- A script that replies and then stops leaves the message in the inbox, and sends its reply. -/
theorem Engine.run_loses_nothing_stopping :
    let done := (default.run RecordedMail.store .stopping (.ofBytes [10, 72] none none)
      .single).run .empty
    done.1.result = .ok () ∧ (∀ line, Event.discarded line ∉ done.1.session.events) ∧
      ∃ added : RecordedMail, done.2 = RecordedMail.empty.append added ∧
        ((∃ folder, ⟨"b@x", folder, [10, 72]⟩ ∈ added.delivered) ∨
          (∃ address, ⟨some "a@x", [address], [10, 72]⟩ ∈ added.forwarded) ∨
          ∃ text, Action.reject text ∈ done.1.session.actions ∧
            ⟨"b@x", ["a@x"], (Delivery.single.rejection "b@x" "a@x" text).text⟩ ∈
              added.replied) := by
  intro done
  have hok : done.1.result = .ok () := rfl
  have hevents : done.1.session.events =
      [.started 2, .commandReady "vacation" 1, .vacationActed 7 1, .commandReady "stop" 2,
        .implicitKeep, .finished 2 2] := rfl
  have hdiscard : ∀ line, Event.discarded line ∉ done.1.session.events := by simp [hevents]
  exact ⟨hok, hdiscard, default.run_loses_nothing .stopping (.ofBytes [10, 72] none none) .single
    .empty rfl rfl hok hdiscard⟩

end MailFilter
