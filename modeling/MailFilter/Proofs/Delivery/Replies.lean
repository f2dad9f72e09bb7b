import MailFilter.Host.Reader
import MailFilter.Proofs.Delivery.Effects
import MailFilter.Proofs.Evaluation.Faults

/-!
# Who is answered

A reply goes to the sender of a message, so a message without one is never answered, and what is
forwarded of it has no sender either. But a null path with a blank around it is not recognised as
one here, as it is where a script tests the envelope.

An absence is told to the sender unless a program wrote the message or the message does not name the
recipient openly. Only the first field that says who wrote the message is looked at.
-/

namespace MailFilter

/-- What is forwarded with a consignment. -/
def Consignment.forwarded? : Consignment → Option Forwarded
  | delivery .. => none
  | forward sender recipients message => some ⟨sender, recipients, message⟩
  | reply .. => none

/-- What is answered with a consignment. -/
def Consignment.replied? : Consignment → Option Replied
  | delivery .. => none
  | forward .. => none
  | reply sender recipients notice => some ⟨sender, recipients, notice⟩

/-- Where an action redirects a message to. -/
def Action.redirection? : Action → Option String
  | redirect address => some address
  | keep | fileInto _ | reject _ | vacation _ => none

/-- A list of a record that grows by a part of each consignment has these parts in the end. -/
theorem RecordedMail.foldl_add_of_add {α : Type} {kept : RecordedMail → List α}
    {part : Consignment → Option α}
    (hadd : ∀ mail consignment,
      kept (add mail consignment) = kept mail ++ (part consignment).toList)
    (mail : RecordedMail) (consignments : List Consignment) :
    kept (consignments.foldl add mail) = kept mail ++ consignments.filterMap part := by
  induction consignments generalizing mail with
  | nil => exact (List.append_nil _).symm
  | cons consignment consignments ih =>
    rw [List.foldl_cons, ih, hadd, List.append_assoc, List.filterMap_cons]
    cases part consignment <;> rfl

/-- Mail that is forwarded is recorded behind what there was. -/
theorem RecordedMail.forwarded_foldl_add (mail : RecordedMail) (consignments : List Consignment) :
    (consignments.foldl add mail).forwarded =
      mail.forwarded ++ consignments.filterMap Consignment.forwarded? :=
  foldl_add_of_add (fun _ consignment => by
    cases consignment <;> simp [add, Consignment.forwarded?]) mail consignments

/-- Replies are recorded behind what there was. -/
theorem RecordedMail.replied_foldl_add (mail : RecordedMail) (consignments : List Consignment) :
    (consignments.foldl add mail).replied =
      mail.replied ++ consignments.filterMap Consignment.replied? :=
  foldl_add_of_add (fun _ consignment => by
    cases consignment <;> simp [add, Consignment.replied?]) mail consignments

namespace Delivery

/-- Only redirections forward a message. -/
theorem forwarded?_consignment? (delivery : Delivery) (inbox recipient : String)
    (action : Action) :
    (delivery.consignment? inbox recipient action).bind Consignment.forwarded? =
      action.redirection?.map (⟨delivery.sender, [·], delivery.message⟩) := by
  have hhands := delivery.hands_consignment? inbox recipient
  cases action with
  | keep => rw [hhands.keep]; rfl
  | fileInto folder => rw [hhands.fileInto]; rfl
  | redirect address => rw [hhands.redirect]; rfl
  | reject text => rw [hhands.reject]; cases delivery.sender <;> rfl
  | vacation reply =>
    cases hconsignment : delivery.consignment? inbox recipient (.vacation reply) with
    | none => rfl
    | some consignment =>
      obtain ⟨sender, -, name, notice, rfl⟩ := hhands.vacation reply consignment hconsignment
      rfl

/-- A message without a sender is not answered. -/
theorem replied?_consignment? {delivery : Delivery} (hsender : delivery.sender = none)
    (inbox recipient : String) (action : Action) :
    (delivery.consignment? inbox recipient action).bind Consignment.replied? = none := by
  have hhands := delivery.hands_consignment? inbox recipient
  cases action with
  | keep => rw [hhands.keep]; rfl
  | fileInto folder => rw [hhands.fileInto]; rfl
  | redirect address => rw [hhands.redirect]; rfl
  | reject text => rw [hhands.reject, hsender]; rfl
  | vacation reply =>
    cases hconsignment : delivery.consignment? inbox recipient (.vacation reply) with
    | none => rfl
    | some consignment =>
      obtain ⟨sender, h, -⟩ := hhands.vacation reply consignment hconsignment
      rw [hsender] at h
      cases h

end Delivery

/-- A dispatch of a message without a sender answers nobody, and forwards the message without a
sender for each redirection among the actions that it carries out. -/
theorem dispatch_run_of_no_sender {transit : Transit} (hsender : transit.delivery.sender = none)
    (inbox : String) (actions : List Action) (mail : RecordedMail) :
    let done := (dispatch RecordedMail.store inbox transit actions).run mail
    done.2.replied = mail.replied ∧
      ∃ count ≤ actions.length, (done.1.1 = .ok () → count = actions.length) ∧
        done.2.forwarded = mail.forwarded ++
          ((actions.take count).filterMap Action.redirection?).map
            (⟨none, [·], transit.delivery.message⟩) := by
  intro done
  by_cases hsole : ∃ recipient, transit.delivery.recipients = [recipient]
  · obtain ⟨recipient, hsole⟩ := hsole
    obtain ⟨hmail, hresult⟩ := dispatch_run_of_sole inbox transit.delivery.markers [] actions
      transit mail hsole fun action => by simp [LoopMarkers.refuses, comesRound]
    have hreplied := transit.delivery.replied?_consignment? hsender inbox recipient
    have hforwarded := transit.delivery.forwarded?_consignment? inbox recipient
    rw [hsender] at hforwarded
    refine ⟨?_, _, admittedCount_le transit.delivery.markers recipient [] actions,
      fun hok => ?_, ?_⟩
    · rw [hmail, RecordedMail.replied_foldl_add, List.filterMap_filterMap]
      simp [hreplied]
    · rw [hok] at hresult
      refine Nat.le_antisymm (admittedCount_le ..) (List.getElem?_eq_none_iff.mp ?_)
      split at hresult
      · assumption
      · cases hresult
    · rw [hmail, RecordedMail.forwarded_foldl_add, List.filterMap_filterMap, List.map_filterMap]
      simp only [hforwarded]
  · have hnobody : ∀ recipient, transit.delivery.recipients ≠ [recipient] := fun recipient h =>
      hsole ⟨recipient, h⟩
    cases actions with
    | nil => exact ⟨rfl, 0, Nat.le_refl 0, fun _ => rfl, (List.append_nil _).symm⟩
    | cons action actions =>
      have hdone : done = _ := dispatch_run_refused (Transit.admission_of_not_sole hnobody action)
        inbox actions mail
      rw [hdone]
      exact ⟨rfl, 0, Nat.zero_le _, (by cases ·), (List.append_nil _).symm⟩

/-- A mailbox has a local part. -/
theorem Address.localPart_ne_of_ofMailbox [MailReader] {text : String} {address : Address}
    (h : ofMailbox text = .ok address) : address.localPart ≠ "" := by
  rw [ofMailbox] at h
  split at h
  · cases h
  split at h
  · cases h
  · split at h
    · cases h
    · next hlocal =>
      split at h
      · cases h
      · exact Except.ok.inj h ▸ hlocal
  · cases h

/-- The test of an envelope takes a path for the null path if it is one without the blanks around
it. -/
theorem EnvelopePart.address_eq_null_iff [MailReader] (part : EnvelopePart) (path : String) :
    part.address path = .ok .null ↔ Text.trim path = "" ∨ Text.trim path = "<>" := by
  rw [address]
  split
  · next hnull => exact iff_of_true rfl hnull
  · next hpath =>
    refine iff_of_false (fun h => ?_) hpath
    exact Address.localPart_ne_of_ofMailbox (eq_ok_of_mapError_eq_ok h) rfl

/-- A delivery has no sender if its path is empty or the null path, as it is written. -/
theorem Delivery.sender_ofMessage_eq_none_iff [MailReader] (path : String)
    (recipients : List String) (message : Message) :
    (ofMessage (some path) recipients message).sender = none ↔ path = "" ∨ path = "<>" := by
  rw [ofMessage, Option.filter_eq_none_iff]
  simp [Decidable.or_iff_not_imp_left]

/-- No message with this reverse path is answered, and every redirection forwards it without a
sender, whatever the message is, whoever it is for and whatever is done with it. -/
def Delivery.Unanswerable [MailReader] (path : String) : Prop :=
  ∀ (message : Message) (recipients : List String) (inbox : String) (events : List Event)
    (actions : List Action) (mail : RecordedMail),
    let transit : Transit := ⟨ofMessage (some path) recipients message, events⟩
    let done := (dispatch RecordedMail.store inbox transit actions).run mail
    done.2.replied = mail.replied ∧
      ∃ count ≤ actions.length, (done.1.1 = .ok () → count = actions.length) ∧
        done.2.forwarded = mail.forwarded ++
          ((actions.take count).filterMap Action.redirection?).map (⟨none, [·], message.raw⟩)

/-- Of the paths that the test of an envelope takes for the null path, those without a blank around
them are the ones that nobody is answered at. -/
theorem Delivery.unanswerable_iff [MailReader] (path : String) :
    (EnvelopePart.sender.address path = .ok .null ↔
        Text.trim path = "" ∨ Text.trim path = "<>") ∧
      (Unanswerable path ↔
        EnvelopePart.sender.address path = .ok .null ∧ Text.trim path = path) := by
  have hnull := EnvelopePart.sender.address_eq_null_iff path
  refine ⟨hnull, fun h => ?_, fun ⟨h, htrim⟩ => ?_⟩
  · have hone := (h default ["b@x"] "" [] [.redirect "c@x"] .empty).2
    obtain ⟨count, -, hcount, hforwarded⟩ := hone
    obtain rfl : count = 1 := hcount rfl
    have hpath : path = "" ∨ path = "<>" := by
      rw [← sender_ofMessage_eq_none_iff path ["b@x"] default]
      exact congrArg Forwarded.sender (List.singleton_inj.mp hforwarded)
    have htrim : Text.trim path = path := by
      obtain rfl | rfl := hpath <;> rfl
    exact ⟨hnull.mpr (by rwa [htrim]), htrim⟩
  · intro message recipients inbox events actions mail
    have hsender : (ofMessage (some path) recipients message).sender = none := by
      rw [sender_ofMessage_eq_none_iff, ← htrim]
      exact hnull.mp h
    exact dispatch_run_of_no_sender hsender inbox actions mail

/-- The envelope test takes a spaced null path for what it is, but it is answered, and forwarded as
a sender. -/
theorem Delivery.answered_spaced_null_path :
    let delivery := ofMessage (some " <> ") ["b@x"] ⟨[10, 72], [], [72], none, none⟩
    let done := (dispatch RecordedMail.store "INBOX" ⟨delivery, []⟩
      [.reject "no", .redirect "c@x"]).run .empty
    EnvelopePart.sender.address " <> " = .ok .null ∧
      done.2.replied.map Replied.recipients = [[" <> "]] ∧
      done.2.forwarded = [⟨some " <> ", ["c@x"], [10, 72]⟩] :=
  ⟨rfl, rfl, rfl⟩

/-- Whether a text says that no program wrote the message. -/
def Message.saysNo (value : String) : Bool :=
  Ascii.eqIgnoreCase (Text.trim value) "no"

/-- A destination header of a message names a mailbox at one of some addresses. -/
def Message.Names [MailReader] (message : Message) (addresses : List String) : Prop :=
  ∃ header ∈ ["to", "cc", "bcc", "resent-to", "resent-cc", "resent-bcc"],
    ∃ mailbox ∈ message.addresses header, ∃ address ∈ addresses,
      Ascii.eqIgnoreCase mailbox.text (Delivery.bareAddress address) = true

namespace Delivery

variable (sender : Option String) (recipients : List String) (message : Message)

/-- A message is not taken for one of a program if its first `Auto-Submitted` header says so, or
there is none. -/
theorem autoSubmitted_ofMessage_eq_false_iff [MailReader] :
    (ofMessage sender recipients message).autoSubmitted = false ↔
      ∀ value ∈ message.firstHeader "Auto-Submitted", Message.saysNo value = true := by
  simp only [ofMessage]
  cases message.firstHeader "Auto-Submitted" with
  | none => simp
  | some value => simp [Message.saysNo]

/-- A delivery is addressed to someone if a header of the message names them. -/
theorem isAddressedTo_ofMessage_iff [MailReader] (recipient : String) (others : List String) :
    (ofMessage sender recipients message).isAddressedTo recipient others = true ↔
      message.Names (recipient :: others) := by
  simp only [isAddressedTo, ofMessage, List.any_eq_true, List.mem_map, List.mem_flatMap]
  constructor
  · rintro ⟨wanted, hwanted, _, ⟨mailbox, ⟨header, hheader, hmailbox⟩, rfl⟩, heq⟩
    exact ⟨header, hheader, mailbox, hmailbox, wanted, hwanted, heq⟩
  · rintro ⟨header, hheader, mailbox, hmailbox, wanted, hwanted, heq⟩
    exact ⟨wanted, hwanted, _, ⟨mailbox, ⟨header, hheader, hmailbox⟩, rfl⟩, heq⟩

/-- A vacation reply goes to the sender if there is one, no program wrote the message, and the
message names the recipient. -/
theorem consignment?_vacation (delivery : Delivery) (inbox recipient : String)
    (reply : Vacation) :
    delivery.consignment? inbox recipient (.vacation reply) =
      if delivery.autoSubmitted = false ∧
          delivery.isAddressedTo recipient reply.addresses = true then
        delivery.sender.map fun sender =>
          .reply (reply.sender.getD recipient) [sender]
            (delivery.absence reply recipient sender).text
      else none := by
  rw [consignment?, plan, planVacation]
  cases delivery.sender with
  | none => simp
  | some sender =>
    dsimp only
    split
    · next hprogram => simp [hprogram]
    split
    · next hnamed => simp_all
    · next hprogram hnamed =>
      simp_all
      rfl

end Delivery

/-- A reply that is recorded makes a difference. -/
theorem RecordedMail.add_ne_self (mail : RecordedMail) (name : String) (recipients : List String)
    (notice : String) : mail.add (.reply name recipients notice) ≠ mail := fun h => by
  simpa [add] using congrArg (·.replied.length) h

/-- A single action that is not refused is carried out. -/
theorem dispatch_run_single (transit : Transit) (action : Action) {recipient : String}
    (hsole : transit.delivery.recipients = [recipient])
    (hfresh : transit.delivery.markers.refuses recipient action = false) (inbox : String)
    (mail : RecordedMail) :
    let done := (dispatch RecordedMail.store inbox transit [action]).run mail
    done.1.1 = .ok () ∧
      done.2 = (transit.delivery.consignment? inbox recipient action).elim mail mail.add := by
  have hadmission := Transit.admission_of_sole hsole action
  rw [hfresh, if_neg Bool.false_ne_true] at hadmission
  rw [dispatch_run_admitted hadmission]
  exact ⟨rfl, rfl⟩

/-- An absence is told to the sender of a message if there is one, the message names the recipient,
and the first field that says who wrote the message, if any, says that no program did. The fields
behind the first matter only if they contradict it. -/
theorem Delivery.absence_told_iff [MailReader] (sender : Option String) (recipient : String)
    (message : Message) (reply : Vacation) {markers : LoopMarkers}
    (hfresh : markers.isMarked "vacation" recipient = false) (inbox : String)
    (events : List Event) (mail : RecordedMail) :
    let delivery := { ofMessage sender [recipient] message with markers := markers }
    let done := (dispatch RecordedMail.store inbox ⟨delivery, events⟩ [.vacation reply]).run mail
    let told := ∃ asker ∈ delivery.sender, ∃ name notice,
      done.2 = mail.add (.reply name [asker] notice)
    let named := message.Names (recipient :: reply.addresses)
    let first := ∀ value ∈ message.firstHeader "Auto-Submitted", Message.saysNo value = true
    let every := ∀ value ∈ message.header "Auto-Submitted", Message.saysNo value = true
    done.1.1 = .ok () ∧ (told ∨ done.2 = mail) ∧
      (told ↔ delivery.sender.isSome ∧ first ∧ named) ∧
      ((first → every) → (told ↔ delivery.sender.isSome ∧ every ∧ named)) := by
  intro delivery done told named first every
  obtain ⟨hok, hmail⟩ := dispatch_run_single ⟨delivery, events⟩ (.vacation reply) rfl hfresh inbox
    mail
  have hallows : delivery.autoSubmitted = false ∧
      delivery.isAddressedTo recipient reply.addresses = true ↔ first ∧ named :=
    and_congr (autoSubmitted_ofMessage_eq_false_iff sender [recipient] message)
      (isAddressedTo_ofMessage_iff sender [recipient] message recipient reply.addresses)
  rw [consignment?_vacation] at hmail
  have hcases : told ∧ delivery.sender.isSome ∧ first ∧ named ∨
      done.2 = mail ∧ ¬(delivery.sender.isSome ∧ first ∧ named) := by
    by_cases hallowed : first ∧ named
    · rw [if_pos (hallows.mpr hallowed)] at hmail
      cases hsender : delivery.sender with
      | none =>
        rw [hsender] at hmail
        exact .inr ⟨hmail, nofun⟩
      | some asker =>
        rw [hsender] at hmail
        exact .inl ⟨⟨asker, hsender, _, _, hmail⟩, rfl, hallowed⟩
    · rw [if_neg (mt hallows.mp hallowed)] at hmail
      exact .inr ⟨hmail, fun h => hallowed h.2⟩
  have hsilent : done.2 = mail → ¬told := fun hsame ⟨asker, _, name, notice, hreply⟩ =>
    mail.add_ne_self name [asker] notice (hreply.symm.trans hsame)
  have htold : told ↔ delivery.sender.isSome ∧ first ∧ named := by
    obtain ⟨htold, hallowed⟩ | ⟨hsame, hrefused⟩ := hcases
    · exact iff_of_true htold hallowed
    · exact iff_of_false (hsilent hsame) hrefused
  have hevery : every → first := fun h value hvalue => h value (List.mem_of_mem_head? hvalue)
  refine ⟨hok, hcases.imp And.left And.left, htold, fun hagree => ?_⟩
  rw [htold, (⟨hagree, hevery⟩ : first ↔ every)]

/-- A message that no program wrote, with `<B@x>` in copy. -/
def Message.inCopy : Message where
  raw := [10, 72]
  fields := [⟨"Auto-Submitted", Utf8.encode " No\r\n"⟩, ⟨"Cc", Utf8.encode " <B@x>\r\n"⟩]
  body := [72]
  envelopeSender := none
  envelopeRecipient := none

/-- The recipient is only in copy, under another of their addresses and in other letters, and the
absence is told. -/
theorem Delivery.absence_told_in_copy :
    let delivery := ofMessage (some "a@x") ["r@x"] .inCopy
    let reply : Vacation := ⟨7, none, none, ["<b@X>"], false, none, "Away"⟩
    let done := (dispatch RecordedMail.store "INBOX" ⟨delivery, []⟩ [.vacation reply]).run .empty
    LoopMarkers.none.isMarked "vacation" "r@x" = false ∧
      ∃ asker ∈ delivery.sender, ∃ name notice,
        done.2 = RecordedMail.empty.add (.reply name [asker] notice) := by
  intro delivery reply done
  have hvalue : Message.inCopy.firstHeader "Auto-Submitted" = some "No" := by decide +kernel
  have hmailbox : Message.inCopy.addresses "cc" = [⟨"B", some "x"⟩] := by decide +kernel
  have hfirst : ∀ value ∈ Message.inCopy.firstHeader "Auto-Submitted",
      Message.saysNo value = true := by
    rw [hvalue]
    rintro _ ⟨⟩
    rfl
  have hnamed : Message.inCopy.Names ["r@x", "<b@X>"] :=
    ⟨"cc", by decide, _, by rw [hmailbox]; exact List.mem_singleton_self _, "<b@X>", by decide, rfl⟩
  exact ⟨rfl, (absence_told_iff (some "a@x") "r@x" .inCopy reply rfl "INBOX" [] .empty).2.2.1.mpr
    ⟨rfl, hfirst, hnamed⟩⟩

/-- A message whose fields contradict each other about who wrote it. -/
def Message.contradictory : Message where
  raw := [10, 72]
  fields := [⟨"Auto-Submitted", Utf8.encode "no\r\n"⟩,
    ⟨"Auto-Submitted", Utf8.encode "auto-replied\r\n"⟩, ⟨"To", Utf8.encode "b@x\r\n"⟩]
  body := [72]
  envelopeSender := none
  envelopeRecipient := none

/-- The second field says that a program wrote the message, but it is answered. -/
theorem Delivery.absence_told_to_program :
    let delivery := ofMessage (some "a@x") ["b@x"] .contradictory
    let reply : Vacation := ⟨7, none, none, [], false, none, "Away"⟩
    let done := (dispatch RecordedMail.store "INBOX" ⟨delivery, []⟩ [.vacation reply]).run .empty
    Message.contradictory.header "Auto-Submitted" = ["no", "auto-replied"] ∧
      Message.saysNo "auto-replied" = false ∧
      done.2.replied.map Replied.recipients = [["a@x"]] := by
  intro delivery reply done
  have hvalues : Message.contradictory.header "Auto-Submitted" = ["no", "auto-replied"] := by
    decide +kernel
  have hmailbox : Message.contradictory.addresses "to" = [⟨"b", some "x"⟩] := by decide +kernel
  have hprogram : delivery.autoSubmitted = false := by
    rw [autoSubmitted_ofMessage_eq_false_iff, Message.firstHeader, hvalues]
    rintro _ ⟨⟩
    rfl
  have hnamed : delivery.isAddressedTo "b@x" [] = true := by
    rw [isAddressedTo_ofMessage_iff]
    exact ⟨"to", by decide, _, by rw [hmailbox]; exact List.mem_singleton_self _, "b@x",
      by decide, rfl⟩
  have hmail : done.2 = _ :=
    (dispatch_run_single ⟨delivery, []⟩ (.vacation reply) rfl rfl "INBOX" .empty).2
  rw [consignment?_vacation, if_pos ⟨hprogram, hnamed⟩] at hmail
  exact ⟨hvalues, rfl, by rw [hmail]; rfl⟩

end MailFilter
