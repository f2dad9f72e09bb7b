import MailFilter.Engine
import MailFilter.Proofs.Delivery.Admission

/-!
# What dispatch does

Dispatch carries out the actions before the first that the message has come round for, in order, and
nothing behind them. For each of them the store is handed what its kind says, for the one recipient.
-/

namespace MailFilter

/-- Whether the message has come round for an action behind some earlier ones: an action of its kind
has been taken for the recipient before, be it in this dispatch or in another one. -/
def comesRound (markers : LoopMarkers) (recipient : String) (earlier : List Action)
    (action : Action) : Bool :=
  action.isLoopSensitive &&
    (markers.isMarked action.name recipient || earlier.any (·.name == action.name))

/-- The number of actions before the first that the message has come round for. -/
def admittedCount (markers : LoopMarkers) (recipient : String) (earlier : List Action) :
    List Action → Nat
  | [] => 0
  | action :: actions =>
    if comesRound markers recipient earlier action then 0
    else admittedCount markers recipient (earlier ++ [action]) actions + 1

/-- No more actions are admitted than there are. -/
theorem admittedCount_le (markers : LoopMarkers) (recipient : String)
    (earlier actions : List Action) :
    admittedCount markers recipient earlier actions ≤ actions.length := by
  induction actions generalizing earlier with
  | nil => exact Nat.le_refl 0
  | cons action actions ih =>
    rw [admittedCount]
    split
    · exact Nat.zero_le _
    · exact Nat.succ_le_succ (ih _)

namespace Delivery

/-- What an action for a recipient hands to the store. -/
def consignment? (delivery : Delivery) (inbox recipient : String) (action : Action) :
    Option Consignment :=
  (delivery.plan inbox recipient action).consignment

/-- What the actions of each kind are to hand to the store. -/
structure Hands (delivery : Delivery) (inbox recipient : String)
    (effect : Action → Option Consignment) : Prop where
  keep : effect .keep = some (.delivery recipient inbox delivery.message)
  fileInto : ∀ folder,
    effect (.fileInto folder) = some (.delivery recipient folder delivery.message)
  redirect : ∀ address,
    effect (.redirect address) = some (.forward delivery.sender [address] delivery.message)
  reject : ∀ text, effect (.reject text) = delivery.sender.map fun sender =>
    .reply recipient [sender] (delivery.rejection recipient sender text).text
  vacation : ∀ reply, ∀ consignment ∈ effect (.vacation reply),
    ∃ sender ∈ delivery.sender, ∃ name notice, consignment = .reply name [sender] notice

/-- What an action becomes is what it should hand over. -/
theorem hands_consignment? (delivery : Delivery) (inbox recipient : String) :
    delivery.Hands inbox recipient (delivery.consignment? inbox recipient) where
  keep := rfl
  fileInto _ := rfl
  redirect _ := rfl
  reject text := by
    rw [consignment?, plan, planReject]
    cases delivery.sender <;> rfl
  vacation reply consignment h := by
    rw [consignment?, plan, planVacation] at h
    cases hsender : delivery.sender with
    | none =>
      rw [hsender] at h
      cases h
    | some sender =>
      rw [hsender] at h
      dsimp only at h
      split at h
      · cases h
      split at h
      · cases h
      · cases h
        exact ⟨sender, rfl, _, _, rfl⟩

end Delivery

/-- What an action hands to the store does not depend on those carried out before it. -/
theorem Transit.consignment?_carriedOut (transit : Transit) (inbox recipient : String)
    (action : Action) :
    (transit.carriedOut inbox recipient action).delivery.consignment? inbox recipient =
      transit.delivery.consignment? inbox recipient := by
  funext other
  cases other <;> rfl

/-- What the first action hands over is recorded before what the others do. -/
theorem RecordedMail.foldl_add_cons (mail : RecordedMail) (delivery : Delivery)
    (inbox recipient : String) (action : Action) (actions : List Action) :
    ((action :: actions).filterMap (delivery.consignment? inbox recipient)).foldl add mail =
      (actions.filterMap (delivery.consignment? inbox recipient)).foldl add
        (mail.carryOut (delivery.plan inbox recipient action)) := by
  rw [carryOut, List.filterMap_cons, Delivery.consignment?]
  cases (delivery.plan inbox recipient action).consignment <;> rfl

/-- An admitted action is one of the earlier ones for those behind it. -/
theorem refuses_admitting {markers before : LoopMarkers} {recipient : String}
    {earlier : List Action}
    (h : ∀ action, markers.refuses recipient action = comesRound before recipient earlier action)
    (admitted action : Action) :
    (markers.admitting recipient admitted).refuses recipient action =
      comesRound before recipient (earlier ++ [admitted]) action := by
  have haction := h action
  rw [LoopMarkers.refuses, comesRound] at haction
  rw [LoopMarkers.refuses, comesRound, LoopMarkers.isMarked_admitting]
  by_cases hsensitive : action.isLoopSensitive = true
  · have hadmitted : (admitted.isLoopSensitive && admitted.name == action.name) =
        (admitted.name == action.name) := by
      by_cases hname : admitted.name = action.name
      · have hmarked := Action.isLoopSensitive_iff.mp hsensitive
        rw [← hname] at hmarked
        rw [Action.isLoopSensitive_iff.mpr hmarked, Bool.true_and]
      · simp [hname]
    rw [hsensitive, Bool.true_and, Bool.true_and] at haction
    rw [haction, hadmitted, List.any_append, List.any_cons, List.any_nil, Bool.or_false,
      Bool.or_comm, Bool.or_assoc]
  · simp [hsensitive]

/-- Behind some earlier actions, dispatch carries out the actions before the first that the message
has come round for. -/
theorem dispatch_run_of_sole {recipient : String} (inbox : String) (before : LoopMarkers)
    (earlier actions : List Action) (transit : Transit) (mail : RecordedMail)
    (hsole : transit.delivery.recipients = [recipient])
    (hmarkers : ∀ action, transit.delivery.markers.refuses recipient action =
      comesRound before recipient earlier action) :
    let done := (dispatch RecordedMail.store inbox transit actions).run mail
    let count := admittedCount before recipient earlier actions
    done.2 = ((actions.take count).filterMap
        (transit.delivery.consignment? inbox recipient)).foldl RecordedMail.add mail ∧
      done.1.1 = match actions[count]? with
        | none => .ok ()
        | some action => .error (.loopDetected action.name recipient) := by
  -- An action carried out moves from the list to the earlier ones, which keep up with the markers.
  induction actions generalizing earlier transit mail with
  | nil => exact ⟨rfl, rfl⟩
  | cons action actions ih =>
    intro done count
    have hadmission := Transit.admission_of_sole hsole action
    rw [hmarkers action] at hadmission
    by_cases hround : comesRound before recipient earlier action = true
    · rw [if_pos hround] at hadmission
      have hcount : count = 0 := if_pos hround
      have hdone : done = _ := dispatch_run_refused hadmission inbox actions mail
      rw [hdone, hcount]
      exact ⟨rfl, rfl⟩
    · rw [if_neg hround] at hadmission
      have hcount : count = admittedCount before recipient (earlier ++ [action]) actions + 1 :=
        if_neg hround
      have hdone : done = _ := dispatch_run_admitted hadmission inbox actions mail
      obtain ⟨hmail, hresult⟩ := ih (earlier ++ [action])
        (transit.carriedOut inbox recipient action)
        (mail.carryOut (transit.delivery.plan inbox recipient action)) hsole
        (refuses_admitting hmarkers action)
      rw [hdone, hcount]
      rw [Transit.consignment?_carriedOut] at hmail
      exact ⟨by rw [List.take_succ_cons, RecordedMail.foldl_add_cons]; exact hmail, hresult⟩

/-- Dispatch for one recipient carries out the actions before the first that the message has come
round for, and fails for that one if there is one. Without a single recipient it does nothing and
fails for the first action. -/
theorem dispatch_exact (inbox : String) (transit : Transit) (actions : List Action)
    (mail : RecordedMail) :
    let done := (dispatch RecordedMail.store inbox transit actions).run mail
    let delivery := transit.delivery
    (∀ recipient, delivery.recipients = [recipient] →
      let count := admittedCount delivery.markers recipient [] actions
      (∃ effect, delivery.Hands inbox recipient effect ∧
        done.2 = ((actions.take count).filterMap effect).foldl RecordedMail.add mail) ∧
      (count = actions.length ∧ done.1.1 = .ok () ∨
        ∃ action, actions[count]? = some action ∧
          done.1.1 = .error (.loopDetected action.name recipient))) ∧
    ((∀ recipient, delivery.recipients ≠ [recipient]) →
      ∀ action rest, actions = action :: rest →
        done = ((.error (.recipients action.name delivery.recipients.length), transit), mail)) := by
  intro done delivery
  refine ⟨fun recipient hsole => ?_, fun hsole action rest hactions => ?_⟩
  · intro count
    obtain ⟨hmail, hresult⟩ := dispatch_run_of_sole inbox delivery.markers [] actions transit mail
      hsole fun action => by simp [LoopMarkers.refuses, comesRound, delivery]
    refine ⟨⟨_, delivery.hands_consignment? inbox recipient, hmail⟩, ?_⟩
    have hle : count ≤ actions.length := admittedCount_le delivery.markers recipient [] actions
    rcases Nat.lt_or_eq_of_le hle with hlt | heq
    · rw [List.getElem?_eq_getElem hlt] at hresult
      exact .inr ⟨_, List.getElem?_eq_getElem hlt, hresult⟩
    · rw [List.getElem?_eq_none (Nat.le_of_eq heq.symm)] at hresult
      exact .inl ⟨heq, hresult⟩
  · subst hactions
    exact dispatch_run_refused (Transit.admission_of_not_sole hsole action) inbox rest mail

/-- One action of each kind is carried out, and the second redirection is refused: the message has
come round for it, and what stands behind it is not done. -/
theorem dispatch_exact_second_redirect :
    let delivery : Delivery :=
      ⟨some "a@x", ["b@x"], [72, 105], some "Noon?", none, false, ["b@x"], .none⟩
    let reply : Vacation := ⟨7, none, none, [], false, none, "Away."⟩
    let done := (dispatch RecordedMail.store "INBOX" ⟨delivery, []⟩
      [.redirect "c@x", .keep, .fileInto "Lists", .reject "No.", .vacation reply, .redirect "d@x",
        .keep]).run .empty
    delivery.recipients = ["b@x"] ∧
      done.1.1 = .error (.loopDetected "redirect" "b@x") ∧
      done.2.delivered = [⟨"b@x", "INBOX", [72, 105]⟩, ⟨"b@x", "Lists", [72, 105]⟩] ∧
      done.2.forwarded = [⟨some "a@x", ["c@x"], [72, 105]⟩] ∧
      done.2.replied.map (fun reply => (reply.sender, reply.recipients)) =
        [("b@x", ["a@x"]), ("b@x", ["a@x"])] := by
  intro delivery reply done
  let actions : List Action :=
    [.redirect "c@x", .keep, .fileInto "Lists", .reject "No.", .vacation reply, .redirect "d@x",
      .keep]
  obtain ⟨⟨effect, hhands, hmail⟩, hresult⟩ :=
    (dispatch_exact "INBOX" ⟨delivery, []⟩ actions .empty).1 "b@x" rfl
  have hcount : admittedCount delivery.markers "b@x" [] actions = 5 := by decide
  rw [hcount] at hmail hresult
  have hnotices : done.2.replied.map (fun reply => (reply.sender, reply.recipients)) =
      [("b@x", ["a@x"]), ("b@x", ["a@x"])] := by decide +kernel
  have heffects : (actions.take 5).filterMap effect =
      [.forward (some "a@x") ["c@x"] [72, 105], .delivery "b@x" "INBOX" [72, 105],
        .delivery "b@x" "Lists" [72, 105],
        .reply "b@x" ["a@x"] (delivery.rejection "b@x" "a@x" "No.").text] ++
        (effect (.vacation reply)).toList := by
    have htake : actions.take 5 = [.redirect "c@x", .keep, .fileInto "Lists", .reject "No."] ++
      [.vacation reply] := rfl
    have habsence : [Action.vacation reply].filterMap effect =
        (effect (.vacation reply)).toList := by
      cases heffect : effect (.vacation reply) <;> simp [heffect]
    rw [htake, List.filterMap_append, habsence]
    simp [hhands.redirect, hhands.keep, hhands.fileInto, hhands.reject, delivery]
  rw [heffects] at hmail
  have hdone : done.2 = _ := hmail
  refine ⟨rfl, ?_, ?_, ?_, hnotices⟩
  · obtain ⟨⟨⟩, -⟩ | ⟨action, haction, hfault⟩ := hresult
    cases haction
    exact hfault
  -- All that is known of the absence is that it is told by a notice or not at all.
  all_goals
    have habsence := hhands.vacation reply
    rw [hdone]
    generalize effect (.vacation reply) = absence at habsence ⊢
    cases absence with
    | none => rfl
    | some consignment =>
      obtain ⟨-, -, name, notice, rfl⟩ := habsence consignment rfl
      rfl

variable [MailReader]

namespace Engine

variable {engine : Engine} {script : Script} {mail : Message} {actions : List Action}
  {session : Session}

/-- Behind an evaluation that fails, delivery and store are as they were. -/
theorem runFrom_run_of_error {fault : Fault}
    (h : engine.evaluate script mail actions = (.error fault, session)) (delivery : Delivery)
    (store : RecordedMail) :
    (engine.runFrom RecordedMail.store script mail actions delivery).run store =
      (⟨.error fault, session, ⟨delivery, session.events⟩⟩, store) := by
  rw [runFrom, h]
  rfl

/-- Behind an evaluation that ends well, a run is the dispatch of its actions. -/
theorem runFrom_run_of_ok (h : engine.evaluate script mail actions = (.ok (), session))
    (delivery : Delivery) (store : RecordedMail) :
    (engine.runFrom RecordedMail.store script mail actions delivery).run store =
      let done := (dispatch RecordedMail.store engine.inbox ⟨delivery, session.events⟩
        session.actions).run store
      (⟨done.1.1, session, done.1.2⟩, done.2) := by
  rw [runFrom, h]
  rfl

end Engine

end MailFilter
