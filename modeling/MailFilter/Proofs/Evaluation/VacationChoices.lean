import MailFilter.Host.Reader
import MailFilter.Proofs.Evaluation.Executed
import MailFilter.Proofs.Match.Choices
import MailFilter.Proofs.Runs.KeepAsFiling

/-!
# The choices of a vacation

The tags of `vacation` may come in any order and as often as one likes, each with its value behind
it; only the reason has its place, at the end. The reading takes a string for a value or for the
reason by what stands before it. Here it is compared with a description of the whole: some choices
are spelled, then a reason, and of each sort of choice the last one counts.
-/

namespace MailFilter

/-- The tag that sets a field. -/
def VacationTag.text : VacationTag → String
  | days => ":days"
  | subject => ":subject"
  | sender => ":from"
  | handle => ":handle"
  | addresses => ":addresses"
  | mime => ":mime"

/-- A tag of a vacation is read just where it is written. -/
theorem VacationTag.ofTag?_eq_some_iff {text : String} {tag : VacationTag} :
    ofTag? text = some tag ↔ text = tag.text := by
  constructor
  · intro h
    unfold ofTag? at h
    split at h <;> cases h <;> rfl
  · rintro rfl
    cases tag <;> rfl

/-- A choice that a tag of `vacation` makes, with the value behind it. A single address need not be
written as a list. -/
inductive VacationChoice where
  | days (count : Nat)
  | subject (text : String)
  | sender (text : String)
  | handle (text : String)
  | address (text : String)
  | addresses (items : List String)
  | mime
  deriving DecidableEq

namespace VacationChoice

/-- The sort of a choice. -/
def kind : VacationChoice → VacationTag
  | days _ => .days
  | subject _ => .subject
  | sender _ => .sender
  | handle _ => .handle
  | address _ => .addresses
  | addresses _ => .addresses
  | mime => .mime

/-- The value behind the tag, if the tag wants one. -/
def value : VacationChoice → List Argument
  | days count => [.number count]
  | subject text => [.string text]
  | sender text => [.string text]
  | handle text => [.string text]
  | address text => [.string text]
  | addresses items => [.strings items]
  | mime => []

/-- The arguments that spell a choice. -/
def written (choice : VacationChoice) : List Argument :=
  .tag choice.kind.text :: choice.value

/-- The days that are chosen. -/
def days? : VacationChoice → Option Nat
  | days count => some count
  | _ => none

/-- The subject that is chosen. -/
def subject? : VacationChoice → Option String
  | subject text => some text
  | _ => none

/-- The sender that is chosen. -/
def sender? : VacationChoice → Option String
  | sender text => some text
  | _ => none

/-- The handle that is chosen. -/
def handle? : VacationChoice → Option String
  | handle text => some text
  | _ => none

/-- The addresses that are chosen. -/
def addresses? : VacationChoice → Option (List String)
  | address text => some [text]
  | addresses items => some items
  | _ => none

/-- Whether the reason is chosen to have its own MIME headers. -/
def mime? : VacationChoice → Option Bool
  | mime => some true
  | _ => none

end VacationChoice

namespace Vacation

/-- What some choices and a reason come to. What is not chosen has its default, and nobody is
written to more than once a day. -/
def ofChoices (choices : List VacationChoice) (reason : String) : Vacation where
  days := (choices.filterMap VacationChoice.days?).getLast?.elim 7 (max · 1)
  subject := (choices.filterMap VacationChoice.subject?).getLast?
  sender := (choices.filterMap VacationChoice.sender?).getLast?
  addresses := (choices.filterMap VacationChoice.addresses?).getLast?.getD []
  mime := (choices.filterMap VacationChoice.mime?).getLast?.getD false
  handle := (choices.filterMap VacationChoice.handle?).getLast?
  reason := reason

/-- Whatever is chosen, there is at least one day between two replies. -/
theorem days_ofChoices_ne_zero (choices : List VacationChoice) (reason : String) :
    (ofChoices choices reason).days ≠ 0 := by
  rw [ofChoices]
  cases (choices.filterMap VacationChoice.days?).getLast? with
  | none => exact Nat.succ_ne_zero 6
  | some count =>
    have hle : 1 ≤ max count 1 := le_max_right count 1
    exact Nat.one_le_iff_ne_zero.mp hle

/-- The reply after one more choice. -/
def set (reply : Vacation) : VacationChoice → Vacation
  | .days count => { reply with days := max count 1 }
  | .subject text => { reply with subject := some text }
  | .sender text => { reply with sender := some text }
  | .handle text => { reply with handle := some text }
  | .address text => { reply with addresses := [text] }
  | .addresses items => { reply with addresses := items }
  | .mime => { reply with mime := true }

/-- A choice is read as a whole, whatever stands behind it. -/
theorem ofArguments_written (reply : Vacation) (choice : VacationChoice) (rest : List Argument) :
    reply.ofArguments (choice.written ++ rest) = (reply.set choice).ofArguments rest := by
  cases choice <;> rfl

/-- Choices are read one after the other. -/
theorem ofArguments_append (reply : Vacation) (choices : List VacationChoice)
    (rest : List Argument) :
    reply.ofArguments (choices.flatMap VacationChoice.written ++ rest) =
      (choices.foldl set reply).ofArguments rest := by
  induction choices generalizing reply with
  | nil => rfl
  | cons choice choices ih =>
    rw [List.flatMap_cons, List.append_assoc, ofArguments_written, ih, List.foldl_cons]

/-- Some arguments spell choices, which change a reply one after the other, and then a reason. -/
inductive IsSpelled (reply : Vacation) : List Argument → Vacation → Prop
  | intro (choices : List VacationChoice) (reason : String) :
    IsSpelled reply (choices.flatMap VacationChoice.written ++ [.string reason])
      { choices.foldl set reply with reason := reason }

/-- A choice in front of others is spelled by its tag and its value. -/
theorem IsSpelled.cons {reply result : Vacation} {tag : String} {rest : List Argument}
    (choice : VacationChoice) (htag : VacationTag.ofTag? tag = some choice.kind)
    (h : (reply.set choice).IsSpelled rest result) :
    reply.IsSpelled (.tag tag :: (choice.value ++ rest)) result := by
  obtain rfl := VacationTag.ofTag?_eq_some_iff.mp htag
  obtain ⟨choices, reason⟩ := h
  have hcons : reply.IsSpelled _ _ := intro (choice :: choices) reason
  rwa [List.flatMap_cons, List.append_assoc] at hcons

/-- Arguments are read where they spell choices and then a reason. -/
theorem ofArguments_eq_ok_iff {reply result : Vacation} {arguments : List Argument} :
    reply.ofArguments arguments = .ok result ↔ reply.IsSpelled arguments result := by
  constructor
  · intro h
    fun_induction ofArguments reply arguments with
    | case2 reply reason rest hlast =>
      obtain rfl := List.isEmpty_iff.mp hlast
      cases h
      exact .intro [] reason
    | case4 reply tag htag days rest ih => exact (ih h).cons (.days days) htag
    | case6 reply tag htag subject rest ih => exact (ih h).cons (.subject subject) htag
    | case8 reply tag htag sender rest ih => exact (ih h).cons (.sender sender) htag
    | case10 reply tag htag handle rest ih => exact (ih h).cons (.handle handle) htag
    | case12 reply tag htag address rest ih => exact (ih h).cons (.address address) htag
    | case13 reply tag htag addresses rest ih => exact (ih h).cons (.addresses addresses) htag
    | case15 reply tag rest htag ih => exact (ih h).cons .mime htag
    | _ => cases h
  · rintro ⟨choices, reason⟩
    rw [ofArguments_append]
    rfl

section

variable (choices : List VacationChoice) (reply : Vacation)

/-- The last choice of the days counts, and it is one day at least. -/
theorem days_foldl : (choices.foldl set reply).days =
    (choices.filterMap VacationChoice.days?).getLast?.elim reply.days (max · 1) :=
  foldl_eq_elim_getLast? (fun _ choice => by cases choice <;> rfl) choices reply

/-- The last choice of the subject counts. -/
theorem subject_foldl : (choices.foldl set reply).subject =
    (choices.filterMap VacationChoice.subject?).getLast?.elim reply.subject some :=
  foldl_eq_elim_getLast? (fun _ choice => by cases choice <;> rfl) choices reply

/-- The last choice of the sender counts. -/
theorem sender_foldl : (choices.foldl set reply).sender =
    (choices.filterMap VacationChoice.sender?).getLast?.elim reply.sender some :=
  foldl_eq_elim_getLast? (fun _ choice => by cases choice <;> rfl) choices reply

/-- The last choice of the addresses counts. -/
theorem addresses_foldl : (choices.foldl set reply).addresses =
    (choices.filterMap VacationChoice.addresses?).getLast?.elim reply.addresses id :=
  foldl_eq_elim_getLast? (fun _ choice => by cases choice <;> rfl) choices reply

/-- The last choice about MIME counts. -/
theorem mime_foldl : (choices.foldl set reply).mime =
    (choices.filterMap VacationChoice.mime?).getLast?.elim reply.mime id :=
  foldl_eq_elim_getLast? (fun _ choice => by cases choice <;> rfl) choices reply

/-- The last choice of the handle counts. -/
theorem handle_foldl : (choices.foldl set reply).handle =
    (choices.filterMap VacationChoice.handle?).getLast?.elim reply.handle some :=
  foldl_eq_elim_getLast? (fun _ choice => by cases choice <;> rfl) choices reply

/-- No choice changes the reason. -/
theorem reason_foldl : (choices.foldl set reply).reason = reply.reason := by
  induction choices generalizing reply with
  | nil => rfl
  | cons choice choices ih =>
    rw [List.foldl_cons, ih]
    cases choice <;> rfl

end

/-- What is chosen from the defaults is what the choices come to. -/
theorem ofChoices_eq (choices : List VacationChoice) (reason : String) :
    { choices.foldl set plain with reason := reason } = ofChoices choices reason := by
  have helim : ∀ chosen : Option String, chosen.elim none some = chosen := by
    intro chosen
    cases chosen <;> rfl
  have hgetD : ∀ {α : Type} (chosen : Option α) (default : α),
      chosen.elim default id = chosen.getD default := by
    intro α chosen default
    cases chosen <;> rfl
  simp only [ofChoices, days_foldl, subject_foldl, sender_foldl, addresses_foldl, mime_foldl,
    handle_foldl, plain, helim, hgetD]

attribute [ext] Vacation

/-- Choices of different sorts may change places. -/
theorem foldl_set_eq {choices others : List VacationChoice}
    (hsame : SameByKind VacationChoice.kind choices others) (reply : Vacation) :
    others.foldl set reply = choices.foldl set reply := by
  apply Vacation.ext
  · rw [days_foldl, days_foldl,
      hsame.filterMap_eq (k := .days) fun choice _ => by cases choice <;> trivial]
  · rw [subject_foldl, subject_foldl,
      hsame.filterMap_eq (k := .subject) fun choice _ => by cases choice <;> trivial]
  · rw [sender_foldl, sender_foldl,
      hsame.filterMap_eq (k := .sender) fun choice _ => by cases choice <;> trivial]
  · rw [addresses_foldl, addresses_foldl,
      hsame.filterMap_eq (k := .addresses) fun choice _ => by cases choice <;> trivial]
  · rw [mime_foldl, mime_foldl,
      hsame.filterMap_eq (k := .mime) fun choice _ => by cases choice <;> trivial]
  · rw [handle_foldl, handle_foldl,
      hsame.filterMap_eq (k := .handle) fun choice _ => by cases choice <;> trivial]
  · rw [reason_foldl, reason_foldl]

end Vacation

namespace Command

/-- A command takes neither a block nor tests, and its arguments spell choices and a reason that
come to a reply. -/
structure DescribesVacation (command : Command) (reply : Vacation) : Prop where
  block : command.block = none
  tests : command.tests = none
  arguments : ∃ choices reason,
    command.arguments = choices.flatMap VacationChoice.written ++ [.string reason] ∧
      reply = .ofChoices choices reason

variable {command : Command}

/-- The reading of a command that takes neither a block nor tests. -/
theorem plain_eq_ok_iff {α : Type} {read : Except Fault α} {value : α} :
    (do command.takesNoBlock; command.takesNoTests; read) = .ok value ↔
      command.block = none ∧ command.tests = none ∧ read = .ok value := by
  rw [takesNoBlock, takesNoTests]
  cases command.block <;> cases command.tests <;> simp [bind, Except.bind]

/-- A command is read as a reply if it describes that reply. -/
theorem vacation_eq_ok_iff {reply : Vacation} :
    command.vacation = .ok reply ↔ command.DescribesVacation reply := by
  rw [vacation, plain_eq_ok_iff]
  constructor
  · rintro ⟨hblock, htests, hread⟩
    have hspelled := Vacation.ofArguments_eq_ok_iff.mp (eq_ok_of_mapError_eq_ok hread)
    generalize harguments : command.arguments = arguments at hspelled
    obtain ⟨choices, reason⟩ := hspelled
    exact ⟨hblock, htests, choices, reason, harguments, Vacation.ofChoices_eq choices reason⟩
  · rintro ⟨hblock, htests, choices, reason, harguments, rfl⟩
    refine ⟨hblock, htests, ?_⟩
    have hspelled : Vacation.plain.IsSpelled command.arguments (.ofChoices choices reason) := by
      rw [harguments, ← Vacation.ofChoices_eq]
      exact .intro choices reason
    rw [Vacation.ofArguments_eq_ok_iff.mpr hspelled]
    rfl

/-- A command that is read otherwise is faulted under its name and line. -/
theorem vacation_eq_error (h : ∀ reply, ¬command.DescribesVacation reply) :
    ∃ cause, command.vacation = .error (.arguments command.name command.line cause) := by
  cases hread : command.vacation with
  | error fault =>
    obtain ⟨cause, rfl⟩ := command.failsOnly_vacation fault hread
    exact ⟨cause, rfl⟩
  | ok reply => exact absurd (vacation_eq_ok_iff.mp hread) (h reply)

/-- A command whose arguments are wrong fails, and leaves nothing but a step that was counted. -/
theorem apply_run_of_task_error [MailReader] {environment : Environment} {kind : CommandKind}
    {fault : Fault} (hkind : environment.registries.commands.lookup command.name = .ok kind)
    (htask : command.task kind = .error fault) (session : Session) :
    ∃ raised, (run environment command).apply session = (.error raised, session.counted) ∧
      (environment.exceeded? (session.steps + 1) = none →
        kind.objection? session.command session.condition = none → raised = fault) := by
  have haccept : ∃ raised, command.accept environment session = .error raised ∧
      (environment.exceeded? (session.steps + 1) = none →
        kind.objection? session.command session.condition = none → raised = fault) := by
    rw [accept]
    cases environment.exceeded? (session.steps + 1) with
    | some limit => exact ⟨_, rfl, fun hbudget => by cases hbudget⟩
    | none =>
      rw [hkind]
      dsimp only [taskIn]
      cases kind.objection? session.command session.condition with
      | some cause => exact ⟨_, rfl, fun _ hplace => by cases hplace⟩
      | none =>
        rw [htask]
        exact ⟨_, rfl, fun _ _ => rfl⟩
  obtain ⟨raised, haccept, hraised⟩ := haccept
  rw [apply_run, haccept]
  exact ⟨raised, rfl, hraised⟩

/-- A `vacation` command is read exactly where it takes neither a block nor tests and its arguments
spell choices and then a reason. It then replies as they say, at least a day apart, in whatever
order choices of different sorts stand. Every other one fails its check of the arguments and takes
no action. -/
theorem vacation_exact [MailReader] (command : Command) :
    (∀ reply, command.vacation = .ok reply ↔ command.DescribesVacation reply) ∧
    (∀ reply, command.DescribesVacation reply → reply.days ≠ 0) ∧
    (∀ choices others rest, SameByKind VacationChoice.kind choices others →
      command.arguments = choices.flatMap VacationChoice.written ++ rest →
      vacation { command with arguments := others.flatMap VacationChoice.written ++ rest } =
        command.vacation) ∧
    (∀ reply, command.DescribesVacation reply → ∀ (environment : Environment) (session : Session),
      environment.registries.commands.lookup command.name = .ok .vacation →
      environment.exceeded? (session.steps + 1) = none → session.command.rejected = false →
      ∃ after, (run environment command).apply session = (.ok .continue, after) ∧
        after.actions = session.actions ++ [.vacation reply]) ∧
    ((∀ reply, ¬command.DescribesVacation reply) →
      ∃ cause, command.vacation = .error (.arguments command.name command.line cause) ∧
        ∀ (environment : Environment) (session : Session),
          environment.registries.commands.lookup command.name = .ok .vacation →
          ∃ raised after, (run environment command).apply session = (.error raised, after) ∧
            after.actions = session.actions ∧
            (environment.exceeded? (session.steps + 1) = none →
              session.command.rejected = false →
                raised = .arguments command.name command.line cause)) := by
  refine ⟨fun reply => vacation_eq_ok_iff, ?_, ?_, ?_, ?_⟩
  · rintro reply ⟨-, -, choices, reason, -, rfl⟩
    exact Vacation.days_ofChoices_ne_zero choices reason
  · intro choices others rest hsame harguments
    rw [vacation, vacation, harguments, Vacation.ofArguments_append, Vacation.ofArguments_append,
      Vacation.foldl_set_eq hsame]
    rfl
  · intro reply hdescribes environment session hkind hbudget hrejected
    have htask : command.task .vacation = .ok (.act (.vacation reply)) := by
      rw [task, vacation_eq_ok_iff.mpr hdescribes]
      rfl
    have hrun := apply_run_act environment command hkind (fun _ _ => rfl) htask session
    rw [hbudget, if_neg (Bool.eq_false_iff.mp hrejected)] at hrun
    exact ⟨_, hrun, rfl⟩
  · intro h
    obtain ⟨cause, hread⟩ := vacation_eq_error h
    have htask : command.task .vacation = .error (.arguments command.name command.line cause) := by
      rw [task, hread]
      rfl
    refine ⟨cause, hread, fun environment session hkind => ?_⟩
    obtain ⟨raised, hrun, hraised⟩ := apply_run_of_task_error hkind htask session
    refine ⟨raised, _, hrun, rfl, fun hbudget hrejected => hraised hbudget ?_⟩
    exact if_neg (Bool.eq_false_iff.mp hrejected)

/-- The command `vacation :mime :days 30 :days 0 :addresses "ann@example.org" "Gone."`, with its
choices in another order, and the same without a reason. -/
theorem vacation_exact_ann :
    let choices : List VacationChoice := [.mime, .days 30, .days 0, .address "ann@example.org"]
    let others : List VacationChoice := [.days 30, .address "ann@example.org", .days 0, .mime]
    let command : Command :=
      ⟨"vacation", choices.flatMap VacationChoice.written ++ [.string "Gone."], none, none, 4⟩
    let unexplained : Command := { command with arguments := [.tag ":mime"] }
    let reply : Vacation := ⟨1, none, none, ["ann@example.org"], true, none, "Gone."⟩
    let environment : Environment := ⟨.builtin, some 9, .ofBytes [] none none⟩
    let session : Session := .start [.keep]
    SameByKind VacationChoice.kind choices others ∧ command.DescribesVacation reply ∧
      reply.days ≠ 0 ∧
      vacation { command with arguments := others.flatMap VacationChoice.written ++
        [.string "Gone."] } = .ok reply ∧
      environment.registries.commands.lookup command.name = .ok .vacation ∧
      environment.exceeded? (session.steps + 1) = none ∧ session.command.rejected = false ∧
      (∃ after, (run environment command).apply session = (.ok .continue, after) ∧
        after.actions = [.keep, .vacation reply]) ∧
      (∀ reply, ¬unexplained.DescribesVacation reply) ∧
      ∃ cause after, (run environment unexplained).apply session =
        (.error (.arguments "vacation" 4 cause), after) ∧ after.actions = [.keep] := by
  intro choices others command unexplained reply environment session
  have hsame : SameByKind VacationChoice.kind choices others := by
    intro kind
    cases kind <;> rfl
  have hread : command.vacation = .ok reply := rfl
  have hkind : environment.registries.commands.lookup "vacation" = .ok .vacation := rfl
  have hbudget : environment.exceeded? (session.steps + 1) = none := rfl
  obtain ⟨hdescribes, hdays, hreorder, hacts, -⟩ := vacation_exact command
  obtain ⟨hplain, -, -, -, hfails⟩ := vacation_exact unexplained
  have hreply : command.DescribesVacation reply := (hdescribes reply).mp hread
  have hmissing : ∀ reply, ¬unexplained.DescribesVacation reply := fun reply h =>
    nomatch (hplain reply).mpr h
  obtain ⟨cause, -, hfault⟩ := hfails hmissing
  obtain ⟨raised, after, hrun, hactions, hraised⟩ := hfault environment session hkind
  obtain rfl := hraised hbudget rfl
  refine ⟨hsame, hreply, hdays reply hreply, ?_, hkind, hbudget, rfl,
    hacts reply hreply environment session hkind hbudget rfl, hmissing,
    cause, after, hrun, hactions⟩
  exact (hreorder choices others [.string "Gone."] hsame rfl).trans hread

end Command

end MailFilter
