import MailFilter.Proofs.Evaluation.Run

/-!
# Which faults a step can end in

A step fails with the fault of one of its parts, so it is enough to know the faults of each part.
The arguments of a command and of a test are read once and for all kinds here: whatever is wrong
with them is blamed on that command or test.
-/

namespace MailFilter

variable {α β : Type} {allowed wider : Fault → Prop}

/-- If a result is a fault, it is one of the allowed ones. -/
def FailsOnly (allowed : Fault → Prop) (result : Except Fault α) : Prop :=
  ∀ fault, result = .error fault → allowed fault

/-- A value is no fault at all. -/
theorem failsOnly_ok (value : α) : FailsOnly allowed (.ok value) := nofun

/-- A fault that is allowed is an allowed result. -/
theorem failsOnly_error {fault : Fault} (h : allowed fault) :
    FailsOnly allowed (.error fault : Except Fault α) := by
  rintro _ ⟨⟩
  exact h

/-- What fails only with some faults fails only with more of them. -/
theorem FailsOnly.mono {result : Except Fault α} (h : FailsOnly allowed result)
    (hwider : ∀ fault, allowed fault → wider fault) : FailsOnly wider result :=
  fun fault hfault => hwider fault (h fault hfault)

/-- A sequence fails as its first part does, or as its second part does on what the first gave. -/
theorem FailsOnly.bind {result : Except Fault α} {next : α → Except Fault β}
    (hresult : FailsOnly allowed result)
    (hnext : ∀ value, result = .ok value → FailsOnly allowed (next value)) :
    FailsOnly allowed (result >>= next) := by
  cases result with
  | error fault => exact failsOnly_error (hresult fault rfl)
  | ok value => exact hnext value rfl

/-- A sequence that gives a value has one of its first part. -/
theorem exists_of_bind_eq_ok {ε : Type} {result : Except ε α} {next : α → Except ε β} {value : β}
    (h : result >>= next = .ok value) : ∃ first, result = .ok first ∧ next first = .ok value := by
  cases result with
  | error fault => cases h
  | ok first => exact ⟨first, rfl, h⟩

/-- A value was there before the fault was changed. -/
theorem eq_ok_of_mapError_eq_ok {ε δ : Type} {f : ε → δ} {result : Except ε α} {value : α}
    (h : result.mapError f = .ok value) : result = .ok value := by
  cases result with
  | error cause => cases h
  | ok first => exact Except.ok.inj h ▸ rfl

/-- A check and what follows it fail only with allowed faults if both do. -/
theorem FailsOnly.bind_const {result : Except Fault α} {next : Except Fault β}
    (hresult : FailsOnly allowed result) (hnext : FailsOnly allowed next) :
    FailsOnly allowed (result >>= fun _ => next) :=
  hresult.bind fun _ _ => hnext

/-- Changing the value brings no new faults. -/
theorem FailsOnly.map {result : Except Fault α} (hresult : FailsOnly allowed result) (f : α → β) :
    FailsOnly allowed (result.map f) := by
  cases result with
  | error fault => exact failsOnly_error (hresult fault rfl)
  | ok value => exact failsOnly_ok (f value)

/-- A fault that is made of a cause is allowed if all such faults are. -/
theorem failsOnly_mapError {ε : Type} {f : ε → Fault} (hf : ∀ cause, allowed (f cause))
    (result : Except ε α) : FailsOnly allowed (result.mapError f) := by
  cases result with
  | error cause => exact failsOnly_error (hf cause)
  | ok value => exact failsOnly_ok value

namespace Command

/-- A fault in the arguments of a command. -/
def IsArgumentFault (command : Command) (fault : Fault) : Prop :=
  ∃ cause, command.argumentFault cause = fault

variable (command : Command)

/-- A fault in the arguments of a command is one. -/
theorem failsOnly_argumentFault (cause : ArgumentCause) :
    FailsOnly command.IsArgumentFault
      (.error (command.argumentFault cause) : Except Fault α) :=
  failsOnly_error ⟨cause, rfl⟩

/-- To refuse a block is to find fault with the arguments. -/
theorem failsOnly_takesNoBlock : FailsOnly command.IsArgumentFault command.takesNoBlock := by
  rw [takesNoBlock]
  split
  · exact command.failsOnly_argumentFault _
  · exact failsOnly_ok ()

/-- To refuse tests is to find fault with the arguments. -/
theorem failsOnly_takesNoTests : FailsOnly command.IsArgumentFault command.takesNoTests := by
  rw [takesNoTests]
  split
  · exact command.failsOnly_argumentFault _
  · exact failsOnly_ok ()

/-- To refuse arguments is to find fault with them. -/
theorem failsOnly_takesNoArguments :
    FailsOnly command.IsArgumentFault command.takesNoArguments := by
  rw [takesNoArguments]
  split
  · exact failsOnly_ok ()
  · exact command.failsOnly_argumentFault _

/-- To miss a block is to find fault with the arguments. -/
theorem failsOnly_takesBlock : FailsOnly command.IsArgumentFault command.takesBlock := by
  rw [takesBlock]
  split
  · exact failsOnly_ok ()
  · exact command.failsOnly_argumentFault _

/-- A command that takes one test finds fault with its arguments at most. -/
theorem failsOnly_singleTest : FailsOnly command.IsArgumentFault command.singleTest := by
  rw [singleTest]
  split
  · split
    · exact failsOnly_ok _
    · exact command.failsOnly_argumentFault _
  · exact command.failsOnly_argumentFault _

/-- A command that takes neither a block nor tests fails as the reading of its arguments does. -/
theorem failsOnly_plain {read : Except Fault α}
    (hread : FailsOnly command.IsArgumentFault read) :
    FailsOnly command.IsArgumentFault (do command.takesNoBlock; command.takesNoTests; read) :=
  command.failsOnly_takesNoBlock.bind_const (command.failsOnly_takesNoTests.bind_const hread)

/-- A command that takes one text finds fault with its arguments at most. -/
theorem failsOnly_singleString : FailsOnly command.IsArgumentFault command.singleString := by
  refine command.failsOnly_plain ?_
  split
  · exact failsOnly_ok _
  · exact command.failsOnly_argumentFault _
  · exact command.failsOnly_argumentFault _

/-- A requirement finds fault with its arguments at most. -/
theorem failsOnly_features : FailsOnly command.IsArgumentFault command.features := by
  refine command.failsOnly_plain ?_
  split
  · exact failsOnly_ok _
  · exact failsOnly_ok _
  · exact command.failsOnly_argumentFault _

/-- A redirection finds fault with its arguments at most, its address among them. -/
theorem failsOnly_redirection [MailReader] : FailsOnly command.IsArgumentFault command.redirection
    := by
  refine command.failsOnly_singleString.bind fun address _ => ?_
  split
  · exact failsOnly_ok _
  · exact command.failsOnly_argumentFault _

/-- A vacation finds fault with its arguments at most. -/
theorem failsOnly_vacation : FailsOnly command.IsArgumentFault command.vacation :=
  command.failsOnly_plain (failsOnly_mapError (fun cause => ⟨cause, rfl⟩) _)

/-- A command that writes a line finds fault with its arguments at most. -/
theorem failsOnly_logLine : FailsOnly command.IsArgumentFault command.logLine := by
  refine command.failsOnly_plain ?_
  split
  · exact failsOnly_ok _
  · split
    · exact failsOnly_ok _
    · exact command.failsOnly_argumentFault _
  · exact command.failsOnly_argumentFault _

variable [MailReader]

/-- Whatever keeps a command from having a task is blamed on its arguments. -/
theorem failsOnly_task (kind : CommandKind) :
    FailsOnly command.IsArgumentFault (command.task kind) := by
  have hclosed : ∀ task : Task, FailsOnly command.IsArgumentFault
      (do command.takesNoBlock; command.takesNoArguments; return task) := fun task =>
    command.failsOnly_takesNoBlock.bind_const
      (command.failsOnly_takesNoArguments.bind_const (failsOnly_ok task))
  cases kind with
  | branch | elseBranch =>
    exact command.failsOnly_takesBlock.bind_const
      (command.failsOnly_singleTest.bind fun test _ => failsOnly_ok _)
  | otherwise =>
    exact command.failsOnly_takesBlock.bind_const
      (command.failsOnly_takesNoArguments.bind_const (failsOnly_ok _))
  | require => exact command.failsOnly_features.bind fun features _ => failsOnly_ok _
  | stop | keep | discard => exact hclosed _
  | fileinto | reject => exact command.failsOnly_singleString.bind fun text _ => failsOnly_ok _
  | redirect => exact command.failsOnly_redirection.bind fun address _ => failsOnly_ok _
  | vacation => exact command.failsOnly_vacation.bind fun reply _ => failsOnly_ok _
  | log => exact command.failsOnly_logLine.bind fun line _ => failsOnly_ok _

/-- A command is refused for the budget, for its name, for its place or for its arguments. -/
theorem failsOnly_accept {environment : Environment} {session : Session}
    (hname : FailsOnly allowed (environment.registries.commands.lookup command.name))
    (hplace : ∀ cause, allowed (.command command.name command.line cause))
    (harguments : ∀ fault, command.IsArgumentFault fault → allowed fault) :
    FailsOnly allowed (command.accept environment session) := by
  rw [accept]
  split
  · exact failsOnly_error (hplace _)
  split
  · next fault hfault => exact failsOnly_error (hname fault hfault)
  · rw [taskIn]
    split
    · exact failsOnly_error (hplace _)
    · exact ((command.failsOnly_task _).mono harguments).map _

end Command

namespace Test

/-- A fault in the arguments of a test. -/
def IsArgumentFault (test : Test) (fault : Fault) : Prop :=
  ∃ cause, test.argumentFault cause = fault

variable (test : Test)

/-- A fault in the arguments of a test is one. -/
theorem failsOnly_argumentFault (cause : ArgumentCause) :
    FailsOnly test.IsArgumentFault (.error (test.argumentFault cause) : Except Fault α) :=
  failsOnly_error ⟨cause, rfl⟩

/-- What is wrong with a combinator is a fault in its arguments. -/
theorem isArgumentFault_combinatorFault : test.IsArgumentFault test.combinatorFault := by
  rw [combinatorFault]
  split
  · exact ⟨_, rfl⟩
  · exact ⟨_, rfl⟩

/-- Reading the arguments of a matching test finds fault with them at most. -/
theorem failsOnly_matchArguments (addresses : Bool) :
    FailsOnly test.IsArgumentFault (MatchArguments.ofTest test addresses) :=
  failsOnly_mapError (fun cause => ⟨cause, rfl⟩) _

/-- Reading the parts of an envelope finds fault with the arguments at most. -/
theorem failsOnly_envelopeParts (names : List String) :
    FailsOnly test.IsArgumentFault (test.envelopeParts names) := by
  induction names with
  | nil => exact failsOnly_ok []
  | cons name names ih =>
    rw [envelopeParts]
    split
    · exact ih.bind fun parts _ => failsOnly_ok _
    · exact test.failsOnly_argumentFault _

/-- Reading a list of header names finds fault with the arguments at most. -/
theorem failsOnly_headerNames : FailsOnly test.IsArgumentFault test.headerNames := by
  rw [headerNames]
  split
  · exact test.failsOnly_argumentFault _
  · split
    · split
      · exact failsOnly_ok _
      · exact test.failsOnly_argumentFault _
    · exact test.failsOnly_argumentFault _

/-- Reading a limit finds fault with the arguments at most. -/
theorem failsOnly_sizeLimit : FailsOnly test.IsArgumentFault test.sizeLimit := by
  rw [sizeLimit]
  split
  · exact test.failsOnly_argumentFault _
  · split
    · split
      · exact failsOnly_ok _
      · exact test.failsOnly_argumentFault _
    · exact test.failsOnly_argumentFault _

/-- A test that takes nothing finds fault with its arguments at most. -/
theorem failsOnly_takesNothing : FailsOnly test.IsArgumentFault test.takesNothing := by
  rw [takesNothing]
  split
  · exact failsOnly_ok ()
  · exact test.failsOnly_argumentFault _

variable (environment : Environment)

/-- An `exists` test finds fault with its arguments at most. -/
theorem failsOnly_exists [MailReader] : FailsOnly test.IsArgumentFault (test.exists environment) :=
  test.failsOnly_headerNames.bind fun _ _ => failsOnly_ok _

/-- A `size` test finds fault with its arguments at most. -/
theorem failsOnly_size : FailsOnly test.IsArgumentFault (test.size environment) :=
  test.failsOnly_sizeLimit.bind fun _ _ => failsOnly_ok _

/-- A constant test finds fault with its arguments at most. -/
theorem failsOnly_constant (result : Bool) :
    FailsOnly test.IsArgumentFault (test.constant result) :=
  test.failsOnly_takesNothing.bind_const (failsOnly_ok result)

end Test

/-- A fault in a path of the envelope. -/
def EnvelopePart.IsAddressFault (fault : Fault) : Prop :=
  ∃ header cause, .addressParse header cause = fault

/-- The path of an envelope part is at fault only for not being a mailbox. -/
theorem EnvelopePart.failsOnly_address [MailReader] (part : EnvelopePart) (path : String) :
    FailsOnly IsAddressFault (part.address path) := by
  rw [address]
  split
  · exact failsOnly_ok Address.null
  · exact failsOnly_mapError (fun cause => ⟨_, cause, rfl⟩) _

/-- The walk through an envelope fails only at a path that is not a mailbox. -/
theorem MatchArguments.failsOnly_acceptsEnvelope [MailReader] (sought : MatchArguments)
    (comparator : Comparator) (mail : Message) (parts : List EnvelopePart) :
    FailsOnly EnvelopePart.IsAddressFault (sought.acceptsEnvelope comparator mail parts) := by
  induction parts with
  | nil => exact failsOnly_ok false
  | cons part parts ih =>
    rw [acceptsEnvelope]
    split
    · exact ih
    · next path hpath =>
      cases haddress : part.address path with
      | error fault => exact failsOnly_error (part.failsOnly_address path fault haddress)
      | ok address =>
        dsimp only
        split
        · exact failsOnly_ok true
        · exact ih

namespace Test

variable {test : Test} {environment : Environment}

variable [MailReader]

/-- A test that compares texts fails for its arguments or for want of its comparator. -/
theorem failsOnly_header (hown : ∀ fault, test.IsArgumentFault fault → allowed fault)
    (hcomparator : ∀ sought, MatchArguments.ofTest test false = .ok sought →
      FailsOnly allowed (environment.registries.comparators.lookup sought.comparator)) :
    FailsOnly allowed (test.header environment) :=
  ((test.failsOnly_matchArguments false).mono hown).bind fun sought hsought =>
    (hcomparator sought hsought).bind fun _ _ => failsOnly_ok _

/-- An `address` test fails only for its arguments or its comparator. -/
theorem failsOnly_address (hown : ∀ fault, test.IsArgumentFault fault → allowed fault)
    (hcomparator : ∀ sought, MatchArguments.ofTest test true = .ok sought →
      FailsOnly allowed (environment.registries.comparators.lookup sought.comparator)) :
    FailsOnly allowed (test.address environment) :=
  ((test.failsOnly_matchArguments true).mono hown).bind fun sought hsought =>
    (hcomparator sought hsought).bind fun _ _ => failsOnly_ok _

/-- A test of the envelope may find a path there that is no address as well. -/
theorem failsOnly_envelope (hown : ∀ fault, test.IsArgumentFault fault → allowed fault)
    (hcomparator : ∀ sought, MatchArguments.ofTest test true = .ok sought →
      FailsOnly allowed (environment.registries.comparators.lookup sought.comparator))
    (hpath : ∀ fault, EnvelopePart.IsAddressFault fault → allowed fault) :
    FailsOnly allowed (test.envelope environment) := by
  refine ((test.failsOnly_matchArguments true).mono hown).bind fun sought hsought => ?_
  refine ((test.failsOnly_envelopeParts _).mono hown).bind fun parts _ => ?_
  refine (hcomparator sought hsought).bind fun comparator _ => ?_
  exact (sought.failsOnly_acceptsEnvelope comparator _ parts).mono hpath

end Test

namespace Eval

/-- From every state a step that fails ends in one of the allowed faults. -/
def FailsOnly (allowed : Fault → Prop) (step : Eval α) : Prop :=
  ∀ session : Session, MailFilter.FailsOnly allowed (step.apply session).1

/-- A result that is known fails only with what it is. -/
theorem failsOnly_ofExcept {result : Except Fault α} (h : MailFilter.FailsOnly allowed result) :
    (ofExcept result).FailsOnly allowed :=
  fun _ => h

/-- A value that is given back does not fail. -/
theorem failsOnly_pure (value : α) : (pure value : Eval α).FailsOnly allowed :=
  failsOnly_ofExcept (failsOnly_ok value)

/-- A fault that is raised is all that goes wrong. -/
theorem failsOnly_throw {fault : Fault} (h : allowed fault) :
    (throw fault : Eval α).FailsOnly allowed :=
  failsOnly_ofExcept (failsOnly_error h)

/-- An update does not fail. -/
theorem failsOnly_update (change : Session → Session) : (update change).FailsOnly allowed :=
  fun _ => failsOnly_ok ()

/-- Counting a step fails only if the budget is exceeded. -/
theorem failsOnly_tick (environment : Environment) {name : String} {line : Nat}
    (h : ∀ limit, allowed (.command name line (.budgetExceeded limit))) :
    (tick environment name line).FailsOnly allowed := by
  intro session
  rw [apply_tick]
  cases environment.exceeded? (session.steps + 1) with
  | none => exact failsOnly_ok ()
  | some limit => exact failsOnly_error (h limit)

/-- A sequence of steps fails as its first one does, or as its second one does on what the first
gave. -/
theorem FailsOnly.bind {step : Eval α} {next : α → Eval β} (hstep : step.FailsOnly allowed)
    (hnext : ∀ value, (next value).FailsOnly allowed) : (step >>= next).FailsOnly allowed := by
  intro session
  rw [apply_bind]
  have hresult := hstep session
  generalize step.apply session = done at hresult ⊢
  obtain ⟨_ | value, after⟩ := done
  · exact failsOnly_error (hresult _ rfl)
  · exact hnext value after

/-- To fail only with some faults is closed under all that an evaluation of tests is made of. -/
theorem closed_failsOnly (allowed : Fault → Prop) : Closed fun step => step.FailsOnly allowed where
  result := failsOnly_pure
  bind := FailsOnly.bind

/-- Changing the value of a step brings no new faults. -/
theorem FailsOnly.map {step : Eval α} (hstep : step.FailsOnly allowed) (f : α → β) :
    (f <$> step).FailsOnly allowed := by
  rw [map_eq_pure_bind]
  exact hstep.bind fun value => failsOnly_pure (f value)

/-- A note of the value leaves the faults of a step as they are. -/
theorem FailsOnly.noted {step : Eval α} (hstep : step.FailsOnly allowed) (event : α → Event) :
    (do let value ← step; note (event value); return value).FailsOnly allowed :=
  hstep.bind fun value => (failsOnly_update _).bind fun _ => failsOnly_pure value

end Eval

end MailFilter
