import MailFilter.Proofs.Delivery.Effects
import MailFilter.Proofs.Evaluation.Budget

/-!
# Keeping a message is filing it into the inbox

A script and the same script with every `keep` in it replaced by a `fileinto` of the inbox come to
the same thing. The two evaluations go side by side: they count the same steps, pass through the
same states and take the same actions, but where the one keeps the message the other files it. The
dispatch of the two lists of actions then hands the same mail to the store.
-/

namespace MailFilter

/-- The action that filing into the inbox amounts to. Every other action is itself. -/
def Action.asKeep (inbox : String) (action : Action) : Action :=
  if action = .fileInto inbox then .keep else action

namespace Command

/-- Whether a command is a `keep` whose arguments are right, which means that it has none. -/
def isPlainKeep (command : Command) : Bool :=
  Ascii.lower command.name == "keep" && command.arguments.isEmpty && command.tests.isNone &&
    command.block.isNone

mutual

/-- A command with every right `keep` in it, or itself if it is one, replaced by a `fileinto` on the
same line. -/
def filing (folder : String) : Command → Command
  | ⟨name, arguments, tests, block, line⟩ =>
    if isPlainKeep ⟨name, arguments, tests, block, line⟩ then
      ⟨"fileinto", [.string folder], none, none, line⟩
    else ⟨name, arguments, tests, filing? folder block, line⟩

/-- The block of a command with every right `keep` in it replaced. -/
def filing? (folder : String) : Option (List Command) → Option (List Command)
  | none => none
  | some block => some (filingAll folder block)

/-- Some commands with every right `keep` among or in them replaced. -/
def filingAll (folder : String) : List Command → List Command
  | [] => []
  | command :: commands => filing folder command :: filingAll folder commands

end

/-- What a command is to do depends on whether it has a block, but not on what is in it. -/
theorem task_eq_of_block [MailReader] {block other : Option (List Command)}
    (h : block.isSome = other.isSome) (name : String) (arguments : List Argument)
    (tests : Option (List Test)) (line : Nat) (kind : CommandKind) :
    task ⟨name, arguments, tests, block, line⟩ kind =
      task ⟨name, arguments, tests, other, line⟩ kind := by
  have hfault : argumentFault ⟨name, arguments, tests, block, line⟩ =
      argumentFault ⟨name, arguments, tests, other, line⟩ := rfl
  cases kind <;>
    simp only [task, redirection, singleString, features, vacation, logLine, takesBlock,
      takesNoBlock, takesNoTests, takesNoArguments, singleTest, nested, hfault, h]

variable {environment : Environment}

/-- The preparation of a command does not look into its block either. -/
theorem prepare_eq_of_block [MailReader] {block other : Option (List Command)}
    (h : block.isSome = other.isSome) (name : String) (arguments : List Argument)
    (tests : Option (List Test)) (line : Nat) :
    prepare environment ⟨name, arguments, tests, block, line⟩ =
      prepare environment ⟨name, arguments, tests, other, line⟩ := by
  have htask := task_eq_of_block h name arguments tests line
  simp only [prepare, htask]

/-- A block is there after the replacement if it was there before. -/
theorem isSome_filing? (folder : String) (block : Option (List Command)) :
    (filing? folder block).isSome = block.isSome := by
  cases block <;> rfl

/-- A command that takes an action does so unless the budget or a rejection forbids it. -/
theorem apply_run_act [MailReader] (environment : Environment) (command : Command)
    {kind : CommandKind} {action : Action}
    (hkind : environment.registries.commands.lookup command.name = .ok kind)
    (hobjection : ∀ state condition, kind.objection? state condition =
      if state.rejected then some .messageRejected else none)
    (htask : command.task kind = .ok (.act action)) (session : Session) :
    (run environment command).apply session =
      match environment.exceeded? (session.steps + 1) with
      | some limit =>
        (.error (.command command.name command.line (.budgetExceeded limit)), session.counted)
      | none =>
        if session.command.rejected then
          (.error (.command command.name command.line .messageRejected), session.counted)
        else (.ok .continue, kind.commit ((command.ready session).act command.line action)) := by
  rw [apply_run, accept]
  cases environment.exceeded? (session.steps + 1) with
  | some limit => rfl
  | none =>
    simp only [hkind, taskIn, hobjection]
    by_cases hrejected : session.command.rejected = true
    · simp only [hrejected, if_true]
      rfl
    · simp only [hrejected, htask]
      rfl

end Command

/-- Two states that differ at most in their events, and in filing into the inbox for keeping. -/
structure Session.Alike (inbox : String) (session other : Session) : Prop where
  steps : session.steps = other.steps
  command : session.command = other.command
  condition : session.condition = other.condition
  actions : session.actions.map (Action.asKeep inbox) = other.actions.map (Action.asKeep inbox)

namespace Session.Alike

variable {inbox : String} {session other : Session}

/-- A session is like itself. -/
theorem refl (inbox : String) (session : Session) : session.Alike inbox session :=
  ⟨rfl, rfl, rfl, rfl⟩

/-- Sessions stay alike whatever is noted in them. -/
theorem noted (h : session.Alike inbox other) (event event' : Event) :
    (session.noted event).Alike inbox (other.noted event') :=
  ⟨h.steps, h.command, h.condition, h.actions⟩

/-- Sessions stay alike if a step is counted in both. -/
theorem counted (h : session.Alike inbox other) : session.counted.Alike inbox other.counted :=
  ⟨congrArg (· + 1) h.steps, h.command, h.condition, h.actions⟩

/-- No change that commands make to the state tells the two apart. -/
theorem update (h : session.Alike inbox other) {change : Session → Session}
    (hchange : Session.Update change) : (change session).Alike inbox (change other) := by
  obtain ⟨hsteps, hcommand, hcondition, hactions⟩ := h
  cases hchange with
  | noted event => exact ⟨hsteps, hcommand, hcondition, hactions⟩
  | entered => exact ⟨hsteps, by simp only [enterBlock, hcommand], rfl, hactions⟩
  | recorded result => exact ⟨hsteps, hcommand, rfl, hactions⟩
  | revoked => exact ⟨hsteps, by simp only [hcommand], hcondition, hactions⟩
  | acted line action =>
    refine ⟨hsteps, by simp only [act, hcommand], hcondition, ?_⟩
    simp only [act, List.map_append, hactions]
  | committed kind =>
    cases kind <;> exact ⟨hsteps, by simp only [CommandKind.commit, hcommand],
      by simp only [CommandKind.commit, hcondition], hactions⟩

end Session.Alike

/-- From states that are alike, two steps come to results of one kind and to states that are
alike. -/
def Eval.Matches (inbox : String) {α : Type} (step other : Eval α) : Prop :=
  ∀ session session' : Session, session.Alike inbox session' →
    (step.apply session).1.mapError Fault.kind = (other.apply session').1.mapError Fault.kind ∧
      (step.apply session).2.Alike inbox (other.apply session').2

namespace Eval

variable {α β : Type} {inbox : String}

/-- A result that is known is the same on both sides. -/
theorem matches_ofExcept (result : Except Fault α) :
    Matches inbox (ofExcept result) (ofExcept result) :=
  fun _ _ h => ⟨rfl, h⟩

/-- If the first steps of two sequences fail, they fail alike; otherwise the second steps decide. -/
theorem Matches.bind {step other : Eval α} {next further : α → Eval β}
    (hstep : Matches inbox step other)
    (hnext : ∀ value, Matches inbox (next value) (further value)) :
    Matches inbox (step >>= next) (other >>= further) := by
  intro session session' h
  have hfirst := hstep session session' h
  rw [apply_bind, apply_bind]
  generalize step.apply session = done at hfirst ⊢
  generalize other.apply session' = done' at hfirst ⊢
  obtain ⟨fault | value, after⟩ := done
  · obtain ⟨fault' | value', after'⟩ := done'
    · have hkind : fault.kind = fault'.kind := Except.error.inj hfirst.1
      exact ⟨congrArg Except.error hkind, hfirst.2⟩
    · cases hfirst.1
  · obtain ⟨fault' | value', after'⟩ := done'
    · cases hfirst.1
    · obtain rfl : value = value' := Except.ok.inj hfirst.1
      exact hnext value after after' hfirst.2

/-- Counting a step is the same on both sides. -/
theorem matches_tick (environment : Environment) (name : String) (line : Nat) :
    Matches inbox (tick environment name line) (tick environment name line) := by
  intro session session' h
  rw [apply_tick, apply_tick, h.steps]
  cases environment.exceeded? (session'.steps + 1) with
  | some limit => exact ⟨rfl, h.counted⟩
  | none => exact ⟨rfl, h.counted⟩

/-- Whatever a command does, it does the same in sessions that are alike. -/
theorem commandPair_matches (environment : Environment) (inbox : String) :
    CommandPair environment environment fun step other => Matches inbox step other where
  result value := matches_ofExcept (.ok value)
  bind := Matches.bind
  registries := rfl
  mail := rfl
  outcome := matches_ofExcept
  tick := matches_tick environment
  testDone name line result _ _ h := ⟨rfl, h.update (.noted (.testDone name line result))⟩
  update hchange _ _ h := ⟨rfl, h.update hchange⟩
  get hnext session session' h :=
    hnext session session' h.command h.condition session session' h

end Eval

namespace Command

variable {environment : Environment} {folder : String}

variable [MailReader]

/-- A right `keep` and the `fileinto` in its place do alike. -/
theorem run_plainKeep_matches
    (hkeep : ∀ name, Ascii.lower name = "keep" →
      environment.registries.commands.lookup name = .ok .keep)
    (hfileinto : environment.registries.commands.lookup "fileinto" = .ok .fileinto)
    {command : Command} (hplain : command.isPlainKeep = true) :
    Eval.Matches folder (run environment command)
      (run environment ⟨"fileinto", [.string folder], none, none, command.line⟩) := by
  obtain ⟨name, arguments, tests, block, line⟩ := command
  simp only [isPlainKeep, Bool.and_eq_true, beq_iff_eq, List.isEmpty_iff,
    Option.isNone_iff_eq_none] at hplain
  obtain ⟨⟨⟨hname, rfl⟩, rfl⟩, rfl⟩ := hplain
  intro session session' h
  have hkeeps : task ⟨name, [], none, none, line⟩ .keep = .ok (.act .keep) := rfl
  have hfiles : task ⟨"fileinto", [.string folder], none, none, line⟩ .fileinto =
      .ok (.act (.fileInto folder)) := rfl
  have hkept := apply_run_act environment ⟨name, [], none, none, line⟩ (hkeep name hname)
    (fun _ _ => rfl) hkeeps session
  have hfiled := apply_run_act environment ⟨"fileinto", [.string folder], none, none, line⟩
    hfileinto (fun _ _ => rfl) hfiles session'
  rw [hkept, hfiled, h.steps, h.command]
  cases environment.exceeded? (session'.steps + 1) with
  | some limit => exact ⟨rfl, h.counted⟩
  | none =>
    by_cases hrejected : session'.command.rejected = true
    · rw [if_pos hrejected, if_pos hrejected]
      exact ⟨rfl, h.counted⟩
    · rw [if_neg hrejected, if_neg hrejected]
      have hactions : (session.actions ++ [Action.keep]).map (Action.asKeep folder) =
          (session'.actions ++ [Action.fileInto folder]).map (Action.asKeep folder) := by
        rw [List.map_append, List.map_append, h.actions]
        simp [Action.asKeep]
      refine ⟨rfl, congrArg (· + 1) h.steps, ?_, rfl, hactions⟩
      simp only [CommandKind.commit, Session.act, ready, Session.noted, Session.counted, h.command]

/-- Some commands and what replaces them do alike if each command and what replaces it does. -/
theorem runAll_filingAll_matches {commands : List Command}
    (hrun : ∀ command ∈ commands,
      Eval.Matches folder (run environment command) (run environment (filing folder command))) :
    Eval.Matches folder (runAll environment commands)
      (runAll environment (filingAll folder commands)) := by
  have hpair := Eval.commandPair_matches environment folder
  induction commands with
  | nil => exact hpair.result Flow.continue
  | cons command commands ih =>
    rw [List.forall_mem_cons] at hrun
    rw [filingAll, runAll, runAll]
    refine hpair.bind hrun.1 fun flow => ?_
    cases flow with
    | stop => exact hpair.result Flow.stop
    | «continue» => exact ih hrun.2

/-- A command and what replaces it do alike. -/
theorem run_filing_matches
    (hkeep : ∀ name, Ascii.lower name = "keep" →
      environment.registries.commands.lookup name = .ok .keep)
    (hfileinto : environment.registries.commands.lookup "fileinto" = .ok .fileinto)
    (command : Command) :
    Eval.Matches folder (run environment command) (run environment (filing folder command)) := by
  have hpair := Eval.commandPair_matches environment folder
  induction command using Command.induction with
  | step command ih =>
    by_cases hplain : command.isPlainKeep = true
    · have hfiling : filing folder command =
          ⟨"fileinto", [.string folder], none, none, command.line⟩ := by
        obtain ⟨name, arguments, tests, block, line⟩ := command
        rw [filing, if_pos hplain]
      rw [hfiling]
      exact run_plainKeep_matches hkeep hfileinto hplain
    · obtain ⟨name, arguments, tests, block, line⟩ := command
      have hblock : Eval.Matches folder (runBlock environment block)
          (runBlock environment (filing? folder block)) := by
        cases block with
        | none => exact hpair.result Flow.continue
        | some commands =>
          rw [filing?, runBlock, runBlock]
          exact hpair.bind (hpair.update .entered) fun _ => runAll_filingAll_matches ih
      rw [filing, if_neg hplain, run, run,
        prepare_eq_of_block (isSome_filing? folder block) name arguments tests line]
      refine hpair.bind (prepare_pair hpair _) fun prepared => ?_
      obtain ⟨kind, task⟩ := prepared
      exact hpair.bind (task.perform_pair hpair line hblock) fun flow =>
        hpair.bind (hpair.update (.committed kind)) fun _ => hpair.result flow

end Command

namespace Engine

/-- Sessions stay alike if the implicit keep is carried out in both. -/
theorem alike_kept {inbox : String} {session other : Session} (h : session.Alike inbox other) :
    session.kept.Alike inbox other.kept := by
  rw [Session.kept, Session.kept, h.command]
  split
  · refine ⟨h.steps, h.command, h.condition, ?_⟩
    rw [List.map_append, List.map_append, h.actions]
  · exact h

/-- Sessions that are alike end alike. -/
theorem alike_ending {inbox : String} {done done' : Except Fault Flow × Session}
    (hresult : done.1.mapError Fault.kind = done'.1.mapError Fault.kind)
    (hsession : done.2.Alike inbox done'.2) :
    (ending done).1.mapError Fault.kind = (ending done').1.mapError Fault.kind ∧
      (ending done).2.Alike inbox (ending done').2 := by
  obtain ⟨fault | flow, after⟩ := done
  · obtain ⟨fault' | flow', after'⟩ := done'
    · have hkind : fault.kind = fault'.kind := Except.error.inj hresult
      exact ⟨congrArg Except.error hkind, hsession.noted _ _⟩
    · cases hresult
  · obtain ⟨fault' | flow', after'⟩ := done'
    · cases hresult
    · exact ⟨rfl, (alike_kept hsession).noted _ _⟩

variable [MailReader]

/-- The evaluations of a script and of what replaces it end alike. -/
theorem evaluate_filing_alike (maxSteps : Option Nat) (inbox : String) (script : Script)
    (mail : Message) (actions : List Action) :
    let kept := evaluate ⟨.builtin, maxSteps, inbox⟩ script mail actions
    let filed := evaluate ⟨.builtin, maxSteps, inbox⟩ (Command.filingAll inbox script) mail actions
    kept.1.mapError Fault.kind = filed.1.mapError Fault.kind ∧ kept.2.Alike inbox filed.2 := by
  intro kept filed
  have hkeep : ∀ name, Ascii.lower name = "keep" →
      Registries.builtin.commands.lookup name = .ok .keep := by
    intro name hname
    rw [Registry.lookup, hname]
    rfl
  have hwalk : Eval.Matches inbox (Command.runAll ⟨.builtin, maxSteps, mail⟩ script)
      (Command.runAll ⟨.builtin, maxSteps, mail⟩ (Command.filingAll inbox script)) :=
    Command.runAll_filingAll_matches fun command _ => Command.run_filing_matches hkeep rfl command
  obtain ⟨hresult, hsession⟩ := hwalk (.opened mail actions) (.opened mail actions) (.refl _ _)
  have hkept : kept = ending _ := evaluate_eq_ending _ script mail actions
  have hfiled : filed = ending _ :=
    evaluate_eq_ending _ (Command.filingAll inbox script) mail actions
  rw [hkept, hfiled]
  exact alike_ending hresult hsession

/-- An evaluation takes nothing back of the actions that it begins with. -/
theorem actions_prefix_evaluate (engine : Engine) (script : Script) (mail : Message)
    (actions : List Action) : actions <+: (engine.evaluate script mail actions).2.actions := by
  have hgrows := Command.runAll_change Session.stepRelation_grows (engine.environment mail) script
    (.opened mail actions)
  rw [evaluate_eq_ending]
  exact hgrows.actions.trans (actions_prefix_ending _)

end Engine

/-- Reading an action as a keep changes it only if it files into the inbox. -/
theorem Action.asKeep_eq_or (inbox : String) (action : Action) :
    action.asKeep inbox = action ∨ action = .fileInto inbox ∧ action.asKeep inbox = .keep := by
  rw [asKeep]
  by_cases hfiled : action = .fileInto inbox
  · exact .inr ⟨hfiled, if_pos hfiled⟩
  · exact .inl (if_neg hfiled)

section

variable (inbox recipient : String) (action : Action)

/-- Keeping a message and filing it into the inbox hand the same to the store. -/
theorem Delivery.plan_asKeep (delivery : Delivery) :
    delivery.plan inbox recipient (action.asKeep inbox) = delivery.plan inbox recipient action := by
  obtain hsame | ⟨rfl, hkeep⟩ := action.asKeep_eq_or inbox
  · rw [hsame]
  · rw [hkeep]
    rfl

/-- A keep is refused when the filing that it stands for is. -/
theorem LoopMarkers.refuses_asKeep (markers : LoopMarkers) :
    markers.refuses recipient (action.asKeep inbox) = markers.refuses recipient action := by
  obtain hsame | ⟨rfl, hkeep⟩ := action.asKeep_eq_or inbox
  · rw [hsame]
  · rw [hkeep]
    rfl

/-- A keep leaves the markers that the filing leaves that it stands for. -/
theorem LoopMarkers.admitting_asKeep (markers : LoopMarkers) :
    markers.admitting recipient (action.asKeep inbox) = markers.admitting recipient action := by
  obtain hsame | ⟨rfl, hkeep⟩ := action.asKeep_eq_or inbox
  · rw [hsame]
  · rw [hkeep]
    rfl

end

/-- The dispatch of some actions does not tell filing into the inbox from keeping, but for the words
of a fault. -/
theorem dispatch_asKeep (inbox : String) (actions : List Action) (delivery : Delivery)
    (events events' : List Event) (mail : RecordedMail) :
    let kept := (dispatch RecordedMail.store inbox ⟨delivery, events⟩
      (actions.map (Action.asKeep inbox))).run mail
    let filed := (dispatch RecordedMail.store inbox ⟨delivery, events'⟩ actions).run mail
    kept.1.1.mapError Fault.kind = filed.1.1.mapError Fault.kind ∧
      kept.1.2.delivery = filed.1.2.delivery ∧ kept.2 = filed.2 := by
  induction actions generalizing delivery events events' mail with
  | nil => exact ⟨rfl, rfl, rfl⟩
  | cons action actions ih =>
    intro kept filed
    by_cases hsole : ∃ recipient, delivery.recipients = [recipient]
    · obtain ⟨recipient, hrecipient⟩ := hsole
      have hkept : Transit.admission ⟨delivery, events⟩ (action.asKeep inbox) = _ :=
        Transit.admission_of_sole hrecipient (action.asKeep inbox)
      have hfiled : Transit.admission ⟨delivery, events'⟩ action = _ :=
        Transit.admission_of_sole hrecipient action
      have hrefuses := LoopMarkers.refuses_asKeep inbox recipient action delivery.markers
      rw [hrefuses] at hkept
      by_cases hrefused : delivery.markers.refuses recipient action = true
      · rw [if_pos hrefused] at hkept hfiled
        have hkept : kept = _ := dispatch_run_refused hkept inbox (actions.map _) mail
        have hfiled : filed = _ := dispatch_run_refused hfiled inbox actions mail
        rw [hkept, hfiled]
        exact ⟨rfl, rfl, rfl⟩
      · rw [if_neg hrefused] at hkept hfiled
        have hkept : kept = _ := dispatch_run_admitted hkept inbox (actions.map _) mail
        have hfiled : filed = _ := dispatch_run_admitted hfiled inbox actions mail
        -- Both go on with the same delivery, since the marker set is the same one, if any.
        rw [hkept, hfiled, Transit.carriedOut, Transit.admitted, Delivery.plan_asKeep,
          LoopMarkers.admitting_asKeep]
        exact ih _ _ _ _
    · have hsole : ∀ recipient, delivery.recipients ≠ [recipient] := not_exists.mp hsole
      have hkept : Transit.admission ⟨delivery, events⟩ (action.asKeep inbox) = _ :=
        Transit.admission_of_not_sole hsole (action.asKeep inbox)
      have hfiled : Transit.admission ⟨delivery, events'⟩ action = _ :=
        Transit.admission_of_not_sole hsole action
      have hkept : kept = _ := dispatch_run_refused hkept inbox (actions.map _) mail
      have hfiled : filed = _ := dispatch_run_refused hfiled inbox actions mail
      rw [hkept, hfiled]
      exact ⟨rfl, rfl, rfl⟩

/-- Lists of actions that read alike are dispatched alike. -/
theorem dispatch_alike {inbox : String} {actions actions' : List Action}
    (h : actions.map (Action.asKeep inbox) = actions'.map (Action.asKeep inbox))
    (delivery : Delivery) (events events' : List Event) (mail : RecordedMail) :
    let kept := (dispatch RecordedMail.store inbox ⟨delivery, events⟩ actions).run mail
    let filed := (dispatch RecordedMail.store inbox ⟨delivery, events'⟩ actions').run mail
    kept.1.1.mapError Fault.kind = filed.1.1.mapError Fault.kind ∧
      kept.1.2.delivery = filed.1.2.delivery ∧ kept.2 = filed.2 := by
  intro kept filed
  obtain ⟨hresult, hdelivery, hmail⟩ := dispatch_asKeep inbox actions delivery [] events mail
  obtain ⟨hresult', hdelivery', hmail'⟩ := dispatch_asKeep inbox actions' delivery [] events' mail
  rw [h] at hresult hdelivery hmail
  exact ⟨hresult.symm.trans hresult', hdelivery.symm.trans hdelivery', hmail.symm.trans hmail'⟩

/-- A run of a script with the built-in names, and a run of the same script with a `fileinto` of the
inbox for every right `keep`, count the same steps, end in success or in faults of one kind, append
the same actions but for filing into the inbox where the other keeps, and leave the same markers and
the same mail behind. -/
theorem Engine.run_filing_alike [MailReader] (maxSteps : Option Nat) (inbox : String)
    (script : Script) (mail : Message) (actions : List Action) (delivery : Delivery)
    (store : RecordedMail) :
    let engine : Engine := ⟨.builtin, maxSteps, inbox⟩
    let kept := (engine.runFrom RecordedMail.store script mail actions delivery).run store
    let filed := (engine.runFrom RecordedMail.store (Command.filingAll inbox script) mail actions
      delivery).run store
    kept.1.result.mapError Fault.kind = filed.1.result.mapError Fault.kind ∧
      kept.1.session.steps = filed.1.session.steps ∧
      (∃ appended appended', kept.1.session.actions = actions ++ appended ∧
        filed.1.session.actions = actions ++ appended' ∧
        appended.map (Action.asKeep inbox) = appended'.map (Action.asKeep inbox)) ∧
      kept.1.transit.delivery = filed.1.transit.delivery ∧ kept.2 = filed.2 := by
  intro engine kept filed
  obtain ⟨hresult, hsession⟩ := evaluate_filing_alike maxSteps inbox script mail actions
  obtain ⟨appended, happended⟩ := engine.actions_prefix_evaluate script mail actions
  obtain ⟨appended', happended'⟩ :=
    engine.actions_prefix_evaluate (Command.filingAll inbox script) mail actions
  have hactions := hsession.actions
  rw [← happended, ← happended', List.map_append, List.map_append, List.append_cancel_left_eq]
    at hactions
  cases hkept : engine.evaluate script mail actions with
  | mk result session =>
    cases hfiled : engine.evaluate (Command.filingAll inbox script) mail actions with
    | mk result' session' =>
      rw [hkept, hfiled] at hresult hsession
      rw [hkept] at happended
      rw [hfiled] at happended'
      -- Evaluations that end differently cannot have ended alike.
      rcases result with fault | _ <;> rcases result' with fault' | _
      · have hkept : kept = _ := runFrom_run_of_error hkept delivery store
        have hfiled : filed = _ := runFrom_run_of_error hfiled delivery store
        rw [hkept, hfiled]
        exact ⟨hresult, hsession.steps, ⟨appended, appended', happended.symm, happended'.symm,
          hactions⟩, rfl, rfl⟩
      · cases hresult
      · cases hresult
      · have hkept : kept = _ := runFrom_run_of_ok hkept delivery store
        have hfiled : filed = _ := runFrom_run_of_ok hfiled delivery store
        obtain ⟨hdispatched, hdelivery, hstore⟩ :=
          dispatch_alike hsession.actions delivery session.events session'.events store
        rw [hkept, hfiled]
        exact ⟨hdispatched, hsession.steps, ⟨appended, appended', happended.symm, happended'.symm,
          hactions⟩, hdelivery, hstore⟩

end MailFilter
