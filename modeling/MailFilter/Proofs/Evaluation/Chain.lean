import MailFilter.Proofs.Evaluation.Run
import MailFilter.Proofs.Evaluation.Verdict

/-!
# Chains of branches

An `if` opens a chain, which goes on over the `elsif` commands directly behind it and ends with at
most one `else` directly behind those. The walk of this file takes a list of commands apart into its
chains before it runs any of them, so it needs no state that remembers from one command to the next
how a condition came out: a chain runs the block of its first branch that holds.
-/

namespace MailFilter

namespace Command

/-- Whether a branch holds, if its arguments are right. -/
def holds [MailReader] (environment : Environment) (command : Command) : Except Fault Bool := do
  let test ← command.guard
  test.verdict environment

end Command

namespace Structured

/-- What a walk has done to the message, and what that forbids. -/
structure Progress where
  rejected : Bool
  implicitKeep : Bool
  actions : List Action

/-- How a walk over some commands ended, and what it had done by then. -/
abbrev Outcome := Except Fault Flow × Progress

/-- Goes on where a walk came to its end. A stop and a fault end everything that would follow. -/
def Outcome.andThen (outcome : Outcome) (next : Progress → Outcome) : Outcome :=
  match outcome with
  | (.ok .continue, progress) => next progress
  | ended => ended

/-- The outcome of a check, which does nothing to the message. -/
def Outcome.ofCheck (check : Except Fault Unit) (progress : Progress) : Outcome :=
  (check.map fun _ => .continue, progress)

/-- Whether the name of a command stands for a given kind. -/
def isKind (registries : Registries) (kind : CommandKind) (command : Command) : Bool :=
  match registries.commands.lookup command.name with
  | .ok found => found == kind
  | .error _ => false

/-- The commands behind an `if`: those of its chain, and those behind the chain. -/
structure Chain where
  elsifs : List Command
  last : Option Command
  rest : List Command

/-- The chain of an `if`, given the commands behind it. -/
def chainOf (registries : Registries) (commands : List Command) : Chain :=
  let elsifs := commands.takeWhile (isKind registries .elseBranch)
  match commands.dropWhile (isKind registries .elseBranch) with
  | [] => ⟨elsifs, none, []⟩
  | command :: rest =>
    if isKind registries .otherwise command then ⟨elsifs, some command, rest⟩
    else ⟨elsifs, none, command :: rest⟩

/-- Checks the arguments of the members of a chain behind the one that ran. -/
def passOver : List Command → Option Command → Except Fault Unit
  | [], none => .ok ()
  | [], some command => command.unguarded
  | branch :: branches, last => do
    let _ ← branch.guard
    passOver branches last

/-- Why a command that is no member of a chain is out of place, if it is. -/
def objection? (prolog : Bool) (progress : Progress) : CommandKind → Option CommandCause
  | .elseBranch => some .elsifWithoutIf
  | .otherwise => some .elseWithoutIf
  | .require => if prolog then none else some .requireAfterProlog
  | .keep | .fileinto | .redirect | .reject | .vacation =>
    if progress.rejected then some .messageRejected else none
  | .branch | .stop | .discard | .log => none

/-- What an action does to the message. Only a vacation reply leaves it to be kept. -/
def Progress.act (progress : Progress) (action : Action) : Progress where
  rejected := match action with
    | .reject _ => true
    | _ => progress.rejected
  implicitKeep := match action with
    | .vacation _ => progress.implicitKeep
    | _ => false
  actions := progress.actions ++ [action]

/-- Does a task that needs no block. -/
def perform (registries : Registries) (progress : Progress) : Task → Outcome
  | .require features => .ofCheck (requireFeatures registries features) progress
  | .stop => (.ok .stop, progress)
  | .discard => (.ok .continue, { progress with implicitKeep := false })
  | .act action => (.ok .continue, progress.act action)
  | .log .. | .branch _ | .elseBranch _ | .otherwise => (.ok .continue, progress)

/-- Runs a command that is no member of a chain. `prolog` says that none but requirements stand
before it in the script. -/
def single [MailReader] (registries : Registries) (prolog : Bool) (command : Command)
    (progress : Progress) :
    Outcome :=
  match registries.commands.lookup command.name with
  | .error fault => (.error fault, progress)
  | .ok kind =>
    match objection? prolog progress kind with
    | some cause => (.error (.command command.name command.line cause), progress)
    | none =>
      match command.task kind with
      | .error fault => (.error fault, progress)
      | .ok task => perform registries progress task

/-- A chain and the commands behind it are all of the commands. -/
theorem chainOf_append (registries : Registries) (commands : List Command) :
    (chainOf registries commands).elsifs ++ (chainOf registries commands).last.toList ++
      (chainOf registries commands).rest = commands := by
  have hcut := List.takeWhile_append_dropWhile (p := isKind registries .elseBranch) (l := commands)
  simp only [chainOf]
  split
  · next hdrop => simpa [hdrop] using hcut
  · next hdrop => split <;> simpa [hdrop] using hcut

/-- Taking a chain apart loses no node, which is why the walk ends. -/
theorem nodesAll_chainOf (registries : Registries) (commands : List Command) :
    Command.nodesAll (chainOf registries commands).elsifs +
        Command.nodesAll (chainOf registries commands).last.toList +
        Command.nodesAll (chainOf registries commands).rest = Command.nodesAll commands := by
  have hnodes := congrArg Command.nodesAll (chainOf_append registries commands)
  simpa only [Command.nodesAll_append] using hnodes

variable [MailReader]

mutual

/-- Runs the commands of a list, chain by chain. -/
def walk (environment : Environment) (prolog : Bool) (commands : List Command)
    (progress : Progress) : Outcome :=
  match commands with
  | [] => (.ok .continue, progress)
  | command :: commands =>
    if isKind environment.registries .branch command then
      let chain := chainOf environment.registries commands
      (walkChain environment (command :: chain.elsifs) chain.last progress).andThen
        (walk environment false chain.rest)
    else
      (single environment.registries prolog command progress).andThen
        (walk environment (prolog && isKind environment.registries .require command) commands)
termination_by 3 * Command.nodesAll commands + 1
decreasing_by
  all_goals
    have hnodes := nodesAll_chainOf environment.registries commands
    have hpos := Command.nodes_pos command
    simp only [Command.nodesAll]
    omega

/-- Runs the block of the first branch that holds, or of the `else` if none does. The members behind
it are not asked whether they hold, but their arguments have to be right. -/
def walkChain (environment : Environment) (branches : List Command) (last : Option Command)
    (progress : Progress) : Outcome :=
  match branches, last with
  | [], none => (.ok .continue, progress)
  | [], some command =>
    match command.unguarded with
    | .error fault => (.error fault, progress)
    | .ok () => walkBlock environment command.block progress
  | branch :: branches, last =>
    match branch.holds environment with
    | .error fault => (.error fault, progress)
    | .ok true =>
      (walkBlock environment branch.block progress).andThen (.ofCheck (passOver branches last))
    | .ok false => walkChain environment branches last progress
termination_by 3 * (Command.nodesAll branches + Command.nodesAll last.toList)
decreasing_by
  · have hblock := Command.nodes_block_lt command
    simp only [Command.nodesAll, Option.toList]
    omega
  · have hblock := Command.nodes_block_lt branch
    simp only [Command.nodesAll]
    omega
  · have hpos := Command.nodes_pos branch
    simp only [Command.nodesAll]
    omega

/-- Runs the commands of a block, which are outside the prolog. -/
def walkBlock (environment : Environment) (block : Option (List Command)) (progress : Progress) :
    Outcome :=
  match block with
  | none => (.ok .continue, progress)
  | some commands => walk environment false commands progress
termination_by 3 * Command.nodes? block + 2
decreasing_by simp only [Command.nodes?]; omega

end

/-- Evaluates a script for a message that some actions have been decided for already. -/
def evaluate (environment : Environment) (script : Script) (actions : List Action) :
    Except Fault Unit × List Action :=
  match walk environment true script ⟨false, true, actions⟩ with
  | (.error fault, progress) => (.error fault, progress.actions)
  | (.ok _, progress) =>
    (.ok (), if progress.implicitKeep then progress.actions ++ [.keep] else progress.actions)

end Structured

end MailFilter
