import MailFilter.Script.Basic

/-!
# Induction over the tree of a script

A command holds tests and a block of commands, a test holds tests. What has to be shown of all of
them is shown of one from what lies inside it. The number of nodes below a command bounds the
recursions that follow another order than that of the tree.
-/

namespace MailFilter

/-- The commands in the block of a command, none if no block was written. -/
def Command.inner (command : Command) : List Command :=
  command.block.getD []

/-- A test inside another is smaller. -/
theorem Test.sizeOf_lt_of_mem_nested {inner test : Test} (hinner : inner ∈ test.nested) :
    sizeOf inner < sizeOf test := by
  obtain ⟨name, arguments, tests, line⟩ := test
  cases tests with
  | none => simp [Test.nested] at hinner
  | some tests =>
    have hsize := List.sizeOf_lt_of_mem (show inner ∈ tests from hinner)
    simp only [Test.mk.sizeOf_spec, Option.some.sizeOf_spec]
    omega

/-- A command in the block of another is smaller. -/
theorem Command.sizeOf_lt_of_mem_inner {inner command : Command} (hinner : inner ∈ command.inner) :
    sizeOf inner < sizeOf command := by
  obtain ⟨name, arguments, tests, block, line⟩ := command
  cases block with
  | none => simp [Command.inner] at hinner
  | some block =>
    have hsize := List.sizeOf_lt_of_mem (show inner ∈ block from hinner)
    simp only [Command.mk.sizeOf_spec, Option.some.sizeOf_spec]
    omega

/-- What holds of a test as soon as it holds of the tests inside it holds of every test. -/
@[elab_as_elim]
theorem Test.induction {motive : Test → Prop}
    (step : ∀ test : Test, (∀ inner ∈ test.nested, motive inner) → motive test) (test : Test) :
    motive test :=
  step test fun inner hinner =>
    have := Test.sizeOf_lt_of_mem_nested hinner
    Test.induction step inner
termination_by sizeOf test

/-- What holds of a command as soon as it holds of the commands in its block holds of every
command. -/
@[elab_as_elim]
theorem Command.induction {motive : Command → Prop}
    (step : ∀ command : Command, (∀ inner ∈ command.inner, motive inner) → motive command)
    (command : Command) : motive command :=
  step command fun inner hinner =>
    have := Command.sizeOf_lt_of_mem_inner hinner
    Command.induction step inner
termination_by sizeOf command

mutual

/-- The number of tests in a test, itself included. -/
def Test.nodes : Test → Nat
  | ⟨_, _, tests, _⟩ => 1 + Test.nodes? tests

/-- The number of tests in tests that may have been written. -/
def Test.nodes? : Option (List Test) → Nat
  | none => 0
  | some tests => Test.nodesAll tests

/-- The number of tests in some tests. -/
def Test.nodesAll : List Test → Nat
  | [] => 0
  | test :: tests => Test.nodes test + Test.nodesAll tests

end

mutual

/-- The number of commands and tests in a command, itself included. -/
def Command.nodes : Command → Nat
  | ⟨_, _, tests, block, _⟩ => 1 + Test.nodes? tests + Command.nodes? block

/-- The number of commands and tests in a block that may have been written. -/
def Command.nodes? : Option (List Command) → Nat
  | none => 0
  | some block => Command.nodesAll block

/-- The number of commands and tests in some commands. -/
def Command.nodesAll : List Command → Nat
  | [] => 0
  | command :: commands => Command.nodes command + Command.nodesAll commands

end

/-- Two lists of commands have the nodes of both. -/
@[simp] theorem Command.nodesAll_append (front back : List Command) :
    Command.nodesAll (front ++ back) = Command.nodesAll front + Command.nodesAll back := by
  induction front with
  | nil => simp [Command.nodesAll]
  | cons command front ih => simp only [List.cons_append, Command.nodesAll, ih, Nat.add_assoc]

/-- A block has fewer nodes than the command it belongs to. -/
theorem Command.nodes_block_lt (command : Command) :
    Command.nodes? command.block < command.nodes := by
  obtain ⟨name, arguments, tests, block, line⟩ := command
  simp only [Command.nodes]
  omega

/-- A command has no more nodes than all of them. -/
theorem Command.nodes_le_nodesAll {command : Command} {commands : List Command}
    (hcommand : command ∈ commands) : command.nodes ≤ Command.nodesAll commands := by
  obtain ⟨front, back, rfl⟩ := List.append_of_mem hcommand
  simp only [Command.nodesAll_append, Command.nodesAll]
  omega

/-- A command has a node, itself. -/
theorem Command.nodes_pos (command : Command) : 0 < command.nodes :=
  Nat.zero_lt_of_lt command.nodes_block_lt

end MailFilter
