import MailFilter.Proofs.Script.TestParsing

/-!
# The parser accepts its grammar

Commands have their arguments and perhaps a block of further commands. What the parser makes of some
tokens is the tree that the grammar derives for them, if that has no more than the greatest number
of levels; and if there is no such tree the parser fails.
-/

namespace MailFilter.Script

variable {last : Place} {span : Span} {tokens rest : List Span}

/-- A reader of blocks takes the blocks that have so many levels of nesting, and no others. -/
def BlockReader.ReadsBlocks (readBlock : BlockReader) (levels : Nat) : Prop :=
  ∀ ⦃span : Span⦄ ⦃tokens rest : List Span⦄ ⦃block : Node⦄,
    Reads (readBlock span tokens) block rest ↔
      ∃ front close commands, tokens = front ++ close :: rest ∧ close.token = .rightBrace ∧
        IsCommands front commands ∧ block = span.node .block none commands ∧
        block.nesting ≤ levels

/-- A reader of commands takes the commands that have so many levels of nesting, and no others. -/
def ReadsCommands {P : List Span → List Span → Prop}
    (readCommand : (tokens : List Span) → Except Fault (Node × Subtype (P tokens)))
    (levels : Nat) : Prop :=
  ∀ ⦃tokens rest : List Span⦄ ⦃command : Node⦄,
    Reads (readCommand tokens) command rest ↔
      ∃ front, tokens = front ++ rest ∧ IsCommand front command ∧ command.nesting ≤ levels

section Commands

variable {readTest : TestReader} {readBlock : BlockReader} {levels : Nat} {name : String}
  {arguments command : Node}

/-- A command whose arguments a semicolon follows is read up to that. -/
theorem reads_commandNode_plain {middle : List Span} {stop : Span}
    (hspan : span.token = .identifier name) (hstop : stop.token = .semicolon)
    (harguments : Reads (argumentsNode last readTest tokens) arguments (stop :: middle)) :
    Reads (commandNode last readTest readBlock (span :: tokens)) command rest ↔
      span.node .command (some name) [arguments] = command ∧ middle = rest := by
  obtain ⟨token, place, size⟩ := span
  obtain rfl : token = .identifier name := hspan
  obtain ⟨token, place', size'⟩ := stop
  obtain rfl : token = .semicolon := hstop
  obtain ⟨hmiddle, harguments⟩ := harguments
  rw [commandNode, harguments]
  exact reads_ok_iff

/-- A command whose arguments a brace follows is read with the block behind it. -/
theorem reads_commandNode_block {middle : List Span} {brace : Span}
    (hspan : span.token = .identifier name) (hbrace : brace.token = .leftBrace)
    (harguments : Reads (argumentsNode last readTest tokens) arguments (brace :: middle)) :
    Reads (commandNode last readTest readBlock (span :: tokens)) command rest ↔
      ∃ block, Reads (readBlock brace middle) block rest ∧
        span.node .command (some name) [arguments, block] = command := by
  obtain ⟨token, place, size⟩ := span
  obtain rfl : token = .identifier name := hspan
  obtain ⟨token, place', size'⟩ := brace
  obtain rfl : token = .leftBrace := hbrace
  obtain ⟨hmiddle, harguments⟩ := harguments
  rw [commandNode, harguments]
  exact reads_map_iff fun block =>
    Span.node ⟨.identifier name, place, size⟩ .command (some name) [arguments, block]

/-- A command begins with its name and arguments, which a semicolon or a brace follows. -/
theorem exists_of_reads_commandNode
    (h : Reads (commandNode last readTest readBlock tokens) command rest) :
    ∃ span name back arguments next middle, tokens = span :: back ∧
      span.token = .identifier name ∧
      Reads (argumentsNode last readTest back) arguments (next :: middle) ∧
      (next.token = .semicolon ∨ next.token = .leftBrace) := by
  cases tokens with
  | nil => exact absurd h not_reads_error
  | cons span tokens =>
    obtain ⟨token, place, size⟩ := span
    cases token with
    | identifier name =>
      rw [commandNode] at h
      obtain ⟨arguments, middle, hmiddle, harguments, h⟩ := reads_bind_iff.mp h
      cases middle with
      | nil => exact absurd h not_reads_error
      | cons next middle =>
        refine ⟨_, name, tokens, arguments, next, middle, rfl, rfl, ⟨hmiddle, harguments⟩, ?_⟩
        obtain ⟨token, place', size'⟩ := next
        cases token with
        | semicolon => exact .inl rfl
        | leftBrace => exact .inr rfl
        | _ => exact absurd h not_reads_error
    | _ => exact absurd h not_reads_error

/-- Commands are read as the grammar has them if tests and blocks are. -/
theorem commandNode_readsCommands (htests : readTest.ReadsTests last levels)
    (hblocks : readBlock.ReadsBlocks levels) :
    ReadsCommands (commandNode last readTest readBlock) levels := by
  intro tokens rest command
  constructor
  · intro h
    obtain ⟨span, name, back, arguments, next, middle, rfl, hspan, harguments, hnext⟩ :=
      exists_of_reads_commandNode h
    obtain ⟨front, rfl, hfront, hlevels⟩ := isArguments_of_reads htests harguments
    rcases hnext with hnext | hnext
    · obtain ⟨rfl, rfl⟩ := (reads_commandNode_plain hspan hnext harguments).mp h
      refine ⟨span :: front ++ [next], by simp, .plain hspan hfront hnext, ?_⟩
      rw [Node.nesting_command]
      exact Nat.max_le.mpr ⟨hlevels, Nat.zero_le _⟩
    · obtain ⟨block, hblock, rfl⟩ := (reads_commandNode_block hspan hnext harguments).mp h
      obtain ⟨inner, close, commands, rfl, hclose, hcommands, rfl, hdeep⟩ := hblocks.mp hblock
      refine ⟨span :: front ++ next :: (inner ++ [close]), by simp,
        .block hspan hfront hnext hcommands hclose, ?_⟩
      rw [Node.nesting_command]
      exact Nat.max_le.mpr ⟨hlevels, Nat.max_le.mpr ⟨hdeep, Nat.zero_le _⟩⟩
  · rintro ⟨front, rfl, hcommand, hlevels⟩
    cases hcommand with
    | @plain span stop name front arguments hspan harguments hstop =>
      rw [Node.nesting_command, Node.nestingAll_cons, Nat.max_le] at hlevels
      have hread : Reads (argumentsNode last readTest (front ++ stop :: rest)) arguments
          (stop :: rest) :=
        reads_of_isArguments htests harguments hlevels.1 (nextIs_cons hstop rfl rest)
      have hcut : span :: front ++ [stop] ++ rest = span :: (front ++ stop :: rest) := by simp
      rw [hcut, reads_commandNode_plain hspan hstop hread]
      exact ⟨rfl, rfl⟩
    | @block span brace close name front back arguments commands hspan harguments hbrace hcommands
        hclose =>
      rw [Node.nesting_command, Node.nestingAll_cons, Node.nestingAll_cons, Nat.max_le,
        Nat.max_le] at hlevels
      have hread : Reads (argumentsNode last readTest (front ++ brace :: (back ++ close :: rest)))
          arguments (brace :: (back ++ close :: rest)) :=
        reads_of_isArguments htests harguments hlevels.1 (nextIs_cons hbrace rfl _)
      have hblock : Reads (readBlock brace (back ++ close :: rest))
          (brace.node .block none commands) rest :=
        hblocks.mpr ⟨back, close, commands, rfl, hclose, hcommands, rfl, hlevels.2.1⟩
      have hcut : span :: front ++ brace :: (back ++ [close]) ++ rest =
          span :: (front ++ brace :: (back ++ close :: rest)) := by simp
      rw [hcut, reads_commandNode_block hspan hbrace hread]
      exact ⟨_, hblock, rfl⟩

/-- A command begins with an identifier. -/
theorem IsCommand.exists_identifier (h : IsCommand tokens command) :
    ∃ span name back, tokens = span :: back ∧ span.token = .identifier name := by
  cases h with
  | plain hspan harguments hstop => exact ⟨_, _, _, rfl, hspan⟩
  | block hspan harguments hbrace hcommands hclose => exact ⟨_, _, _, rfl, hspan⟩

end Commands

section Blocks

variable {readCommand : (tokens : List Span) → Except Fault (Node × Remainder tokens)}
  {levels : Nat} {commands : List Node}

/-- The commands of a block end at the closing brace. -/
theorem reads_blockCommands_close (hspan : span.token = .rightBrace) :
    Reads (blockCommands last readCommand (span :: tokens)) commands rest ↔
      [] = commands ∧ tokens = rest := by
  obtain ⟨token, place, size⟩ := span
  obtain rfl : token = .rightBrace := hspan
  rw [blockCommands]
  exact reads_ok_iff

/-- What is no closing brace is read as a command, and the others behind it. -/
theorem reads_blockCommands_cons (hspan : span.token ≠ .rightBrace) :
    Reads (blockCommands last readCommand (span :: tokens)) commands rest ↔
      ∃ command middle others, Reads (readCommand (span :: tokens)) command middle ∧
        Reads (blockCommands last readCommand middle) others rest ∧
        command :: others = commands := by
  rw [blockCommands.eq_def]
  obtain ⟨token, place, size⟩ := span
  cases token with
  | rightBrace => exact absurd rfl hspan
  | _ => exact reads_both_iff fun command commands => command :: commands

/-- What is read as the commands of a block is commands and a closing brace. -/
theorem isCommands_of_reads (hreads : ReadsCommands readCommand levels)
    {tokens rest : List Span} {commands : List Node}
    (h : Reads (blockCommands last readCommand tokens) commands rest) :
    ∃ front close, tokens = front ++ close :: rest ∧ close.token = .rightBrace ∧
      IsCommands front commands ∧ Node.nestingAll commands ≤ levels := by
  cases tokens with
  | nil => rw [blockCommands] at h; exact absurd h not_reads_error
  | cons span tokens =>
    by_cases hspan : span.token = .rightBrace
    · obtain ⟨rfl, rfl⟩ := (reads_blockCommands_close hspan).mp h
      exact ⟨[], span, rfl, hspan, .nil, Nat.zero_le _⟩
    · obtain ⟨command, middle, others, hcommand, hothers, rfl⟩ :=
        (reads_blockCommands_cons hspan).mp h
      have hlt : middle.length < (span :: tokens).length := hcommand.1
      obtain ⟨front, htokens, hfront, hlevels⟩ := hreads.mp hcommand
      obtain ⟨back, close, rfl, hclose, hback, hall⟩ := isCommands_of_reads hreads hothers
      exact ⟨front ++ back, close, by rw [htokens, List.append_assoc], hclose, .cons hfront hback,
        Nat.max_le.mpr ⟨hlevels, hall⟩⟩
termination_by tokens.length

/-- The commands of a block are read up to its closing brace. -/
theorem blockCommands_iff (hreads : ReadsCommands readCommand levels) :
    Reads (blockCommands last readCommand tokens) commands rest ↔
      ∃ front close, tokens = front ++ close :: rest ∧ close.token = .rightBrace ∧
        IsCommands front commands ∧ Node.nestingAll commands ≤ levels := by
  refine ⟨isCommands_of_reads hreads, ?_⟩
  rintro ⟨front, close, rfl, hclose, hfront, hlevels⟩
  induction commands generalizing front with
  | nil =>
    cases hfront
    exact (reads_blockCommands_close hclose).mpr ⟨rfl, rfl⟩
  | cons command commands ih =>
    rw [Node.nestingAll_cons, Nat.max_le] at hlevels
    cases hfront with
    | @cons front back _ _ hcommand hcommands =>
      obtain ⟨span, name, tail, rfl, hspan⟩ := hcommand.exists_identifier
      have hopen : span.token ≠ .rightBrace := by
        rw [hspan]
        exact nofun
      have hcut : span :: tail ++ back ++ close :: rest =
          span :: (tail ++ (back ++ close :: rest)) := by simp
      rw [hcut, reads_blockCommands_cons hopen]
      exact ⟨command, back ++ close :: rest, commands,
        hreads.mpr ⟨span :: tail, rfl, hcommand, hlevels.1⟩, ih back hcommands hlevels.2, rfl⟩

end Blocks

/-- A block is read as its commands, which may be nested one level less. -/
theorem reads_blockNode_succ {levels : Nat} {block : Node} :
    Reads (blockNode last (levels + 1) span tokens) block rest ↔
      ∃ commands, Reads (blockCommands last
        (commandNode last (testNode last levels) (blockNode last levels)) tokens) commands rest ∧
          span.node .block none commands = block := by
  rw [blockNode]
  exact reads_build_iff fun commands => span.node .block none commands

/-- A block has a level of its own, so it is found where one more level is left than its commands
need. -/
theorem blockNode_readsBlocks (last : Place) (levels : Nat) :
    (blockNode last levels).ReadsBlocks levels := by
  induction levels with
  | zero =>
    intro span tokens rest block
    rw [blockNode]
    refine ⟨fun h => absurd h not_reads_error, ?_⟩
    rintro ⟨front, close, commands, -, -, -, rfl, hlevels⟩
    rw [Node.nesting_block] at hlevels
    omega
  | succ levels ih =>
    intro span tokens rest block
    have hcommands := commandNode_readsCommands (testNode_readsTests last levels) ih
    rw [reads_blockNode_succ]
    constructor
    · rintro ⟨commands, hread, rfl⟩
      obtain ⟨front, close, rfl, hclose, hfront, hlevels⟩ := (blockCommands_iff hcommands).mp hread
      refine ⟨front, close, commands, rfl, hclose, hfront, rfl, ?_⟩
      rw [Node.nesting_block]
      omega
    · rintro ⟨front, close, commands, rfl, hclose, hfront, rfl, hlevels⟩
      rw [Node.nesting_block] at hlevels
      have hless : Node.nestingAll commands ≤ levels := by omega
      exact ⟨commands, (blockCommands_iff hcommands).mpr
        ⟨front, close, rfl, hclose, hfront, hless⟩, rfl⟩

section Scripts

variable {commands : List Node}

/-- The reader of commands that are in no block. -/
theorem topCommand_readsCommands (last : Place) :
    ReadsCommands (commandNode last (testNode last maxNesting) (blockNode last maxNesting))
      maxNesting :=
  commandNode_readsCommands (testNode_readsTests last maxNesting)
    (blockNode_readsBlocks last maxNesting)

/-- A script is read as a command and those behind it. -/
theorem scriptCommands_cons_eq_ok_iff : scriptCommands last (span :: tokens) = .ok commands ↔
    ∃ command middle others,
      Reads (commandNode last (testNode last maxNesting) (blockNode last maxNesting)
        (span :: tokens)) command middle ∧
      scriptCommands last middle = .ok others ∧ command :: others = commands := by
  rw [scriptCommands]
  cases commandNode last (testNode last maxNesting) (blockNode last maxNesting)
    (span :: tokens) with
  | error fault =>
    constructor
    · intro h
      cases h
    · rintro ⟨_, _, _, hcommand, _⟩
      exact absurd hcommand not_reads_error
  | ok read =>
    obtain ⟨command, middle, hmiddle⟩ := read
    constructor
    · intro h
      cases hothers : scriptCommands last middle with
      | error fault => simp only [bind, Except.bind, hothers] at h; cases h
      | ok others =>
        simp only [bind, Except.bind, hothers] at h
        exact ⟨command, middle, others, reads_ok_iff.mpr ⟨rfl, rfl⟩, hothers, Except.ok.inj h⟩
    · rintro ⟨_, _, others, hcommand, hothers, rfl⟩
      obtain ⟨rfl, rfl⟩ := reads_ok_iff.mp hcommand
      simp only [bind, Except.bind, hothers]
      rfl

/-- What is read as a script is commands, and not nested too deeply. -/
theorem isCommands_of_scriptCommands {tokens : List Span} {commands : List Node}
    (h : scriptCommands last tokens = .ok commands) :
    IsCommands tokens commands ∧ Node.nestingAll commands ≤ maxNesting := by
  cases tokens with
  | nil =>
    rw [scriptCommands] at h
    cases h
    exact ⟨.nil, Nat.zero_le _⟩
  | cons span tokens =>
    obtain ⟨command, middle, others, hcommand, hothers, rfl⟩ := scriptCommands_cons_eq_ok_iff.mp h
    have hlt : middle.length < (span :: tokens).length := hcommand.1
    obtain ⟨front, htokens, hfront, hlevels⟩ := topCommand_readsCommands last |>.mp hcommand
    obtain ⟨hback, hall⟩ := isCommands_of_scriptCommands hothers
    exact ⟨htokens ▸ .cons hfront hback, Nat.max_le.mpr ⟨hlevels, hall⟩⟩
termination_by tokens.length

/-- The commands of a script are read to the end of its tokens. -/
theorem scriptCommands_iff : scriptCommands last tokens = .ok commands ↔
    IsCommands tokens commands ∧ Node.nestingAll commands ≤ maxNesting := by
  refine ⟨isCommands_of_scriptCommands, ?_⟩
  rintro ⟨hcommands, hlevels⟩
  induction commands generalizing tokens with
  | nil =>
    cases hcommands
    rw [scriptCommands]
  | cons command commands ih =>
    rw [Node.nestingAll_cons, Nat.max_le] at hlevels
    cases hcommands with
    | @cons front back _ _ hcommand hcommands =>
      have hread : Reads (commandNode last (testNode last maxNesting) (blockNode last maxNesting)
          (front ++ back)) command back :=
        (topCommand_readsCommands last).mpr ⟨front, rfl, hcommand, hlevels.1⟩
      obtain ⟨span, name, tail, rfl, hspan⟩ := hcommand.exists_identifier
      exact scriptCommands_cons_eq_ok_iff.mpr
        ⟨command, back, commands, hread, ih hcommands hlevels.2, rfl⟩

/-- A script is nested as deeply as its commands. -/
theorem nesting_start (commands : List Node) :
    (⟨.start, none, 1, 1, commands⟩ : Node).nesting = Node.nestingAll commands := by
  rw [Node.nesting]
  exact Nat.zero_add _

/-- Tokens have a tree if they are a script that is not nested too deeply. -/
theorem ofTokens_iff {tree : Node} : Node.ofTokens tokens = .ok tree ↔
    IsScript tokens tree ∧ tree.nesting ≤ maxNesting := by
  obtain ⟨last, htokens⟩ : ∃ last, Node.ofTokens tokens =
      (do
        let commands ← scriptCommands last tokens
        return (⟨.start, none, 1, 1, commands⟩ : Node)) := ⟨_, rfl⟩
  rw [htokens]
  have hiff : ∀ commands, scriptCommands last tokens = .ok commands ↔
      IsCommands tokens commands ∧ Node.nestingAll commands ≤ maxNesting :=
    fun commands => scriptCommands_iff
  cases hread : scriptCommands last tokens with
  | error fault =>
    refine ⟨nofun, ?_⟩
    rintro ⟨⟨hcommands⟩, hlevels⟩
    rw [nesting_start] at hlevels
    have hfound := (hiff _).mpr ⟨hcommands, hlevels⟩
    rw [hread] at hfound
    cases hfound
  | ok commands =>
    constructor
    · rintro ⟨⟩
      obtain ⟨hcommands, hlevels⟩ := (hiff commands).mp hread
      exact ⟨.intro hcommands, by rw [nesting_start]; exact hlevels⟩
    · rintro ⟨⟨hcommands⟩, hlevels⟩
      rw [nesting_start] at hlevels
      have hfound := (hiff _).mpr ⟨hcommands, hlevels⟩
      rw [hread] at hfound
      cases hfound
      rfl

end Scripts

/-- The parser makes a tree of just those tokens that the grammar derives with at most 64 levels of
nesting. It is the tree of the derivation: written down in order, its leaves and the punctuation
that its nodes imply are all the tokens there are. -/
theorem Node.ofTokens_eq_ok_iff (tokens : List Span) (tree : Node) :
    (Node.ofTokens tokens = .ok tree ↔ IsScript tokens tree ∧ tree.nesting ≤ 64) ∧
      (Node.ofTokens tokens = .ok tree → tree.written = tokens.map (·.token.plain)) := by
  refine ⟨ofTokens_iff, fun h => ?_⟩
  obtain ⟨hscript, -⟩ := ofTokens_iff.mp h
  exact hscript.written

end MailFilter.Script
