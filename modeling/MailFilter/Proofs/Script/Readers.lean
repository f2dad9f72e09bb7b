import MailFilter.Proofs.Script.Grammar

/-!
# What the readers of arguments take

A reader takes a part of a script from the front of some tokens, and leaves the others. The reader
of positional arguments takes all there are: what it leaves begins with a token that begins no
argument. What follows the arguments of a command or a test is told by that token alone.
-/

namespace MailFilter.Script

variable {α β : Type} {P Q : List Span → Prop}

/-- A reader gives a value and leaves some tokens. -/
def Reads (result : Except Fault (α × Subtype P)) (value : α) (rest : List Span) : Prop :=
  ∃ h, result = .ok (value, ⟨rest, h⟩)

/-- A reader that fails reads nothing. -/
theorem not_reads_error {fault : Fault} {value : α} {rest : List Span} :
    ¬Reads (.error fault : Except Fault (α × Subtype P)) value rest := nofun

/-- A reader that has read something has read just that. -/
theorem reads_ok_iff {found value : α} {left : Subtype P} {rest : List Span} :
    Reads (.ok (found, left)) value rest ↔ found = value ∧ left.1 = rest := by
  constructor
  · rintro ⟨h, hresult⟩
    cases hresult
    exact ⟨rfl, rfl⟩
  · rintro ⟨rfl, rfl⟩
    exact ⟨left.2, rfl⟩

/-- Two readers one behind the other read what the second reads behind the first. -/
theorem reads_bind_iff {result : Except Fault (α × Subtype P)}
    {next : α × Subtype P → Except Fault (β × Subtype Q)} {value : β} {rest : List Span} :
    Reads (result >>= next) value rest ↔
      ∃ found left, ∃ h : P left, result = .ok (found, ⟨left, h⟩) ∧
        Reads (next (found, ⟨left, h⟩)) value rest := by
  cases result with
  | error fault => exact ⟨nofun, nofun⟩
  | ok read =>
    obtain ⟨found, left, hleft⟩ := read
    constructor
    · intro h
      exact ⟨found, left, hleft, rfl, h⟩
    · rintro ⟨_, _, _, ⟨⟩, h⟩
      exact h

/-- A reader that goes on to build something of what it read leaves the same tokens. -/
theorem reads_map_iff (build : α → β) {result : Except Fault (α × Subtype P)}
    {weaken : ∀ left, P left → Q left} {value : β} {rest : List Span} :
    Reads (do let (found, ⟨left, h⟩) ← result; return (build found, ⟨left, weaken left h⟩))
        value rest ↔ ∃ found, Reads result found rest ∧ build found = value := by
  constructor
  · intro h
    obtain ⟨found, left, hleft, hresult, h⟩ := reads_bind_iff.mp h
    obtain ⟨hvalue, hrest⟩ := reads_ok_iff.mp h
    obtain rfl : left = rest := hrest
    exact ⟨found, ⟨hleft, hresult⟩, hvalue⟩
  · rintro ⟨found, ⟨h, hresult⟩, rfl⟩
    exact reads_bind_iff.mpr ⟨found, rest, h, hresult, reads_ok_iff.mpr ⟨rfl, rfl⟩⟩

/-- What is read can be built on. -/
theorem reads_build_iff (build : α → β) {result : Except Fault (α × Subtype P)} {value : β}
    {rest : List Span} :
    Reads (do let (found, left) ← result; return (build found, left)) value rest ↔
      ∃ found, Reads result found rest ∧ build found = value := by
  constructor
  · intro h
    obtain ⟨found, left, hleft, hresult, h⟩ := reads_bind_iff.mp h
    obtain ⟨hvalue, rfl⟩ := reads_ok_iff.mp h
    exact ⟨found, ⟨hleft, hresult⟩, hvalue⟩
  · rintro ⟨found, ⟨h, hresult⟩, rfl⟩
    exact reads_bind_iff.mpr ⟨found, rest, h, hresult, reads_ok_iff.mpr ⟨rfl, rfl⟩⟩

/-- Two readers, one after the other: the second goes on with what the first left. -/
theorem reads_both_iff {γ : Type} {R : List Span → List Span → Prop} (build : α → β → γ)
    {result : Except Fault (α × Subtype P)}
    {next : (left : List Span) → Except Fault (β × Subtype (R left))}
    {weaken : ∀ left, P left → ∀ after, R left after → Q after} {value : γ} {rest : List Span} :
    Reads (do
      let (found, ⟨left, h⟩) ← result
      let (other, ⟨after, hafter⟩) ← next left
      return (build found other, ⟨after, weaken left h after hafter⟩)) value rest ↔
      ∃ found middle other, Reads result found middle ∧ Reads (next middle) other rest ∧
        build found other = value := by
  rw [reads_bind_iff]
  constructor
  · rintro ⟨found, middle, hmiddle, hresult, h⟩
    obtain ⟨other, hother, hvalue⟩ := (reads_map_iff _).mp h
    exact ⟨found, middle, other, ⟨hmiddle, hresult⟩, hother, hvalue⟩
  · rintro ⟨found, middle, other, ⟨hmiddle, hresult⟩, hother, hvalue⟩
    exact ⟨found, middle, hmiddle, hresult, (reads_map_iff _).mpr ⟨other, hother, hvalue⟩⟩

/-- The items of a list are read just as the grammar has them. -/
theorem listItems_iff {last : Place} {tokens rest : List Span} {items : List Node} :
    Reads (listItems last tokens) items rest ↔
      ∃ front, tokens = front ++ rest ∧ IsItems front items := by
  constructor
  · fun_induction listItems last tokens generalizing items with
    | case3 item text htext place size tokens ih =>
      intro h
      obtain ⟨found, left, hleft, hfound, h⟩ := reads_bind_iff.mp h
      obtain ⟨rfl, rfl⟩ := reads_ok_iff.mp h
      obtain ⟨front, htokens, hitems⟩ := ih ⟨hleft, hfound⟩
      exact ⟨item :: _ :: front, congrArg (item :: _ :: ·) htokens, .more htext rfl hitems⟩
    | case4 item text htext place size tokens =>
      intro h
      obtain ⟨rfl, rfl⟩ := reads_ok_iff.mp h
      exact ⟨[_, _], rfl, .last htext rfl⟩
    | _ => exact fun h => absurd h not_reads_error
  · rintro ⟨front, rfl, hitems⟩
    induction hitems with
    | @last item close text hitem hclose =>
      obtain ⟨token, place, size⟩ := close
      obtain rfl : token = .rightBracket := hclose
      simp only [List.cons_append, List.nil_append, listItems, hitem]
      exact reads_ok_iff.mpr ⟨rfl, rfl⟩
    | @more item comma text tokens items hitem hcomma hitems ih =>
      obtain ⟨token, place, size⟩ := comma
      obtain rfl : token = .comma := hcomma
      obtain ⟨h, hread⟩ := ih
      simp only [List.cons_append, listItems, hitem]
      exact reads_bind_iff.mpr ⟨items, rest, h, hread, reads_ok_iff.mpr ⟨rfl, rfl⟩⟩

/-- Whether a positional argument begins with a token. -/
def Token.beginsArgument : Token → Bool
  | quoted _ | multiline _ | number _ | tag _ | leftBracket => true
  | _ => false

/-- Whether no arguments go on with a token, neither positional ones nor tests. -/
def Token.endsArguments : Token → Bool
  | identifier _ | leftParen => false
  | token => !token.beginsArgument

/-- The next token, if there is one, satisfies a condition. -/
def NextIs (condition : Token → Bool) (tokens : List Span) : Prop :=
  ∀ span ∈ tokens.head?, condition span.token = true

/-- What the next token is can be weakened. -/
theorem NextIs.mono {condition weaker : Token → Bool} {tokens : List Span}
    (h : NextIs condition tokens)
    (hweaker : ∀ token, condition token = true → weaker token = true) : NextIs weaker tokens :=
  fun span hspan => hweaker span.token (h span hspan)

/-- The next token is the first. -/
theorem nextIs_cons {condition : Token → Bool} {span : Span} {token : Token}
    (hspan : span.token = token) (htoken : condition token = true) (tokens : List Span) :
    NextIs condition (span :: tokens) := by
  rintro _ ⟨⟩
  rw [hspan, htoken]

/-- A token that ends arguments begins none. -/
theorem Token.not_beginsArgument_of_endsArguments (token : Token)
    (h : token.endsArguments = true) : (!token.beginsArgument) = true := by
  cases token <;> first | exact h | cases h

/-- Where no positional argument begins, there is a test, a list of tests, or neither. -/
theorem nextIs_not_beginsArgument {tokens : List Span}
    (h : NextIs (!·.beginsArgument) tokens) :
    (∃ span name back, tokens = span :: back ∧ span.token = .identifier name) ∨
      (∃ span back, tokens = span :: back ∧ span.token = .leftParen) ∨
      NextIs Token.endsArguments tokens := by
  cases tokens with
  | nil => exact .inr (.inr nofun)
  | cons span back =>
    have hspan : (!span.token.beginsArgument) = true := h span rfl
    cases htoken : span.token with
    | identifier name => exact .inl ⟨span, name, back, rfl, htoken⟩
    | leftParen => exact .inr (.inl ⟨span, back, rfl, htoken⟩)
    | quoted | multiline | number | tag | leftBracket => rw [htoken] at hspan; cases hspan
    | _ => exact .inr (.inr (nextIs_cons htoken rfl back))

variable {last : Place} {span : Span} {tokens rest : List Span} {arguments : List Node}

/-- An argument that is a single token is read as such. -/
theorem reads_positional_single {value : Node} (hvalue : IsValue [span] value) :
    Reads (positional last (span :: tokens)) arguments rest ↔
      ∃ others, Reads (positional last tokens) others rest ∧
        span.node .argument none [value] :: others = arguments := by
  obtain ⟨token, place, size⟩ := span
  cases hvalue with
  | string hspan =>
    cases token with
    | quoted text | multiline text =>
      obtain rfl := Option.some.inj hspan
      rw [positional]
      exact reads_map_iff _
    | _ => cases hspan
  | number hspan | tag hspan =>
    obtain rfl := hspan
    rw [positional]
    exact reads_map_iff _
  | strings hspan hitems => cases hitems

/-- A bracket among positional arguments begins a list, and the others follow it. -/
theorem reads_positional_list (hspan : span.token = .leftBracket) :
    Reads (positional last (span :: tokens)) arguments rest ↔
      ∃ items middle others, Reads (listItems last tokens) items middle ∧
        Reads (positional last middle) others rest ∧
        span.node .argument none [span.node .stringList none items] :: others = arguments := by
  obtain ⟨token, place, size⟩ := span
  obtain rfl : token = .leftBracket := hspan
  rw [positional]
  exact reads_both_iff fun items others => Span.node ⟨.leftBracket, place, size⟩ .argument none
    [Span.node ⟨.leftBracket, place, size⟩ .stringList none items] :: others

/-- A token that begins no argument ends the positional ones. -/
theorem reads_positional_end (htokens : NextIs (!·.beginsArgument) tokens) :
    Reads (positional last tokens) arguments rest ↔ [] = arguments ∧ tokens = rest := by
  cases tokens with
  | nil =>
    rw [positional]
    exact reads_ok_iff
  | cons span tokens =>
    obtain ⟨token, place, size⟩ := span
    have htoken : (!token.beginsArgument) = true := htokens _ rfl
    rw [positional]
    cases token with
    | quoted | multiline | number | tag | leftBracket => cases htoken
    | _ => exact reads_ok_iff

/-- A token that begins an argument is one, or opens a list of strings. -/
theorem isValue_or_leftBracket (hspan : span.token.beginsArgument = true) :
    (∃ value, IsValue [span] value) ∨ span.token = .leftBracket := by
  cases htoken : span.token with
  | quoted text | multiline text => exact .inl ⟨_, .string (congrArg Token.string? htoken)⟩
  | number text => exact .inl ⟨_, .number htoken⟩
  | tag text => exact .inl ⟨_, .tag htoken⟩
  | leftBracket => exact .inr rfl
  | _ => rw [htoken] at hspan; cases hspan

/-- What is read as positional arguments is that, and no further argument follows. -/
theorem isPositional_of_reads {tokens rest : List Span} {arguments : List Node}
    (h : Reads (positional last tokens) arguments rest) :
    ∃ front, tokens = front ++ rest ∧ IsPositional front arguments ∧
      NextIs (!·.beginsArgument) rest := by
  by_cases hend : NextIs (!·.beginsArgument) tokens
  · obtain ⟨rfl, rfl⟩ := (reads_positional_end hend).mp h
    exact ⟨[], rfl, .nil, hend⟩
  cases tokens with
  | nil => exact absurd nofun hend
  | cons span tokens =>
    have hspan : span.token.beginsArgument = true := by
      cases hspan : span.token.beginsArgument with
      | true => rfl
      | false =>
        refine absurd ?_ hend
        rintro _ ⟨⟩
        exact congrArg Bool.not hspan
    rcases isValue_or_leftBracket hspan with ⟨value, hvalue⟩ | hspan
    · obtain ⟨others, hothers, rfl⟩ := (reads_positional_single hvalue).mp h
      obtain ⟨front, rfl, hfront, hrest⟩ := isPositional_of_reads hothers
      exact ⟨span :: front, rfl, .cons hvalue hfront, hrest⟩
    · obtain ⟨items, middle, others, hitems, hothers, rfl⟩ := (reads_positional_list hspan).mp h
      obtain ⟨list, rfl, hlist⟩ := listItems_iff.mp hitems
      have hlt : middle.length < (span :: (list ++ middle)).length := by
        simp only [List.length_cons, List.length_append]
        omega
      obtain ⟨front, rfl, hfront, hrest⟩ := isPositional_of_reads hothers
      refine ⟨span :: list ++ front, ?_, .cons (.strings hspan hlist) hfront, hrest⟩
      simp only [List.cons_append, List.append_assoc]
termination_by tokens.length

/-- Positional arguments are read as far as they go. -/
theorem positional_iff : Reads (positional last tokens) arguments rest ↔
    ∃ front, tokens = front ++ rest ∧ IsPositional front arguments ∧
      NextIs (!·.beginsArgument) rest := by
  refine ⟨isPositional_of_reads, ?_⟩
  rintro ⟨front, rfl, hfront, hrest⟩
  induction hfront with
  | nil => exact (reads_positional_end hrest).mpr ⟨rfl, rfl⟩
  | cons hvalue harguments ih =>
    cases hvalue with
    | string hspan => exact (reads_positional_single (.string hspan)).mpr ⟨_, ih, rfl⟩
    | number hspan => exact (reads_positional_single (.number hspan)).mpr ⟨_, ih, rfl⟩
    | tag hspan => exact (reads_positional_single (.tag hspan)).mpr ⟨_, ih, rfl⟩
    | strings hspan hitems =>
      rw [List.cons_append, List.cons_append, List.append_assoc, reads_positional_list hspan]
      exact ⟨_, _, _, listItems_iff.mpr ⟨_, rfl, hitems⟩, ih, rfl⟩

end MailFilter.Script
