/-!
# Loops that may not end

A loop makes one round after the other, from one state to the next, until a round gives a result or
halts. Nothing in its form says that this ever happens. So it is described by what it comes to in a
number of rounds, and the loop itself by what it comes to in any number of them.
-/

namespace MailFilter.Loop

variable {ε σ α β : Type}

/-- A loop that may make some number of rounds. It has no result if it has not ended by then. -/
def rounds (round : σ → ExceptT ε Option (σ ⊕ α)) : Nat → σ → ExceptT ε Option α
  | 0, _ => ExceptT.mk none
  | n + 1, state => do
    match ← round state with
    | .inl next => rounds round n next
    | .inr result => return result

open Classical in
/-- A loop that may make any number of rounds. It has no result if it never ends. -/
noncomputable def unbounded (round : σ → ExceptT ε Option (σ ⊕ α)) (state : σ) :
    ExceptT ε Option α :=
  if h : ∃ n, (rounds round n state).run.isSome then rounds round h.choose state
  else ExceptT.mk none

variable {round : σ → ExceptT ε Option (σ ⊕ α)} {state : σ} {m n : Nat} {result : Except ε α}

/-- A round that goes on leaves its next state to the other rounds. -/
theorem rounds_of_inl {next : σ} (h : round state = pure (.inl next)) :
    rounds round (n + 1) state = rounds round n next := by
  rw [rounds, h, pure_bind]

/-- A round that ends the loop settles its value. -/
theorem rounds_of_inr {value : α} (h : round state = pure (.inr value)) :
    rounds round (n + 1) state = pure value := by
  rw [rounds, h, pure_bind]

/-- More rounds change nothing once the loop has ended. -/
theorem rounds_succ (h : (rounds round n state).run = some result) :
    (rounds round (n + 1) state).run = some result := by
  induction n generalizing state with
  | zero => cases h
  | succ n ih =>
    rw [rounds] at h ⊢
    rw [ExceptT.run_bind] at h ⊢
    cases hround : (round state).run with
    | none =>
      rw [hround] at h
      cases h
    | some halted =>
      rw [hround] at h
      match halted with
      | .error _ => exact h
      | .ok (.inl next) => exact ih h
      | .ok (.inr _) => exact h

/-- More rounds do not change a result that some rounds have reached. -/
theorem rounds_mono (hle : m ≤ n) (h : (rounds round m state).run = some result) :
    (rounds round n state).run = some result := by
  induction hle with
  | refl => exact h
  | step _ ih => exact rounds_succ ih

/-- A loop comes to what it comes to in some number of rounds. -/
theorem run_unbounded_iff :
    (unbounded round state).run = some result ↔ ∃ n, (rounds round n state).run = some result := by
  rw [unbounded]
  split
  · next hsome =>
    obtain ⟨found, hfound⟩ := Option.isSome_iff_exists.mp hsome.choose_spec
    refine ⟨fun h => ⟨_, h⟩, fun ⟨n, hn⟩ => ?_⟩
    rcases Nat.le_total n hsome.choose with hle | hle
    · exact rounds_mono hle hn
    · rw [rounds_mono hle hfound] at hn
      rw [hfound, hn]
  · next hnone =>
    refine ⟨nofun, fun ⟨n, hn⟩ => absurd ⟨n, ?_⟩ hnone⟩
    rw [hn]
    rfl

/-- A loop makes one round, and goes on as a loop if the round has not ended it. -/
theorem unbounded_eq (round : σ → ExceptT ε Option (σ ⊕ α)) (state : σ) :
    unbounded round state = do
      match ← round state with
      | .inl next => unbounded round next
      | .inr result => return result := by
  refine ExceptT.ext (Option.ext fun result => ?_)
  -- A loop that has ended has made at least one round.
  have hfirst : (∃ n, (rounds round n state).run = some result) ↔
      ∃ n, (rounds round (n + 1) state).run = some result :=
    ⟨fun ⟨n, hn⟩ => ⟨n, rounds_succ hn⟩, fun ⟨n, hn⟩ => ⟨n + 1, hn⟩⟩
  rw [run_unbounded_iff, hfirst]
  simp only [rounds, ExceptT.run_bind]
  match (round state).run with
  | none => simp
  | some (.error _) => simp
  | some (.ok (.inl next)) => exact run_unbounded_iff.symm
  | some (.ok (.inr _)) => simp

end MailFilter.Loop
