import Mathlib.Logic.Function.Iterate

/-!
# Loops without a bound

A round of a loop goes on from a new state or ends it with a result. A loop that does not halt has a
state after every number of rounds, and an invariant that always leads on keeps a loop from halting.
What an invariant says of the rounds that end it holds of the result.
-/

namespace Loop

variable {σ α : Type} {step : σ → σ ⊕ α} {s t : σ} {a : α}

/-- The result, where it is reached in so many rounds. -/
def run (step : σ → σ ⊕ α) : Nat → σ → Option α
  | 0, _ => none
  | n + 1, s =>
      match step s with
      | .inl t => run step n t
      | .inr a => some a

def Halts (step : σ → σ ⊕ α) (s : σ) : Prop := ∃ n, (run step n s).isSome = true

/-- The state after a round that goes on. -/
def next (step : σ → σ ⊕ α) (s : σ) : σ :=
  match step s with
  | .inl t => t
  | .inr _ => s

theorem run_of_again (h : step s = .inl t) (n : Nat) : run step (n + 1) s = run step n t := by
  rw [run, h]

theorem run_of_end (h : step s = .inr a) (n : Nat) : run step (n + 1) s = some a := by
  rw [run, h]

theorem halts_of_end (h : step s = .inr a) : Halts step s := ⟨1, by rw [run_of_end h]; rfl⟩

theorem halts_of_again (h : step s = .inl t) (ht : Halts step t) : Halts step s := by
  obtain ⟨n, hn⟩ := ht
  exact ⟨n + 1, by rwa [run_of_again h]⟩

theorem exists_again_of_not_halts (h : ¬ Halts step s) :
    ∃ t, step s = .inl t ∧ ¬ Halts step t := by
  cases hstep : step s with
  | inl t => exact ⟨t, rfl, fun ht => h (halts_of_again hstep ht)⟩
  | inr a => exact absurd (halts_of_end hstep) h

theorem not_halts_of_invariant {I : σ → Prop} (hI : ∀ s, I s → ∃ t, step s = .inl t ∧ I t)
    (hs : I s) : ¬ Halts step s := by
  rintro ⟨n, hn⟩
  induction n generalizing s with
  | zero => cases hn
  | succ n ih =>
      obtain ⟨t, hstep, ht⟩ := hI s hs
      rw [run_of_again hstep] at hn
      exact ih ht hn

/-- A loop that does not halt goes on from the state after any number of rounds. -/
theorem step_iterate_of_not_halts (h : ¬ Halts step s) (n : Nat) :
    step ((next step)^[n] s) = .inl ((next step)^[n + 1] s) := by
  have hnext : ∀ {s}, ¬ Halts step s → step s = .inl (next step s) ∧ ¬ Halts step (next step s) := by
    intro s hs
    obtain ⟨t, hstep, ht⟩ := exists_again_of_not_halts hs
    have heq : next step s = t := by rw [next, hstep]
    exact ⟨heq ▸ hstep, heq ▸ ht⟩
  induction n generalizing s with
  | zero => exact (hnext h).1
  | succ n ih => exact ih (hnext h).2

/-- **Invariants.** What a loop ends with, it ends with in a round from a state that has the
invariant. -/
theorem run_invariant {I : σ → Prop} {P : α → Prop} (hagain : ∀ s t, I s → step s = .inl t → I t)
    (hend : ∀ s a, I s → step s = .inr a → P a) {n : Nat} (hs : I s) (hrun : run step n s = some a) :
    P a := by
  induction n generalizing s with
  | zero => cases hrun
  | succ n ih =>
      cases hstep : step s with
      | inl t =>
          rw [run_of_again hstep] at hrun
          exact ih (hagain s t hs hstep) hrun
      | inr b =>
          rw [run_of_end hstep] at hrun
          exact Option.some.inj hrun ▸ hend s b hs hstep

end Loop
