import Mathlib.Data.List.Basic

/-!
# Sources that end for good

A source is asked again and again, and each time shows an outcome or nothing. Some outcomes end it:
then a flag is set, and nothing is shown any more.
-/

structure Fused (State Event Outcome : Type) where
  next : State → Event → State
  shown : State → Event → Option Outcome
  flag : State → Bool
  ends : Outcome → Bool
  quiet : ∀ s e, flag s = true → shown s e = none
  kept : ∀ s e, shown s e = none → flag (next s e) = flag s
  flagged : ∀ s e outcome, shown s e = some outcome → flag (next s e) = ends outcome

namespace Fused

variable {State Event Outcome : Type} (F : Fused State Event Outcome)

def run (s : State) (es : List Event) : State := es.foldl F.next s

/-- What is shown, in order. -/
def outcomes : State → List Event → List Outcome
  | _, [] => []
  | s, e :: es => (F.shown s e).toList ++ outcomes (F.next s e) es

variable {F}

theorem outcomes_of_flag {s : State} (h : F.flag s = true) (es : List Event) :
    F.outcomes s es = [] := by
  induction es generalizing s with
  | nil => rfl
  | cons e es ih =>
      have hshown := F.quiet s e h
      rw [outcomes, hshown, ih (by rw [F.kept s e hshown, h])]
      rfl

theorem flag_run {s : State} (h : F.flag s = true) (es : List Event) :
    F.flag (F.run s es) = true := by
  induction es generalizing s with
  | nil => exact h
  | cons e es ih => exact ih (by rw [F.kept s e (F.quiet s e h), h])

/-- By induction on the run: an outcome that ends the source is the last, and it sets the flag. -/
theorem flag_run_iff {s : State} (h : F.flag s = false) (es : List Event) :
    F.flag (F.run s es) = true ↔ ∃ outcome ∈ F.outcomes s es, F.ends outcome = true := by
  induction es generalizing s with
  | nil => simp [run, outcomes, h]
  | cons e es ih =>
      show F.flag (F.run (F.next s e) es) = true ↔ _
      rw [outcomes]
      cases hshown : F.shown s e with
      | none => simpa using ih (by rw [F.kept s e hshown, h])
      | some outcome =>
          have hflag := F.flagged s e outcome hshown
          cases hends : F.ends outcome with
          | true =>
              rw [hends] at hflag
              simp [flag_run hflag, hends]
          | false =>
              rw [hends] at hflag
              simpa [hends] using ih hflag

/-- A source ends once. -/
theorem eq_of_ends {s : State} {es : List Event} {outcome outcome' : Outcome}
    (h : outcome ∈ F.outcomes s es) (h' : outcome' ∈ F.outcomes s es)
    (hends : F.ends outcome = true) (hends' : F.ends outcome' = true) : outcome = outcome' := by
  induction es generalizing s with
  | nil => cases h
  | cons e es ih =>
      rw [outcomes] at h h'
      cases hshown : F.shown s e with
      | none =>
          rw [hshown] at h h'
          exact ih h h'
      | some first =>
          rw [hshown] at h h'
          cases hfirst : F.ends first with
          | true =>
              have hflag := F.flagged s e first hshown
              rw [hfirst] at hflag
              rw [outcomes_of_flag hflag] at h h'
              rw [List.mem_singleton.mp h, List.mem_singleton.mp h']
          | false =>
              have hrest : ∀ found, found ∈ first :: F.outcomes (F.next s e) es →
                  F.ends found = true → found ∈ F.outcomes (F.next s e) es := by
                intro found hmem hfound
                cases hmem with
                | head =>
                    rw [hfirst] at hfound
                    cases hfound
                | tail _ hmem => exact hmem
              exact ih (hrest _ h hends) (hrest _ h' hends')

end Fused
