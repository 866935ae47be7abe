import Mathlib.Data.Option.Basic

/-!
# Machines that take labelled steps

A machine is a partial step function: an event either moves the state or is not enabled. A run is
a list of events, and most facts about runs are facts about one step carried along the list. The
rules here do the carrying once: an invariant survives a run, a property holds at every state a run
passes through when each step meets a condition, and, when the condition is exact for one step, it
is exact for the run.
-/

namespace Transition

/-- A deterministic machine: `step s e` is the state after `e`, or `none` where `e` cannot happen. -/
structure Machine (State Event : Type*) where
  step : State → Event → Option State

namespace Machine

variable {State Event : Type*} (M : Machine State Event)

def run : State → List Event → Option State
  | s, [] => some s
  | s, e :: es => (M.step s e).bind fun s' => run s' es

/-- `P` holds at every state the run passes through, its first and its last included. -/
def Throughout (P : State → Prop) : State → List Event → Prop
  | s, [] => P s
  | s, e :: es => P s ∧ ∀ s', M.step s e = some s' → Throughout P s' es

/-- Every step the run takes meets the condition `C` on the state before it and its event. -/
def Along (C : State → Event → Prop) : State → List Event → Prop
  | _, [] => True
  | s, e :: es => ∀ s', M.step s e = some s' → C s e ∧ Along C s' es

variable {M}

theorem run_cons_eq_some {s t : State} {e : Event} {es : List Event} :
    M.run s (e :: es) = some t ↔ ∃ s', M.step s e = some s' ∧ M.run s' es = some t := by
  simp [run, Option.bind_eq_some_iff]

theorem Throughout.first {P : State → Prop} {s : State} {es : List Event}
    (h : M.Throughout P s es) : P s := by
  cases es with
  | nil => exact h
  | cons e es => exact h.1

theorem Throughout.mono {P Q : State → Prop} (hPQ : ∀ s, P s → Q s) {s : State} {es : List Event}
    (h : M.Throughout P s es) : M.Throughout Q s es := by
  induction es generalizing s with
  | nil => exact hPQ s h
  | cons e es ih => exact ⟨hPQ s h.1, fun s' hstep => ih (h.2 s' hstep)⟩

theorem Throughout.last {P : State → Prop} {s t : State} {es : List Event}
    (h : M.Throughout P s es) (hrun : M.run s es = some t) : P t := by
  induction es generalizing s with
  | nil =>
      obtain rfl : s = t := Option.some.inj hrun
      exact h
  | cons e es ih =>
      obtain ⟨s', hstep, hrest⟩ := run_cons_eq_some.mp hrun
      exact ih (h.2 s' hstep) hrest

theorem Along.cons {C : State → Event → Prop} {s t : State} {e : Event} {es : List Event}
    (hstep : M.step s e = some t) (hC : C s e) (hrest : M.Along C t es) : M.Along C s (e :: es) := by
  intro s' hs'
  obtain rfl : t = s' := Option.some.inj (hstep.symm.trans hs')
  exact ⟨hC, hrest⟩

theorem Along.and {C D : State → Event → Prop} {s : State} {es : List Event} (hC : M.Along C s es)
    (hD : M.Along D s es) : M.Along (fun s e => C s e ∧ D s e) s es := by
  induction es generalizing s with
  | nil => trivial
  | cons e es ih =>
      intro s' hs'
      obtain ⟨hcond, hrest⟩ := hC s' hs'
      obtain ⟨hcond', hrest'⟩ := hD s' hs'
      exact ⟨⟨hcond, hcond'⟩, ih hrest hrest'⟩

theorem Along.at_step {C : State → Event → Prop} {s t t' : State} {e : Event} {es rest : List Event}
    (h : M.Along C s (es ++ e :: rest)) (hrun : M.run s es = some t) (hstep : M.step t e = some t') :
    C t e := by
  induction es generalizing s with
  | nil =>
      obtain rfl : s = t := Option.some.inj hrun
      exact (h t' hstep).1
  | cons e' es ih =>
      obtain ⟨s', hs', hrest⟩ := run_cons_eq_some.mp hrun
      exact ih (h s' hs').2 hrest

/-- **Invariants, under a condition.** What each step that meets `C` preserves holds at every state
of a run whose steps all meet `C`. -/
theorem throughout_of_along {I : State → Prop} {C : State → Event → Prop}
    (hstep : ∀ s e s', I s → C s e → M.step s e = some s' → I s') {s : State} {es : List Event}
    (hI : I s) (hC : M.Along C s es) : M.Throughout I s es := by
  induction es generalizing s with
  | nil => exact hI
  | cons e es ih =>
      refine ⟨hI, fun s' hs' => ?_⟩
      obtain ⟨hcond, hrest⟩ := hC s' hs'
      exact ih (hstep s e s' hI hcond hs') hrest

/-- **Invariants.** What every step preserves holds at every state of every run. -/
theorem throughout_of_invariant {I : State → Prop}
    (hstep : ∀ s e s', I s → M.step s e = some s' → I s') {s : State} (hI : I s)
    (es : List Event) : M.Throughout I s es := by
  induction es generalizing s with
  | nil => exact hI
  | cons e es ih => exact ⟨hI, fun s' hs' => ih (hstep s e s' hI hs')⟩

theorem along_of_invariant {I : State → Prop} {C : State → Event → Prop}
    (hstep : ∀ s e s', I s → M.step s e = some s' → I s')
    (hcond : ∀ s e s', I s → M.step s e = some s' → C s e) {s : State} (hI : I s)
    (es : List Event) : M.Along C s es := by
  induction es generalizing s with
  | nil => trivial
  | cons e es ih => exact fun s' hs' => ⟨hcond s e s' hI hs', ih (hstep s e s' hI hs')⟩

theorem run_invariant {I : State → Prop} (hstep : ∀ s e s', I s → M.step s e = some s' → I s')
    {s t : State} {es : List Event} (hI : I s) (hrun : M.run s es = some t) : I t :=
  (throughout_of_invariant hstep hI es).last hrun

/-- Conditions that agree wherever an invariant holds are met by the same runs. -/
theorem along_congr {I : State → Prop} {C D : State → Event → Prop}
    (hinv : ∀ s e s', I s → M.step s e = some s' → I s')
    (hiff : ∀ s e s', I s → M.step s e = some s' → (C s e ↔ D s e)) {s : State}
    {es : List Event} (hI : I s) : M.Along C s es ↔ M.Along D s es := by
  induction es generalizing s with
  | nil => exact Iff.rfl
  | cons e es ih =>
      refine forall_congr' fun s' => forall_congr' fun hs' => ?_
      exact and_congr (hiff s e s' hI hs') (ih (hinv s e s' hI hs'))

/-- **An exact condition.** Where `I` is kept by the steps that meet `C`, and a step out of `I` meets
`C` when the state it leads to has the property `P`, `P` holds throughout a run exactly when all its
steps meet `C`. -/
theorem throughout_iff_along_of_kept {I P : State → Prop} {C : State → Event → Prop}
    (hkeep : ∀ s e s', I s → C s e → M.step s e = some s' → I s')
    (hseen : ∀ s e s', I s → M.step s e = some s' → P s' → C s e) (hP : ∀ s, I s → P s)
    {s : State} {es : List Event} (hI : I s) :
    M.Throughout P s es ↔ M.Along C s es := by
  constructor
  · intro hall
    induction es generalizing s with
    | nil => trivial
    | cons e es ih =>
        intro s' hs'
        have hrest := hall.2 s' hs'
        have hcond := hseen s e s' hI hs' hrest.first
        exact ⟨hcond, ih (hkeep s e s' hI hcond hs') hrest⟩
  · intro hC
    exact (throughout_of_along hkeep hI hC).mono hP

/-- An exact condition for a property that is an invariant under it itself, next to what every step
keeps. -/
theorem throughout_iff_along {I P : State → Prop} {C : State → Event → Prop}
    (hinv : ∀ s e s', I s → M.step s e = some s' → I s')
    (hexact : ∀ s e s', I s → P s → M.step s e = some s' → (P s' ↔ C s e))
    {s : State} {es : List Event} (hI : I s) (hP : P s) :
    M.Throughout P s es ↔ M.Along C s es := by
  refine throughout_iff_along_of_kept (I := fun s => I s ∧ P s) ?_ ?_ (fun _ h => h.2) ⟨hI, hP⟩
  · rintro s e s' ⟨hI, hP⟩ hcond hs'
    exact ⟨hinv s e s' hI hs', (hexact s e s' hI hP hs').mpr hcond⟩
  · rintro s e s' ⟨hI, hP⟩ hs' hP'
    exact (hexact s e s' hI hP hs').mp hP'

end Machine

end Transition
