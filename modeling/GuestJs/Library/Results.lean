import Mathlib.Data.List.Forall2

/-!
# Computations that may fail

When a sequence of computations in `Except` gives a result, and loops of them over a list.
-/

namespace Results

variable {ε α β γ : Type}

theorem bind_eq_ok {x : Except ε α} {f : α → Except ε β} {b : β} :
    (x >>= f) = .ok b ↔ ∃ a, x = .ok a ∧ f a = .ok b := by
  cases x with
  | error e => simp [bind, Except.bind]
  | ok a => simp [bind, Except.bind]

theorem map_eq_ok {x : Except ε α} {f : α → β} {b : β} :
    x.map f = .ok b ↔ ∃ a, x = .ok a ∧ f a = b := by
  cases x with
  | error e => simp [Except.map]
  | ok a => simp [Except.map]

theorem pure_eq_ok {a b : α} : (pure a : Except ε α) = .ok b ↔ a = b := by
  simp [pure, Except.pure]

theorem exists_error_iff {x : Except ε α} : (∃ e, x = .error e) ↔ ¬∃ a, x = .ok a := by
  cases x <;> simp

theorem mapM_eq_ok {f : α → Except ε β} {as : List α} {bs : List β} :
    as.mapM f = .ok bs ↔ List.Forall₂ (fun a b => f a = .ok b) as bs := by
  induction as generalizing bs with
  | nil =>
      rw [List.mapM_nil, pure_eq_ok, List.forall₂_nil_left_iff]
      exact eq_comm
  | cons a as ih =>
      rw [List.mapM_cons, bind_eq_ok, List.forall₂_cons_left_iff]
      constructor
      · rintro ⟨b, hb, hrest⟩
        obtain ⟨bs', hbs', hpure⟩ := bind_eq_ok.mp hrest
        exact ⟨b, bs', hb, ih.mp hbs', (pure_eq_ok.mp hpure).symm⟩
      · rintro ⟨b, bs', hb, hbs', rfl⟩
        exact ⟨b, hb, bind_eq_ok.mpr ⟨bs', ih.mpr hbs', rfl⟩⟩

/-- A loop over a list that gives a result has taken its steps one after the other. -/
theorem foldlM_cons_eq_ok {f : γ → α → Except ε γ} {a : α} {as : List α} {c d : γ} :
    (a :: as).foldlM f c = .ok d ↔ ∃ c', f c a = .ok c' ∧ as.foldlM f c' = .ok d := by
  rw [List.foldlM_cons, bind_eq_ok]

/-- What every step of a loop keeps, the loop keeps. -/
theorem foldlM_invariant {P : γ → Prop} {f : γ → α → Except ε γ} {as : List α} {c d : γ}
    (hstep : ∀ c a c', P c → f c a = .ok c' → P c') (hP : P c) (h : as.foldlM f c = .ok d) :
    P d := by
  induction as generalizing c with
  | nil => exact pure_eq_ok.mp h ▸ hP
  | cons a as ih =>
      obtain ⟨c', hc', hrest⟩ := foldlM_cons_eq_ok.mp h
      exact ih (hstep c a c' hP hc') hrest

end Results
