import Mathlib.Control.Basic


/-!
# Computations that mutate and can fail

A method that takes its object by mutable reference and may return early with an error leaves
whatever it has written so far. `Fallible σ ε` keeps the state on the error path, so that "a failed
call changes nothing" is a property to prove and not a consequence of the type: `ReadOnly` and
`Atomic` name the two shapes it is proved from, checks first and writes last.
-/

/-- A computation over a mutable state `σ` that may stop with an error `ε`, keeping its writes. -/
abbrev Fallible (σ ε α : Type) := ExceptT ε (StateM σ) α

namespace Fallible

variable {σ ε α β : Type}

def exec (m : Fallible σ ε α) (s : σ) : Except ε α × σ := (ExceptT.run m).run s

/-- Never writes, whether it succeeds or fails. -/
def ReadOnly (m : Fallible σ ε α) : Prop := ∀ s, (exec m s).2 = s

/-- Writes nothing when it fails. -/
def Atomic (m : Fallible σ ε α) : Prop := ∀ s error, (exec m s).1 = .error error → (exec m s).2 = s

@[simp]
theorem exec_pure (a : α) (s : σ) : exec (pure a : Fallible σ ε α) s = (.ok a, s) := rfl

@[simp]
theorem exec_modify (f : σ → σ) (s : σ) :
    exec (modify f : Fallible σ ε PUnit) s = (.ok ⟨⟩, f s) := rfl

@[simp]
theorem exec_get (s : σ) : exec (get : Fallible σ ε σ) s = (.ok s, s) := rfl

theorem exec_bind (m : Fallible σ ε α) (f : α → Fallible σ ε β) (s : σ) :
    exec (m >>= f) s = match exec m s with
      | (.ok a, s') => exec (f a) s'
      | (.error e, s') => (.error e, s') := by
  simp only [exec, ExceptT.run_bind, StateT.run_bind]
  rcases (ExceptT.run m).run s with ⟨result, s'⟩
  cases result <;> rfl

def check (test : σ → Except ε α) : Fallible σ ε α := do
  match test (← get) with
  | .ok a => pure a
  | .error e => throw e

@[simp]
theorem exec_check (test : σ → Except ε α) (s : σ) : exec (check test) s = (test s, s) := by
  simp only [check, exec_bind, exec_get]
  cases test s <;> rfl

theorem readOnly_check (test : σ → Except ε α) : ReadOnly (check test) := by
  intro s
  rw [exec_check]

theorem exec_bind_ok {m : Fallible σ ε α} {f : α → Fallible σ ε β} {s t : σ} {b : β} :
    exec (m >>= f) s = (.ok b, t) ↔ ∃ a s', exec m s = (.ok a, s') ∧ exec (f a) s' = (.ok b, t) := by
  rw [exec_bind]
  rcases exec m s with ⟨result, s'⟩
  cases result with
  | ok a =>
      constructor
      · exact fun h => ⟨a, s', rfl, h⟩
      · rintro ⟨_, _, hrun, h⟩
        cases hrun
        exact h
  | error e => simp

theorem exec_check_bind_ok {test : σ → Except ε α} {f : α → Fallible σ ε β} {s t : σ} {b : β} :
    exec (check test >>= f) s = (.ok b, t) ↔ ∃ a, test s = .ok a ∧ exec (f a) s = (.ok b, t) := by
  rw [exec_bind_ok]
  constructor
  · rintro ⟨a, s', hcheck, hrest⟩
    rw [exec_check, Prod.mk.injEq] at hcheck
    obtain ⟨htest, rfl⟩ := hcheck
    exact ⟨a, htest, hrest⟩
  · rintro ⟨a, htest, hrest⟩
    exact ⟨a, s, by rw [exec_check, htest], hrest⟩

theorem exec_check_unit_bind_ok {test : σ → Except ε PUnit} {f : PUnit → Fallible σ ε β} {s t : σ}
    {b : β} : exec (check test >>= f) s = (.ok b, t) ↔
      test s = .ok ⟨⟩ ∧ exec (f ⟨⟩) s = (.ok b, t) := by
  rw [exec_check_bind_ok]
  exact ⟨fun ⟨_, h⟩ => h, fun h => ⟨_, h⟩⟩

theorem exec_modify_bind (f : σ → σ) (g : PUnit → Fallible σ ε β) (s : σ) :
    exec (modify f >>= g) s = exec (g ⟨⟩) (f s) := rfl

theorem exec_modify_ok {f : σ → σ} {s t : σ} :
    exec (modify f : Fallible σ ε PUnit) s = (.ok ⟨⟩, t) ↔ t = f s := by
  rw [exec_modify, Prod.mk.injEq, eq_comm (a := f s)]
  exact and_iff_right rfl

/-- What a computation comes to, for a caller that goes on with its failures too. -/
def attempt {ε' : Type} (m : Fallible σ ε α) : Fallible σ ε' (Except ε α) :=
  ExceptT.mk fun s => (.ok (exec m s).1, (exec m s).2)

@[simp]
theorem exec_attempt {ε' : Type} (m : Fallible σ ε α) (s : σ) :
    exec (attempt m : Fallible σ ε' (Except ε α)) s = (.ok (exec m s).1, (exec m s).2) := rfl

/-- A computation on a part of the state, found by `get` and put back by `set`. -/
def zoom {τ : Type} (get : σ → τ) (set : τ → σ → σ) (m : Fallible τ ε α) : Fallible σ ε α :=
  ExceptT.mk fun s => ((exec m (get s)).1, set (exec m (get s)).2 s)

theorem exec_zoom {τ : Type} (get : σ → τ) (set : τ → σ → σ) (m : Fallible τ ε α) (s : σ) :
    exec (zoom get set m) s = ((exec m (get s)).1, set (exec m (get s)).2 s) := rfl

theorem Atomic.zoom {τ : Type} {get : σ → τ} {set : τ → σ → σ} (hset : ∀ s, set (get s) s = s)
    {m : Fallible τ ε α} (hm : Atomic m) : Atomic (zoom get set m) := by
  intro s error herror
  rw [exec_zoom] at herror ⊢
  rw [hm (get s) error herror, hset]

theorem ReadOnly.bind {m : Fallible σ ε α} {f : α → Fallible σ ε β} (hm : ReadOnly m)
    (hf : ∀ a, ReadOnly (f a)) : ReadOnly (m >>= f) := by
  intro s
  have hs := hm s
  rw [exec_bind]
  rcases hrun : exec m s with ⟨result, s'⟩
  rw [hrun] at hs
  obtain rfl : s' = s := hs
  cases result with
  | ok a => exact hf a s'
  | error e => rfl

theorem readOnly_pure (a : α) : ReadOnly (pure a : Fallible σ ε α) := fun _ => rfl

theorem readOnly_forM {f : α → Fallible σ ε PUnit} (hf : ∀ a, ReadOnly (f a)) (as : List α) :
    ReadOnly (forM as f) := by
  induction as with
  | nil => exact readOnly_pure _
  | cons a as ih =>
      rw [List.forM_cons]
      exact (hf a).bind fun _ => ih

theorem atomic_of_ok {m : Fallible σ ε α} (hm : ∀ s, ∃ a, (exec m s).1 = .ok a) : Atomic m := by
  intro s e he
  obtain ⟨a, ha⟩ := hm s
  rw [ha] at he
  cases he

/-- **Checks first, writes last.** A read-only prefix keeps what follows it atomic. -/
theorem ReadOnly.atomic_bind {m : Fallible σ ε α} {f : α → Fallible σ ε β} (hm : ReadOnly m)
    (hf : ∀ a, Atomic (f a)) : Atomic (m >>= f) := by
  intro s e he
  have hs := hm s
  rw [exec_bind] at he ⊢
  rcases hrun : exec m s with ⟨result, s'⟩
  rw [hrun] at hs he
  obtain rfl : s' = s := hs
  cases result with
  | ok a => exact hf a s' e he
  | error e => rfl

theorem forM_eq_ok_iff {f : α → Except ε PUnit} {as : List α} :
    as.forM f = .ok ⟨⟩ ↔ ∀ a ∈ as, f a = .ok ⟨⟩ := by
  induction as with
  | nil => simp [pure, Except.pure]
  | cons a as ih =>
      rw [List.forall_mem_cons, ← ih]
      show (f a >>= fun _ => as.forM f) = .ok ⟨⟩ ↔ _
      cases f a with
      | ok _ => simp [bind, Except.bind]
      | error e => simp [bind, Except.bind]

/-- What each step of a successful loop preserves, the loop preserves. -/
theorem forM_invariant {P : σ → Prop} {f : α → Fallible σ ε PUnit} {as : List α}
    (hf : ∀ a ∈ as, ∀ s s', P s → exec (f a) s = (.ok ⟨⟩, s') → P s') {s s' : σ} (hP : P s)
    (hrun : exec (forM as f) s = (.ok ⟨⟩, s')) : P s' := by
  induction as generalizing s with
  | nil =>
      obtain rfl : s = s' := congrArg Prod.snd hrun
      exact hP
  | cons a as ih =>
      rw [List.forM_cons, exec_bind_ok] at hrun
      obtain ⟨_, t, hfirst, hrest⟩ := hrun
      rw [List.forall_mem_cons] at hf
      exact ih hf.2 (hf.1 s t hP hfirst) hrest

theorem exec_forM_check_ok {test : α → σ → Except ε PUnit} {as : List α} {s t : σ} :
    exec (forM as fun a => check (test a)) s = (.ok ⟨⟩, t) ↔ t = s ∧ ∀ a ∈ as, test a s = .ok ⟨⟩ := by
  induction as with
  | nil => simp [eq_comm]
  | cons a as ih =>
      rw [List.forM_cons]
      rw [exec_check_unit_bind_ok, ih, List.forall_mem_cons]
      exact and_left_comm

theorem exec_forM_check_bind_ok {test : α → σ → Except ε PUnit} {as : List α}
    {g : PUnit → Fallible σ ε β} {s t : σ} {b : β} :
    exec ((forM as fun a => check (test a)) >>= g) s = (.ok b, t) ↔
      (∀ a ∈ as, test a s = .ok ⟨⟩) ∧ exec (g ⟨⟩) s = (.ok b, t) := by
  rw [exec_bind_ok]
  constructor
  · rintro ⟨_, s', hchecks, hrest⟩
    obtain ⟨rfl, hall⟩ := exec_forM_check_ok.mp hchecks
    exact ⟨hall, hrest⟩
  · rintro ⟨hall, hrest⟩
    exact ⟨⟨⟩, s, exec_forM_check_ok.mpr ⟨rfl, hall⟩, hrest⟩

end Fallible
