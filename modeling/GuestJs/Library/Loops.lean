import GuestJs.Library.Resumption
import Mathlib.Data.List.Forall2

/-!
# Loops of computations that call their environment

A loop over a list, when its body may hand control to an environment. Against an environment it gives
a result when each step does, one after the other; and where every step ends at once, without a call,
so does the loop.
-/

namespace Resumption

variable {σ Query Answer ε ε' ε'' α β γ : Type}

theorem andThen_assoc (r : Resumption σ Query Answer ε α)
    (next : Except ε α → σ → Resumption σ Query Answer ε' β)
    (last : Except ε' β → σ → Resumption σ Query Answer ε'' γ) :
    (r.andThen next).andThen last = r.andThen fun result s => (next result s).andThen last := by
  induction r with
  | done result s => rfl
  | call query s resume ih => exact congrArg _ (funext fun answer => funext fun t => ih answer t)

theorem andThen_done (r : Resumption σ Query Answer ε α) : r.andThen .done = r := by
  induction r with
  | done result s => rfl
  | call query s resume ih => exact congrArg _ (funext fun answer => funext fun t => ih answer t)

end Resumption

namespace Process

variable {σ Query Answer ε α β γ : Type}

instance : LawfulMonad (Process σ Query Answer ε) :=
  LawfulMonad.mk' _
    (by
      intro α p
      funext s
      show (p s).andThen _ = p s
      conv_rhs => rw [← Resumption.andThen_done (p s)]
      congr 1
      funext result t
      cases result <;> rfl)
    (fun _ _ => rfl)
    (by
      intro α β γ p f g
      funext s
      rw [bind_apply, bind_apply, bind_apply, Resumption.andThen_assoc]
      congr 1
      funext result t
      cases result <;> rfl)

section Resolve

variable {environment : Query → σ → Answer × σ}

theorem resolve_pure_ok {a b : α} {s t : σ} :
    ((pure a : Process σ Query Answer ε α) s).resolve environment = (.ok b, t) ↔
      a = b ∧ s = t := by
  simp [Resumption.resolve]

theorem resolve_throw_ne_ok {e : ε} {a : α} {s t : σ} :
    ((throw e : Process σ Query Answer ε α) s).resolve environment ≠ (.ok a, t) := by
  simp [Resumption.resolve]

theorem resolve_map_ok {p : Process σ Query Answer ε α} {f : α → β} {s t : σ} {b : β} :
    ((f <$> p) s).resolve environment = (.ok b, t) ↔
      ∃ a, (p s).resolve environment = (.ok a, t) ∧ f a = b := by
  rw [map_eq_pure_bind, resolve_bind_ok]
  constructor
  · rintro ⟨a, s', hp, hpure⟩
    obtain ⟨rfl, rfl⟩ := resolve_pure_ok.mp hpure
    exact ⟨a, hp, rfl⟩
  · rintro ⟨a, hp, rfl⟩
    exact ⟨a, t, hp, resolve_pure_ok.mpr ⟨rfl, rfl⟩⟩

theorem resolve_mapM_nil_ok {f : α → Process σ Query Answer ε β} {bs : List β} {s t : σ} :
    ((([] : List α).mapM f) s).resolve environment = (.ok bs, t) ↔ bs = [] ∧ s = t := by
  rw [List.mapM_nil, resolve_pure_ok, eq_comm]

theorem resolve_mapM_cons_ok {f : α → Process σ Query Answer ε β} {a : α} {as : List α}
    {bs : List β} {s t : σ} :
    (((a :: as).mapM f) s).resolve environment = (.ok bs, t) ↔
      ∃ b s' bs', (f a s).resolve environment = (.ok b, s') ∧
        (as.mapM f s').resolve environment = (.ok bs', t) ∧ b :: bs' = bs := by
  rw [List.mapM_cons]
  simp only [resolve_bind_ok, resolve_pure_ok]
  constructor
  · rintro ⟨b, s', hb, bs', t', hbs, rfl, rfl⟩
    exact ⟨b, s', bs', hb, hbs, rfl⟩
  · rintro ⟨b, s', bs', hb, hbs, rfl⟩
    exact ⟨b, s', hb, bs', t, hbs, rfl, rfl⟩

theorem length_of_mapM {f : α → Process σ Query Answer ε β} {as : List α} {bs : List β} {s t : σ}
    (h : (as.mapM f s).resolve environment = (.ok bs, t)) : bs.length = as.length := by
  induction as generalizing bs s with
  | nil =>
      obtain ⟨rfl, -⟩ := resolve_mapM_nil_ok.mp h
      rfl
  | cons a as ih =>
      obtain ⟨b, s', bs', -, hrest, rfl⟩ := resolve_mapM_cons_ok.mp h
      rw [List.length_cons, List.length_cons, ih hrest]

/-- Each result of a loop is that of a step. -/
theorem exists_of_mem_mapM {f : α → Process σ Query Answer ε β} {as : List α} {bs : List β} {s t : σ}
    (h : (as.mapM f s).resolve environment = (.ok bs, t)) {b : β} (hb : b ∈ bs) :
    ∃ a ∈ as, ∃ s' t', (f a s').resolve environment = (.ok b, t') := by
  induction as generalizing bs s with
  | nil =>
      obtain ⟨rfl, -⟩ := resolve_mapM_nil_ok.mp h
      cases hb
  | cons a as ih =>
      obtain ⟨first, s', bs', hfirst, hrest, rfl⟩ := resolve_mapM_cons_ok.mp h
      cases hb with
      | head => exact ⟨a, List.mem_cons_self, s, s', hfirst⟩
      | tail _ hb =>
          obtain ⟨a', ha', hstep⟩ := ih hrest hb
          exact ⟨a', List.mem_cons_of_mem a ha', hstep⟩

/-- What holds of each step of a loop in the state the step is taken in, for as long as the steps
before it have succeeded. -/
def Along (environment : Query → σ → Answer × σ) (f : α → Process σ Query Answer ε β)
    (P : α → σ → Prop) : List α → σ → Prop
  | [], _ => True
  | a :: as, s => P a s ∧ ∀ b s', (f a s).resolve environment = (.ok b, s') →
      Along environment f P as s'

theorem resolve_mapM_congr {f g : α → Process σ Query Answer ε β} {P : α → σ → Prop}
    (hstep : ∀ a s, P a s → ∀ b t, (f a s).resolve environment = (.ok b, t) ↔
      (g a s).resolve environment = (.ok b, t))
    {as : List α} {s : σ} (halong : Along environment g P as s) (bs : List β) (t : σ) :
    (as.mapM f s).resolve environment = (.ok bs, t) ↔
      (as.mapM g s).resolve environment = (.ok bs, t) := by
  induction as generalizing s bs with
  | nil => rw [resolve_mapM_nil_ok, resolve_mapM_nil_ok]
  | cons a as ih =>
      rw [resolve_mapM_cons_ok, resolve_mapM_cons_ok]
      constructor
      · rintro ⟨b, s', bs', hb, hrest, rfl⟩
        have hg := (hstep a s halong.1 b s').mp hb
        exact ⟨b, s', bs', hg, (ih (halong.2 b s' hg) bs').mp hrest, rfl⟩
      · rintro ⟨b, s', bs', hb, hrest, rfl⟩
        exact ⟨b, s', bs', (hstep a s halong.1 b s').mpr hb,
          (ih (halong.2 b s' hb) bs').mpr hrest, rfl⟩

/-- A loop ends with the first step that fails. -/
theorem resolve_mapM_of_error {f : α → Process σ Query Answer ε β} {before after : List α} {a : α}
    {bs : List β} {s s' t : σ} {e : ε}
    (hbefore : (before.mapM f s).resolve environment = (.ok bs, s'))
    (ha : (f a s').resolve environment = (.error e, t)) :
    ((before ++ a :: after).mapM f s).resolve environment = (.error e, t) := by
  rw [List.mapM_append, resolve_bind_of_ok hbefore]
  refine resolve_bind_of_error ?_
  rw [List.mapM_cons]
  exact resolve_bind_of_error ha

end Resolve

section Yields

variable {p : Process σ Query Answer ε α} {s : σ} {Q Q' : α → σ → Prop}

/-- No call is made, and a result as `Q` says is given. -/
def Yields (p : Process σ Query Answer ε α) (s : σ) (Q : α → σ → Prop) : Prop :=
  p.Silent s Q fun _ _ => False

theorem yields_iff : p.Yields s Q ↔ ∃ a t, p s = .done (.ok a) t ∧ Q a t := by
  unfold Yields Silent
  rcases p s with ⟨e | a, t⟩ | ⟨query, t, resume⟩ <;> simp

theorem yields_pure {a : α} : (pure a : Process σ Query Answer ε α).Yields s Q ↔ Q a s := Iff.rfl

theorem yields_bind {next : α → Process σ Query Answer ε β} {Q : β → σ → Prop} :
    (p >>= next).Yields s Q ↔ p.Yields s fun a t => (next a).Yields t Q :=
  silent_bind

theorem yields_map {f : α → β} {Q : β → σ → Prop} :
    (f <$> p).Yields s Q ↔ p.Yields s fun a t => Q (f a) t :=
  silent_map

theorem Yields.mono (h : p.Yields s Q) (hQ : ∀ a t, Q a t → Q' a t) : p.Yields s Q' := by
  obtain ⟨a, t, hdone, ha⟩ := yields_iff.mp h
  exact yields_iff.mpr ⟨a, t, hdone, hQ a t ha⟩

theorem yields_of_eq {a : α} {t : σ} (h : p s = .done (.ok a) t) (hQ : Q a t) : p.Yields s Q :=
  yields_iff.mpr ⟨a, t, h, hQ⟩

/-- A loop whose steps all end at once does too. The state moves by `R`, which keeps what a step asks
of it and what the steps before have given; what a step gives is told against a list of its own. -/
theorem yields_mapM {I : σ → Prop} {R : σ → σ → Prop} {P : γ → β → σ → Prop}
    (hrefl : ∀ s, R s s) (htrans : ∀ s t u, R s t → R t u → R s u)
    (hI : ∀ s t, I s → R s t → I t) (hP : ∀ c b s t, P c b s → R s t → P c b t)
    {f : α → Process σ Query Answer ε β} {as : List α} {cs : List γ}
    (hf : List.Forall₂ (fun a c => ∀ s, I s → (f a).Yields s fun b t => R s t ∧ P c b t) as cs)
    {s : σ} (hs : I s) :
    (as.mapM f).Yields s fun bs t => R s t ∧ List.Forall₂ (fun c b => P c b t) cs bs := by
  induction hf generalizing s with
  | nil =>
      rw [List.mapM_nil, yields_pure]
      exact ⟨hrefl s, .nil⟩
  | cons ha _ ih =>
      rw [List.mapM_cons, yields_bind]
      refine (ha s hs).mono ?_
      rintro b s' ⟨hmove, hb⟩
      rw [yields_bind]
      refine (ih (hI s s' hs hmove)).mono ?_
      rintro bs t ⟨hmoves, hbs⟩
      exact yields_pure.mpr ⟨htrans s s' t hmove hmoves, .cons (hP _ b s' t hb hmoves) hbs⟩

end Yields

section Resolves

variable {environment : Query → σ → Answer × σ} {p : Process σ Query Answer ε α} {s : σ}
  {Q Q' : α → σ → Prop}

/-- Against the environment a result as `Q` says is given. -/
def Resolves (environment : Query → σ → Answer × σ) (p : Process σ Query Answer ε α) (s : σ)
    (Q : α → σ → Prop) : Prop :=
  ∃ a t, (p s).resolve environment = (.ok a, t) ∧ Q a t

theorem resolves_pure {a : α} :
    (pure a : Process σ Query Answer ε α).Resolves environment s Q ↔ Q a s := by
  simp [Resolves, Resumption.resolve]

theorem resolves_bind {next : α → Process σ Query Answer ε β} {Q : β → σ → Prop} :
    (p >>= next).Resolves environment s Q ↔
      p.Resolves environment s fun a t => (next a).Resolves environment t Q := by
  constructor
  · rintro ⟨b, t, hrun, hQ⟩
    obtain ⟨a, s', hfirst, hnext⟩ := resolve_bind_ok.mp hrun
    exact ⟨a, s', hfirst, b, t, hnext, hQ⟩
  · rintro ⟨a, s', hfirst, b, t, hnext, hQ⟩
    exact ⟨b, t, resolve_bind_ok.mpr ⟨a, s', hfirst, hnext⟩, hQ⟩

theorem Resolves.mono (h : p.Resolves environment s Q) (hQ : ∀ a t, Q a t → Q' a t) :
    p.Resolves environment s Q' := by
  obtain ⟨a, t, hrun, ha⟩ := h
  exact ⟨a, t, hrun, hQ a t ha⟩

theorem Yields.resolves (h : p.Yields s Q) : p.Resolves environment s Q := by
  obtain ⟨a, t, hdone, hQ⟩ := yields_iff.mp h
  exact ⟨a, t, by rw [hdone, Resumption.resolve], hQ⟩

/-- There is one result, and what is known of it is true of the one that is found. -/
theorem Resolves.of_eq (h : p.Resolves environment s Q) {a : α} {t : σ}
    (hrun : (p s).resolve environment = (.ok a, t)) : Q a t := by
  obtain ⟨a', t', hrun', hQ⟩ := h
  rw [hrun] at hrun'
  cases hrun'
  exact hQ

end Resolves

end Process
