import Mathlib.Logic.Basic

/-!
# Computations that call their environment

A re-entrant computation works on a mutable state, and from time to time hands control to an
environment that may change that state, itself included, before it answers. `Process` keeps those
calls visible: a computation that makes none is `Finished` at once, whatever the environment would
have done, and one that makes some can be suspended and resumed between them.

Two readings are given. `resolve` runs a computation against a fixed environment; `Guarantees` says
how the computation itself moves the state, between the calls and whatever happens in them.
-/

/-- What a computation comes to: a result, or a call and what to do with its answer. -/
inductive Resumption (σ Query Answer ε α : Type) where
  | done (result : Except ε α) (state : σ)
  | call (query : Query) (state : σ) (resume : Answer → σ → Resumption σ Query Answer ε α)

/-- A computation over a mutable state `σ` that may fail with `ε` and call its environment. -/
def Process (σ Query Answer ε α : Type) : Type := σ → Resumption σ Query Answer ε α

namespace Resumption

variable {σ τ Query Answer ε ε' α β : Type}

def andThen (r : Resumption σ Query Answer ε α)
    (next : Except ε α → σ → Resumption σ Query Answer ε' β) : Resumption σ Query Answer ε' β :=
  match r with
  | .done result s => next result s
  | .call query s resume => .call query s fun answer s' => (resume answer s').andThen next

/-- A computation on a part of the state, found by `get` and put back by `set` in the state of the
moment: what the environment does to the rest during a call is kept. -/
def zoom (get : σ → τ) (set : τ → σ → σ) (s : σ) :
    Resumption τ Query Answer ε α → Resumption σ Query Answer ε α
  | .done result t => .done result (set t s)
  | .call query t resume =>
      .call query (set t s) fun answer s' => zoom get set s' (resume answer (get s'))

def Finished : Resumption σ Query Answer ε α → Prop
  | .done _ _ => True
  | .call _ _ _ => False

instance (r : Resumption σ Query Answer ε α) : Decidable r.Finished :=
  match r with
  | .done _ _ => isTrue trivial
  | .call _ _ _ => isFalse id

/-- The result against an environment that answers each call and moves the state. -/
def resolve (environment : Query → σ → Answer × σ) :
    Resumption σ Query Answer ε α → Except ε α × σ
  | .done result s => (result, s)
  | .call query s resume =>
      (resume (environment query s).1 (environment query s).2).resolve environment

/-- From the start or from the last answer, the state moves by `R` to the next call and by `Q` to the
result. Nothing is asked of the environment. -/
def Guarantees (R : σ → σ → Prop) (Q : σ → Except ε α → σ → Prop) :
    Resumption σ Query Answer ε α → σ → Prop
  | .done result s', s => Q s result s'
  | .call _ s' resume, s => R s s' ∧ ∀ answer t, (resume answer t).Guarantees R Q t

theorem finished_iff {r : Resumption σ Query Answer ε α} :
    r.Finished ↔ ∃ result s, r = .done result s := by
  cases r with
  | done result s => simp [Finished]
  | call query s resume => simp [Finished]

theorem resolve_andThen (environment : Query → σ → Answer × σ) (r : Resumption σ Query Answer ε α)
    (next : Except ε α → σ → Resumption σ Query Answer ε' β) :
    (r.andThen next).resolve environment =
      (next (r.resolve environment).1 (r.resolve environment).2).resolve environment := by
  induction r with
  | done result s => rfl
  | call query s resume ih => exact ih _ _

theorem Guarantees.mono {R : σ → σ → Prop} {Q Q' : σ → Except ε α → σ → Prop}
    {r : Resumption σ Query Answer ε α} {s : σ} (h : r.Guarantees R Q s)
    (hQ : ∀ s result s', Q s result s' → Q' s result s') : r.Guarantees R Q' s := by
  induction r generalizing s with
  | done result s' => exact hQ s result s' h
  | call query s' resume ih => exact ⟨h.1, fun answer t => ih answer t (h.2 answer t)⟩

theorem Guarantees.and {R R' : σ → σ → Prop} {Q Q' : σ → Except ε α → σ → Prop}
    {r : Resumption σ Query Answer ε α} {s : σ} (h : r.Guarantees R Q s)
    (h' : r.Guarantees R' Q' s) :
    r.Guarantees (fun s t => R s t ∧ R' s t) (fun s result t => Q s result t ∧ Q' s result t) s := by
  induction r generalizing s with
  | done result s' => exact ⟨h, h'⟩
  | call query s' resume ih =>
      exact ⟨⟨h.1, h'.1⟩, fun answer t => ih answer t (h.2 answer t) (h'.2 answer t)⟩

theorem Guarantees.andThen {R : σ → σ → Prop} {Q : σ → Except ε α → σ → Prop}
    {Q' : σ → Except ε' β → σ → Prop} {r : Resumption σ Query Answer ε α}
    {next : Except ε α → σ → Resumption σ Query Answer ε' β} {s : σ} (h : r.Guarantees R Q s)
    (hnext : ∀ s result s', Q s result s' → (next result s').Guarantees R Q' s) :
    (r.andThen next).Guarantees R Q' s := by
  induction r generalizing s with
  | done result s' => exact hnext s result s' h
  | call query s' resume ih => exact ⟨h.1, fun answer t => ih answer t (h.2 answer t)⟩

theorem Guarantees.after {R : σ → σ → Prop} {Q : σ → Except ε α → σ → Prop}
    {r : Resumption σ Query Answer ε α} {s t : σ} (h : r.Guarantees R Q t)
    (hR : ∀ u, R t u → R s u) (hQ : ∀ result u, Q t result u → Q s result u) :
    r.Guarantees R Q s := by
  cases r with
  | done result u => exact hQ result u h
  | call query u resume => exact ⟨hR u h.1, h.2⟩

theorem Guarantees.zoom {get : σ → τ} {set : τ → σ → σ} {R : τ → τ → Prop} {R' : σ → σ → Prop}
    {Q : τ → Except ε α → τ → Prop} {Q' : σ → Except ε α → σ → Prop}
    (hR : ∀ s t, R (get s) t → R' s (set t s))
    (hQ : ∀ s result t, Q (get s) result t → Q' s result (set t s))
    {r : Resumption τ Query Answer ε α} {s : σ} (h : r.Guarantees R Q (get s)) :
    (zoom get set s r).Guarantees R' Q' s := by
  induction r generalizing s with
  | done result t => exact hQ s result t h
  | call query t resume ih => exact ⟨hR s t h.1, fun answer u => ih answer (get u) (h.2 answer _)⟩

/-- What the computation keeps, and the environment too, is kept to the end. -/
theorem Guarantees.resolve {environment : Query → σ → Answer × σ} {I : σ → Prop}
    {r : Resumption σ Query Answer ε α} {s : σ}
    (h : r.Guarantees (fun s s' => I s → I s') (fun s _ s' => I s → I s') s)
    (henvironment : ∀ query s, I s → I (environment query s).2) (hs : I s) :
    I (r.resolve environment).2 := by
  induction r generalizing s with
  | done result s' => exact h hs
  | call query s' resume ih => exact ih _ _ (h.2 _ _) (henvironment query s' (h.1 hs))

/-- What can only fail does in every environment. -/
theorem Guarantees.resolve_ne_ok {environment : Query → σ → Answer × σ} {R : σ → σ → Prop}
    {r : Resumption σ Query Answer ε α} {s t : σ} {a : α}
    (h : r.Guarantees R (fun s result s' => R s s' ∧ ∀ a, result ≠ .ok a) s) :
    r.resolve environment ≠ (.ok a, t) := by
  induction r generalizing s with
  | done result s' => exact fun hrun => h.2 a (congrArg Prod.fst hrun)
  | call query s' resume ih => exact ih _ _ (h.2 _ _)

/-- Steps that compose and that the environment takes too lead from the start to the end. -/
theorem Guarantees.reached {environment : Query → σ → Answer × σ} {R : σ → σ → Prop}
    {Q : Except ε α → σ → Prop} {r : Resumption σ Query Answer ε α} {s : σ}
    (htrans : ∀ s t u, R s t → R t u → R s u) (henvironment : ∀ query s, R s (environment query s).2)
    (h : r.Guarantees R (fun s result s' => R s s' ∧ Q result s') s) :
    R s (r.resolve environment).2 ∧ Q (r.resolve environment).1 (r.resolve environment).2 := by
  induction r generalizing s with
  | done result s' => exact h
  | call query s' resume ih =>
      obtain ⟨hmove, hresult⟩ := ih _ _ (h.2 (environment query s').1 (environment query s').2)
      have hcall : R s (environment query s').2 := htrans _ _ _ h.1 (henvironment query s')
      exact ⟨htrans _ _ _ hcall hmove, hresult⟩

end Resumption

namespace Process

variable {σ τ Query Answer ε ε' α β : Type}

instance : Monad (Process σ Query Answer ε) where
  pure a := fun s => .done (.ok a) s
  bind p next := fun s => (p s).andThen fun
    | .ok a, s' => next a s'
    | .error e, s' => .done (.error e) s'

instance : MonadExceptOf ε (Process σ Query Answer ε) where
  throw e := fun s => .done (.error e) s
  tryCatch p handler := fun s => (p s).andThen fun
    | .ok a, s' => .done (.ok a) s'
    | .error e, s' => handler e s'

instance : MonadStateOf σ (Process σ Query Answer ε) where
  get := fun s => .done (.ok s) s
  set s := fun _ => .done (.ok ⟨⟩) s
  modifyGet f := fun s => .done (.ok (f s).1) (f s).2

def check (test : σ → Except ε α) : Process σ Query Answer ε α := fun s => .done (test s) s

def handle (p : Process σ Query Answer ε α) (handler : ε → Process σ Query Answer ε' α) :
    Process σ Query Answer ε' α := fun s => (p s).andThen fun
  | .ok a, s' => .done (.ok a) s'
  | .error e, s' => handler e s'

/-- The end of a computation, whichever it is, as a result. -/
def attempt (p : Process σ Query Answer ε α) : Process σ Query Answer ε' (Except ε α) :=
  fun s => (p s).andThen fun result s' => .done (.ok result) s'

def zoom (get : σ → τ) (set : τ → σ → σ) (p : Process τ Query Answer ε α) :
    Process σ Query Answer ε α := fun s => (p (get s)).zoom get set s

@[simp]
theorem pure_apply (a : α) (s : σ) :
    (pure a : Process σ Query Answer ε α) s = .done (.ok a) s := rfl

@[simp]
theorem throw_apply (e : ε) (s : σ) :
    (throw e : Process σ Query Answer ε α) s = .done (.error e) s := rfl

@[simp]
theorem check_apply (test : σ → Except ε α) (s : σ) :
    (check test : Process σ Query Answer ε α) s = .done (test s) s := rfl

theorem bind_apply (p : Process σ Query Answer ε α) (next : α → Process σ Query Answer ε β) (s : σ) :
    (p >>= next) s = (p s).andThen fun
      | .ok a, s' => next a s'
      | .error e, s' => .done (.error e) s' := rfl

theorem bind_of_ok {p : Process σ Query Answer ε α} {next : α → Process σ Query Answer ε β}
    {s s' : σ} {a : α} (h : p s = .done (.ok a) s') : (p >>= next) s = next a s' := by
  rw [bind_apply, h]
  rfl

theorem bind_of_error {p : Process σ Query Answer ε α} {next : α → Process σ Query Answer ε β}
    {s s' : σ} {e : ε} (h : p s = .done (.error e) s') : (p >>= next) s = .done (.error e) s' := by
  rw [bind_apply, h]
  rfl

theorem handle_of_error {p : Process σ Query Answer ε α}
    {handler : ε → Process σ Query Answer ε' α} {s s' : σ} {e : ε}
    (h : p s = .done (.error e) s') : (p.handle handler) s = handler e s' := by
  rw [handle, h]
  rfl

theorem attempt_of_done {p : Process σ Query Answer ε α} {s s' : σ} {result : Except ε α}
    (h : p s = .done result s') :
    (attempt p : Process σ Query Answer ε' (Except ε α)) s = .done (.ok result) s' := by
  rw [attempt, h]
  rfl

section Silent

variable {p : Process σ Query Answer ε α} {s : σ} {ok : α → σ → Prop} {fail : ε → σ → Prop}

/-- No call is made, and the end is as `ok` and `fail` say. -/
def Silent (p : Process σ Query Answer ε α) (s : σ) (ok : α → σ → Prop) (fail : ε → σ → Prop) :
    Prop :=
  match p s with
  | .done (.ok a) s' => ok a s'
  | .done (.error e) s' => fail e s'
  | .call _ _ _ => False

theorem finished_iff_silent :
    (p s).Finished ↔ p.Silent s (fun _ _ => True) fun _ _ => True := by
  unfold Silent
  rcases p s with ⟨e | a, s'⟩ | ⟨query, s', resume⟩ <;> simp [Resumption.Finished]

theorem silent_congr {ok' : α → σ → Prop} {fail' : ε → σ → Prop}
    (hok : ∀ a s', ok a s' ↔ ok' a s') (hfail : ∀ e s', fail e s' ↔ fail' e s') :
    p.Silent s ok fail ↔ p.Silent s ok' fail' := by
  unfold Silent
  rcases p s with ⟨e | a, s'⟩ | ⟨query, s', resume⟩
  · exact hfail e s'
  · exact hok a s'
  · rfl

theorem Silent.mono {ok' : α → σ → Prop} {fail' : ε → σ → Prop} (h : p.Silent s ok fail)
    (hok : ∀ a s', ok a s' → ok' a s') (hfail : ∀ e s', fail e s' → fail' e s') :
    p.Silent s ok' fail' := by
  revert h
  unfold Silent
  rcases p s with ⟨e | a, s'⟩ | ⟨query, s', resume⟩
  · exact hfail e s'
  · exact hok a s'
  · exact id

theorem silent_pure {a : α} :
    (pure a : Process σ Query Answer ε α).Silent s ok fail ↔ ok a s := Iff.rfl

theorem silent_get {ok : σ → σ → Prop} :
    (get : Process σ Query Answer ε σ).Silent s ok fail ↔ ok s s := Iff.rfl

theorem silent_set {t : σ} {ok : PUnit → σ → Prop} :
    (set t : Process σ Query Answer ε PUnit).Silent s ok fail ↔ ok ⟨⟩ t := Iff.rfl

theorem silent_modify {f : σ → σ} {ok : PUnit → σ → Prop} :
    (modify f : Process σ Query Answer ε PUnit).Silent s ok fail ↔ ok ⟨⟩ (f s) := Iff.rfl

theorem silent_bind {next : α → Process σ Query Answer ε β} {ok : β → σ → Prop} :
    (p >>= next).Silent s ok fail ↔ p.Silent s (fun a s' => (next a).Silent s' ok fail) fail := by
  unfold Silent
  rw [bind_apply]
  rcases p s with ⟨e | a, s'⟩ | ⟨query, s', resume⟩ <;> rfl

theorem silent_map {f : α → β} {ok : β → σ → Prop} :
    (f <$> p).Silent s ok fail ↔ p.Silent s (fun a s' => ok (f a) s') fail :=
  silent_bind

theorem silent_handle {handler : ε → Process σ Query Answer ε' α} {fail : ε' → σ → Prop} :
    (p.handle handler).Silent s ok fail ↔
      p.Silent s ok fun e s' => (handler e).Silent s' ok fail := by
  unfold Silent handle
  rcases p s with ⟨e | a, s'⟩ | ⟨query, s', resume⟩ <;> rfl

theorem silent_attempt {ok : Except ε α → σ → Prop} {fail : ε' → σ → Prop} :
    (attempt p).Silent s ok fail ↔
      p.Silent s (fun a => ok (.ok a)) fun e => ok (.error e) := by
  unfold Silent attempt
  rcases p s with ⟨e | a, s'⟩ | ⟨query, s', resume⟩ <;> rfl

theorem silent_zoom {get : σ → τ} {set : τ → σ → σ} {p : Process τ Query Answer ε α} :
    (zoom get set p).Silent s ok fail ↔
      p.Silent (get s) (fun a t => ok a (set t s)) fun e t => fail e (set t s) := by
  unfold Silent zoom
  rcases p (get s) with ⟨e | a, t⟩ | ⟨query, t, resume⟩ <;> rfl

end Silent

section Moves

variable {R : σ → σ → Prop}

/-- From the start and from every answer on the state moves by `R`, to each call and to the end, and
what a success gives is as `Q` says. -/
def Moves (R : σ → σ → Prop) (p : Process σ Query Answer ε α) (Q : α → σ → Prop) : Prop :=
  ∀ s, (p s).Guarantees R (fun s result s' => R s s' ∧ ∀ a, result = .ok a → Q a s') s

theorem Moves.zoom {get : σ → τ} {set : τ → σ → σ} {S : τ → τ → Prop}
    {p : Process τ Query Answer ε α} {Q : α → τ → Prop} {Q' : α → σ → Prop} (h : p.Moves S Q)
    (hR : ∀ s t, S (get s) t → R s (set t s)) (hQ : ∀ a s t, Q a t → Q' a (set t s)) :
    (zoom get set p).Moves R Q' := fun s =>
  (h (get s)).zoom hR fun s _ t hend => ⟨hR s t hend.1, fun a ha => hQ a s t (hend.2 a ha)⟩

variable (hrefl : ∀ s, R s s)

include hrefl

theorem moves_pure {Q : α → σ → Prop} {a : α} (hQ : ∀ s, Q a s) :
    (pure a : Process σ Query Answer ε α).Moves R Q := fun s =>
  ⟨hrefl s, fun b hb => by cases hb; exact hQ s⟩

theorem moves_throw {Q : α → σ → Prop} {e : ε} :
    (throw e : Process σ Query Answer ε α).Moves R Q := fun s => ⟨hrefl s, fun _ hok => nomatch hok⟩

theorem moves_check {Q : α → σ → Prop} {test : σ → Except ε α}
    (hQ : ∀ s a, test s = .ok a → Q a s) : (check test : Process σ Query Answer ε α).Moves R Q :=
  fun s => ⟨hrefl s, fun a ha => hQ s a ha⟩

omit hrefl

theorem Moves.map {p : Process σ Query Answer ε α} {f : α → β} {Q : α → σ → Prop}
    {Q' : β → σ → Prop} (hp : p.Moves R Q) (hQ : ∀ a s, Q a s → Q' (f a) s) :
    (f <$> p).Moves R Q' := by
  intro s
  refine (hp s).andThen ?_
  rintro s (e | a) s' ⟨hmove, hresult⟩
  · exact ⟨hmove, fun _ hok => nomatch hok⟩
  · exact ⟨hmove, fun b hb => by cases hb; exact hQ a s' (hresult a rfl)⟩

variable (htrans : ∀ s t u, R s t → R t u → R s u)

include htrans

theorem Moves.bind {p : Process σ Query Answer ε α} {next : α → Process σ Query Answer ε β}
    {Q : α → σ → Prop} {Q' : β → σ → Prop} (hp : p.Moves R Q) (hnext : ∀ a, (next a).Moves R Q') :
    (p >>= next).Moves R Q' := by
  intro s
  rw [bind_apply]
  refine (hp s).andThen ?_
  rintro s (e | a) s' ⟨hmove, -⟩
  · exact ⟨hmove, fun _ hok => nomatch hok⟩
  · exact (hnext a s').after (fun u hu => htrans s s' u hmove hu)
      fun _ u hend => ⟨htrans s s' u hmove hend.1, hend.2⟩

theorem Moves.handle {p : Process σ Query Answer ε α} {handler : ε → Process σ Query Answer ε' α}
    {Q : α → σ → Prop} (hp : p.Moves R Q) (hhandler : ∀ e, (handler e).Moves R Q) :
    (p.handle handler).Moves R Q := by
  intro s
  refine (hp s).andThen ?_
  rintro s (e | a) s' ⟨hmove, hresult⟩
  · exact (hhandler e s').after (fun u hu => htrans s s' u hmove hu)
      fun _ u hend => ⟨htrans s s' u hmove hend.1, hend.2⟩
  · exact ⟨hmove, fun b hb => hresult b (by cases hb; rfl)⟩

end Moves

section Prompt

variable {R : σ → σ → Prop} {p : Process σ Query Answer ε α} {s : σ} {Q Q' : α → σ → Prop}

/-- The process succeeds at once, as `Q` says, or fails in the end, whatever it is answered. -/
def Prompt (R : σ → σ → Prop) (p : Process σ Query Answer ε α) (s : σ) (Q : α → σ → Prop) : Prop :=
  (∃ a s', p s = .done (.ok a) s' ∧ R s s' ∧ Q a s') ∨
    (p s).Guarantees R (fun s result s' => R s s' ∧ ∀ a, result ≠ .ok a) s

theorem prompt_of_done {result : Except ε α} {s' : σ} (h : p s = .done result s') (hR : R s s')
    (hQ : ∀ a, result = .ok a → Q a s') : p.Prompt R s Q := by
  cases result with
  | ok a => exact Or.inl ⟨a, s', h, hR, hQ a rfl⟩
  | error e =>
      right
      rw [h]
      exact ⟨hR, fun _ => nofun⟩

theorem Prompt.congr {p' : Process σ Query Answer ε α} (h : p'.Prompt R s Q) (heq : p s = p' s) :
    p.Prompt R s Q := by
  rwa [Prompt, heq]

theorem Moves.prompt (h : p.Moves R fun _ _ => False) : p.Prompt R s Q := Or.inr (h s)

theorem Prompt.mono (h : p.Prompt R s Q) (hQ : ∀ a s', R s s' → Q a s' → Q' a s') :
    p.Prompt R s Q' :=
  h.imp_left fun ⟨a, s', hdone, hR, hresult⟩ => ⟨a, s', hdone, hR, hQ a s' hR hresult⟩

theorem Prompt.bind (htrans : ∀ s t u, R s t → R t u → R s u) {next : α → Process σ Query Answer ε β}
    {Q' : β → σ → Prop} (h : p.Prompt R s Q)
    (hnext : ∀ a s', R s s' → Q a s' → (next a).Prompt R s' Q') : (p >>= next).Prompt R s Q' := by
  rcases h with ⟨a, s', hdone, hR, hQ⟩ | hfails
  · rcases hnext a s' hR hQ with ⟨b, t, hdone', hR', hQ'⟩ | hfails
    · exact Or.inl ⟨b, t, (bind_of_ok hdone).trans hdone', htrans s s' t hR hR', hQ'⟩
    · right
      rw [bind_of_ok hdone]
      exact hfails.after (fun t ht => htrans s s' t hR ht) fun _ t ht => ⟨htrans s s' t hR ht.1, ht.2⟩
  · right
    rw [bind_apply]
    refine hfails.andThen ?_
    rintro s (e | a) s' ⟨hR, hfail⟩
    · exact ⟨hR, fun _ => nofun⟩
    · exact absurd rfl (hfail a)

theorem Prompt.map {f : α → β} {Q : β → σ → Prop} (h : p.Prompt R s fun a s' => Q (f a) s') :
    (f <$> p).Prompt R s Q := by
  rcases h with ⟨a, s', hdone, hR, hQ⟩ | hfails
  · exact Or.inl ⟨f a, s', bind_of_ok hdone, hR, hQ⟩
  · refine Or.inr (hfails.andThen ?_)
    rintro s (e | a) s' ⟨hR, hfail⟩
    · exact ⟨hR, fun _ => nofun⟩
    · exact absurd rfl (hfail a)

theorem Prompt.handle (htrans : ∀ s t u, R s t → R t u → R s u)
    {handler : ε → Process σ Query Answer ε' α} (h : p.Prompt R s Q)
    (hhandler : ∀ e, (handler e).Moves R fun _ _ => False) : (p.handle handler).Prompt R s Q := by
  rcases h with ⟨a, s', hdone, hR, hQ⟩ | hfails
  · refine Or.inl ⟨a, s', ?_, hR, hQ⟩
    rw [Process.handle, hdone]
    rfl
  · refine Or.inr (hfails.andThen ?_)
    rintro s (e | a) s' ⟨hR, hfail⟩
    · exact (hhandler e s').after (fun u hu => htrans s s' u hR hu)
        fun _ u hend => ⟨htrans s s' u hR hend.1, hend.2⟩
    · exact absurd rfl (hfail a)

/-- What succeeds in an environment has succeeded at once. -/
theorem Prompt.of_resolve {environment : Query → σ → Answer × σ} (h : p.Prompt R s Q) {a : α} {t : σ}
    (hrun : (p s).resolve environment = (.ok a, t)) : R s t ∧ Q a t := by
  rcases h with ⟨b, s', hdone, hR, hQ⟩ | hfails
  · rw [hdone] at hrun
    obtain ⟨hok, rfl⟩ := Prod.mk.inj hrun
    exact Except.ok.inj hok ▸ ⟨hR, hQ⟩
  · exact absurd hrun hfails.resolve_ne_ok

end Prompt

theorem resolve_bind_ok {environment : Query → σ → Answer × σ} {p : Process σ Query Answer ε α}
    {next : α → Process σ Query Answer ε β} {s t : σ} {b : β} :
    ((p >>= next) s).resolve environment = (.ok b, t) ↔
      ∃ a s', (p s).resolve environment = (.ok a, s') ∧
        (next a s').resolve environment = (.ok b, t) := by
  rw [bind_apply, Resumption.resolve_andThen]
  rcases (p s).resolve environment with ⟨result, s'⟩
  cases result with
  | ok a =>
      constructor
      · exact fun h => ⟨a, s', rfl, h⟩
      · rintro ⟨_, _, heq, h⟩
        cases heq
        exact h
  | error e => simp [Resumption.resolve]

theorem resolve_handle_ok {environment : Query → σ → Answer × σ} {p : Process σ Query Answer ε α}
    {handler : ε → Process σ Query Answer ε' α} {s t : σ} {a : α} :
    ((p.handle handler) s).resolve environment = (.ok a, t) ↔
      (p s).resolve environment = (.ok a, t) ∨
        ∃ e s', (p s).resolve environment = (.error e, s') ∧
          (handler e s').resolve environment = (.ok a, t) := by
  rw [handle, Resumption.resolve_andThen]
  rcases (p s).resolve environment with ⟨result, s'⟩
  cases result with
  | ok a' => simp [Resumption.resolve]
  | error e =>
      constructor
      · exact fun h => Or.inr ⟨e, s', rfl, h⟩
      · rintro (heq | ⟨_, _, heq, h⟩)
        · simp at heq
        · cases heq
          exact h

theorem resolve_bind_of_ok {environment : Query → σ → Answer × σ} {p : Process σ Query Answer ε α}
    {next : α → Process σ Query Answer ε β} {s s' : σ} {a : α}
    (h : (p s).resolve environment = (.ok a, s')) :
    ((p >>= next) s).resolve environment = (next a s').resolve environment := by
  rw [bind_apply, Resumption.resolve_andThen, h]

theorem resolve_bind_of_error {environment : Query → σ → Answer × σ}
    {p : Process σ Query Answer ε α} {next : α → Process σ Query Answer ε β} {s t : σ} {e : ε}
    (h : (p s).resolve environment = (.error e, t)) :
    ((p >>= next) s).resolve environment = (.error e, t) := by
  rw [bind_apply, Resumption.resolve_andThen, h]
  rfl

theorem resolve_map {environment : Query → σ → Answer × σ} {p : Process σ Query Answer ε α}
    {f : α → β} {s t : σ} {result : Except ε α} (h : (p s).resolve environment = (result, t)) :
    ((f <$> p) s).resolve environment = (result.map f, t) := by
  show ((p >>= fun a => pure (f a)) s).resolve environment = _
  cases result with
  | ok a => rw [resolve_bind_of_ok h]; rfl
  | error e => exact resolve_bind_of_error h

section Ends

variable {environment : Query → σ → Answer × σ} {p : Process σ Query Answer ε α} {s : σ}
  {ok ok' : α → σ → Prop} {fail fail' : ε → σ → Prop}

/-- Against the environment the end is as `ok` and `fail` say. -/
def Ends (environment : Query → σ → Answer × σ) (p : Process σ Query Answer ε α) (s : σ)
    (ok : α → σ → Prop) (fail : ε → σ → Prop) : Prop :=
  match (p s).resolve environment with
  | (.ok a, s') => ok a s'
  | (.error e, s') => fail e s'

theorem Ends.mono (h : p.Ends environment s ok fail) (hok : ∀ a s', ok a s' → ok' a s')
    (hfail : ∀ e s', fail e s' → fail' e s') : p.Ends environment s ok' fail' := by
  revert h
  unfold Ends
  rcases (p s).resolve environment with ⟨e | a, s'⟩
  · exact hfail e s'
  · exact hok a s'

theorem Ends.of_ok {a : α} (h : p.Ends environment s ok fail)
    (hrun : (p s).resolve environment = (.ok a, s')) : ok a s' := by
  unfold Ends at h
  rwa [hrun] at h

theorem Ends.of_error {e : ε} (h : p.Ends environment s ok fail)
    (hrun : (p s).resolve environment = (.error e, s')) : fail e s' := by
  unfold Ends at h
  rwa [hrun] at h

theorem Ends.and (h : p.Ends environment s ok fail) (h' : p.Ends environment s ok' fail') :
    p.Ends environment s (fun a s' => ok a s' ∧ ok' a s') fun e s' => fail e s' ∧ fail' e s' := by
  revert h h'
  unfold Ends
  rcases (p s).resolve environment with ⟨e | a, s'⟩
  · exact And.intro
  · exact And.intro

theorem ends_of_forall (hok : ∀ a s', ok a s') (hfail : ∀ e s', fail e s') :
    p.Ends environment s ok fail := by
  unfold Ends
  rcases (p s).resolve environment with ⟨e | a, s'⟩
  · exact hfail e s'
  · exact hok a s'

theorem ends_of_done {result : Except ε α} {s' : σ} (h : p s = .done result s')
    (hok : ∀ a, result = .ok a → ok a s') (hfail : ∀ e, result = .error e → fail e s') :
    p.Ends environment s ok fail := by
  unfold Ends
  rw [h]
  cases result with
  | ok a => exact hok a rfl
  | error e => exact hfail e rfl

theorem ends_bind {next : α → Process σ Query Answer ε β} {ok : β → σ → Prop} :
    (p >>= next).Ends environment s ok fail ↔
      p.Ends environment s (fun a s' => (next a).Ends environment s' ok fail) fail := by
  unfold Ends
  rw [bind_apply, Resumption.resolve_andThen]
  rcases (p s).resolve environment with ⟨e | a, s'⟩ <;> rfl

theorem ends_handle {handler : ε → Process σ Query Answer ε' α} {fail : ε' → σ → Prop} :
    (p.handle handler).Ends environment s ok fail ↔
      p.Ends environment s ok fun e s' => (handler e).Ends environment s' ok fail := by
  unfold Ends handle
  rw [Resumption.resolve_andThen]
  rcases (p s).resolve environment with ⟨e | a, s'⟩ <;> rfl

theorem Silent.ends (h : p.Silent s ok fail) : p.Ends environment s ok fail := by
  revert h
  unfold Silent Ends
  rcases p s with ⟨e | a, s'⟩ | ⟨query, s', resume⟩
  · exact id
  · exact id
  · exact False.elim

/-- What moves by steps that the environment takes too is moved by them in the end. -/
theorem Moves.ends {R : σ → σ → Prop} {Q : α → σ → Prop} (h : p.Moves R Q)
    (htrans : ∀ s t u, R s t → R t u → R s u) (henvironment : ∀ query s, R s (environment query s).2)
    (s : σ) : p.Ends environment s (fun a s' => R s s' ∧ Q a s') fun _ s' => R s s' := by
  have hend := Resumption.Guarantees.reached htrans henvironment (h s)
  revert hend
  unfold Ends
  rcases (p s).resolve environment with ⟨e | a, s'⟩
  · exact fun hend => hend.1
  · exact fun hend => ⟨hend.1, hend.2 a rfl⟩

end Ends

end Process
