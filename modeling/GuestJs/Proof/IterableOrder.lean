import GuestJs.Host.Iterable
import GuestJs.Library.Positions

/-!
# The order of an iterator's calls

The calls of an iterator nest, in the code of the inner iterator and in the conversions of its items.
A call that finds the cell taken is refused. The others take effect when they are made: they give what
an iterator gives that is called by one caller after the other.
-/

namespace GuestJs

open Transition

variable {T : Type}

/-- Where a call that is not refused is with the cell. -/
inductive IteratorEffect (T : Type) where
  | asking (method : IteratorMethod)
  | dropping (method : IteratorMethod)
  | gave (method : IteratorMethod) (item : Option T)

namespace IteratorEffect

def method : IteratorEffect T → IteratorMethod
  | asking method | dropping method | gave method _ => method

def given : IteratorEffect T → Option (Option T)
  | asking _ => none
  | dropping _ => some none
  | gave _ item => some item

def isInside : IteratorEffect T → Bool
  | gave _ _ => false
  | _ => true

/-- One call of `next` for each item. -/
def taken (items : List T) : List (IteratorEffect T) := items.map fun item => gave .next (some item)

def ended (methods : List IteratorMethod) : List (IteratorEffect T) := methods.map fun m => gave m none

end IteratorEffect

def IteratorCall.effect : IteratorCall T → Option (IteratorEffect T)
  | ⟨_, .refused⟩ => none
  | ⟨method, .asking⟩ => some (.asking method)
  | ⟨method, .dropping⟩ => some (.dropping method)
  | ⟨method, .converting item⟩ | ⟨method, .finished item _⟩ => some (.gave method item)

/-- The code of the inner iterator runs in the call. -/
def IteratorCall.isInside (made : IteratorCall T) : Bool :=
  (made.effect.map IteratorEffect.isInside).getD false

namespace Iterable

open IteratorEffect

/-- What the calls of `methods` give, one after the other, where the inner iterator answers as listed. -/
def serve : List (Option T) → List IteratorMethod → List (Option T)
  | some item :: answers, .next :: methods => some item :: serve answers methods
  | [], .next :: _ => []
  | none :: _, .next :: methods => List.replicate (methods.length + 1) none
  | _, .return :: methods => List.replicate (methods.length + 1) none
  | _, [] => []

variable {s t : Iterable T} {items : List T} {method : IteratorMethod}

/-- The calls that are not refused, in the order in which they were made. -/
def effects (calls : List (IteratorCall T)) : List (IteratorEffect T) :=
  calls.filterMap IteratorCall.effect

def admitted (s : Iterable T) : List IteratorMethod := (effects s.calls).map IteratorEffect.method

/-- What these calls were given by the cell: items and ends. -/
def given (s : Iterable T) : List (Option T) := (effects s.calls).filterMap IteratorEffect.given

/-- The calls of an iterator as those of one caller: the inner iterator is never in two calls at
once, the calls give what they give one after the other, and refused are those made inside. -/
structure Orderly (s : Iterable T) : Prop where
  alone : s.calls.countP IteratorCall.isInside = s.borrowed.toNat
  served : s.given = serve s.answers s.admitted
  refuses : ∀ method, (s.enter method).calls = s.calls ++ [⟨method, .refused⟩] ↔
    ∃ made ∈ s.calls, made.isInside = true
  last : ∀ before after, s.answers = before ++ none :: after → after = []
  gone : s.iterator = false → ∀ made ∈ s.calls, made.stage ≠ .asking
  dropped : s.drops = (!s.iterator).toNat

/-- The answer that ends the inner iterator. A `return` ends it without one. -/
def lastAnswer : IteratorMethod → List (Option T)
  | .next => [none]
  | .return => []

/-- How an iterator stands: its cell, what it has answered, and the calls it was asked in. -/
inductive Standing : Bool → Bool → Nat → List (Option T) → List (IteratorEffect T) → Prop where
  | live (items : List T) : Standing true false 0 (items.map some) (taken items)
  | asking (items : List T) :
      Standing true true 0 (items.map some) (taken items ++ [.asking .next])
  | dropping (items : List T) (method : IteratorMethod) :
      Standing false true 1 (items.map some ++ lastAnswer method) (taken items ++ [.dropping method])
  | past (items : List T) (method : IteratorMethod) (methods : List IteratorMethod) :
      Standing false false 1 (items.map some ++ lastAnswer method)
        (taken items ++ ended (method :: methods))

def Sound (s : Iterable T) : Prop :=
  Standing s.iterator s.borrowed s.drops s.answers (effects s.calls)

theorem sound_new (typeName : String) : (new typeName : Iterable T).Sound := .live []

theorem effects_concat (calls : List (IteratorCall T)) (made : IteratorCall T) :
    effects (calls ++ [made]) = effects calls ++ made.effect.toList := by
  rw [effects, List.filterMap_append, effects]
  cases h : made.effect <;> simp [h]

/-- A call that goes on changes its own effect. -/
theorem effects_set {calls : List (IteratorCall T)} {call : Nat} {made : IteratorCall T}
    (h : calls[call]? = some made) : ∃ before after,
      effects calls = before ++ (made.effect.toList ++ after) ∧
        ∀ made', effects (calls.set call made') = before ++ (made'.effect.toList ++ after) := by
  obtain ⟨before, after, hcalls, hset⟩ := Positions.exists_split h
  have hsplit : ∀ made' : IteratorCall T, effects (before ++ made' :: after) =
      effects before ++ (made'.effect.toList ++ effects after) := by
    intro made'
    rw [effects, List.filterMap_append, List.filterMap_cons]
    cases made'.effect <;> rfl
  refine ⟨effects before, effects after, hcalls ▸ hsplit made, fun made' => ?_⟩
  rw [hset, hsplit]

theorem not_mem_taken {effect : IteratorEffect T} (h : effect.isInside = true) :
    effect ∉ taken items := by
  intro hmem
  obtain ⟨item, -, rfl⟩ := List.mem_map.mp hmem
  cases h

theorem not_mem_ended {methods : List IteratorMethod} {effect : IteratorEffect T}
    (h : effect.isInside = true) : effect ∉ ended methods := by
  intro hmem
  obtain ⟨method, -, rfl⟩ := List.mem_map.mp hmem
  cases h

/-- The call that is inside is the last that is not refused. -/
theorem eq_of_inside {effect effect' : IteratorEffect T} {before after : List (IteratorEffect T)}
    (hinside : effect'.isInside = true)
    (h : taken items ++ [effect] = before ++ effect' :: after) :
    before = taken items ∧ effect' = effect ∧ after = [] := by
  obtain ⟨rfl, heffect, hafter⟩ | ⟨rest, -, hbefore⟩ := Positions.cases_of_concat_eq h
  · exact ⟨rfl, heffect.symm, hafter⟩
  · have hmem : effect' ∈ taken items := hbefore ▸ List.mem_append_right _ List.mem_cons_self
    exact absurd hmem (not_mem_taken hinside)

/-- **Entering.** A call is refused, asks, drops the iterator, or gives the end. -/
theorem Sound.enter (h : s.Sound) (method : IteratorMethod) : (s.enter method).Sound := by
  obtain ⟨typeName, iterator, borrowed, calls, answers, drops⟩ := s
  dsimp only [Sound] at h
  generalize heffects : effects calls = found at h
  cases h with
  | live items =>
      cases method with
      | next =>
          show Standing true true 0 (items.map some) (effects (calls ++ [⟨.next, .asking⟩]))
          rw [effects_concat, heffects]
          exact .asking items
      | «return» =>
          show Standing false true 1 (items.map some) (effects (calls ++ [⟨.return, .dropping⟩]))
          rw [effects_concat, heffects, ← List.append_nil (items.map some)]
          exact .dropping items .return
  | asking items =>
      show Standing true true 0 (items.map some) (effects (calls ++ [⟨method, .refused⟩]))
      rw [effects_concat, heffects]
      exact (List.append_nil _).symm ▸ .asking items
  | dropping items last =>
      show Standing false true 1 _ (effects (calls ++ [⟨method, .refused⟩]))
      rw [effects_concat, heffects]
      exact (List.append_nil _).symm ▸ .dropping items last
  | past items last methods =>
      show Standing false false 1 _ (effects (calls ++ [⟨method, .converting none⟩]))
      have hstands := Standing.past items last (methods ++ [method])
      rw [← List.cons_append, ended, List.map_append, ← List.append_assoc] at hstands
      rw [effects_concat, heffects]
      exact hstands

/-- **Answering.** Only the call that is inside is answered: it has its item, or drops the iterator. -/
theorem Sound.receive (h : s.Sound) {call : Nat}
    (hcall : s.calls[call]? = some ⟨method, .asking⟩) (answer : Option T) :
    (s.receive call method answer).Sound := by
  obtain ⟨typeName, iterator, borrowed, calls, answers, drops⟩ := s
  obtain ⟨before, after, heffects, hset⟩ := effects_set hcall
  dsimp only [Sound] at h
  rw [heffects] at h
  generalize hfound : before ++ _ = found at h
  have hmem : .asking method ∈ found := hfound ▸ List.mem_append_right _ List.mem_cons_self
  cases h with
  | live items => exact absurd hmem (not_mem_taken rfl)
  | asking items =>
      obtain ⟨rfl, hmethod, rfl⟩ := eq_of_inside rfl hfound.symm
      obtain rfl := IteratorEffect.asking.inj hmethod
      cases answer with
      | some item =>
          show Standing true false 0 (items.map some ++ [some item])
            (effects (calls.set call ⟨.next, .converting (some item)⟩))
          have hstands := Standing.live (items ++ [item])
          rw [taken, List.map_append, List.map_append] at hstands
          rw [hset]
          exact hstands
      | none =>
          show Standing false true 1 (items.map some ++ [none])
            (effects (calls.set call ⟨.next, .dropping⟩))
          rw [hset]
          exact .dropping items .next
  | dropping items last =>
      obtain ⟨-, heffect, -⟩ := eq_of_inside rfl hfound.symm
      cases heffect
  | past items last methods =>
      obtain hmem | hmem := List.mem_append.mp hmem
      · exact absurd hmem (not_mem_taken rfl)
      · exact absurd hmem (not_mem_ended rfl)

/-- **Releasing.** The call that is inside gives the end. -/
theorem Sound.release (h : s.Sound) {call : Nat}
    (hcall : s.calls[call]? = some ⟨method, .dropping⟩) :
    Sound { s.setCall call method (.converting none) with borrowed := false } := by
  obtain ⟨typeName, iterator, borrowed, calls, answers, drops⟩ := s
  obtain ⟨before, after, heffects, hset⟩ := effects_set hcall
  dsimp only [Sound] at h
  rw [heffects] at h
  generalize hfound : before ++ _ = found at h
  have hmem : .dropping method ∈ found := hfound ▸ List.mem_append_right _ List.mem_cons_self
  cases h with
  | live items => exact absurd hmem (not_mem_taken rfl)
  | asking items =>
      obtain ⟨-, heffect, -⟩ := eq_of_inside rfl hfound.symm
      cases heffect
  | dropping items last =>
      obtain ⟨rfl, hmethod, rfl⟩ := eq_of_inside rfl hfound.symm
      obtain rfl := IteratorEffect.dropping.inj hmethod
      show Standing false false 1 (items.map some ++ lastAnswer method)
        (effects (calls.set call ⟨method, .converting none⟩))
      rw [hset]
      exact .past items method []
  | past items last methods =>
      obtain hmem | hmem := List.mem_append.mp hmem
      · exact absurd hmem (not_mem_taken rfl)
      · exact absurd hmem (not_mem_ended rfl)

/-- **Converting.** The cell has no part in it. -/
theorem Sound.convert (h : s.Sound) {call : Nat} {item : Option T}
    (hcall : s.calls[call]? = some ⟨method, .converting item⟩) (failure : Option Error) :
    (s.setCall call method (.finished item failure)).Sound := by
  obtain ⟨before, after, heffects, hset⟩ := effects_set hcall
  have hsame : effects (s.calls.set call ⟨method, .finished item failure⟩) = effects s.calls := by
    rw [hset, heffects]
    rfl
  unfold Sound at h ⊢
  rw [← hsame] at h
  exact h

theorem Sound.step (h : s.Sound) {e : Event T} (hstep : s.step e = some t) : t.Sound := by
  cases e with
  | call method =>
      obtain rfl := Option.some.inj hstep
      exact h.enter method
  | answer call answer =>
      simp only [Iterable.step] at hstep
      split at hstep
      next method hcall =>
        obtain rfl := Option.some.inj hstep
        exact h.receive hcall answer
      next => cases hstep
  | released call =>
      simp only [Iterable.step] at hstep
      split at hstep
      next method hcall =>
        obtain rfl := Option.some.inj hstep
        exact h.release hcall
      next => cases hstep
  | converted call failure =>
      simp only [Iterable.step] at hstep
      split at hstep
      next method item hcall =>
        obtain rfl := Option.some.inj hstep
        exact h.convert hcall failure
      next => cases hstep

theorem throughout_sound (typeName : String) (events : List (Event T)) :
    (machine T).Throughout Sound (new typeName) events :=
  Machine.throughout_of_invariant (fun _ _ _ h hstep => h.step hstep) (sound_new typeName) events

/-- Items that have been answered have been taken. -/
theorem serve_items (items : List T) (answers : List (Option T)) (methods : List IteratorMethod) :
    serve (items.map some ++ answers) (List.replicate items.length .next ++ methods) =
      items.map some ++ serve answers methods := by
  induction items with
  | nil => rfl
  | cons item items ih =>
      rw [List.length_cons, List.replicate_succ]
      exact congrArg (some item :: ·) ih

theorem map_method_taken (items : List T) :
    (taken items).map IteratorEffect.method = List.replicate items.length .next := by
  rw [taken, List.map_map, List.eq_replicate_iff]
  refine ⟨List.length_map _, fun method hmem => ?_⟩
  obtain ⟨item, -, rfl⟩ := List.mem_map.mp hmem
  rfl

theorem filterMap_given_taken (items : List T) :
    (taken items).filterMap IteratorEffect.given = items.map some := by
  rw [taken, List.filterMap_map]
  exact congrFun (List.filterMap_eq_map (f := some)) items

theorem filterMap_given_ended (methods : List IteratorMethod) :
    (ended methods).filterMap (IteratorEffect.given (T := T)) =
      List.replicate methods.length none := by
  rw [ended, List.filterMap_map]
  induction methods with
  | nil => rfl
  | cons method methods ih =>
      rw [List.length_cons, List.replicate_succ, ← ih]
      rfl

theorem map_method_ended (methods : List IteratorMethod) :
    (ended methods).map (IteratorEffect.method (T := T)) = methods := by
  rw [ended, List.map_map]
  exact List.map_id methods

theorem serve_end (method : IteratorMethod) (methods : List IteratorMethod) :
    serve (T := T) (lastAnswer method) (method :: methods) =
      List.replicate (methods.length + 1) none := by
  cases method <;> rfl

theorem countP_inside (calls : List (IteratorCall T)) :
    calls.countP IteratorCall.isInside = (effects calls).countP IteratorEffect.isInside := by
  rw [effects, List.countP_filterMap]
  rfl

theorem countP_taken (items : List T) : (taken items).countP IteratorEffect.isInside = 0 :=
  List.countP_eq_zero.mpr fun _ hmem hinside => not_mem_taken hinside hmem

theorem countP_ended (methods : List IteratorMethod) :
    (ended methods : List (IteratorEffect T)).countP IteratorEffect.isInside = 0 :=
  List.countP_eq_zero.mpr fun _ hmem hinside => not_mem_ended hinside hmem

/-- The end is the last answer. -/
theorem eq_nil_of_last (method : IteratorMethod) {before after : List (Option T)}
    (h : items.map some ++ lastAnswer method = before ++ none :: after) : after = [] := by
  have hitems : ∀ rest : List (Option T), items.map some ≠ before ++ none :: rest := by
    intro rest heq
    have hmem : none ∈ items.map some := heq ▸ List.mem_append_right _ List.mem_cons_self
    obtain ⟨item, -, hitem⟩ := List.mem_map.mp hmem
    cases hitem
  cases method with
  | next =>
      obtain ⟨-, -, hafter⟩ | ⟨rest, -, heq⟩ := Positions.cases_of_concat_eq h
      · exact hafter
      · exact absurd heq (hitems rest)
  | «return» => exact absurd ((List.append_nil _).symm.trans h) (hitems after)

namespace Standing

variable {iterator borrowed : Bool} {drops : Nat} {answers : List (Option T)}
  {found : List (IteratorEffect T)}

theorem served (h : Standing iterator borrowed drops answers found) :
    found.filterMap IteratorEffect.given = serve answers (found.map IteratorEffect.method) := by
  cases h with
  | live items =>
      have hserve := serve_items items [] []
      rw [List.append_nil, List.append_nil] at hserve
      rw [filterMap_given_taken, map_method_taken, hserve]
      exact (List.append_nil _).symm
  | asking items =>
      have hserve := serve_items items [] [.next]
      rw [List.append_nil] at hserve
      rw [List.filterMap_append, List.map_append, filterMap_given_taken, map_method_taken]
      exact hserve.symm
  | dropping items method =>
      rw [List.filterMap_append, List.map_append, filterMap_given_taken, map_method_taken]
      exact ((serve_items items _ [method]).trans (congrArg _ (serve_end method []))).symm
  | past items method methods =>
      rw [List.filterMap_append, List.map_append, filterMap_given_taken, map_method_taken,
        filterMap_given_ended, map_method_ended, serve_items, serve_end]
      rfl

theorem alone (h : Standing iterator borrowed drops answers found) :
    found.countP IteratorEffect.isInside = borrowed.toNat := by
  cases h with
  | live items => exact countP_taken items
  | asking items | dropping items method =>
      rw [List.countP_append, countP_taken]
      rfl
  | past items method methods =>
      rw [List.countP_append, countP_taken, countP_ended]
      rfl

theorem last (h : Standing iterator borrowed drops answers found) {before after : List (Option T)}
    (hanswers : answers = before ++ none :: after) : after = [] := by
  cases h with
  | live items | asking items =>
      rw [← List.append_nil (items.map some)] at hanswers
      exact eq_nil_of_last .return hanswers
  | dropping items method | past items method methods => exact eq_nil_of_last method hanswers

theorem gone (h : Standing false borrowed drops answers found) : .asking method ∉ found := by
  intro hmem
  cases h with
  | dropping items last =>
      obtain hmem | hmem := List.mem_append.mp hmem
      · exact not_mem_taken rfl hmem
      · cases List.mem_singleton.mp hmem
  | past items last methods =>
      obtain hmem | hmem := List.mem_append.mp hmem
      · exact not_mem_taken rfl hmem
      · exact not_mem_ended rfl hmem

theorem dropped (h : Standing iterator borrowed drops answers found) :
    drops = (!iterator).toNat := by
  cases h <;> rfl

end Standing

theorem enter_refused_iff (method : IteratorMethod) :
    (s.enter method).calls = s.calls ++ [⟨method, .refused⟩] ↔ s.borrowed = true := by
  unfold Iterable.enter
  by_cases hborrowed : s.borrowed = true
  · rw [if_pos hborrowed]
    exact iff_of_true rfl hborrowed
  · rw [if_neg hborrowed]
    refine iff_of_false (fun heq => ?_) hborrowed
    split at heq
    · cases method
      all_goals
        have hlast := List.append_cancel_left heq
        cases hlast
    · have hlast := List.append_cancel_left heq
      cases hlast

theorem Sound.alone (h : s.Sound) : s.calls.countP IteratorCall.isInside = s.borrowed.toNat :=
  (countP_inside s.calls).trans (Standing.alone h)

theorem Sound.orderly (h : s.Sound) : s.Orderly where
  alone := h.alone
  served := Standing.served h
  refuses := by
    intro method
    rw [enter_refused_iff, ← List.countP_pos_iff, h.alone]
    cases s.borrowed <;> decide
  last := fun before after => Standing.last h
  gone := by
    rintro hgone ⟨method, stage⟩ hmade hstage
    obtain rfl : stage = .asking := hstage
    unfold Sound at h
    rw [hgone] at h
    exact h.gone (List.mem_filterMap.mpr ⟨_, hmade, rfl⟩)
  dropped := Standing.dropped h

/-- A caller makes a call when the calls before it are over. -/
def OneByOne (s : Iterable T) : Event T → Prop
  | .call _ => ∀ made ∈ s.calls, (s.result made.stage).isSome = true
  | _ => True

def NoneRefused (s : Iterable T) : Prop := ∀ made ∈ s.calls, made.stage ≠ .refused

theorem NoneRefused.set (h : s.NoneRefused) {call : Nat} (stage : IteratorStage T)
    (hstage : stage ≠ .refused) (hcalls : t.calls = s.calls.set call ⟨method, stage⟩) :
    t.NoneRefused := by
  intro made hmade
  rw [hcalls] at hmade
  obtain hmade | rfl := List.mem_or_eq_of_mem_set hmade
  · exact h made hmade
  · exact hstage

/-- A call that is over is not inside. -/
theorem not_inside_of_result {made : IteratorCall T} (h : (s.result made.stage).isSome = true) :
    ¬made.isInside = true := by
  obtain ⟨method, stage⟩ := made
  cases stage with
  | asking | dropping => cases h
  | refused | converting | finished => exact nofun

theorem NoneRefused.enter (h : s.NoneRefused) (hsound : s.Sound) (method : IteratorMethod)
    (hover : s.OneByOne (.call method)) : (s.enter method).NoneRefused := by
  have hfree : s.borrowed = false := by
    have hnone : s.calls.countP IteratorCall.isInside = 0 :=
      List.countP_eq_zero.mpr fun made hmade => not_inside_of_result (hover made hmade)
    rw [hsound.alone] at hnone
    exact Bool.toNat_eq_zero.mp hnone
  have hpush : ∀ (method : IteratorMethod) (stage : IteratorStage T), stage ≠ .refused →
      ∀ made ∈ (s.push method stage).calls, made.stage ≠ .refused := by
    intro method stage hstage made hmade
    obtain hmade | hmade := List.mem_append.mp hmade
    · exact h made hmade
    · rw [List.mem_singleton.mp hmade]
      exact hstage
  unfold Iterable.enter
  rw [hfree, if_neg Bool.false_ne_true]
  split
  · cases method with
    | next => exact hpush .next .asking nofun
    | «return» => exact hpush .return .dropping nofun
  · exact hpush method (.converting none) nofun

theorem NoneRefused.step (h : s.NoneRefused) (hsound : s.Sound) {e : Event T}
    (hover : s.OneByOne e) (hstep : s.step e = some t) : t.NoneRefused := by
  cases e with
  | call method =>
      obtain rfl := Option.some.inj hstep
      exact h.enter hsound method hover
  | answer call answer =>
      simp only [Iterable.step] at hstep
      split at hstep
      next =>
        obtain rfl := Option.some.inj hstep
        cases answer with
        | some item => exact h.set (.converting (some item)) nofun rfl
        | none => exact h.set .dropping nofun rfl
      next => cases hstep
  | released call =>
      simp only [Iterable.step] at hstep
      split at hstep
      next =>
        obtain rfl := Option.some.inj hstep
        exact h.set (.converting none) nofun rfl
      next => cases hstep
  | converted call failure =>
      simp only [Iterable.step] at hstep
      split at hstep
      next method item hcall =>
        obtain rfl := Option.some.inj hstep
        exact h.set (.finished item failure) nofun rfl
      next => cases hstep

theorem NoneRefused.admitted (h : s.NoneRefused) :
    s.admitted = s.calls.map IteratorCall.method := by
  have hall : ∀ calls : List (IteratorCall T), (∀ made ∈ calls, made.stage ≠ .refused) →
      (effects calls).map IteratorEffect.method = calls.map IteratorCall.method := by
    intro calls hcalls
    induction calls with
    | nil => rfl
    | cons made calls ih =>
        have hrest := ih fun later hlater => hcalls later (List.mem_cons_of_mem _ hlater)
        obtain ⟨method, stage⟩ := made
        cases stage with
        | refused => exact absurd rfl (hcalls _ List.mem_cons_self)
        | asking | dropping | converting | finished => exact congrArg (method :: ·) hrest
  exact hall s.calls h

/-- **The calls of an iterator take effect one after the other**, however they nest. Where they are
made one after the other, none is refused, and each is given the next item or the end. -/
theorem calls_serve_in_order (typeName : String) (events : List (Event T)) :
    (machine T).Throughout Orderly (new typeName) events ∧
      ((machine T).Along OneByOne (new typeName) events →
        (machine T).Throughout (fun s => s.NoneRefused ∧
          s.given = serve s.answers (s.calls.map IteratorCall.method)) (new typeName) events) := by
  refine ⟨(throughout_sound typeName events).mono fun s h => h.orderly, fun hcaller => ?_⟩
  have hboth := Machine.throughout_of_along (M := machine T) (I := fun s => s.Sound ∧ s.NoneRefused)
    (fun s e t h hover hstep => ⟨h.1.step hstep, h.2.step h.1 hover hstep⟩)
    ⟨sound_new typeName, nofun⟩ hcaller
  exact hboth.mono fun s h => ⟨h.2, h.2.admitted ▸ h.1.orderly.served⟩

/-- A loop over an iterator of one item, whose conversion fails. -/
def loop : List (Event Nat) :=
  [.call .next, .answer 0 (some 7), .converted 0 (some .closed), .call .return, .released 1,
    .converted 1 none]

theorem calls_serve_in_order_loop :
    (machine Nat).Throughout (fun s => s.NoneRefused ∧
      s.given = serve s.answers (s.calls.map IteratorCall.method)) (new "Range") loop := by
  refine (calls_serve_in_order "Range" loop).2 ?_
  refine .cons rfl (fun _ h => by cases h) <| .cons rfl trivial <| .cons rfl trivial <|
    .cons rfl (fun made hmade => ?_) <| .cons rfl trivial <| .cons rfl trivial trivial
  obtain rfl := List.mem_singleton.mp hmade
  rfl

/-- A call that is made while the inner iterator is asked is refused, and one that is made while an
item is converted takes the item after it. -/
def nested : List (Event Nat) :=
  [.call .next, .call .next, .answer 0 (some 7), .call .next, .answer 2 (some 8), .converted 2 none,
    .converted 0 none]

example : ((machine Nat).run (new "Range") nested).map (fun s => (s.admitted, s.given)) =
    some ([.next, .next], [some 7, some 8]) := by decide

end Iterable

end GuestJs
