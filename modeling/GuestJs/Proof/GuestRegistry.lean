import GuestJs.Guest.Lifetime
import Mathlib.Data.List.Basic
import Mathlib.Data.List.Nodup

/-!
# The registry is exact

A guest stays on the registry until its last reference is dropped, and leaves it before its context
is freed. So the address under which it is registered is its own for as long as the entry exists, and
an address that is used again has no entry of the guest that had it before.
-/

namespace GuestJs.Lifetime

open Driver (GuestId)

namespace Runtime

/-- The entries of the registry are the guests that are referred to, each under the address of the
context it holds. -/
structure Linked (runtime : Runtime) : Prop where
  entries : ∀ contextId id, runtime.registry[contextId]? = some id ↔ runtime.Owns id contextId
  held : ∀ id state, runtime.states id = some state →
    runtime.contexts state.contextId = some (.guest id)
  fresh : ∀ id, runtime.nextId ≤ id → runtime.states id = none

/-- What the registry answers is what is alive. -/
structure Exact (runtime : Runtime) : Prop where
  find : ∀ contextId id, runtime.find contextId = some id ↔ runtime.Owns id contextId
  guests : ∀ id, id ∈ runtime.guests ↔ runtime.Live id
  once : runtime.guests.Nodup

/-- Dropping a guest leaves the entries of the others. -/
def DropsOwn (runtime : Runtime) (event : Event) : Prop :=
  ∀ (id : GuestId) (runtime' : Runtime), event = .drop id → runtime.step event = some runtime' →
    ∀ contextId : ContextId, runtime.registry[contextId]? ≠ some id →
      runtime'.registry[contextId]? = runtime.registry[contextId]?

variable {runtime runtime' : Runtime} {id other : GuestId} {contextId : ContextId}

theorem owns_setState_self {state : Option GuestState} :
    (runtime.setState id state).Owns id contextId ↔ ∃ count, state = some ⟨contextId, count + 1⟩ := by
  simp [Owns, setState]

theorem owns_setState_of_ne {state : Option GuestState} (hne : other ≠ id) :
    (runtime.setState id state).Owns other contextId ↔ runtime.Owns other contextId := by
  simp [Owns, setState, Function.update_of_ne hne]

theorem owns_setCount {count count' : Nat}
    (hstate : runtime.states id = some ⟨contextId, count + 1⟩) {address : ContextId} :
    (runtime.setState id (some ⟨contextId, count' + 1⟩)).Owns other address ↔
      runtime.Owns other address := by
  by_cases hother : other = id
  · rw [hother, owns_setState_self]
    simp [Owns, hstate]
  · rw [owns_setState_of_ne hother]

theorem owns_retain : (runtime.retain id).Owns other contextId ↔ runtime.Owns other contextId := by
  unfold retain
  split
  next address count hstate => exact owns_setCount hstate
  next => exact Iff.rfl

namespace Linked

theorem owner_unique (h : runtime.Linked) (hid : runtime.Owns id contextId)
    (hother : runtime.Owns other contextId) : other = id := by
  have hentry := (h.entries contextId id).mpr hid
  have hentry' := (h.entries contextId other).mpr hother
  exact Option.some.inj (hentry'.symm.trans hentry)

theorem setContext (h : runtime.Linked) (hfree : ∀ id, runtime.contexts contextId ≠ some (.guest id))
    (holder : Option Holder) : (runtime.setContext contextId holder).Linked := by
  refine ⟨h.entries, ?_, h.fresh⟩
  intro id state hstate
  have hheld := h.held id state hstate
  have hne : state.contextId ≠ contextId := by
    rintro rfl
    exact hfree id hheld
  show Function.update runtime.contexts contextId holder state.contextId = _
  rw [Function.update_of_ne hne]
  exact hheld

theorem held_setState (h : runtime.Linked) {state state' : GuestState}
    (hstate : runtime.states id = some state) (hsame : state'.contextId = state.contextId) :
    ∀ other found, (runtime.setState id (some state')).states other = some found →
      runtime.contexts found.contextId = some (.guest other) := by
  intro other found hfound
  by_cases heq : other = id
  · subst heq
    have hheld := h.held other state hstate
    obtain rfl : state' = found := by simpa [setState] using hfound
    rwa [hsame]
  · have hkept : runtime.states other = some found := by
      simpa [setState, Function.update_of_ne heq] using hfound
    exact h.held other found hkept

theorem fresh_setState (h : runtime.Linked) {state : GuestState}
    (hstate : runtime.states id = some state) (state' : Option GuestState) :
    ∀ other, runtime.nextId ≤ other → (runtime.setState id state').states other = none := by
  intro other hnext
  have hnone := h.fresh other hnext
  have hne : other ≠ id := by
    rintro rfl
    rw [hnone] at hstate
    exact nomatch hstate
  show Function.update runtime.states id state' other = none
  rw [Function.update_of_ne hne, hnone]

theorem setCount (h : runtime.Linked) {count count' : Nat}
    (hstate : runtime.states id = some ⟨contextId, count + 1⟩) :
    (runtime.setState id (some ⟨contextId, count' + 1⟩)).Linked := by
  refine ⟨?_, h.held_setState hstate rfl, h.fresh_setState hstate _⟩
  intro address other
  rw [owns_setCount hstate]
  exact h.entries address other

theorem retain (h : runtime.Linked) (id : GuestId) : (runtime.retain id).Linked := by
  unfold Runtime.retain
  split
  next contextId count hstate => exact h.setCount hstate
  next => exact h

theorem retainAll (h : runtime.Linked) (ids : List GuestId) :
    (ids.foldl Runtime.retain runtime).Linked := by
  induction ids generalizing runtime with
  | nil => exact h
  | cons id ids ih => exact ih (h.retain id)

/-- The last reference: the state has no entry from here on, and still holds its context. -/
theorem unregister (h : runtime.Linked) (hstate : runtime.states id = some ⟨contextId, 1⟩) :
    ((runtime.setState id (some ⟨contextId, 0⟩)).unregister contextId).Linked := by
  have howns : runtime.Owns id contextId := ⟨0, hstate⟩
  refine ⟨?_, h.held_setState hstate rfl, h.fresh_setState hstate _⟩
  intro address other
  show (runtime.registry.erase contextId)[address]? = some other ↔
    (runtime.setState id (some ⟨contextId, 0⟩)).Owns other address
  rw [Tables.getElem?_erase]
  by_cases hother : other = id
  · subst hother
    rw [owns_setState_self]
    refine iff_of_false ?_ (by simp)
    split
    next => simp
    next hne =>
      intro hentry
      obtain ⟨count, haddress⟩ := (h.entries address other).mp hentry
      rw [hstate] at haddress
      exact hne (congrArg GuestState.contextId (Option.some.inj haddress)).symm
  · rw [owns_setState_of_ne hother]
    split
    next heq =>
      subst heq
      exact iff_of_false (by simp) fun hother' => hother (h.owner_unique howns hother')
    next => exact h.entries address other

/-- The end of a state: it is unregistered by now, and no other state holds its context. -/
theorem free (h : runtime.Linked) (hstate : runtime.states id = some ⟨contextId, 0⟩) :
    ((runtime.setState id none).setContext contextId (some .released)).Linked := by
  have hheld := h.held id _ hstate
  refine ⟨?_, ?_, h.fresh_setState hstate none⟩
  · intro address other
    show runtime.registry[address]? = some other ↔ (runtime.setState id none).Owns other address
    rw [h.entries]
    by_cases hother : other = id
    · rw [hother, owns_setState_self]
      simp [Owns, hstate]
    · rw [owns_setState_of_ne hother]
  · intro other state hother
    have hne : other ≠ id := by
      rintro rfl
      simp [setState, Runtime.setContext] at hother
    have hkept : runtime.states other = some state := by
      simpa [setState, Runtime.setContext, Function.update_of_ne hne] using hother
    have hheld' := h.held other state hkept
    have hcontext : state.contextId ≠ contextId := by
      rintro rfl
      rw [hheld] at hheld'
      exact hne (Holder.guest.inj (Option.some.inj hheld')).symm
    show Function.update runtime.contexts contextId (some .released) state.contextId = _
    rw [Function.update_of_ne hcontext, hheld']

theorem construct (h : runtime.Linked)
    (hcontext : runtime.contexts contextId = some .construction) :
    { (runtime.setContext contextId (some (.guest runtime.nextId))).setState runtime.nextId
        (some ⟨contextId, 1⟩) with
      nextId := runtime.nextId + 1
      registry := runtime.registry.insert contextId runtime.nextId }.Linked := by
  have hnew : runtime.states runtime.nextId = none := h.fresh _ (Nat.le_refl _)
  have hunused : ∀ other, ¬ runtime.Owns other contextId := by
    rintro other ⟨count, hstate⟩
    have hheld := h.held other _ hstate
    rw [hcontext] at hheld
    exact nomatch hheld
  refine ⟨?_, ?_, ?_⟩
  · intro address other
    show (runtime.registry.insert contextId runtime.nextId)[address]? = some other ↔
      (runtime.setState runtime.nextId (some ⟨contextId, 1⟩)).Owns other address
    rw [Tables.getElem?_insert]
    by_cases hother : other = runtime.nextId
    · subst hother
      rw [owns_setState_self]
      split
      next heq => simp [heq]
      next hne =>
        refine iff_of_false ?_ (by simpa using Ne.symm hne)
        intro hentry
        obtain ⟨count, hstate⟩ := (h.entries address _).mp hentry
        rw [hnew] at hstate
        exact nomatch hstate
    · rw [owns_setState_of_ne hother]
      split
      next heq =>
        subst heq
        exact iff_of_false (by simpa using Ne.symm hother) (hunused other)
      next => exact h.entries address other
  · intro other state hother
    by_cases heq : other = runtime.nextId
    · subst heq
      obtain rfl : ⟨contextId, 1⟩ = state := by simpa [setState] using hother
      simp [setState, Runtime.setContext]
    · have hkept : runtime.states other = some state := by
        simpa [setState, Runtime.setContext, Function.update_of_ne heq] using hother
      have hheld := h.held other state hkept
      have hne : state.contextId ≠ contextId := by
        rintro rfl
        rw [hcontext] at hheld
        exact nomatch hheld
      show Function.update runtime.contexts contextId _ state.contextId = _
      rw [Function.update_of_ne hne, hheld]
  · intro other hnext
    have hlt : runtime.nextId + 1 ≤ other := hnext
    have hne : other ≠ runtime.nextId := by omega
    show Function.update runtime.states runtime.nextId _ other = none
    rw [Function.update_of_ne hne, h.fresh other (by omega)]

theorem exact (h : runtime.Linked) : runtime.Exact := by
  have hupgrade : ∀ (contextId : ContextId) (id : GuestId), runtime.registry[contextId]? = some id →
      runtime.upgrade id = some id := by
    intro contextId id hentry
    exact upgrade_eq_some_iff.mpr ⟨rfl, contextId, (h.entries contextId id).mp hentry⟩
  have hguests : runtime.guests = runtime.registry.toList.map Prod.snd := by
    unfold Runtime.guests
    rw [← List.filterMap_eq_map]
    refine List.filterMap_congr fun entry hentry => ?_
    exact hupgrade entry.1 entry.2 (Std.ExtTreeMap.mem_toList_iff_getElem?_eq_some.mp hentry)
  refine ⟨?_, ?_, ?_⟩
  · intro contextId id
    rw [← h.entries]
    unfold Runtime.find
    cases hentry : runtime.registry[contextId]? with
    | none => simp
    | some found => rw [Option.bind_some, hupgrade contextId found hentry]
  · intro id
    rw [hguests, List.mem_map]
    constructor
    · rintro ⟨⟨contextId, found⟩, hmem, rfl⟩
      have hentry := Std.ExtTreeMap.mem_toList_iff_getElem?_eq_some.mp hmem
      exact ⟨contextId, (h.entries contextId found).mp hentry⟩
    · rintro ⟨contextId, howns⟩
      have hentry := (h.entries contextId id).mpr howns
      exact ⟨(contextId, id), Std.ExtTreeMap.mem_toList_iff_getElem?_eq_some.mpr hentry, rfl⟩
  · rw [hguests]
    refine List.Nodup.map_on ?_ (List.Nodup.of_map Prod.fst ?_)
    · rintro ⟨first, id⟩ hfirst ⟨second, other⟩ hsecond heq
      obtain rfl : id = other := heq
      have hfirst := Std.ExtTreeMap.mem_toList_iff_getElem?_eq_some.mp hfirst
      have hsecond := Std.ExtTreeMap.mem_toList_iff_getElem?_eq_some.mp hsecond
      obtain ⟨count, hstate⟩ := (h.entries first id).mp hfirst
      obtain ⟨count', hstate'⟩ := (h.entries second id).mp hsecond
      have hsame := Option.some.inj (hstate.symm.trans hstate')
      exact Prod.ext (congrArg GuestState.contextId hsame) rfl
    · rw [Std.ExtTreeMap.map_fst_toList_eq_keys]
      exact Std.ExtTreeMap.nodup_keys

end Linked

theorem linked_step {event : Event} (h : runtime.Linked) (hstep : runtime.step event = some runtime') :
    runtime'.Linked := by
  cases happens hstep with
  | newContext hcontext =>
      refine h.setContext (fun id heq => ?_) _
      rw [hcontext] at heq
      exact nomatch heq
  | construct hcontext => exact h.construct hcontext
  | abandon hcontext =>
      refine h.setContext (fun id heq => ?_) _
      rw [hcontext] at heq
      exact nomatch heq
  | @clone id | @found _ id => exact h.retain id
  | missed => exact h
  | guests => exact h.retainAll runtime.guests
  | drop hstate => exact h.setCount hstate
  | last hstate => exact h.unregister hstate
  | free hstate => exact h.free hstate
  | freeContext hcontext =>
      refine h.setContext (fun id heq => ?_) _
      rw [hcontext] at heq
      exact nomatch heq

theorem linked_new : new.Linked where
  entries := by simp [new, Owns]
  held := by simp [new]
  fresh := by simp [new]

theorem Linked.dropsOwn (h : runtime.Linked) (event : Event) : runtime.DropsOwn event := by
  rintro id runtime' rfl hstep contextId hother
  cases happens hstep with
  | drop => rfl
  | @last _ address hstate =>
      show (runtime.registry.erase address)[contextId]? = _
      rw [Tables.getElem?_erase, if_neg]
      rintro rfl
      exact hother ((h.entries contextId id).mpr ⟨0, hstate⟩)

/-- **The registry is exact.** In every run of creations, clones and drops, interleaved in any way and
with any reuse of addresses, the registry finds exactly the live guest a context belongs to, lists
the live guests once each, and loses with a guest that is dropped no entry of another. -/
theorem throughout_exact (events : List Event) :
    machine.Throughout Exact new events ∧ machine.Along DropsOwn new events := by
  have hkept : ∀ runtime event runtime', Linked runtime → machine.step runtime event = some runtime' →
      Linked runtime' := fun _ _ _ h hstep => linked_step h hstep
  constructor
  · exact (Transition.Machine.throughout_of_invariant hkept linked_new events).mono
      fun _ h => h.exact
  · exact Transition.Machine.along_of_invariant hkept (fun _ event _ h _ => h.dropsOwn event)
      linked_new events

end Runtime

end GuestJs.Lifetime
