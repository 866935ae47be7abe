import GuestJs.Driver.HostFutures
import GuestJs.Library.Tables
import GuestJs.Library.Transition
import Mathlib.Algebra.Group.Nat.Defs
import Mathlib.Logic.Function.Basic

/-!
# The guests of a runtime

A guest is a counted reference to its state, which refers to the guest's context. The registry of the
runtime finds a guest by the address of its context, through a reference that does not count. The
engine counts the references to a context and frees it with the last one; the address of a context
that has been freed can be that of the next one.
-/

namespace GuestJs.Lifetime

open Driver (GuestId)

/-- The state of a guest and the count of its references: at zero it is being dropped. -/
structure GuestState where
  contextId : ContextId
  strong : Nat
  deriving DecidableEq

/-- What a context that has not been freed belongs to. The last is one whose guest, or whose
construction, is gone. -/
inductive Holder where
  | construction
  | guest (id : GuestId)
  | released
  deriving DecidableEq

structure Runtime where
  nextId : Nat
  contexts : ContextId → Option Holder
  states : GuestId → Option GuestState
  registry : Std.ExtTreeMap ContextId GuestId

inductive Event where
  /-- A new context, at an address that no context has. -/
  | newContext (contextId : ContextId)
  | construct (contextId : ContextId)
  /-- The construction of a guest ends without one, and with it its reference to the context. -/
  | abandon (contextId : ContextId)
  | clone (id : GuestId)
  | find (contextId : ContextId)
  | guests
  | drop (id : GuestId)
  /-- The fields of a state that is being dropped are gone, its reference to the context with them. -/
  | free (id : GuestId)
  /-- The engine frees a context that has no references any more. -/
  | freeContext (contextId : ContextId)

namespace Runtime

def new : Runtime := ⟨1, fun _ => none, fun _ => none, ∅⟩

def setState (runtime : Runtime) (id : GuestId) (state : Option GuestState) : Runtime :=
  { runtime with states := Function.update runtime.states id state }

def setContext (runtime : Runtime) (contextId : ContextId) (holder : Option Holder) : Runtime :=
  { runtime with contexts := Function.update runtime.contexts contextId holder }

/-- `Rc::strong_count`. -/
def strong (runtime : Runtime) (id : GuestId) : Nat :=
  (runtime.states id).elim 0 GuestState.strong

/-- `WeakGuest::upgrade`, on the guest a weak reference is to. -/
def upgrade (runtime : Runtime) (id : GuestId) : Option GuestId :=
  match runtime.states id with
  | some ⟨_, _ + 1⟩ => some id
  | _ => none

def find (runtime : Runtime) (contextId : ContextId) : Option GuestId :=
  runtime.registry[contextId]?.bind runtime.upgrade

def guests (runtime : Runtime) : List GuestId :=
  runtime.registry.toList.filterMap fun entry => runtime.upgrade entry.2

def register (runtime : Runtime) (id : GuestId) (contextId : ContextId) : Runtime :=
  { runtime with registry := runtime.registry.insert contextId id }

def unregister (runtime : Runtime) (contextId : ContextId) : Runtime :=
  { runtime with registry := runtime.registry.erase contextId }

def retain (runtime : Runtime) (id : GuestId) : Runtime :=
  match runtime.states id with
  | some ⟨contextId, count + 1⟩ => runtime.setState id (some ⟨contextId, count + 2⟩)
  | _ => runtime

/-- The last reference runs the destructor of the state: it unregisters the guest before any field of
the state, its context included, is dropped. -/
def release (runtime : Runtime) (id : GuestId) : Option Runtime :=
  match runtime.states id with
  | some ⟨contextId, count + 2⟩ => some (runtime.setState id (some ⟨contextId, count + 1⟩))
  | some ⟨contextId, 1⟩ =>
      some ((runtime.setState id (some ⟨contextId, 0⟩)).unregister contextId)
  | _ => none

/-- The rest of `Guest::from_policy`, once the guest has a context. Running out of ids panics. -/
def construct (runtime : Runtime) (contextId : ContextId) : Option Runtime :=
  let id := runtime.nextId
  match runtime.contexts contextId with
  | some .construction =>
      if id + 1 < 2 ^ 64 then
        let built := (runtime.setContext contextId (some (.guest id))).setState id
          (some ⟨contextId, 1⟩)
        some ({ built with nextId := id + 1 }.register id contextId)
      else none
  | _ => none

def step (runtime : Runtime) : Event → Option Runtime
  | .newContext contextId =>
      match runtime.contexts contextId with
      | none => some (runtime.setContext contextId (some .construction))
      | some _ => none
  | .construct contextId => runtime.construct contextId
  | .abandon contextId =>
      match runtime.contexts contextId with
      | some .construction => some (runtime.setContext contextId (some .released))
      | _ => none
  | .clone id => (runtime.upgrade id).map runtime.retain
  | .find contextId => some ((runtime.find contextId).elim runtime runtime.retain)
  | .guests => some (runtime.guests.foldl retain runtime)
  | .drop id => runtime.release id
  | .free id =>
      match runtime.states id with
      | some ⟨contextId, 0⟩ =>
          some ((runtime.setState id none).setContext contextId (some .released))
      | _ => none
  | .freeContext contextId =>
      match runtime.contexts contextId with
      | some .released => some (runtime.setContext contextId none)
      | _ => none

def machine : Transition.Machine Runtime Event := ⟨step⟩

/-- The guest is referred to, and the context at the address is its own. -/
def Owns (runtime : Runtime) (id : GuestId) (contextId : ContextId) : Prop :=
  ∃ count, runtime.states id = some ⟨contextId, count + 1⟩

def Live (runtime : Runtime) (id : GuestId) : Prop := ∃ contextId, runtime.Owns id contextId

variable {runtime runtime' : Runtime} {id : GuestId} {contextId : ContextId}

theorem upgrade_eq_some_iff {other : GuestId} :
    runtime.upgrade id = some other ↔ id = other ∧ runtime.Live id := by
  unfold upgrade Live Owns
  split
  next contextId count hstate =>
    rw [Option.some.injEq]
    exact (and_iff_left ⟨contextId, count, hstate⟩).symm
  next hnone =>
    refine iff_of_false (fun h => nomatch h) ?_
    rintro ⟨-, contextId, count, hstate⟩
    exact hnone contextId count hstate

/-- All that an event can lead to. -/
inductive Happens (runtime : Runtime) : Event → Runtime → Prop where
  | newContext {contextId : ContextId} (hcontext : runtime.contexts contextId = none) :
      Happens runtime (.newContext contextId) (runtime.setContext contextId (some .construction))
  | construct {contextId : ContextId} (hcontext : runtime.contexts contextId = some .construction)
      (hroom : runtime.nextId + 1 < 2 ^ 64) :
      Happens runtime (.construct contextId)
        { (runtime.setContext contextId (some (.guest runtime.nextId))).setState runtime.nextId
            (some ⟨contextId, 1⟩) with
          nextId := runtime.nextId + 1
          registry := runtime.registry.insert contextId runtime.nextId }
  | abandon {contextId : ContextId} (hcontext : runtime.contexts contextId = some .construction) :
      Happens runtime (.abandon contextId) (runtime.setContext contextId (some .released))
  | clone {id : GuestId} (hlive : runtime.Live id) : Happens runtime (.clone id) (runtime.retain id)
  | found {contextId : ContextId} {id : GuestId} (hfind : runtime.find contextId = some id) :
      Happens runtime (.find contextId) (runtime.retain id)
  | missed {contextId : ContextId} (hfind : runtime.find contextId = none) :
      Happens runtime (.find contextId) runtime
  | guests : Happens runtime .guests (runtime.guests.foldl retain runtime)
  | drop {id : GuestId} {contextId : ContextId} {count : Nat}
      (hstate : runtime.states id = some ⟨contextId, count + 2⟩) :
      Happens runtime (.drop id) (runtime.setState id (some ⟨contextId, count + 1⟩))
  | last {id : GuestId} {contextId : ContextId} (hstate : runtime.states id = some ⟨contextId, 1⟩) :
      Happens runtime (.drop id)
        ((runtime.setState id (some ⟨contextId, 0⟩)).unregister contextId)
  | free {id : GuestId} {contextId : ContextId} (hstate : runtime.states id = some ⟨contextId, 0⟩) :
      Happens runtime (.free id)
        ((runtime.setState id none).setContext contextId (some .released))
  | freeContext {contextId : ContextId} (hcontext : runtime.contexts contextId = some .released) :
      Happens runtime (.freeContext contextId) (runtime.setContext contextId none)

/-- **What a step does.** -/
theorem happens {event : Event} (h : runtime.step event = some runtime') :
    runtime.Happens event runtime' := by
  cases event with
  | newContext contextId =>
      simp only [step] at h
      split at h
      next hcontext =>
        obtain rfl := Option.some.inj h
        exact .newContext hcontext
      next => exact nomatch h
  | construct contextId =>
      simp only [step, construct] at h
      split at h
      next hcontext =>
        obtain ⟨hroom, heq⟩ := Option.ite_none_right_eq_some.mp h
        obtain rfl := Option.some.inj heq
        exact .construct hcontext hroom
      next => exact nomatch h
  | abandon contextId =>
      simp only [step] at h
      split at h
      next hcontext =>
        obtain rfl := Option.some.inj h
        exact .abandon hcontext
      next => exact nomatch h
  | clone id =>
      obtain ⟨found, hfound, rfl⟩ := Option.map_eq_some_iff.mp h
      obtain ⟨rfl, hlive⟩ := upgrade_eq_some_iff.mp hfound
      exact .clone hlive
  | find contextId =>
      obtain rfl := Option.some.inj h
      cases hfind : runtime.find contextId with
      | none => exact .missed hfind
      | some id => exact .found hfind
  | guests =>
      obtain rfl := Option.some.inj h
      exact .guests
  | drop id =>
      simp only [step, release] at h
      split at h
      next contextId count hstate =>
        obtain rfl := Option.some.inj h
        exact .drop hstate
      next contextId hstate =>
        obtain rfl := Option.some.inj h
        exact .last hstate
      next => exact nomatch h
  | free id =>
      simp only [step] at h
      split at h
      next contextId hstate =>
        obtain rfl := Option.some.inj h
        exact .free hstate
      next => exact nomatch h
  | freeContext contextId =>
      simp only [step] at h
      split at h
      next hcontext =>
        obtain rfl := Option.some.inj h
        exact .freeContext hcontext
      next => exact nomatch h

end Runtime

end GuestJs.Lifetime
