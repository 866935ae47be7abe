import GuestJs.Guest.Lifetime
import GuestJs.QuickJs.Exceptions

/-!
# What the host keeps of a guest

A value is detached in an entry of a guest and attached in another. Every value that is kept counts as
a reference to its context, which the values of the engine's bindings carry. A handle keeps the guest
it is of besides; an exception, and the value an awaited promise gives, know no more of it than the
address of its context.
-/

namespace GuestJs.Lifetime

open Driver (GuestId)

inductive Kept where
  | handle (owned : Owned)
  | value (owned : Owned)
  | exception (thrown : GuestException)
  deriving DecidableEq

namespace Kept

def owned : Kept → Owned
  | .handle owned | .value owned => owned
  | .exception thrown => thrown.value

def isHandle : Kept → Bool
  | .handle _ => true
  | .value _ | .exception _ => false

def isClone : Kept → Bool
  | .handle _ | .value _ => true
  | .exception _ => false

end Kept

/-- A kept value, with the guest it was detached in. -/
structure Detached where
  kept : Kept
  origin : GuestId
  deriving DecidableEq

structure Host where
  runtime : Runtime
  detached : List Detached

inductive HostEvent where
  | guest (event : Event)
  /-- A value of the guest is detached, in an entry. -/
  | detach (id : GuestId) (kept : Kept)
  | clone (detached : Detached)
  | forget (detached : Detached)

namespace Host

def new : Host := ⟨.new, []⟩

def holdsHandle (id : GuestId) (detached : Detached) : Bool :=
  detached.kept.isHandle && detached.origin == id

/-- The references to a guest that its handles are. -/
def handles (host : Host) (id : GuestId) : Nat := host.detached.countP (holdsHandle id)

/-- The references to a context that the kept values are. -/
def references (host : Host) (contextId : ContextId) : Nat :=
  host.detached.countP fun detached => detached.kept.owned.context == contextId

def keep (host : Host) (detached : Detached) : Host where
  runtime :=
    match detached.kept.isHandle with
    | true => host.runtime.retain detached.origin
    | false => host.runtime
  detached := detached :: host.detached

def forget (host : Host) (detached : Detached) : Option Host :=
  let rest := host.detached.erase detached
  match detached.kept.isHandle with
  | true => (host.runtime.release detached.origin).map fun runtime => ⟨runtime, rest⟩
  | false => some { host with detached := rest }

/-- Who drops a reference has it: those of the handles go with the handles. And a context that values
refer to has references. -/
def permits (host : Host) : Event → Bool
  | .drop id => decide (host.handles id < host.runtime.strong id)
  | .freeContext contextId => host.references contextId == 0
  | _ => true

def step (host : Host) : HostEvent → Option Host
  | .guest event =>
      if host.permits event then
        (host.runtime.step event).map fun runtime => { host with runtime }
      else none
  | .detach id kept =>
      match host.runtime.states id with
      | some ⟨contextId, _ + 1⟩ =>
          if kept.owned.context = contextId then some (host.keep ⟨kept, id⟩) else none
      | _ => none
  | .clone detached =>
      if detached ∈ host.detached ∧ detached.kept.isClone = true then some (host.keep detached)
      else none
  | .forget detached => if detached ∈ host.detached then host.forget detached else none

def machine : Transition.Machine Host HostEvent := ⟨step⟩

end Host

end GuestJs.Lifetime
