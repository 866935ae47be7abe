import GuestJs.Host.SharedStream

/-!
# Async iterables

The iterator a guest gets for a stream of the host. Its `next` takes a turn at the shared stream, and
the engine polls the future of each call until the promise of the call settles; its `return` closes
the stream when it is called.
-/

namespace GuestJs

open Transition

/-- The shared stream of an iterator, and for each call of `return` the number of calls of `next`
made before it. -/
structure AsyncIterable (T : Type) where
  shared : SharedStream T
  returns : List Nat

namespace AsyncIterable

variable {T : Type}

def new : AsyncIterable T := ⟨.new, []⟩

/-- What the promise of a call of `next` settles with: an item, the end or an error. -/
def settlement : StreamStep T → Except Error (Option T)
  | some (.ok item) => .ok (some item)
  | some (.error error) => .error error
  | none => .ok none

inductive Event (T : Type) where
  | next
  | poll (call : Nat)
  | answer (call : Nat) (ready : Option (StreamStep T))
  | release (call : Nat)
  | «return»

def onShared (iterable : AsyncIterable T) (e : SharedStream.Event T) : Option (AsyncIterable T) :=
  (iterable.shared.step e).map fun shared => { iterable with shared }

def step (iterable : AsyncIterable T) : Event T → Option (AsyncIterable T)
  | .next => iterable.onShared .next
  | .poll call => iterable.onShared (.poll call)
  | .answer call ready => iterable.onShared (.answer call ready)
  | .release call => iterable.onShared (.release call)
  | .return =>
      ({ iterable with returns := iterable.returns ++ [iterable.shared.calls.length] }).onShared
        .close

def machine (T : Type) : Machine (AsyncIterable T) (Event T) := ⟨step⟩

end AsyncIterable

end GuestJs
