import GuestJs.Errors
import GuestJs.Library.Transition

/-!
# Iterables

The iterator a guest gets for an iterator of the host. `next` and `return` share the cell of the inner
iterator, which stays borrowed while the code of the inner iterator runs. What a call gives is
converted when the cell is free again, and the conversion can call both.
-/

namespace GuestJs

open Transition

inductive IteratorMethod where
  | next
  | «return»
  deriving DecidableEq

/-- Where a call is. While it is `asking` or `dropping`, the code of the inner iterator or its
destructor runs inside it. -/
inductive IteratorStage (T : Type) where
  | refused
  | asking
  | dropping
  | converting (item : Option T)
  | finished (item : Option T) (failure : Option Error)

structure IteratorCall (T : Type) where
  method : IteratorMethod
  stage : IteratorStage T

/-- The cell with the calls made so far. `answers` is what the inner iterator has answered, and
`drops` how often it was dropped. -/
structure Iterable (T : Type) where
  typeName : String
  iterator : Bool
  borrowed : Bool
  calls : List (IteratorCall T)
  answers : List (Option T)
  drops : Nat

namespace Iterable

variable {T : Type}

def new (typeName : String) : Iterable T := ⟨typeName, true, false, [], [], 0⟩

/-- What the guest gets from a call that is over: an item, the end or an error. -/
def result (s : Iterable T) : IteratorStage T → Option (Except Error (Option T))
  | .refused => some (.error (.borrow .exclusive s.typeName))
  | .finished item none => some (.ok item)
  | .finished _ (some failure) => some (.error failure)
  | _ => none

def push (s : Iterable T) (method : IteratorMethod) (stage : IteratorStage T) : Iterable T :=
  { s with calls := s.calls ++ [⟨method, stage⟩] }

def setCall (s : Iterable T) (call : Nat) (method : IteratorMethod) (stage : IteratorStage T) :
    Iterable T :=
  { s with calls := s.calls.set call ⟨method, stage⟩ }

/-- The inner iterator is dropped while the cell is borrowed. -/
def drop (s : Iterable T) : Iterable T :=
  { s with iterator := false, borrowed := true, drops := s.drops + 1 }

/-- A call takes the cell, unless another one has it. Where the iterator is gone, the call gives the
end. -/
def enter (s : Iterable T) (method : IteratorMethod) : Iterable T :=
  if s.borrowed then s.push method .refused
  else if s.iterator then
    match method with
    | .next => { s.push .next .asking with borrowed := true }
    | .return => (s.push .return .dropping).drop
  else s.push method (.converting none)

/-- The inner iterator answers. After the last item it is dropped in the same call. -/
def receive (s : Iterable T) (call : Nat) (method : IteratorMethod) (answer : Option T) :
    Iterable T :=
  let s := { s with answers := s.answers ++ [answer] }
  match answer with
  | some item => { s.setCall call method (.converting (some item)) with borrowed := false }
  | none => (s.setCall call method .dropping).drop

/-- `answer` is the return from the inner iterator and `released` that from its destructor. In both,
and in a conversion, other calls may be made and end. -/
inductive Event (T : Type) where
  | call (method : IteratorMethod)
  | answer (call : Nat) (answer : Option T)
  | released (call : Nat)
  | converted (call : Nat) (failure : Option Error)

def step (s : Iterable T) : Event T → Option (Iterable T)
  | .call method => some (s.enter method)
  | .answer call answer =>
      match s.calls[call]? with
      | some ⟨method, .asking⟩ => some (s.receive call method answer)
      | _ => none
  | .released call =>
      match s.calls[call]? with
      | some ⟨method, .dropping⟩ =>
          some { s.setCall call method (.converting none) with borrowed := false }
      | _ => none
  | .converted call failure =>
      match s.calls[call]? with
      | some ⟨method, .converting item⟩ => some (s.setCall call method (.finished item failure))
      | _ => none

def machine (T : Type) : Machine (Iterable T) (Event T) := ⟨step⟩

end Iterable

end GuestJs
