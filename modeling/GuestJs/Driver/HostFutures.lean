import GuestJs.Activity

/-!
# Host futures

A host function that returns a future hands the guest a promise. The future is polled by the event
loop, and what it comes to waits until it can be published through one of the promise's resolving
functions.
-/

namespace GuestJs.Driver

abbrev GuestId := Nat

abbrev FutureId := Nat

structure PromiseId where
  guest : GuestId
  index : Nat
  deriving DecidableEq

/-- The functions `new_promise` returns next to the promise they settle. -/
inductive Resolver where
  | resolve (promise : PromiseId)
  | reject (promise : PromiseId)
  deriving DecidableEq

structure Outcome where
  future : FutureId
  result : Except Error Unit

structure InFlight where
  resolve : Resolver
  reject : Resolver
  future : FutureId
  deriving DecidableEq

structure Settled where
  resolve : Resolver
  reject : Resolver
  outcome : Outcome

def InFlight.settle (entry : InFlight) (result : Except Error Unit) : Settled where
  resolve := entry.resolve
  reject := entry.reject
  outcome := ⟨entry.future, result⟩

namespace Settled

def entry (settled : Settled) : InFlight where
  resolve := settled.resolve
  reject := settled.reject
  future := settled.outcome.future

/-- The resolver an outcome is handed to, once the conversion of its result has returned. -/
def resolver (settled : Settled) (converted : Except Error Unit) : Resolver :=
  match settled.outcome.result.bind fun _ => converted with
  | .ok _ => settled.resolve
  | .error _ => settled.reject

theorem resolver_eq_or (settled : Settled) (converted : Except Error Unit) :
    settled.resolver converted = settled.resolve ∨
      settled.resolver converted = settled.reject := by
  unfold resolver
  cases settled.outcome.result.bind fun _ => converted with
  | ok _ => exact Or.inl rfl
  | error _ => exact Or.inr rfl

end Settled

structure PendingHostFutures where
  inFlight : List InFlight
  settled : List Settled

namespace PendingHostFutures

def new : PendingHostFutures := ⟨[], []⟩

def isEmpty (futures : PendingHostFutures) : Bool :=
  futures.inFlight.isEmpty && futures.settled.isEmpty

def hasSettled (futures : PendingHostFutures) : Bool := !futures.settled.isEmpty

def push (futures : PendingHostFutures) (entry : InFlight) : PendingHostFutures :=
  { futures with inFlight := futures.inFlight ++ [entry] }

def polled (futures : PendingHostFutures) (entry : InFlight) :
    Option (Except Error Unit) → PendingHostFutures
  | none => futures.push entry
  | some result => { futures with settled := futures.settled ++ [entry.settle result] }

end PendingHostFutures

/-- A call of a resolver that was attempted with the outcome of a future. -/
structure Handed where
  entry : InFlight
  resolver : Resolver

/-- A guest, with the host futures that were ever registered on it and the outcomes that were ever
handed over. -/
structure Guest where
  closed : Bool
  activity : GuestActivity
  hostFutures : PendingHostFutures
  registered : List InFlight
  handed : List Handed

def Guest.new (policy : ExecutionPolicy) : Guest where
  closed := false
  activity := .new policy
  hostFutures := .new
  registered := []
  handed := []

end GuestJs.Driver
