import GuestJs.Errors
import Mathlib.Algebra.Group.Nat.Defs
import Mathlib.Data.Option.Basic

/-!
# Execution policies

A policy bounds how long code may run and names a signal that stops it. It is armed at the moment
something begins: from then on it is due once its deadline has passed or its signal answers that it
is cancelled.
-/

namespace GuestJs

/-- Nanoseconds of the monotonic clock. -/
abbrev Instant := Nat

abbrev Duration := Nat

abbrev CancelSignal := Nat

/-- The last instant the platform can represent. -/
def Instant.last : Instant := 2 ^ 63 * 10 ^ 9 - 1

def Instant.checkedAdd (instant : Instant) (duration : Duration) : Option Instant :=
  if instant + duration ≤ Instant.last then some (instant + duration) else none

/-- What a policy looks at: the time, and what each signal answers now. -/
structure Clock where
  now : Instant
  cancelled : CancelSignal → Bool

structure ExecutionPolicy where
  timeout : Option Duration
  cancellation : Option CancelSignal

structure ArmedPolicy where
  deadline : Option Instant
  cancellation : Option CancelSignal

namespace ArmedPolicy

def new (clock : Clock) (timeout : Option Duration) (cancellation : Option CancelSignal) :
    ArmedPolicy where
  deadline := timeout.bind (Instant.checkedAdd clock.now)
  cancellation

def isExpired (armed : ArmedPolicy) (clock : Clock) : Bool :=
  armed.deadline.any fun deadline => deadline ≤ clock.now

def isCancelled (armed : ArmedPolicy) (clock : Clock) : Bool :=
  armed.cancellation.any clock.cancelled

def dueError (armed : ArmedPolicy) (clock : Clock) : Option Error :=
  match armed.isExpired clock, armed.isCancelled clock with
  | true, _ => some .timeout
  | false, true => some .cancelled
  | false, false => none

def isDue (armed : ArmedPolicy) (clock : Clock) : Bool :=
  armed.isExpired clock || armed.isCancelled clock

theorem dueError_isSome (armed : ArmedPolicy) (clock : Clock) :
    (armed.dueError clock).isSome = armed.isDue clock := by
  unfold dueError isDue
  cases armed.isExpired clock <;> cases armed.isCancelled clock <;> rfl

theorem eq_of_dueError_eq_some {armed : ArmedPolicy} {clock : Clock} {error : Error}
    (h : armed.dueError clock = some error) : error = .timeout ∨ error = .cancelled := by
  unfold dueError at h
  cases hexpired : armed.isExpired clock with
  | true =>
      simp only [hexpired, Option.some.injEq] at h
      exact Or.inl h.symm
  | false =>
      cases hcancelled : armed.isCancelled clock with
      | true =>
          simp only [hexpired, hcancelled, Option.some.injEq] at h
          exact Or.inr h.symm
      | false => simp [hexpired, hcancelled] at h

end ArmedPolicy

namespace ExecutionPolicy

def new : ExecutionPolicy := ⟨none, none⟩

def arm (policy : ExecutionPolicy) (clock : Clock) : ArmedPolicy :=
  .new clock policy.timeout policy.cancellation

end ExecutionPolicy

end GuestJs
