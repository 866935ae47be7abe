import GuestJs.Activity
import GuestJs.Library.Fallible
import GuestJs.Library.Transition

/-!
# Nested activations

The activations of one guest as its cells record them, with nothing promised of the cells. Between
any two steps time passes and signals change their answers, also between arming a policy and asking
whether it is due. An activation is the run of a closure: closures nest, end as they like, and may
never be run because the guest refuses them.
-/

namespace GuestJs.Activations

open Fallible

/-- `GuestActivity`, cell by cell. -/
structure Cells where
  policy : ExecutionPolicy
  depth : Nat
  armed : Option ArmedPolicy

namespace Cells

def new (policy : ExecutionPolicy) : Cells := ⟨policy, 0, none⟩

def isActive (cells : Cells) : Bool := decide (0 < cells.depth)

/-- `Activation::drop`, unless the depth underflows. -/
def finish (cells : Cells) : Option Cells :=
  match cells.depth with
  | 0 => none
  | depth + 1 => some { cells with depth, armed := if depth = 0 then none else cells.armed }

def begin (arming checking : Clock) : Fallible Cells Error PUnit := do
  let cells ← get
  match cells.isActive with
  | true => pure ⟨⟩
  | false => do
      check fun _ => match (cells.policy.arm arming).dueError checking with
        | some error => .error error
        | none => .ok ⟨⟩
      modify fun cells => { cells with armed := some (cells.policy.arm arming) }
  modify fun cells => { cells with depth := cells.depth + 1 }

def isDue (cells : Cells) (clock : Clock) : Bool := cells.armed.any fun armed => armed.isDue clock

def dueError (cells : Cells) (clock : Clock) : Option Error :=
  cells.armed.bind fun armed => armed.dueError clock

end Cells

/-- What `GuestState` says of whether code may run, and what runs. -/
structure GuestState where
  closed : Bool
  activity : Cells

/-- The ways to run a closure in a guest: `reenter` with a token of the guest's own context or of
another one. -/
inductive Entry where
  | activate
  | enter
  | reenter (own : Bool)
  deriving DecidableEq

namespace GuestState

def admission (entry : Entry) (guest : GuestState) : Except Error PUnit :=
  match entry, guest.closed with
  | .activate, _ => .ok ⟨⟩
  | .enter, true => .error .closed
  | .enter, false => .ok ⟨⟩
  | .reenter _, true => .error .closed
  | .reenter false, false => .error .foreignContext
  | .reenter true, false => .ok ⟨⟩

/-- An entry up to its closure. -/
def begin (entry : Entry) (arming checking : Clock) : Fallible GuestState Error PUnit := do
  check (admission entry)
  zoom activity (fun activity guest => { guest with activity }) (Cells.begin arming checking)

variable {R : Type}

/-- What `activate` makes of the result of its closure. -/
def outcome (guest : GuestState) (clock : Clock) (result : Except Error R) : Except Error R :=
  match result with
  | .error .interrupted => .error ((guest.activity.dueError clock).getD .interrupted)
  | result => result

end GuestState

/-! ### The sequences -/

/-- A guest with its activations under way: the times at which they began, the innermost first, and
the results the calls that are over have returned, the last first. -/
structure State (R : Type) where
  guest : GuestState
  clock : Clock
  live : List Clock
  returned : List (Except Error R)

inductive Event (R : Type) where
  | elapse (clock : Clock)
  | call (entry : Entry) (checking : Clock)
  | finish (result : Except Error R)
  | close

variable {R : Type}

def start (policy : ExecutionPolicy) (clock : Clock) : State R := ⟨⟨false, .new policy⟩, clock, [], []⟩

/-- The clock never goes back, and the closure that ends is the one that was entered last. -/
def step (s : State R) : Event R → Option (State R)
  | .elapse clock => if s.clock.now ≤ clock.now then some { s with clock } else none
  | .call entry checking =>
      if s.clock.now ≤ checking.now then
        match exec (GuestState.begin entry s.clock checking) s.guest with
        | (.ok _, guest) => some { s with guest, clock := checking, live := s.clock :: s.live }
        | (.error error, guest) =>
            some { s with guest, clock := checking, returned := .error error :: s.returned }
      else none
  | .finish result => match s.live with
      | [] => none
      | _ :: live => s.guest.activity.finish.map fun activity =>
          { s with
            guest := { s.guest with activity }
            live
            returned := s.guest.outcome s.clock result :: s.returned }
  | .close => some { s with guest := { s.guest with closed := true } }

def machine : Transition.Machine (State R) (Event R) := ⟨step⟩

end GuestJs.Activations
