import GuestJs.Errors
import GuestJs.Library.Pull

/-!
# Readers and async iterators

Both pull from the guest, one call of `read` or `next` at a time, and keep the promise of the call in
the handle. A future of theirs may be dropped at its await: the next one finds the promise where it
is. `poll_next` makes such a future, polls it once and drops it.
-/

namespace GuestJs

open Transition Pull

abbrev PullOutcome (T : Type) := Except Error (Option T)

def PullOutcome.isItem {T : Type} : PullOutcome T → Bool
  | .ok (some _) => true
  | _ => false

/-- A call of the guest: it fails at once, or its promise, awaited and converted, has an outcome. -/
inductive PullCall (T : Type) where
  | failed (error : Error)
  | promised (outcome : PullOutcome T)

namespace PullCall

variable {T : Type}

def asked : PullCall T → Asked (PullOutcome T)
  | failed error => .answered (.error error)
  | promised outcome => .promised outcome

end PullCall

inductive ReaderPhase where
  | opened
  | done
  | released

abbrev Reader (T : Type) := Consumer ReaderPhase (PullOutcome T)

namespace Reader

variable {T : Type}

/-- What `read` returns before it calls or awaits anything, and the phase its outcome leaves. -/
def rules : Rules ReaderPhase (PullOutcome T) where
  stopped
    | .released => some (.error (.unexpected "reader lock was released" none))
    | .done => some (.ok none)
    | .opened => none
  after phase outcome := if outcome.isItem then phase else .done

def new : Reader T := Consumer.new .opened

/-- The futures of `read`, and `poll_next`. -/
def machine (guest : Nat → PullCall T) : Machine (Reader T) Consumer.Event :=
  Consumer.machine rules fun call => (guest call).asked

end Reader

/-- The phase is the flag `done`. -/
abbrev AsyncIter (T : Type) := Consumer Bool (PullOutcome T)

namespace AsyncIter

variable {T : Type}

def rules : Rules Bool (PullOutcome T) where
  stopped
    | true => some (.ok none)
    | false => none
  after _ outcome := !outcome.isItem

def new : AsyncIter T := Consumer.new false

/-- The futures of `next`, and `poll_next`. -/
def machine (guest : Nat → PullCall T) : Machine (AsyncIter T) Consumer.Event :=
  Consumer.machine rules fun call => (guest call).asked

end AsyncIter

section Delivery

variable {T : Type}

theorem Reader.lawful : (Reader.rules (T := T)).Lawful PullOutcome.isItem (.ok none) where
  go := by
    intro phase outcome hphase hitem
    cases phase with
    | opened => simp only [rules, hitem, if_true]
    | _ => cases hphase
  stop := by
    intro phase outcome _ hitem
    simp only [rules, hitem, Bool.false_eq_true, if_false]

theorem AsyncIter.lawful : (AsyncIter.rules (T := T)).Lawful PullOutcome.isItem (.ok none) where
  go := by
    intro done outcome _ hitem
    simp only [rules, hitem, Bool.not_true]
  stop := by
    intro done outcome _ hitem
    simp only [rules, hitem, Bool.not_false]

/-- The guest's calls are made one at a time and each gives the host one outcome, in call order; none
is made after an end or an error. -/
abbrev DeliversOnce {Phase : Type} (rules : Rules Phase (PullOutcome T)) (guest : Nat → PullCall T) :
    Consumer Phase (PullOutcome T) → Prop :=
  Consumer.Delivered rules (fun call => (guest call).asked) PullOutcome.isItem (.ok none)

/-- **Readers and async iterators deliver each outcome exactly once**, whatever futures are dropped
and however the two ways of pulling are mixed. -/
theorem throughout_deliversOnce (guest : Nat → PullCall T) (events : List Consumer.Event) :
    (Reader.machine guest).Throughout (DeliversOnce Reader.rules guest) Reader.new events ∧
      (AsyncIter.machine guest).Throughout (DeliversOnce AsyncIter.rules guest) AsyncIter.new
        events :=
  ⟨Consumer.throughout_delivered Reader.lawful rfl events,
    Consumer.throughout_delivered AsyncIter.lawful rfl events⟩

/-- A future is dropped at its await, and the next one gets what it has asked for. -/
example : ((Reader.machine (T := Nat) fun call => .promised (.ok (some call))).run Reader.new
    [.create, .poll false, .drop, .pollOnce true, .create, .poll true]).map
      (fun reader => (reader.asked, reader.received.map fun outcome => outcome.toOption)) =
    some (2, [some (some 0), some (some 1)]) := by decide

end Delivery

end GuestJs
