import GuestJs.Library.Transition
import GuestJs.QuickJs.Buffers

/-!
# Runs of borrows and drops

The host borrows slices of buffers and drops them in any order. A borrow of a view may stop in an
accessor of the guest's, and until that answers anything can happen: the guest changes the heap, and
host functions it calls start borrows of their own and drop slices.
-/

namespace GuestJs.QuickJs

abbrev Suspended (E : Engine) :=
  Answer → Session E → Resumption (Session E) GuestCall Answer Error Bytes

structure Lending (E : Engine) where
  session : Session E
  held : List Bytes
  pending : List (Suspended E)

inductive LendingEvent (E : Engine) where
  | borrow (element : Option Element) (kind : BorrowKind) (source : Value)
  /-- Code of the guest's changes the heap. -/
  | guest (heap : E.Heap)
  /-- The function the last suspended borrow waits for returns. -/
  | answer (answer : Answer)
  | drop (index : Nat)

namespace Lending

variable {E : Engine}

def init (session : Session E) : Lending E := ⟨{ session with loans := .empty }, [], []⟩

/-- What a borrow comes to: the slice is held, the error is returned, or the borrow waits. -/
def proceed (s : Lending E) : Resumption (Session E) GuestCall Answer Error Bytes → Lending E
  | .done (.ok bytes) session => { s with session, held := bytes :: s.held }
  | .done (.error _) session => { s with session }
  | .call _ session resume => { s with session, pending := resume :: s.pending }

def borrow (element : Option Element) (kind : BorrowKind) (source : Value) : Op E Bytes :=
  match element, kind with
  | none, .shared => borrowBytes source
  | none, .exclusive => borrowBytesMut source
  | some element, .shared => fromGuestRef element source
  | some element, .exclusive => fromGuestMut element source

def result (s : Lending E) : LendingEvent E →
    Option (Resumption (Session E) GuestCall Answer Error Bytes)
  | .borrow element kind source => some (borrow element kind source s.session)
  | .answer answer => s.pending.head?.map fun resume => resume answer s.session
  | .guest _ | .drop _ => none

/-- Code of the guest's runs below a suspended borrow, or where no slice is lent, as operations that
ask the table first see to. Those that run it without asking are not among these runs. -/
def step (s : Lending E) (event : LendingEvent E) : Option (Lending E) :=
  match event with
  | .borrow _ _ _ => (s.result event).map s.proceed
  | .answer _ => (s.result event).map { s with pending := s.pending.tail }.proceed
  | .guest heap =>
      match s.pending, s.session.loans.settled with
      | [], .error _ => none
      | _, _ => some { s with session := { s.session with heap } }
  | .drop index =>
      s.held[index]?.map fun bytes =>
        { s with
          session := { s.session with loans := bytes.drop s.session.loans }
          held := s.held.eraseIdx index }

def machine (E : Engine) : Transition.Machine (Lending E) (LendingEvent E) := ⟨step⟩

end Lending

end GuestJs.QuickJs
