import GuestJs.QuickJs.Lending
import Mathlib.Logic.Relation

/-!
# Slices of views

A slice of a `DataView` is taken through a reference to the view and lives no longer than that: the
host cannot give up the reference while it has the slice. What the view refers to stays as long, while
the engine may free anything out of reach at any time.
-/

namespace GuestJs.QuickJs

/-- What the guest has left of the accessors and the views is as it was. -/
structure LeavesViews (E : Engine) (getter : E.Heap → Value → Accessor → Option Value)
    (h h' : E.Heap) : Prop where
  getter : getter h' = getter h
  isOwn : E.isOwn h' = E.isOwn h
  slots : E.slots h' = E.slots h

/-- The getters on the prototype of the class of a view, where the guest can put what it likes or
delete what is there. -/
structure Engine.Accessors (E : Engine) where
  getter : E.Heap → Value → Accessor → Option Value
  ownGetter : ∀ {view accessor heap found heap'},
    E.primitive (.ownGetter view accessor) heap = .done (.ok found) heap' →
      found = getter heap view accessor
  /-- A read disturbs nothing, before, between and after the calls it makes. -/
  read : ∀ {α : Type} (p : Primitive α) heap, p.isRead = true →
    (E.primitive p heap).Guarantees (LeavesViews E getter) (fun h _ h' => LeavesViews E getter h h')
      heap
  /-- Code of the guest's is called, and its answer is what the getter returns. -/
  isGuest : Value → Bool
  callGetter_guest : ∀ function view heap, isGuest function = true → kindOf E function = .function ∧
    ∃ query heap', E.primitive (.callGetter function view) heap =
      .call query heap' fun answer heap => .done answer heap

/-- The function behind the accessor is the engine's own, or there is none. -/
def Engine.Accessors.Untampered {E : Engine} (A : E.Accessors) (heap : E.Heap) (view : Value)
    (accessor : Accessor) : Prop :=
  ∀ getter ∈ A.getter heap view accessor, kindOf E getter = .function →
    E.isOwn heap accessor getter = true

/-- The value is in reach of one of the roots. -/
def Reaches {α : Type} (refers : α → α → Prop) (roots : List α) (value : α) : Prop :=
  ∃ root ∈ roots, Relation.ReflTransGen refers root value

/-- What the engine frees: nothing in reach of the values that the host holds. -/
structure Engine.Collector (E : Engine) where
  refers : E.Heap → Value → Value → Prop
  refers_buffer : ∀ heap view, kindOf E view = .dataView → refers heap view (E.slots heap view).buffer
  collect : List Value → E.Heap → E.Heap
  block_collect : ∀ values heap value, Reaches (refers heap) values value →
    E.block (collect values heap) value = E.block heap value
  slots_collect : ∀ values heap value, Reaches (refers heap) values value →
    E.slots (collect values heap) value = E.slots heap value

/-- A slice, and the view that it has been borrowed from. -/
structure Lease where
  source : Value
  bytes : Bytes
  deriving DecidableEq

/-- A host that holds references to values and slices of views. -/
structure Leases (E : Engine) where
  session : Session E
  values : List Value
  leases : List Lease
  pending : List (Value × Suspended E)

inductive LeaseEvent (E : Engine) where
  /-- The host gets another reference to a value. -/
  | keep (value : Value)
  | release (value : Value)
  | borrow (kind : BorrowKind) (view : Value)
  /-- The function the last suspended borrow waits for returns. -/
  | answer (answer : Answer)
  | drop (index : Nat)
  | collect
  /-- Whatever else happens in the session. -/
  | other (session : Session E)

namespace Leases

variable {E : Engine}

def init (session : Session E) (values : List Value) : Leases E := ⟨session, values, [], []⟩

/-- The views of which the host has a slice or waits for one. -/
def sources (s : Leases E) : List Value := s.leases.map Lease.source ++ s.pending.map Prod.fst

def proceed (s : Leases E) (view : Value) :
    Resumption (Session E) GuestCall Answer Error Bytes → Leases E
  | .done (.ok bytes) session => { s with session, leases := ⟨view, bytes⟩ :: s.leases }
  | .done (.error _) session => { s with session }
  | .call _ session resume => { s with session, pending := (view, resume) :: s.pending }

def step (C : E.Collector) (s : Leases E) : LeaseEvent E → Option (Leases E)
  | .keep value => some { s with values := value :: s.values }
  | .release value =>
      -- `Bytes` has the lifetime of the reference that `borrow_bytes` is given.
      if ∀ view ∈ s.sources, view ∈ s.values.erase value then
        some { s with values := s.values.erase value }
      else none
  | .borrow kind view =>
      if view ∈ s.values ∧ kindOf E view = .dataView then
        some (s.proceed view (Bytes.new view kind s.session))
      else none
  | .answer answer =>
      match s.pending with
      | [] => none
      | (view, resume) :: pending =>
          some ({ s with pending }.proceed view (resume answer s.session))
  | .drop index =>
      s.leases[index]?.map fun lease =>
        { s with
          session := { s.session with loans := lease.bytes.drop s.session.loans }
          leases := s.leases.eraseIdx index }
  | .collect => some { s with session := { s.session with heap := C.collect s.values s.session.heap } }
  | .other session => some { s with session }

def machine (C : E.Collector) : Transition.Machine (Leases E) (LeaseEvent E) := ⟨step C⟩

end Leases

end GuestJs.QuickJs
