import GuestJs.QuickJs.Session
import Mathlib.Logic.Function.Basic

/-!
# Functions and instances of host classes

A function of the host is an object of the engine's that holds a closure, and an instance of a host
class one that holds a payload. Payloads have their own borrow state, which the table of loans does
not know of.
-/

namespace GuestJs.QuickJs

variable {E : Engine}

namespace BackendCallables

def newFunction (name : String) (length : Nat) : Op E Value :=
  capture (request (.newFunction name length))

end BackendCallables

/-- `PayloadCell::typed`: the cell of an instance, when its payload has the type asked for. -/
def PayloadCell.typed (session : Session E) (value : Value) (type : PayloadType) :
    Except Error (ObjectId × PayloadCell) :=
  match value with
  | .object id =>
      match session.payloads id with
      | some cell =>
          if cell.type.id = type.id then .ok (id, cell)
          else .error (.conversion type.name cell.type.name)
      | none => .error (.conversion type.name (E.typeName value))
  | _ => .error (.conversion type.name (E.typeName value))

/-- The state of a cell that is borrowed once more, or the kind of borrow in the way. -/
def PayloadCell.lend (cell : PayloadCell) : BorrowKind → Except BorrowKind PayloadCell
  | .shared =>
      match cell.borrowed with
      | none => .ok { cell with borrowed := some (.shared 1) }
      | some (.shared count) => .ok { cell with borrowed := some (.shared (count + 1)) }
      | some .exclusive => .error .exclusive
  | .exclusive =>
      match cell.borrowed with
      | none => .ok { cell with borrowed := some .exclusive }
      | some loan => .error loan.kind

namespace BackendClasses

def newConstructor (name : String) (length : Nat) : Op E Value := do
  let function ← BackendCallables.newFunction name length
  capture do request (.withConstructor (← asFunction function))

def newInstance (prototype : Value) (type : PayloadType) : Op E Value := do
  let created ← capture do request (.newInstance (← asObject prototype))
  match created with
  | .object id => do
      modify fun session =>
        { session with payloads := Function.update session.payloads id (some ⟨type, none⟩) }
      pure created
  | _ => pure created

def payloadType (value : Value) : Op E (Option Nat) := do
  let session ← get
  match value with
  | .object id => pure ((session.payloads id).map fun cell => cell.type.id)
  | _ => pure none

def borrow (kind : BorrowKind) (value : Value) (type : PayloadType) : Op E Unit := do
  let (id, cell) ← Process.check fun session => PayloadCell.typed session value type
  match cell.lend kind with
  | .ok cell =>
      modify fun session =>
        { session with payloads := Function.update session.payloads id (some cell) }
  | .error held => throw (.borrow held cell.type.name)

def borrowPayload (value : Value) (type : PayloadType) : Op E Unit := borrow .shared value type

def borrowPayloadMut (value : Value) (type : PayloadType) : Op E Unit := borrow .exclusive value type

end BackendClasses

end GuestJs.QuickJs
