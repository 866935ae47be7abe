import GuestJs.Handle.Iterators
import GuestJs.QuickJs.Memory

/-!
# Writes into buffers

A write of the host borrows the bytes of a buffer or a view for as long as a closure takes, and the
closure copies into the slice if what it is given ends in it. Offsets and lengths are machine
integers: the offset of an element saturates, and an end that does not fit is no end.
-/

namespace GuestJs

open QuickJs

def usizeMax : Nat := 2 ^ 64 - 1

/-- No slice is longer, in bytes. -/
def isizeMax : Nat := 2 ^ 63 - 1

def checkedAdd (first second : Nat) : Option Nat :=
  if first + second ≤ usizeMax then some (first + second) else none

def saturatingMul (first second : Nat) : Nat := min (first * second) usizeMax

def ElementType.size : ElementType → Nat
  | .int8 | .uint8 | .uint8Clamped => 1
  | .int16 | .uint16 | .float16 => 2
  | .int32 | .uint32 | .float32 => 4
  | .bigInt64 | .bigUint64 | .float64 => 8

/-- An implementation of `Element`: the type and how its values lie in memory. -/
structure NativeElement (α : Type) where
  type : ElementType
  toBytes : α → List UInt8
  length_toBytes : ∀ value, (toBytes value).length = type.size

namespace NativeElement

variable {α : Type}

def asBytes (element : NativeElement α) (values : List α) : List UInt8 :=
  values.flatMap element.toBytes

theorem length_asBytes (element : NativeElement α) (values : List α) :
    (element.asBytes values).length = values.length * element.type.size := by
  induction values with
  | nil => simp [asBytes]
  | cons value values ih =>
      have hcons : element.asBytes (value :: values) =
          element.toBytes value ++ element.asBytes values := rfl
      rw [hcons, List.length_append, element.length_toBytes, ih, List.length_cons, Nat.succ_mul,
        Nat.add_comm]

end NativeElement

variable {E : Engine} {α : Type}

/-- The closure runs on the borrowed slice, which is dropped after it. -/
def withBorrowed (f : Bytes → Op E α) (borrowed : Bytes) : Op E α := do
  let result ← Process.attempt (f borrowed)
  modify fun session => { session with loans := borrowed.drop session.loans }
  match result with
  | .ok a => pure a
  | .error error => throw error

def borrowAsWithMut (element : Element) (value : Value) (f : Bytes → Op E α) : Op E α := do
  withBorrowed f (← fromGuestMut element value)

namespace BufferProtocol

/-- `u8` -/
def byte : Element := ⟨.uint8, 1, 1⟩

def copyInto (memory : Memory E) (byteOffset : Nat) (bytes : List UInt8) (target : Bytes) :
    Op E Unit :=
  match (checkedAdd byteOffset bytes.length).filter fun last => last ≤ target.window.byteLength with
  | some _ => modify fun session =>
      { session with heap := memory.write session.heap (target.address + byteOffset) bytes }
  | none => throw (.conversion
      ("at most " ++ toString (target.window.byteLength - byteOffset) ++ " bytes at byte offset " ++
        toString byteOffset)
      (toString bytes.length ++ " bytes"))

def writeBytes (memory : Memory E) (value : Value) (byteOffset : Nat) (bytes : List UInt8) :
    Op E Unit :=
  borrowAsWithMut byte value (copyInto memory byteOffset bytes)

end BufferProtocol

/-- `TypedArray::write` -/
def TypedArray.write (memory : Memory E) (element : NativeElement α) (value : Value) (index : Nat)
    (values : List α) : Op E Unit :=
  BufferProtocol.writeBytes memory value (saturatingMul index element.type.size)
    (element.asBytes values)

end GuestJs
