import GuestJs.Handle.Buffers
import GuestJs.Library.FixedWidth

/-!
# Calls on buffers and views

What a host copies out of a buffer or a view, and into it: as bytes, or as elements whose every bit
pattern is a value.
-/

namespace GuestJs

open QuickJs

theorem ElementType.size_pos (type : ElementType) : 0 < type.size := by
  cases type <;> decide

/-- An implementation of `Element` with both casts. Values are bit patterns, and all of them are. -/
structure PlainElement (α : Type) extends NativeElement α where
  align : Nat
  ofBytes : List UInt8 → α
  ofBytes_toBytes : ∀ value, ofBytes (toBytes value) = value
  toBytes_ofBytes : ∀ bytes, bytes.length = type.size → toBytes (ofBytes bytes) = bytes

namespace PlainElement

variable {α : Type} (element : PlainElement α)

def codec : FixedWidth UInt8 α where
  width := element.type.size
  encode := element.toBytes
  decode := element.ofBytes
  width_pos := element.type.size_pos
  length_encode := element.length_toBytes
  decode_encode := element.ofBytes_toBytes
  encode_decode := element.toBytes_ofBytes

def layout : Element := ⟨element.type, element.type.size, element.align⟩

/-- `Element::cast` -/
def cast (bytes : List UInt8) : List α := element.codec.decodeAll bytes

end PlainElement

variable {E : Engine} {α ρ : Type}

/-- The bytes of a window. -/
def QuickJs.Memory.slice (memory : Memory E) (heap : E.Heap) (window : Window) : List UInt8 :=
  (List.range window.byteLength).map fun i => memory.byte heap window.buffer (window.byteOffset + i)

def borrowAsWith (element : Element) (value : Value) (f : Bytes → Op E α) : Op E α := do
  withBorrowed f (← fromGuestRef element value)

namespace BufferProtocol

def copyOut (memory : Memory E) (source : Bytes) : Op E (List UInt8) := do
  let session ← get
  pure (memory.slice session.heap source.window)

def bytes (memory : Memory E) (value : Value) : Op E (List UInt8) :=
  borrowAsWith byte value (copyOut memory)

end BufferProtocol

namespace TypedArray

/-- `TypedArray::to_vec` -/
def toVec (memory : Memory E) (element : PlainElement α) (value : Value) : Op E (List α) :=
  borrowAsWith element.layout value fun source => element.cast <$> BufferProtocol.copyOut memory source

end TypedArray

/-- The calls on a buffer or a view that copy, with what they give. -/
inductive BufferCall : Type → Type 1
  | bytes (view : Value) : BufferCall (List UInt8)
  | writeBytes (view : Value) (byteOffset : Nat) (written : List UInt8) : BufferCall Unit
  | toVec {α : Type} (element : PlainElement α) (view : Value) : BufferCall (List α)
  | write {α : Type} (element : PlainElement α) (view : Value) (index : Nat) (values : List α) :
      BufferCall Unit

namespace BufferCall

def run (memory : Memory E) : BufferCall ρ → Op E ρ
  | bytes view => BufferProtocol.bytes memory view
  | writeBytes view byteOffset written => BufferProtocol.writeBytes memory view byteOffset written
  | toVec element view => TypedArray.toVec memory element view
  | write element view index values =>
      TypedArray.write memory element.toNativeElement view index values

/-- The loan a call takes. -/
def borrow : BufferCall ρ → Op E Bytes
  | bytes view => fromGuestRef BufferProtocol.byte view
  | writeBytes view _ _ | write _ view _ _ => fromGuestMut BufferProtocol.byte view
  | toVec element view => fromGuestRef element.layout view

end BufferCall

end GuestJs
