import GuestJs.QuickJs.Session

/-!
# Buffers and views

A slice of guest memory is lent in two parts. The range is read off the value, and for a `DataView`
that means calling the accessors found on the prototype of its class; then the memory is looked up,
the range checked against it, and the loan entered, with nothing in between.
-/

namespace GuestJs.QuickJs

variable {E : Engine}

/-- The accessor of a slot, called on the view. It is looked up as an own property of the prototype
of the view's class: a property of the view itself or of the globals plays no part. -/
def intrinsic (view : Value) (accessor : Accessor) : Raw E Value := do
  match ← request (.ownGetter view accessor) with
  | some getter => request (.callGetter (← asFunction getter) view)
  | none => throwNew .typeError "intrinsic accessor is missing"

def arrayBuffer (value : Value) : Raw E (Nat × Nat) :=
  match kindOf E value with
  | .arrayBuffer => request (.arrayBuffer value)
  | _ => throwNew .typeError "not an ArrayBuffer"

def buffer (view : Value) : Op E Value :=
  match kindOf E view with
  | .typedArray => capture (Prod.fst <$> request (.typedArrayBuffer view))
  | .dataView => capture (intrinsic view .buffer)
  | _ => capture (throwNew .typeError "not an ArrayBuffer view")

def byteOffset (view : Value) : Op E Nat :=
  match kindOf E view with
  | .typedArray => capture ((fun slots => slots.2.1) <$> request (.typedArrayBuffer view))
  | .dataView => capture do asU32 (← intrinsic view .byteOffset)
  | _ => capture (throwNew .typeError "not an ArrayBuffer view")

def byteLength (value : Value) : Op E Nat :=
  match kindOf E value with
  | .arrayBuffer => capture (Prod.snd <$> arrayBuffer value)
  | .typedArray => capture ((fun slots => slots.2.2) <$> request (.typedArrayBuffer value))
  | .dataView => capture do asU32 (← intrinsic value .byteLength)
  | _ => capture (throwNew .typeError "not an ArrayBuffer or ArrayBuffer view")

structure Window where
  buffer : Value
  byteOffset : Nat
  byteLength : Nat
  deriving DecidableEq

/-- The range of a view in its buffer, which must not be a shared one. -/
def viewRange (view buffer : Value) : Op E Window :=
  match kindOf E buffer with
  | .arrayBuffer => do
      let offset ← byteOffset view
      let length ← byteLength view
      pure ⟨buffer, offset, length⟩
  | _ => throw (.conversion "view of an ArrayBuffer" "view of a SharedArrayBuffer")

def bufferRange (source : Value) : Op E Window :=
  match kindOf E source with
  | .arrayBuffer => do
      let length ← byteLength source
      pure ⟨source, 0, length⟩
  | .typedArray | .dataView => do viewRange source (← buffer source)
  | _ => capture (throwNew .typeError "not an ArrayBuffer or ArrayBuffer view")

/-- A slice of guest memory in the hands of the host. An empty one holds no loan, and is at no
address of the buffer. -/
structure Bytes where
  guard : Option Storage
  kind : BorrowKind
  address : Nat
  window : Window
  deriving DecidableEq

namespace Bytes

/-- The checks of a window against the memory of its buffer, and the loan. An end beyond the address
space is beyond any size, so one comparison does for both. -/
def grant (kind : BorrowKind) (window : Window) (data size : Nat) : Op E Bytes := do
  let session ← get
  if size < window.byteOffset + window.byteLength then
    capture (throwNew .rangeError "byte range is outside the ArrayBuffer")
  else if kind = .exclusive ∧ E.isImmutable session.heap window.buffer = true then
    capture (throwNew .typeError "ArrayBuffer is immutable")
  else if window.byteLength = 0 then
    pure ⟨none, kind, 1, window⟩
  else
    match session.loans.lend ⟨"ArrayBuffer", data⟩ kind with
    | .error error => throw error
    | .ok loans => do
        modify fun session => { session with loans }
        pure ⟨some ⟨"ArrayBuffer", data⟩, kind, data + window.byteOffset, window⟩

/-- The second part of a borrow: nothing of the guest's runs between the look at the memory and the
loan. -/
def lend (kind : BorrowKind) (window : Window) : Op E Bytes := do
  let memory ← capture (arrayBuffer window.buffer)
  grant kind window memory.1 memory.2

def new (source : Value) (kind : BorrowKind) : Op E Bytes := do
  let window ← bufferRange source
  lend kind window

def drop (bytes : Bytes) (loans : Loans) : Loans :=
  match bytes.guard with
  | some storage => loans.release storage
  | none => loans

end Bytes

def newArrayBuffer (bytes : List UInt8) : Op E Value := capture (request (.newArrayBuffer bytes))

def newTypedArray (element : ElementType) (buffer : Value) (byteOffset length : Nat) : Op E Value :=
  capture (request (.newTypedArray element buffer byteOffset length))

def elementType (typedArray : Value) : Op E ElementType :=
  match E.typedArrayType typedArray with
  | some element => pure element
  | none => capture (throwNew .typeError "not a TypedArray")

def borrowBytes (source : Value) : Op E Bytes := Bytes.new source .shared

def borrowBytesMut (source : Value) : Op E Bytes := Bytes.new source .exclusive

/-- A slice of elements is a slice of bytes that is dropped again when its address or its length do
not suit the element. -/
def borrowElements (element : Element) (kind : BorrowKind) (value : Value) : Op E Bytes :=
  match kindOf E value with
  | .arrayBuffer | .typedArray | .dataView => do
      let bytes ← Bytes.new value kind
      match element.check bytes.address bytes.window.byteLength with
      | .ok () => pure bytes
      | .error error => do
          modify fun session => { session with loans := bytes.drop session.loans }
          throw error
  | found => throw (.conversion "ArrayBuffer, typed array or DataView" found.toString)

def fromGuestRef (element : Element) (value : Value) : Op E Bytes :=
  borrowElements element .shared value

def fromGuestMut (element : Element) (value : Value) : Op E Bytes :=
  borrowElements element .exclusive value

end GuestJs.QuickJs
