import GuestJs.Backend
import GuestJs.Library.Resumption
import GuestJs.QuickJs.Loans

/-!
# The engine, as its bindings use it

The JavaScript engine is third-party code: here it is a parameter. A `Primitive` is one request of
the bindings to it, and an `Engine` says what each request comes to in a heap. A request either
completes on its own or hands control to a function of the guest's choosing, which may leave any
heap behind; the laws of an engine are the parts of ECMAScript the bindings rely on.
-/

namespace GuestJs.QuickJs

/-- What a request fails with: an exception the engine has pending, a value of the wrong type, or
one of the engine bindings' own errors. -/
inductive Fault where
  | exception (thrown : Value)
  | fromJs (source target : String)
  | other (message : String)
  deriving DecidableEq

inductive Accessor where
  | buffer
  | byteOffset
  | byteLength
  deriving DecidableEq

abbrev ModuleId := Nat

inductive Primitive : Type → Type where
  -- Values the engine makes and looks at without running anything.
  | newBigint (value : Int) : Primitive Value
  | newString (text : String) : Primitive Value
  | newSymbol (description : String) : Primitive Value
  | newObject : Primitive Value
  | newArrayBuffer (bytes : List UInt8) : Primitive Value
  | newFunction (name : String) (length : Nat) : Primitive Value
  | newInstance (prototype : Value) : Primitive Value
  | newPromise : Primitive (Value × Value × Value)
  | newError (kind : GuestErrorKind) (message : String) : Primitive Value
  | defineText (object : Value) (key text : String) : Primitive Unit
  | setUncatchable (error : Value) : Primitive Unit
  | withConstructor (function : Value) : Primitive Value
  | toBoolean (value : Value) : Primitive Bool
  | toCString (value : Value) : Primitive (Option String)
  | toBigint64 (value : Value) : Primitive Int
  | jsonText (text : String) : Primitive (Option String)
  | promiseResult (promise : Value) : Primitive PromiseState
  | arrayBuffer (buffer : Value) : Primitive (Nat × Nat)
  | typedArrayBuffer (view : Value) : Primitive (Value × Nat × Nat)
  | ownGetter (view : Value) (accessor : Accessor) : Primitive (Option Value)
  -- Requests that read through properties, accessors, traps and conversions.
  | get (object key : Value) : Primitive Value
  | toText (value : Value) : Primitive String
  | getPrototype (object : Value) : Primitive Value
  | callGetter (getter view : Value) : Primitive Value
  -- Requests that run functions, constructors, iterators and modules, or write.
  | newArray (items : List Value) : Primitive Value
  | newTypedArray (element : ElementType) (buffer : Value) (byteOffset length : Nat) :
      Primitive Value
  | set (object key value : Value) : Primitive Unit
  | define (object key : Value) (property : Property) : Primitive Unit
  | delete (object key : Value) : Primitive Unit
  | has (object key : Value) : Primitive Bool
  | keys (object : Value) : Primitive (List Value)
  | instanceOf (value constructor : Value) : Primitive Bool
  | setPrototype (object : Value) (prototype : Option Value) : Primitive Unit
  | call (function this : Value) (arguments : List Value) : Primitive Value
  | construct (constructor : Value) (arguments : List Value) : Primitive Value
  | eval (source name : String) : Primitive Value
  | declare (name source : String) : Primitive ModuleId
  | declareNative (name : String) (exports : List String) : Primitive ModuleId
  | export (module : ModuleId) (name : String) (value : Value) : Primitive Unit
  | evaluate (module : ModuleId) : Primitive (Value × Value)
  | executeJob : Primitive Bool

namespace Primitive

/-- The requests ECMAScript gives no way to observe: they never run code of the guest. -/
def isInert {α : Type} : Primitive α → Bool
  | newBigint _ | newString _ | newSymbol _ | newObject | newArrayBuffer _ | newFunction _ _
  | newInstance _ | newPromise | newError _ _ | defineText _ _ _ | setUncatchable _
  | withConstructor _ | toBoolean _ | toCString _ | toBigint64 _ | jsonText _ | promiseResult _
  | arrayBuffer _ | typedArrayBuffer _ | ownGetter _ _ => true
  | _ => false

/-- The requests that write nothing of their own: what a heap holds changes only if they hand
control to the guest. -/
def isRead {α : Type} : Primitive α → Bool
  | get _ _ | toText _ | getPrototype _ | callGetter _ _ => true
  | p => p.isInert

end Primitive

/-- A function of the guest's choosing that the engine calls. -/
structure GuestCall where
  function : Value
  this : Value
  arguments : List Value
  deriving DecidableEq

abbrev Answer := Except Fault Value

structure Block where
  address : Nat
  size : Nat
  deriving DecidableEq

structure Slots where
  buffer : Value
  byteOffset : Nat
  byteLength : Nat
  deriving DecidableEq

/-- What a getter of the engine's own says of a slot. -/
def Slots.Reports (slots : Slots) : Accessor → Value → Prop
  | .buffer, value => value = slots.buffer
  | .byteOffset, value => value = .number (.finite slots.byteOffset)
  | .byteLength, value => value = .number (.finite slots.byteLength)

/-- A move of the heap that leaves the memory of every buffer where it is. -/
def Keeps {Heap : Type} (block : Heap → Value → Option Block) (h h' : Heap) : Prop :=
  ∀ buffer b, block h buffer = some b → block h' buffer = some b

structure Engine where
  Heap : Type
  primitive : {α : Type} → Primitive α → Heap → Resumption Heap GuestCall Answer Fault α
  /-- The class of an object is fixed when it is made, so it is no matter of the heap. -/
  objectKind : ObjectId → Kind
  isConstructor : Value → Bool
  isError : Value → Bool
  typedArrayType : Value → Option ElementType
  typeName : Value → String
  isUncatchable : Heap → Value → Bool
  isImmutable : Heap → Value → Bool
  toU32 : Value → Option Nat
  wellKnown : WellKnown → Value
  globals : Value
  /-- How many prototypes a capture is followed for where it is part of an operation. The walk of the
  source has no bound. -/
  walk : Nat
  block : Heap → Value → Option Block
  slots : Heap → Value → Slots
  isOwn : Heap → Accessor → Value → Bool
  toU32_natCast : ∀ n m : Nat, toU32 (.number (.finite n)) = some m → m = n
  inert : ∀ {α : Type} (p : Primitive α) h, p.isInert = true → (primitive p h).Finished
  /-- A read moves no memory, before, between and after the calls it makes. -/
  block_read : ∀ {α : Type} (p : Primitive α) h, p.isRead = true →
    (primitive p h).Guarantees (Keeps block) (fun h _ h' => Keeps block h h') h
  slots_read : ∀ {α : Type} (p : Primitive α) h result h', p.isRead = true →
    primitive p h = .done result h' → ∀ view, slots h' view = slots h view
  arrayBuffer_block : ∀ buffer h address size h',
    primitive (.arrayBuffer buffer) h = .done (.ok (address, size)) h' →
      block h' buffer = some ⟨address, size⟩
  /-- Non-empty buffers of different identity lie at different addresses. -/
  block_distinct : ∀ h first second b b', block h first = some b → block h second = some b' →
    0 < b.size → 0 < b'.size → b.address = b'.address → first = second
  /-- The engine's own getters run nothing and report the slots. -/
  own_getter : ∀ accessor getter view h, isOwn h accessor getter = true →
    ∃ result h', primitive (.callGetter getter view) h = .done result h' ∧
      ∀ value, result = .ok value → (slots h view).Reports accessor value

end GuestJs.QuickJs
