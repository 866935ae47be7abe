import GuestJs.QuickJs.Engine

/-!
# Sessions, and what is thrown in them

A session is what one entry of the engine works on: the heap of the engine, the table of loans, the
payloads of host classes, and the slot the exports of a synthetic module pass through. An exception
is captured by reading it, and a guest can put accessors and proxies in the way of every such read.
-/

namespace GuestJs.QuickJs

structure PayloadCell where
  type : PayloadType
  borrowed : Option Loan
  deriving DecidableEq

structure Session (E : Engine) where
  heap : E.Heap
  loans : Loans
  context : ContextId
  depth : Nat
  payloads : ObjectId → Option PayloadCell
  pendingExports : Option (List (String × Value))
  /-- The number in the name of the next module that an import is made through. -/
  nextImport : Nat

/-- The host has entered the engine for the first time. -/
def Session.entered {E : Engine} (heap : E.Heap) : Session E where
  heap := heap
  loans := .empty
  context := 0
  depth := 1
  payloads := fun _ => none
  pendingExports := none
  nextImport := 1

/-- An operation of the bindings below the backend, with the failures of the engine. -/
abbrev Raw (E : Engine) (α : Type) := Process (Session E) GuestCall Answer Fault α

abbrev Op (E : Engine) (α : Type) := Process (Session E) GuestCall Answer Error α

/-- The rest of the world, as an operation meets it: what a guest function answers, and what it
leaves behind. -/
abbrev Environment (E : Engine) := GuestCall → Session E → Answer × Session E

variable {E : Engine} {α β : Type}

def request (p : Primitive α) : Raw E α :=
  Process.zoom Session.heap (fun heap session => { session with heap }) (E.primitive p)

theorem request_of_done {p : Primitive α} {session : Session E} {result : Except Fault α}
    {heap : E.Heap} (h : E.primitive p session.heap = .done result heap) :
    request p session = .done result { session with heap } := by
  simp only [request, Process.zoom, h]
  rfl

def kindOf (E : Engine) : Value → Kind
  | .undefined => .undefined
  | .null => .null
  | .boolean _ => .boolean
  | .number _ => .number
  | .bigint _ => .bigint
  | .string _ => .string
  | .symbol _ => .symbol
  | .object id => E.objectKind id

def kind (value : Value) : Op E Kind := pure (kindOf E value)

def mistyped (value : Value) (expected : String) : Raw E α :=
  throw (.fromJs (E.typeName value) expected)

def asObject (value : Value) : Raw E Value :=
  match value with
  | .object id => pure (.object id)
  | _ => mistyped value "object"

def asFunction (value : Value) : Raw E Value :=
  match kindOf E value with
  | .function => pure value
  | _ => mistyped value "function"

def asConstructor (value : Value) : Raw E Value :=
  match E.isConstructor value with
  | true => pure value
  | false => mistyped value "constructor"

def asOptionalFunction (value : Value) : Raw E (Option Value) :=
  match value with
  | .undefined | .null => pure none
  | _ => some <$> asFunction value

def asU32 (value : Value) : Raw E Nat :=
  match E.toU32 value with
  | some integer => pure integer
  | none => mistyped value "u32"

def throwNew (kind : GuestErrorKind) (message : String) : Raw E α := do
  throw (.exception (← request (.newError kind message)))

def Fault.convert : Fault → Error
  | .fromJs source target => .conversion target source
  | .exception _ => .engine "Exception generated by QuickJS"
  | .other message => .engine message

namespace Thrown

def typeOf (E : Engine) : Value → String
  | .undefined => "undefined"
  | .null => "object"
  | .boolean _ => "boolean"
  | .number _ => "number"
  | .bigint _ => "bigint"
  | .string _ => "string"
  | .symbol _ => "symbol"
  | .object id => if E.objectKind id = .function then "function" else "object"

/-- What a read gives, or nothing when it fails: only an interruption gets through. -/
def settle (read : Raw E α) : Op E (Option α) :=
  Process.handle (some <$> read) fun fault => Process.check fun session =>
    match fault with
    | .exception thrown =>
        match E.isUncatchable session.heap thrown with
        | true => .error .interrupted
        | false => .ok none
    | _ => .ok none

def property (object : Value) (name : String) : Raw E Value :=
  request (.get object (.string name))

def name (thrown : Value) (isError : Bool) : Op E String := do
  let read ← match isError with
    | true => settle do request (.toText (← property thrown "name"))
    | false => pure none
  pure (read.getD (typeOf E thrown))

/-- The text of any value: a symbol's description, or the value as a string. -/
def text (value : Value) : Raw E String :=
  match value with
  | .symbol _ => (do
      match ← property value "description" with
      | .undefined | .null => pure "Symbol()"
      | .string description => pure ("Symbol(" ++ description ++ ")")
      | description => mistyped description "string")
  | _ => request (.toText value)

def message (thrown : Value) (isError : Bool) : Op E String := do
  let read ← settle <| match isError with
    | true => do request (.toText (← property thrown "message"))
    | false => text thrown
  pure (read.getD "")

def stack (thrown : Value) (isError : Bool) : Op E (Option String) :=
  match isError with
  | true => (do
      match ← settle (property thrown "stack") with
      | some (.string stack) => pure (some stack)
      | _ => pure none)
  | false => pure none

def constructorName (prototype : Value) : Raw E String := do
  let constructor ← asObject (← property prototype "constructor")
  match ← property constructor "name" with
  | .string name => pure name
  | name => mistyped name "string"

/-- The constructor names along the prototypes of a value, for at most `walk` of them. The source goes
on for as long as the guest answers, as `exceptionWithin` does; where that ends within the bound, as
`resolve_exception_of_within` says, the two are the same. -/
def prototypes : Nat → Value → Op E (List String)
  | 0, _ => pure []
  | walk + 1, .object id => (do
      match ← settle (request (.getPrototype (.object id))) with
      | some (.object next) =>
          let name ← settle (constructorName (.object next))
          let rest ← prototypes walk (.object next)
          pure (name.toList ++ rest)
      | _ => pure [])
  | _ + 1, _ => pure []

/-- `Thrown::exception`: an exception as the host keeps it, unless it is the engine's own
interruption. -/
def exception (thrown : Value) : Op E GuestException := do
  let session ← get
  match E.isUncatchable session.heap thrown with
  | true => throw .interrupted
  | false => do
      let isError := E.isError thrown
      let name ← name thrown isError
      let message ← message thrown isError
      let stack ← stack thrown isError
      let prototypes ← prototypes E.walk thrown
      pure ⟨name, message, stack, prototypes, ⟨thrown, session.context⟩⟩

def intoError (thrown : Value) : Op E Error :=
  Process.handle (.guest <$> exception thrown) fun error => pure error

end Thrown

/-- The failures of the engine as errors: an exception is read, the rest is converted. -/
def capture (raw : Raw E α) : Op E α :=
  raw.handle fun
    | .exception thrown => do throw (← Thrown.intoError thrown)
    | fault => throw fault.convert

def settled : Op E Unit := Process.check fun session => session.loans.settled

end GuestJs.QuickJs
