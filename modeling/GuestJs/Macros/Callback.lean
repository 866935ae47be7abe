import GuestJs.Macros.HostClass
import GuestJs.Marshal.Args

/-!
# The callbacks of a host class

What the macro emits for a member's function: the expressions of its receiver and of its parameters,
in the order in which they are evaluated.
-/

namespace GuestJs

inductive Receiver where
  | none
  | shared
  | exclusive
  deriving DecidableEq

def Receiver.new : ReceiverSyntax → Except MacroError Receiver
  | .none => .ok .none
  | .shared => .ok .shared
  | .exclusive => .ok .exclusive
  | .other => .error "a host receiver requires &self or &mut self"

/-- An expression that an emitted callback evaluates for a receiver or a parameter. A borrow of what
is not a payload, of a slice or a text, is one of its own. -/
inductive Expression where
  | thisPayload (kind : BorrowKind) (type : PayloadType)
  | next
  | nextPayload (kind : BorrowKind) (type : PayloadType)
  | nextBorrow (kind : BorrowKind)
  | rest
  | this
  | enter
  | context
  | state (type : String)
  deriving DecidableEq

def Receiver.expression (self : PayloadType) : Receiver → Option Expression
  | .none => .none
  | .shared => some (.thisPayload .shared self)
  | .exclusive => some (.thisPayload .exclusive self)

/-- A parameter by its role and, where it borrows a payload, the type of that. -/
structure Parameter where
  role : ParameterRole
  payload : Option PayloadType

namespace Parameter

def borrow (kind : BorrowKind) : Option PayloadType → Expression
  | some type => .nextPayload kind type
  | none => .nextBorrow kind

def expression (parameter : Parameter) : Expression :=
  match parameter.role with
  | .value => .next
  | .borrow => borrow .shared parameter.payload
  | .borrowMut => borrow .exclusive parameter.payload
  | .rest => .rest
  | .enter => .enter
  | .this | .thisRef => .this
  | .context => .context
  | .state type => .state type

end Parameter

structure ClassCallback where
  self : PayloadType
  receiver : Receiver
  parameters : List Parameter
  asynchronous : Bool

namespace ClassCallback

/-- `class_callback`: an asynchronous function has its arguments evaluated before the future is made,
and its receiver, if it had one, in the future. -/
def expressions (callback : ClassCallback) : List Expression :=
  if callback.asynchronous then callback.parameters.map Parameter.expression
  else (callback.receiver.expression callback.self).toList ++
    callback.parameters.map Parameter.expression

/-- The macro accepts the signature, and the callback is the one it emits for it. -/
def Emitted (callback : ClassCallback) : Prop :=
  ∃ signature callable, Callable.new signature = .ok callable ∧
    callable.validateAsync false = .ok () ∧ Receiver.new signature.receiver = .ok callback.receiver ∧
    callback.parameters.map Parameter.role = callable.parameters ∧
    callback.asynchronous = callable.asynchronous

end ClassCallback

end GuestJs
