import GuestJs.Errors

/-!
# What a backend speaks of

The kinds of values a backend tells apart, the properties it defines, and the typed arrays it makes.
-/

namespace GuestJs

inductive Kind where
  | undefined
  | null
  | boolean
  | number
  | bigint
  | string
  | symbol
  | array
  | function
  | promise
  | arrayBuffer
  | typedArray
  | dataView
  | set
  | object
  deriving DecidableEq

def Kind.toString : Kind → String
  | .undefined => "undefined"
  | .null => "null"
  | .boolean => "boolean"
  | .number => "number"
  | .bigint => "bigint"
  | .string => "string"
  | .symbol => "symbol"
  | .array => "array"
  | .function => "function"
  | .promise => "promise"
  | .arrayBuffer => "ArrayBuffer"
  | .typedArray => "typed array"
  | .dataView => "DataView"
  | .set => "Set"
  | .object => "object"

inductive WellKnown where
  | iterator
  | asyncIterator
  | toPrimitive
  | toStringTag
  | hasInstance
  deriving DecidableEq

inductive IteratorKind where
  | sync
  | async
  deriving DecidableEq

def IteratorKind.symbol : IteratorKind → WellKnown
  | .sync => .iterator
  | .async => .asyncIterator

inductive Property where
  | value (value : Value) (writable enumerable configurable : Bool)
  | accessor (get set : Option Value) (enumerable configurable : Bool)
  deriving DecidableEq

inductive PromiseState where
  | pending
  | fulfilled (value : Value)
  | rejected (reason : Value)
  deriving DecidableEq

inductive ElementType where
  | int8
  | uint8
  | uint8Clamped
  | int16
  | uint16
  | int32
  | uint32
  | bigInt64
  | bigUint64
  | float16
  | float32
  | float64
  deriving DecidableEq

structure Element where
  type : ElementType
  size : Nat
  align : Nat

/-- `Element::check`: a slice at `address` can be read as a slice of the element. -/
def Element.check (element : Element) (address length : Nat) : Except Error Unit :=
  if length = 0 then .ok ()
  else if address % element.align = 0 ∧ element.size ≠ 0 ∧ length % element.size = 0 then .ok ()
  else
    .error (.conversion
      (toString element.align ++ "-byte aligned bytes in multiples of " ++ toString element.size)
      (toString length ++ " bytes"))

structure PayloadType where
  id : Nat
  name : String
  deriving DecidableEq

end GuestJs
