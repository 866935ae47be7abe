import GuestJs.Library.Rounding
import GuestJs.QuickJs.Buffers
import GuestJs.QuickJs.Values

/-!
# Conversions of primitive values

The direct conversions of booleans, integers, characters and strings. Each looks at the kind of the
guest value first; a value of another kind is a mismatch that names the kinds it could have been.
-/

namespace GuestJs.Marshal

open QuickJs

/-- What conversions take from outside: the bytes at an address of guest memory, and texts in which
the standard library renders values. -/
structure Platform (E : Engine) where
  bytes : E.Heap → Nat → Nat → List UInt8
  length_bytes : ∀ heap address length, (bytes heap address length).length = length
  quoted : String → String
  decimal : Number → String
  lossy : List UInt8 → String

/-- The kinds a conversion accepts, each named once. -/
structure Expected where
  names : List String

namespace Expected

def push (expected : Expected) (name : String) : Expected :=
  if name ∈ expected.names then expected else ⟨expected.names ++ [name]⟩

def of (names : List String) : Expected := names.foldl push ⟨[]⟩

def toString (expected : Expected) : String :=
  match expected.names.getLast? with
  | none => "nothing"
  | some last =>
      match expected.names.dropLast with
      | [] => last
      | rest => ", ".intercalate rest ++ " or " ++ last

def mismatch (expected : Expected) (found : Kind) : Error :=
  .conversion expected.toString found.toString

end Expected

inductive IntegerType where
  | i8 | i16 | i32 | i64 | isize
  | u8 | u16 | u32 | u64 | usize
  deriving DecidableEq

namespace IntegerType

def toString : IntegerType → String
  | i8 => "i8"
  | i16 => "i16"
  | i32 => "i32"
  | i64 => "i64"
  | isize => "isize"
  | u8 => "u8"
  | u16 => "u16"
  | u32 => "u32"
  | u64 => "u64"
  | usize => "usize"

def min : IntegerType → Int
  | i8 => -2 ^ 7
  | i16 => -2 ^ 15
  | i32 => -2 ^ 31
  | i64 | isize => -2 ^ 63
  | u8 | u16 | u32 | u64 | usize => 0

def max : IntegerType → Int
  | i8 => 2 ^ 7 - 1
  | i16 => 2 ^ 15 - 1
  | i32 => 2 ^ 31 - 1
  | i64 | isize => 2 ^ 63 - 1
  | u8 => 2 ^ 8 - 1
  | u16 => 2 ^ 16 - 1
  | u32 => 2 ^ 32 - 1
  | u64 | usize => 2 ^ 64 - 1

def Contains (type : IntegerType) (integer : Int) : Prop :=
  type.min ≤ integer ∧ integer ≤ type.max

instance (type : IntegerType) (integer : Int) : Decidable (type.Contains integer) :=
  inferInstanceAs (Decidable (_ ∧ _))

/-- The types every value of which is a double: `number!`, and not `safe_integer!`. -/
def isNarrow : IntegerType → Bool
  | i8 | i16 | i32 | u8 | u16 | u32 => true
  | i64 | isize | u64 | usize => false

end IntegerType

def maxSafeInteger : Int := 9007199254740991

variable {E : Engine}

def boolFromGuest (value : Value) : Op E Bool :=
  match kindOf E value with
  | .boolean => asBool value
  | kind => throw ((Expected.of ["boolean"]).mismatch kind)

def i64FromGuest (value : Value) : Op E Int :=
  match kindOf E value with
  | .number | .bigint => asI64 value
  | kind => throw ((Expected.of ["number", "bigint"]).mismatch kind)

def f64FromGuest (value : Value) : Op E Number :=
  match kindOf E value with
  | .number => asF64 value
  | kind => throw ((Expected.of ["number"]).mismatch kind)

/-- `str` and `String`: the text is borrowed, then copied. -/
def stringFromGuest (value : Value) : Op E String :=
  match kindOf E value with
  | .string => borrowStr value
  | kind => throw ((Expected.of ["string"]).mismatch kind)

def singleChar (text : String) : Option Char :=
  match text.toList with
  | [c] => some c
  | _ => none

def charFromGuest (platform : Platform E) (value : Value) : Op E Char := do
  let text ← stringFromGuest value
  match singleChar text with
  | some c => pure c
  | none => throw (.conversion "single-character string" (platform.quoted text))

namespace IntegerType

/-- `number!` and `safe_integer!`: a wide integer becomes a double, rounded, before it is checked. -/
def toGuest (type : IntegerType) (integer : Int) : Op E Value :=
  match type.isNarrow with
  | true => pure (.number (.finite integer))
  | false =>
      let number := Rounding.nearest 53 integer
      if number.natAbs ≤ maxSafeInteger then pure (.number (.finite number))
      else throw (.conversion "safe integer" (ToString.toString integer))

/-- An `i64` as it is, and any other type through it: `integer!`. -/
def fromGuest (type : IntegerType) (value : Value) : Op E Int :=
  match type with
  | .i64 => i64FromGuest value
  | type => do
      let integer ← i64FromGuest value
      if type.Contains integer then pure integer
      else throw (.conversion type.toString (ToString.toString integer))

end IntegerType

/-- The slice of bytes that a conversion reads: `<[u8]>::from_guest_ref`. -/
def u8Element : Element := ⟨.uint8, 1, 1⟩

def bytesToGuest (bytes : List UInt8) : Op E Value := do
  newTypedArray .uint8 (← newArrayBuffer bytes) 0 bytes.length

end GuestJs.Marshal
