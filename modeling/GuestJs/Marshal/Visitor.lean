import GuestJs.Marshal.Collections

/-!
# Deserializers and visitors

The deserializer looks at the guest value and calls the method of the visitor that fits it, whatever
type is asked for; a visitor refuses what it has no method for. Errors carry what the visitor expects
and what was found in serde's words.
-/

namespace GuestJs.Marshal

open QuickJs

inductive Unexpected where
  | bool (b : Bool)
  | signed (n : Int)
  | float (number : Number)
  | str (text : String)
  | bytes
  | unit
  | option
  | newtypeStruct
  | seq
  | map
  | enum
  | unitVariant
  deriving DecidableEq

variable {E : Engine} {α β κ : Type}

def Unexpected.toString (platform : Platform E) : Unexpected → String
  | .bool b => "boolean `" ++ ToString.toString b ++ "`"
  | .signed n => "integer `" ++ ToString.toString n ++ "`"
  | .float number => "floating point `" ++ platform.decimal number ++ "`"
  | .str text => "string " ++ platform.quoted text
  | .bytes => "byte array"
  | .unit => "unit value"
  | .option => "Option value"
  | .newtypeStruct => "newtype struct"
  | .seq => "sequence"
  | .map => "map"
  | .enum => "enum"
  | .unitVariant => "unit variant"

/-! ## Errors of serde -/

def custom (message : String) : Error := .unexpected message none

def invalidType (platform : Platform E) (unexpected : Unexpected) (expected : String) : Error :=
  .conversion expected (unexpected.toString platform)

def invalidValue (platform : Platform E) (unexpected : Unexpected) (expected : String) : Error :=
  invalidType platform unexpected expected

def invalidLength (length : Nat) (expected : String) : Error :=
  custom ("invalid length " ++ toString length ++ ", expected " ++ expected)

def missingField (field : String) : Error := custom ("missing field `" ++ field ++ "`")

def duplicateField (field : String) : Error := custom ("duplicate field `" ++ field ++ "`")

/-- `OneOf`: the names in backquotes, two of them joined by an "or". -/
def oneOf (names : List String) : String :=
  match names.map fun name => "`" ++ name ++ "`" with
  | [name] => name
  | [first, second] => first ++ " or " ++ second
  | names => "one of " ++ ", ".intercalate names

def unknownVariant (variant : String) (expected : List String) : Error :=
  custom <| "unknown variant `" ++ variant ++ "`, " ++
    match expected with
    | [] => "there are no variants"
    | names => "expected " ++ oneOf names

/-- `ArrayAccess`: the elements not yet taken. -/
structure ArrayAccess where
  items : List Value

namespace ArrayAccess

def nextElementSeed (access : ArrayAccess) (seed : Value → Op E α) :
    Op E (Option (α × ArrayAccess)) :=
  match access.items with
  | [] => pure none
  | item :: items => do
      let element ← seed item
      pure (some (element, ⟨items⟩))

def sizeHint (access : ArrayAccess) : Nat := access.items.length

end ArrayAccess

/-- `ObjectAccess`: the entries not yet taken, and the value of the key taken last. -/
structure ObjectAccess where
  entries : List (Value × Value)
  value : Option Value

namespace ObjectAccess

def new (entries : List (Value × Value)) : ObjectAccess := ⟨entries, none⟩

def nextKeySeed (access : ObjectAccess) (seed : Value → Op E κ) :
    Op E (Option (κ × ObjectAccess)) :=
  match access.entries with
  | [] => pure none
  | (key, value) :: entries => do
      let key ← seed key
      pure (some (key, ⟨entries, some value⟩))

def nextValueSeed (access : ObjectAccess) (seed : Value → Op E α) : Op E (α × ObjectAccess) :=
  match access.value with
  | none => throw (.unexpected "a map value was deserialized before its key" none)
  | some value => do
      let value ← seed value
      pure (value, { access with value := none })

def sizeHint (access : ObjectAccess) : Nat := access.entries.length

end ObjectAccess

/-- What `visit_enum` is called with: serde's own deserializer of a string, or a `VariantAccess`. -/
inductive EnumAccess where
  | text (variant : String)
  | entry (variant value : Value)

/-- A visitor says what it expects, and has the methods it needs; the others refuse. -/
structure Visitor (platform : Platform E) (α : Type) where
  expecting : String
  visitBool : Bool → Op E α := fun b => throw (invalidType platform (.bool b) expecting)
  visitI64 : Int → Op E α := fun n => throw (invalidType platform (.signed n) expecting)
  visitF64 : Number → Op E α := fun number =>
    throw (invalidType platform (.float number) expecting)
  visitStr : String → Op E α := fun text => throw (invalidType platform (.str text) expecting)
  visitBytes : List UInt8 → Op E α := fun _ => throw (invalidType platform .bytes expecting)
  visitNone : Op E α := throw (invalidType platform .option expecting)
  visitSome : Value → Op E α := fun _ => throw (invalidType platform .option expecting)
  visitUnit : Op E α := throw (invalidType platform .unit expecting)
  visitNewtypeStruct : Value → Op E α := fun _ =>
    throw (invalidType platform .newtypeStruct expecting)
  visitSeq : ArrayAccess → Op E α := fun _ => throw (invalidType platform .seq expecting)
  visitMap : ObjectAccess → Op E α := fun _ => throw (invalidType platform .map expecting)
  visitEnum : EnumAccess → Op E α := fun _ => throw (invalidType platform .enum expecting)

/-! ## The deserializer -/

/-- `number.fract() == 0.0 && number.abs() <= MAX_SAFE_INTEGER` -/
def isSafeInteger : Number → Bool
  | .finite q => q.den = 1 ∧ q.num.natAbs ≤ maxSafeInteger
  | .negativeZero => true
  | .infinity _ | .nan => false

/-- `number as i64`: towards zero, and to the nearest bound when out of range. -/
def asInteger : Number → Int
  | .finite q => max IntegerType.i64.min (min IntegerType.i64.max (q.num.tdiv q.den))
  | .negativeZero | .nan => 0
  | .infinity negative => if negative then IntegerType.i64.min else IntegerType.i64.max

def expectedKinds : Expected :=
  Expected.of ["undefined", "null", "boolean", "number", "bigint", "string", "array", "ArrayBuffer",
    "typed array", "DataView", "object"]

/-- The loan of the bytes lasts for the visit, and is given back however that ends. -/
def visitBorrowed (platform : Platform E) (value : Value) (visit : List UInt8 → Op E α) :
    Op E α := do
  let bytes ← fromGuestRef u8Element value
  let session ← (MonadState.get : Op E (Session E))
  let giveBack : Op E Unit :=
    modify fun session => { session with loans := bytes.drop session.loans }
  let result ← Process.handle
    (visit (platform.bytes session.heap bytes.address bytes.window.byteLength))
    fun error => do
      giveBack
      throw error
  giveBack
  pure result

variable {platform : Platform E}

def visitNumber (visitor : Visitor platform α) (number : Number) : Op E α :=
  match isSafeInteger number with
  | true => visitor.visitI64 (asInteger number)
  | false => visitor.visitF64 number

def deserializeAny (visitor : Visitor platform α) (value : Value) : Op E α :=
  match kindOf E value with
  | .undefined | .null => visitor.visitUnit
  | .boolean => do visitor.visitBool (← boolFromGuest value)
  | .number => do visitNumber visitor (← f64FromGuest value)
  | .bigint => do visitor.visitI64 (← i64FromGuest value)
  | .string => do visitor.visitStr (← stringFromGuest value)
  | .array => do visitor.visitSeq ⟨← Elements.read value⟩
  | .arrayBuffer | .typedArray | .dataView => visitBorrowed platform value visitor.visitBytes
  | .object => do visitor.visitMap (.new (← Entries.read value))
  | kind => throw (expectedKinds.mismatch kind)

def deserializeOption (visitor : Visitor platform α) (value : Value) : Op E α :=
  match kindOf E value with
  | .undefined | .null => visitor.visitNone
  | _ => visitor.visitSome value

def deserializeNewtypeStruct (visitor : Visitor platform α) (value : Value) : Op E α :=
  visitor.visitNewtypeStruct value

def deserializeEnum (visitor : Visitor platform α) (value : Value) : Op E α :=
  match kindOf E value with
  | .string => do visitor.visitEnum (.text (← stringFromGuest value))
  | .object => do
      let entry ← Entries.exact (← Entries.read value)
      visitor.visitEnum (.entry entry.1 entry.2)
  | _ => deserializeAny visitor value

end GuestJs.Marshal
