import GuestJs.Marshal.Datum

/-!
# Serializing into a guest

The serializer makes the guest value bottom up, except that an object is made before the values of
its entries. Keys and values are assigned as a script would assign them.
-/

namespace GuestJs.Marshal

open QuickJs

variable {E : Engine}

def noneToGuest : Op E Value := pure .null

def unitToGuest : Op E Value := pure .undefined

/-- `Serializer::variant`: an object whose one property has the variant for its name. -/
def variant (name : String) (value : Value) : Op E Value := do
  let object ← newObject
  set object (← newString name) value
  pure object

structure ArraySerializer where
  items : List Value

namespace ArraySerializer

def new : ArraySerializer := ⟨[]⟩

def serializeElement (array : ArraySerializer) (value : Op E Value) : Op E ArraySerializer := do
  let item ← value
  pure ⟨array.items ++ [item]⟩

def finish (array : ArraySerializer) : Op E Value := newArray array.items

end ArraySerializer

structure ObjectSerializer where
  object : Value
  key : Option Value

namespace ObjectSerializer

def new : Op E ObjectSerializer := do
  let object ← newObject
  pure ⟨object, none⟩

def serializeKey (serializer : ObjectSerializer) (key : Op E Value) : Op E ObjectSerializer := do
  let key ← key
  pure { serializer with key := some key }

def serializeValue (serializer : ObjectSerializer) (value : Op E Value) :
    Op E ObjectSerializer := do
  match serializer.key with
  | none => throw (.unexpected "a map value was serialized before its key" none)
  | some key => do
      set serializer.object key (← value)
      pure { serializer with key := none }

/-- An entry of a map, and through it a field of a struct. -/
def serializeEntry (serializer : ObjectSerializer) (key : String) (value : Op E Value) :
    Op E ObjectSerializer := do
  let serializer ← serializer.serializeKey (newString key)
  serializer.serializeValue value

def finish (serializer : ObjectSerializer) : Op E Value := pure serializer.object

end ObjectSerializer

def Scalar.serialize : Scalar → Op E Value
  | .bool b => pure (.boolean b)
  | .integer type n => type.toGuest n
  -- What a serializer without a method for them gets from serde.
  | .wide signed _ =>
      throw (.unexpected ((if signed then "i128" else "u128") ++ " is not supported") Option.none)
  | .float number => pure (.number number)
  | .char c => newString (String.singleton c)
  | .string text => newString text
  | .bytes content => bytesToGuest content
  | .none => noneToGuest
  | .unit | .unitStruct => unitToGuest
  | .unitVariant name => newString name

/-- A newtype is its content; a newtype variant is wrapped after its content is made. -/
def WrapperForm.finish (form : WrapperForm) (value : Value) : Op E Value :=
  match form with
  | .some | .newtypeStruct => pure value
  | .newtypeVariant name => variant name value

def ItemsForm.finish (form : ItemsForm) (array : ArraySerializer) : Op E Value :=
  match form with
  | .seq | .tuple | .tupleStruct => array.finish
  | .tupleVariant name => do variant name (← array.finish)

def FieldsForm.finish (form : FieldsForm) (serializer : ObjectSerializer) : Op E Value :=
  match form with
  | .map | .struct => serializer.finish
  | .structVariant name => do variant name (← serializer.finish)

mutual

def Datum.serialize : Datum → Op E Value
  | .scalar value => value.serialize
  | .wrapper form value => do form.finish (← value.serialize)
  | .items form values => do form.finish (← serializeItems .new values)
  | .fields form entries => do form.finish (← serializeFields (← ObjectSerializer.new) entries)

def serializeItems (array : ArraySerializer) : List Datum → Op E ArraySerializer
  | [] => pure array
  | value :: values => do serializeItems (← array.serializeElement value.serialize) values

def serializeFields (serializer : ObjectSerializer) :
    List (String × Datum) → Op E ObjectSerializer
  | [] => pure serializer
  | (key, value) :: entries => do
      serializeFields (← serializer.serializeEntry key value.serialize) entries

end

end GuestJs.Marshal
