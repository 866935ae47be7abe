import GuestJs.Marshal.Deserializer

/-!
# The types with both conversions

The types of the standard library that convert from a guest value by themselves and through serde:
the two conversions are written out side by side.
-/

namespace GuestJs.Marshal

open QuickJs

inductive Native where
  | bool
  | integer (type : IntegerType)
  | char
  | string
  | option (inner : Native)
  | vec (element : Native)
  | tuple (elements : List Native)
  | array (length : Nat) (element : Native)
  | map (value : Native)

variable {E : Engine} (platform : Platform E)

namespace Native

mutual

/-- `T::from_guest` -/
def fromGuest : Native → Value → Op E Datum
  | bool, value => (fun b => .scalar (.bool b)) <$> boolFromGuest value
  | integer type, value => (fun n => .scalar (.integer type n)) <$> type.fromGuest value
  | char, value => (fun c => .scalar (.char c)) <$> charFromGuest platform value
  | string, value => (fun text => .scalar (.string text)) <$> stringFromGuest value
  | option inner, value => .ofOption <$> optionFromGuest inner.fromGuest value
  | vec element, value => .items .seq <$> vecFromGuest element.fromGuest value
  | tuple elements, value => .items .tuple <$> tupleFromGuest (fromGuestEach elements) value
  | array length element, value =>
      .items .tuple <$> arrayFromGuest length element.fromGuest value
  | map element, value => .fields .map <$> mapFromGuest element.fromGuest value

def fromGuestEach : List Native → List (Value → Op E Datum)
  | [] => []
  | type :: types => type.fromGuest :: fromGuestEach types

end

mutual

/-- `T::to_guest`, for a value of the type: the source has no others. -/
def toGuest : Native → Datum → Op E Value
  | bool, .scalar (.bool b) => pure (.boolean b)
  | integer type, .scalar (.integer _ n) => type.toGuest n
  | char, .scalar (.char c) => newString (String.singleton c)
  | string, .scalar (.string text) => newString text
  | option _, .scalar .none => pure .null
  | option inner, .wrapper .some value => inner.toGuest value
  | vec element, .items .seq values => vecToGuest element.toGuest values
  | tuple elements, .items .tuple values => tupleToGuest (toGuestEach elements) values
  | array _ element, .items .tuple values => vecToGuest element.toGuest values
  | map element, .fields .map entries => mapToGuest element.toGuest entries
  | _, _ => throw (.unexpected "not a value of the type" none)

def toGuestEach : List Native → List (Datum → Op E Value)
  | [] => []
  | type :: types => type.toGuest :: toGuestEach types

end

mutual

/-- `Serde::<T>::from_guest`, which is `T::deserialize`. -/
def deserialize : Native → Value → Op E Datum
  | bool, value => (fun b => .scalar (.bool b)) <$> deserializeAny (boolVisitor platform) value
  | integer type, value =>
      (fun n => .scalar (.integer type n)) <$> deserializeAny (integerVisitor platform type) value
  | char, value => (fun c => .scalar (.char c)) <$> deserializeAny (charVisitor platform) value
  | string, value =>
      (fun text => .scalar (.string text)) <$> deserializeAny (stringVisitor platform) value
  | option inner, value =>
      .ofOption <$> deserializeOption (optionVisitor platform inner.deserialize) value
  | vec element, value =>
      .items .seq <$> deserializeAny (vecVisitor platform element.deserialize) value
  | tuple elements, value =>
      .items .tuple <$> deserializeAny (tupleVisitor platform (deserializeEach elements)) value
  | array length element, value =>
      .items .tuple <$> deserializeAny (arrayVisitor platform length element.deserialize) value
  | map element, value =>
      .fields .map <$> deserializeAny (mapVisitor platform element.deserialize) value

def deserializeEach : List Native → List (Value → Op E Datum)
  | [] => []
  | type :: types => type.deserialize :: deserializeEach types

end

/-- The values of a type. -/
inductive Has : Native → Datum → Prop where
  | bool (b : Bool) : Has bool (.scalar (.bool b))
  | integer {type : IntegerType} {n : Int} (hn : type.Contains n) :
      Has (integer type) (.scalar (.integer type n))
  | char (c : Char) : Has char (.scalar (.char c))
  | string (text : String) : Has string (.scalar (.string text))
  | none (inner : Native) : Has (option inner) (.scalar .none)
  | some {inner : Native} {value : Datum} (hvalue : Has inner value) :
      Has (option inner) (.wrapper .some value)
  | vec {element : Native} {values : List Datum} (hvalues : ∀ value ∈ values, Has element value) :
      Has (vec element) (.items .seq values)
  | tuple {elements : List Native} {values : List Datum} (hlength : elements.length = values.length)
      (hvalues : ∀ pair ∈ elements.zip values, Has pair.1 pair.2) :
      Has (tuple elements) (.items .tuple values)
  | array {element : Native} {values : List Datum} (hvalues : ∀ value ∈ values, Has element value) :
      Has (array values.length element) (.items .tuple values)
  | map {element : Native} {entries : List (String × Datum)} (hkeys : (entries.map Prod.fst).Nodup)
      (hentries : ∀ entry ∈ entries, Has element entry.2) :
      Has (map element) (.fields .map entries)

end Native

end GuestJs.Marshal
