import GuestJs.Marshal.Datum
import GuestJs.Marshal.Visitor

/-!
# Deserializing from a guest

The visitors of serde for the types of the standard library, and those its derive macro writes. A
type may refer to itself, so types are given by one layer for each name, and reading goes as deep as
a bound allows: it stands for the stack of the host.
-/

namespace GuestJs.Marshal

open QuickJs

variable {E : Engine} {α β κ : Type} (platform : Platform E)

/-! ## Types of the standard library -/

def boolVisitor : Visitor platform Bool where
  expecting := "a boolean"
  visitBool := fun b => pure b

def integerVisitor (type : IntegerType) : Visitor platform Int where
  expecting := type.toString
  visitI64 := fun n =>
    match type with
    | .i64 => pure n
    | type =>
        if type.Contains n then pure n
        else throw (invalidValue platform (.signed n) type.toString)

def charVisitor : Visitor platform Char where
  expecting := "a character"
  visitStr := fun text =>
    match singleChar text with
    | some c => pure c
    | none => throw (invalidValue platform (.str text) "a character")

def utf8 (bytes : List UInt8) : Option String := String.fromUTF8? ⟨bytes.toArray⟩

def stringVisitor : Visitor platform String where
  expecting := "a string"
  visitStr := fun text => pure text
  visitBytes := fun bytes =>
    match utf8 bytes with
    | some text => pure text
    | none => throw (invalidValue platform .bytes "a string")

def unitVisitor : Visitor platform Unit where
  expecting := "unit"
  visitUnit := pure ()

def optionVisitor (inner : Value → Op E α) : Visitor platform (Option α) where
  expecting := "option"
  visitUnit := pure none
  visitNone := pure none
  visitSome := fun value => some <$> inner value

/-- The loop over `next_element`; the hint is the number of elements there are. -/
def takeAll (element : Value → Op E α) : Nat → ArrayAccess → Op E (List α)
  | 0, _ => pure []
  | count + 1, access => do
      match ← access.nextElementSeed element with
      | none => pure []
      | some (first, access) => do
          let rest ← takeAll element count access
          pure (first :: rest)

def vecVisitor (element : Value → Op E α) : Visitor platform (List α) where
  expecting := "a sequence"
  visitSeq := fun access => takeAll element access.sizeHint access

/-- One `next_element` for each type; what is left over is not looked at. -/
def takeEach (expected : String) : Nat → List (Value → Op E α) → ArrayAccess → Op E (List α)
  | _, [], _ => pure []
  | count, element :: elements, access => do
      match ← access.nextElementSeed element with
      | none => throw (invalidLength count expected)
      | some (first, access) => do
          let rest ← takeEach expected (count + 1) elements access
          pure (first :: rest)

def eachVisitor (expecting expected : String) (elements : List (Value → Op E α)) :
    Visitor platform (List α) where
  expecting := expecting
  visitSeq := takeEach expected 0 elements

def tupleVisitor (elements : List (Value → Op E α)) : Visitor platform (List α) :=
  eachVisitor platform ("a tuple of size " ++ toString elements.length)
    ("a tuple of size " ++ toString elements.length) elements

def arrayVisitor (length : Nat) (element : Value → Op E α) : Visitor platform (List α) :=
  eachVisitor platform
    (if length = 0 then "an empty array" else "an array of length " ++ toString length)
    ("an array of length " ++ toString length) (List.replicate length element)

/-- The loop over `next_key`, with what to do at each key. -/
def takeEntries (key : Value → Op E κ) (entry : β → κ → ObjectAccess → Op E (β × ObjectAccess)) :
    Nat → β → ObjectAccess → Op E β
  | 0, found, _ => pure found
  | count + 1, found, access => do
      match ← access.nextKeySeed key with
      | none => pure found
      | some (key', access) => do
          let (found, access) ← entry found key' access
          takeEntries key entry count found access

def takeValue (value : Value → Op E α) (entries : List (String × α)) (key : String)
    (access : ObjectAccess) : Op E (List (String × α) × ObjectAccess) := do
  let (value, access) ← access.nextValueSeed value
  pure (StdMap.insert entries key value, access)

def mapVisitor (value : Value → Op E α) : Visitor platform (List (String × α)) where
  expecting := "a map"
  visitMap := fun access =>
    takeEntries (deserializeAny (stringVisitor platform)) (takeValue value) access.sizeHint []
      access

/-- A byte string is also read from a sequence of numbers and from a text. -/
def bytesVisitor : Visitor platform (List UInt8) where
  expecting := "byte array"
  visitStr := fun text => pure text.toUTF8.toList
  visitBytes := fun bytes => pure bytes
  visitSeq := fun access => do
    let numbers ← takeAll (deserializeAny (integerVisitor platform .u8)) access.sizeHint access
    pure (numbers.map fun n => UInt8.ofNat n.toNat)

/-! ## Derived types -/

/-- A type as the fields and elements of another: how it is read, and what it is when it is absent. -/
structure Seed (E : Engine) where
  deserialize : Value → Op E Datum
  missing : String → Except Error Datum

def withElements (expecting : String) (count : Nat) : String :=
  expecting ++ " with " ++ if count = 1 then "1 element" else toString count ++ " elements"

def unitStructVisitor (name : String) : Visitor platform Unit where
  expecting := "unit struct " ++ name
  visitUnit := pure ()

def newtypeStructVisitor (name : String) (inner : Value → Op E α) : Visitor platform α where
  expecting := "tuple struct " ++ name
  visitNewtypeStruct := inner
  visitSeq := fun access => do
    match ← access.nextElementSeed inner with
    | none => throw (invalidLength 0 (withElements ("tuple struct " ++ name) 1))
    | some (value, _) => pure value

def fieldsVisitor (expecting : String) (elements : List (Value → Op E α)) :
    Visitor platform (List α) :=
  eachVisitor platform expecting (withElements expecting elements.length) elements

/-- The field of a name; a name no field has is passed over. -/
def fieldVisitor (fields : List (String × Seed E)) :
    Visitor platform (Option (String × Seed E)) where
  expecting := "field identifier"
  visitStr := fun text => pure (fields.find? fun field => field.1 = text)
  visitBytes := fun bytes => pure (fields.find? fun field => some field.1 = utf8 bytes)

def takeField (ignore : Value → Op E Unit) (found : List (String × Datum))
    (field : Option (String × Seed E)) (access : ObjectAccess) :
    Op E (List (String × Datum) × ObjectAccess) := do
  match field with
  | none => do
      let (_, access) ← access.nextValueSeed ignore
      pure (found, access)
  | some (name, seed) => do
      if name ∈ found.map Prod.fst then throw (duplicateField name)
      let (value, access) ← access.nextValueSeed seed.deserialize
      pure (found ++ [(name, value)], access)

/-- The fields in their order, each from what was found or else from its absence. -/
def settleFields (fields : List (String × Seed E)) (found : List (String × Datum)) :
    Except Error (List (String × Datum)) :=
  fields.mapM fun (name, seed) =>
    match found.lookup name with
    | some value => .ok (name, value)
    | none => (seed.missing name).map fun value => (name, value)

def structVisitor (expecting : String) (ignore : Value → Op E Unit)
    (fields : List (String × Seed E)) : Visitor platform (List (String × Datum)) where
  expecting := expecting
  visitSeq := fun access => do
    let values ← takeEach (withElements expecting fields.length) 0
      (fields.map fun field => field.2.deserialize) access
    pure ((fields.map Prod.fst).zip values)
  visitMap := fun access => do
    let found ← takeEntries (deserializeAny (fieldVisitor platform fields)) (takeField ignore)
      access.sizeHint [] access
    match settleFields fields found with
    | .ok entries => pure entries
    | .error error => throw error

def variantVisitor (variants : List (String × VariantShape (Seed E))) :
    Visitor platform (String × VariantShape (Seed E)) where
  expecting := "variant identifier"
  visitStr := fun text =>
    match variants.find? fun variant => variant.1 = text with
    | some variant => pure variant
    | none => throw (unknownVariant text (variants.map Prod.fst))
  visitBytes := fun bytes =>
    match variants.find? fun variant => some variant.1 = utf8 bytes with
    | some variant => pure variant
    | none => throw (unknownVariant (platform.lossy bytes) (variants.map Prod.fst))

/-- A string names a variant and has nothing for its content: `UnitOnly`. -/
def readUnitOnly (name : String) : VariantShape (Seed E) → Op E Datum
  | .unit => pure (.scalar (.unitVariant name))
  | .newtype _ => throw (invalidType platform .unitVariant "newtype variant")
  | .tuple _ => throw (invalidType platform .unitVariant "tuple variant")
  | .struct _ => throw (invalidType platform .unitVariant "struct variant")

/-- `VariantAccess`: the content is read as the variant asks. -/
def readVariant (enum : String) (ignore : Value → Op E Unit) (name : String) (value : Value) :
    VariantShape (Seed E) → Op E Datum
  | .unit => do
      deserializeAny (unitVisitor platform) value
      pure (.scalar (.unitVariant name))
  | .newtype seed => .wrapper (.newtypeVariant name) <$> seed.deserialize value
  | .tuple elements =>
      .items (.tupleVariant name) <$> deserializeAny
        (fieldsVisitor platform ("tuple variant " ++ enum ++ "::" ++ name)
          (elements.map Seed.deserialize)) value
  | .struct fields =>
      .fields (.structVariant name) <$> deserializeAny
        (structVisitor platform ("struct variant " ++ enum ++ "::" ++ name) ignore fields) value

def enumVisitor (name : String) (ignore : Value → Op E Unit)
    (variants : List (String × VariantShape (Seed E))) : Visitor platform Datum where
  expecting := "enum " ++ name
  visitEnum := fun access => do
    match access with
    | .text text => do
        let variant ← (variantVisitor platform variants).visitStr text
        readUnitOnly platform variant.1 variant.2
    | .entry key value => do
        let variant ← deserializeAny (variantVisitor platform variants) key
        readVariant platform name ignore variant.1 value variant.2

/-! ## All types -/

namespace VariantShape

def mapParts (f : α → β) : VariantShape α → VariantShape β
  | unit => unit
  | newtype value => newtype (f value)
  | tuple elements => tuple (elements.map f)
  | struct fields => struct (fields.map fun field => (field.1, f field.2))

end VariantShape

namespace Shape

def mapParts (f : α → β) : Shape α → Shape β
  | bool => bool
  | integer type => integer type
  | char => char
  | string => string
  | bytes => bytes
  | unit => unit
  | unitStruct name => unitStruct name
  | option inner => option (f inner)
  | newtypeStruct name inner => newtypeStruct name (f inner)
  | seq element => seq (f element)
  | tuple elements => tuple (elements.map f)
  | array length element => array length (f element)
  | tupleStruct name elements => tupleStruct name (elements.map f)
  | map value => map (f value)
  | struct name fields => struct name (fields.map fun field => (field.1, f field.2))
  | enum name variants => enum name (variants.map fun variant => (variant.1, variant.2.mapParts f))

/-- `missing_field`: an absent option is none, and anything else is an error. -/
def missing (shape : Shape α) (field : String) : Except Error Datum :=
  match shape with
  | option _ => .ok (.scalar .none)
  | _ => .error (missingField field)

def deserialize (ignore : Value → Op E Unit) (shape : Shape (Seed E)) (value : Value) :
    Op E Datum :=
  match shape with
  | bool => (fun b => .scalar (.bool b)) <$> deserializeAny (boolVisitor platform) value
  | integer type =>
      (fun n => .scalar (.integer type n)) <$> deserializeAny (integerVisitor platform type) value
  | char => (fun c => .scalar (.char c)) <$> deserializeAny (charVisitor platform) value
  | string => (fun text => .scalar (.string text)) <$> deserializeAny (stringVisitor platform) value
  | bytes => (fun bytes => .scalar (.bytes bytes)) <$> deserializeAny (bytesVisitor platform) value
  | unit => (fun _ => .scalar .unit) <$> deserializeAny (unitVisitor platform) value
  | unitStruct name =>
      (fun _ => .scalar .unitStruct) <$> deserializeAny (unitStructVisitor platform name) value
  | option inner =>
      .ofOption <$> deserializeOption (optionVisitor platform inner.deserialize) value
  | newtypeStruct name inner =>
      .wrapper .newtypeStruct <$>
        deserializeNewtypeStruct (newtypeStructVisitor platform name inner.deserialize) value
  | seq element =>
      .items .seq <$> deserializeAny (vecVisitor platform element.deserialize) value
  | tuple elements =>
      .items .tuple <$> deserializeAny (tupleVisitor platform (elements.map Seed.deserialize)) value
  | array length element =>
      .items .tuple <$> deserializeAny (arrayVisitor platform length element.deserialize) value
  | tupleStruct name elements =>
      .items .tupleStruct <$> deserializeAny
        (fieldsVisitor platform ("tuple struct " ++ name) (elements.map Seed.deserialize)) value
  | map element =>
      .fields .map <$> deserializeAny (mapVisitor platform element.deserialize) value
  | struct name fields =>
      .fields .struct <$> deserializeAny
        (structVisitor platform ("struct " ++ name) ignore fields) value
  | enum name variants => deserializeEnum (enumVisitor platform name ignore variants) value

end Shape

def exhausted : Op E α := throw (.engine "stack overflow")

/-- A value that is passed over is still read to its depths. -/
def ignoredAny : Nat → Value → Op E Unit
  | 0, _ => exhausted
  | depth + 1, value =>
      deserializeAny ({
        expecting := "anything at all"
        visitBool := fun _ => pure ()
        visitI64 := fun _ => pure ()
        visitF64 := fun _ => pure ()
        visitStr := fun _ => pure ()
        visitBytes := fun _ => pure ()
        visitUnit := pure ()
        visitSeq := fun access => discard (takeAll (ignoredAny depth) access.sizeHint access)
        visitMap := fun access =>
          takeEntries (ignoredAny depth)
            (fun _ _ access => access.nextValueSeed (ignoredAny depth)) access.sizeHint () access } :
          Visitor platform Unit) value

/-- The conversion of a type from a guest value through the `Serde` wrapper. -/
def deserialize {Id : Type} (types : Id → Shape Id) : Nat → Id → Value → Op E Datum
  | 0, _, _ => exhausted
  | depth + 1, id, value =>
      ((types id).mapParts fun part => Seed.mk (deserialize types depth part) (types part).missing)
        |>.deserialize platform (ignoredAny platform depth) value

end GuestJs.Marshal
