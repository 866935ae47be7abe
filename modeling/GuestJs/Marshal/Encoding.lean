import GuestJs.Marshal.Datum
import GuestJs.Marshal.Realm

/-!
# What a value is encoded as

The encoding of a value is a tree of plain data, and a guest value holds such a tree in a heap. Which
values a type has is a relation between its layers and the values; nothing here runs anything.
-/

namespace GuestJs.Marshal

open QuickJs

inductive Encoding where
  | undefined
  | null
  | bool (b : Bool)
  | integer (n : Int)
  | float (number : Number)
  | text (text : String)
  | bytes (bytes : List UInt8)
  | array (items : List Encoding)
  | object (properties : List (String × Encoding))

def Scalar.encoding : Scalar → Encoding
  | .bool b => .bool b
  | .integer _ n | .wide _ n => .integer n
  | .float number => .float number
  | .char c => .text (String.singleton c)
  | .string text => .text text
  | .bytes content => .bytes content
  | .none => .null
  | .unit | .unitStruct => .undefined
  | .unitVariant name => .text name

/-- A variant with content is an object with one property. -/
def tagged (name : String) (content : Encoding) : Encoding := .object [(name, content)]

def WrapperForm.encoding : WrapperForm → Encoding → Encoding
  | .some, content | .newtypeStruct, content => content
  | .newtypeVariant name, content => tagged name content

def ItemsForm.encoding : ItemsForm → Encoding → Encoding
  | .seq, array | .tuple, array | .tupleStruct, array => array
  | .tupleVariant name, array => tagged name array

def FieldsForm.encoding : FieldsForm → Encoding → Encoding
  | .map, object | .struct, object => object
  | .structVariant name, object => tagged name object

mutual

def Datum.encoding : Datum → Encoding
  | .scalar value => value.encoding
  | .wrapper form value => form.encoding value.encoding
  | .items form values => form.encoding (.array (encodings values))
  | .fields form entries => form.encoding (.object (fieldEncodings entries))

def encodings : List Datum → List Encoding
  | [] => []
  | value :: values => value.encoding :: encodings values

def fieldEncodings : List (String × Datum) → List (String × Encoding)
  | [] => []
  | (key, value) :: entries => (key, value.encoding) :: fieldEncodings entries

end

@[simp]
theorem encodings_eq_map (values : List Datum) : encodings values = values.map Datum.encoding := by
  induction values with
  | nil => rfl
  | cons value values ih => rw [encodings, List.map_cons, ih]

@[simp]
theorem fieldEncodings_eq_map (entries : List (String × Datum)) :
    fieldEncodings entries = entries.map fun entry => (entry.1, entry.2.encoding) := by
  induction entries with
  | nil => rfl
  | cons entry entries ih => rw [fieldEncodings, List.map_cons, ih]

/-! ## Guest values that hold a tree -/

section Holds

variable {E : Engine} {store : Store E} {owns owns' : ObjectId → Prop} {h h' : E.Heap}

/-- The value is the tree in the heap, made of objects that are owned. -/
inductive Holds (store : Store E) (owns : ObjectId → Prop) (h : E.Heap) :
    Value → Encoding → Prop where
  | undefined : Holds store owns h .undefined .undefined
  | null : Holds store owns h .null .null
  | bool (b : Bool) : Holds store owns h (.boolean b) (.bool b)
  | integer (n : Int) : Holds store owns h (.number (.finite n)) (.integer n)
  | float (number : Number) : Holds store owns h (.number number) (.float number)
  | text (text : String) : Holds store owns h (.string text) (.text text)
  | bytes {view buffer : ObjectId} {bytes : List UInt8} (hview : owns view)
      (hbuffer : owns buffer) (hslots : store.contents h view = some (.view buffer bytes.length))
      (hbytes : store.contents h buffer = some (.buffer bytes)) :
      Holds store owns h (.object view) (.bytes bytes)
  | array {id : ObjectId} {items : List Value} {encodings : List Encoding} (hid : owns id)
      (hitems : store.contents h id = some (.elements items))
      (hlength : items.length = encodings.length)
      (hall : ∀ pair ∈ items.zip encodings, Holds store owns h pair.1 pair.2) :
      Holds store owns h (.object id) (.array encodings)
  | object {id : ObjectId} {properties : List (String × Value)}
      {encodings : List (String × Encoding)} (hid : owns id)
      (hproperties : store.contents h id = some (.record properties))
      (hkeys : properties.map Prod.fst = encodings.map Prod.fst)
      (hall : ∀ pair ∈ properties.zip encodings, Holds store owns h pair.1.2 pair.2.2) :
      Holds store owns h (.object id) (.object encodings)

theorem Holds.mono {value : Value} {encoding : Encoding} (hholds : Holds store owns h value encoding)
    (howns : ∀ id, owns id → owns' id)
    (hkeeps : ∀ id c, owns id → store.contents h id = some c → store.contents h' id = some c) :
    Holds store owns' h' value encoding := by
  induction hholds with
  | undefined => exact .undefined
  | null => exact .null
  | bool b => exact .bool b
  | integer n => exact .integer n
  | float number => exact .float number
  | text text => exact .text text
  | bytes hview hbuffer hslots hbytes =>
      exact .bytes (howns _ hview) (howns _ hbuffer) (hkeeps _ _ hview hslots)
        (hkeeps _ _ hbuffer hbytes)
  | array hid hitems hlength hall ih =>
      exact .array (howns _ hid) (hkeeps _ _ hid hitems) hlength ih
  | object hid hproperties hkeys hall ih =>
      exact .object (howns _ hid) (hkeeps _ _ hid hproperties) hkeys ih

theorem Holds.owned {value : Value} {encoding : Encoding} (hholds : Holds store owns h value encoding)
    (howns : ∀ id, owns id → owns' id) : Holds store owns' h value encoding :=
  hholds.mono howns fun _ _ _ hc => hc

end Holds

/-! ## What can be written -/

/-- The names a value is put under. -/
def Datum.labels : Datum → List String
  | .scalar _ => []
  | .wrapper (.newtypeVariant name) _ | .items (.tupleVariant name) _ => [name]
  | .wrapper _ _ | .items _ _ => []
  | .fields (.structVariant name) entries => name :: entries.map Prod.fst
  | .fields _ entries => entries.map Prod.fst

/-- A part of a value that a heap takes as it is: an integer that is safe and of no more than 64 bits,
names that no prototype catches, and elements in a number an array can have. -/
structure Writable {E : Engine} (store : Store E) (heap : E.Heap) (part : Datum) : Prop where
  safe : ∀ type n, part = .scalar (.integer type n) → n.natAbs ≤ maxSafeInteger
  narrow : ∀ signed n, part ≠ .scalar (.wide signed n)
  labels : ∀ label ∈ part.labels, ¬ store.caught heap label
  elements : ∀ form values, part = .items form values →
    ¬ store.catchesElements heap ∧ values.length < 2 ^ 32

/-- No key occurs twice among the entries of a map or a struct. -/
def Datum.DistinctKeys (part : Datum) : Prop :=
  ∀ form entries, part = .fields form entries → (entries.map Prod.fst).Nodup

/-! ## Values of a type -/

section Admits

variable {Id : Type} (types : Id → Shape Id)

/-- The value is one of the type, as `Serialize` writes it: fields in the order of their declaration,
under names that differ, and what an option has inside is never read as nothing. -/
inductive Admits : Id → Datum → Prop where
  | bool {id : Id} (htype : types id = .bool) (b : Bool) : Admits id (.scalar (.bool b))
  | integer {id : Id} {type : IntegerType} (htype : types id = .integer type) {n : Int}
      (hn : type.Contains n) : Admits id (.scalar (.integer type n))
  | char {id : Id} (htype : types id = .char) (c : Char) : Admits id (.scalar (.char c))
  | string {id : Id} (htype : types id = .string) (text : String) :
      Admits id (.scalar (.string text))
  | bytes {id : Id} (htype : types id = .bytes) (bytes : List UInt8) :
      Admits id (.scalar (.bytes bytes))
  | unit {id : Id} (htype : types id = .unit) : Admits id (.scalar .unit)
  | unitStruct {id : Id} {name : String} (htype : types id = .unitStruct name) :
      Admits id (.scalar .unitStruct)
  | none {id inner : Id} (htype : types id = .option inner) : Admits id (.scalar .none)
  | some {id inner : Id} {value : Datum} (htype : types id = .option inner)
      (hvalue : Admits inner value) (hnullish : value.isNullish = false) :
      Admits id (.wrapper .some value)
  | newtypeStruct {id inner : Id} {name : String} {value : Datum}
      (htype : types id = .newtypeStruct name inner) (hvalue : Admits inner value) :
      Admits id (.wrapper .newtypeStruct value)
  | seq {id element : Id} {values : List Datum} (htype : types id = .seq element)
      (hvalues : ∀ value ∈ values, Admits element value) : Admits id (.items .seq values)
  | tuple {id : Id} {elements : List Id} {values : List Datum}
      (htype : types id = .tuple elements) (hlength : elements.length = values.length)
      (hvalues : ∀ pair ∈ elements.zip values, Admits pair.1 pair.2) :
      Admits id (.items .tuple values)
  | array {id element : Id} {values : List Datum}
      (htype : types id = .array values.length element)
      (hvalues : ∀ value ∈ values, Admits element value) : Admits id (.items .tuple values)
  | tupleStruct {id : Id} {name : String} {elements : List Id} {values : List Datum}
      (htype : types id = .tupleStruct name elements) (hlength : elements.length = values.length)
      (hvalues : ∀ pair ∈ elements.zip values, Admits pair.1 pair.2) :
      Admits id (.items .tupleStruct values)
  | map {id element : Id} {entries : List (String × Datum)} (htype : types id = .map element)
      (hkeys : (entries.map Prod.fst).Nodup)
      (hentries : ∀ entry ∈ entries, Admits element entry.2) :
      Admits id (.fields .map entries)
  | struct {id : Id} {name : String} {fields : List (String × Id)}
      {entries : List (String × Datum)} (htype : types id = .struct name fields)
      (hnames : (fields.map Prod.fst).Nodup) (hkeys : fields.map Prod.fst = entries.map Prod.fst)
      (hentries : ∀ pair ∈ fields.zip entries, Admits pair.1.2 pair.2.2) :
      Admits id (.fields .struct entries)
  | unitVariant {id : Id} {enum name : String} {variants : List (String × VariantShape Id)}
      (htype : types id = .enum enum variants) (hnames : (variants.map Prod.fst).Nodup)
      (hvariant : (name, .unit) ∈ variants) : Admits id (.scalar (.unitVariant name))
  | newtypeVariant {id inner : Id} {enum name : String}
      {variants : List (String × VariantShape Id)} {value : Datum}
      (htype : types id = .enum enum variants) (hnames : (variants.map Prod.fst).Nodup)
      (hvariant : (name, .newtype inner) ∈ variants) (hvalue : Admits inner value) :
      Admits id (.wrapper (.newtypeVariant name) value)
  | tupleVariant {id : Id} {enum name : String} {variants : List (String × VariantShape Id)}
      {elements : List Id} {values : List Datum} (htype : types id = .enum enum variants)
      (hnames : (variants.map Prod.fst).Nodup) (hvariant : (name, .tuple elements) ∈ variants)
      (hlength : elements.length = values.length)
      (hvalues : ∀ pair ∈ elements.zip values, Admits pair.1 pair.2) :
      Admits id (.items (.tupleVariant name) values)
  | structVariant {id : Id} {enum name : String} {variants : List (String × VariantShape Id)}
      {fields : List (String × Id)} {entries : List (String × Datum)}
      (htype : types id = .enum enum variants) (hnames : (variants.map Prod.fst).Nodup)
      (hvariant : (name, .struct fields) ∈ variants) (hfields : (fields.map Prod.fst).Nodup)
      (hkeys : fields.map Prod.fst = entries.map Prod.fst)
      (hentries : ∀ pair ∈ fields.zip entries, Admits pair.1.2 pair.2.2) :
      Admits id (.fields (.structVariant name) entries)

end Admits

end GuestJs.Marshal
