import GuestJs.Marshal.Primitives

/-!
# The data model of serde

A value as `Serialize` hands it to a serializer. Values of different types may be the same for a
serializer: the methods for a sequence, a tuple, a tuple struct and a tuple variant differ in what
they do with the items at the end only, and those for a map, a struct and a struct variant likewise,
so each group is one node with its form.
-/

namespace GuestJs.Marshal

inductive Scalar where
  | bool (b : Bool)
  | integer (type : IntegerType) (n : Int)
  /-- An `i128`, or a `u128`. -/
  | wide (signed : Bool) (n : Int)
  | float (number : Number)
  | char (c : Char)
  | string (text : String)
  | bytes (bytes : List UInt8)
  | unit
  | unitStruct
  | none
  | unitVariant (variant : String)
  deriving DecidableEq

inductive WrapperForm where
  | some
  | newtypeStruct
  | newtypeVariant (variant : String)
  deriving DecidableEq

inductive ItemsForm where
  | seq
  | tuple
  | tupleStruct
  | tupleVariant (variant : String)
  deriving DecidableEq

inductive FieldsForm where
  | map
  | struct
  | structVariant (variant : String)
  deriving DecidableEq

inductive Datum where
  | scalar (value : Scalar)
  | wrapper (form : WrapperForm) (value : Datum)
  | items (form : ItemsForm) (values : List Datum)
  | fields (form : FieldsForm) (entries : List (String × Datum))

/-! ## Parts of a value -/

namespace Datum

def ofOption : Option Datum → Datum
  | none => scalar .none
  | some value => wrapper .some value

def children : Datum → List Datum
  | scalar _ => []
  | wrapper _ value => [value]
  | items _ values => values
  | fields _ entries => entries.map Prod.snd

/-- The value is a part of the other, or the other itself. -/
inductive Within (part : Datum) : Datum → Prop where
  | self : Within part part
  | child {child datum : Datum} (hchild : child ∈ datum.children) (h : Within part child) :
      Within part datum

/-- The values an encoder gives `undefined` or `null` for. -/
def isNullish : Datum → Bool
  | scalar .unit | scalar .unitStruct | scalar .none => true
  | wrapper .some value | wrapper .newtypeStruct value => value.isNullish
  | _ => false

/-- Equal as Rust has it: maps and structs have no order among their entries. -/
inductive Same : Datum → Datum → Prop where
  | scalar (value : Scalar) : Same (.scalar value) (.scalar value)
  | wrapper {form : WrapperForm} {value value' : Datum} (h : Same value value') :
      Same (.wrapper form value) (.wrapper form value')
  | items {form : ItemsForm} {values values' : List Datum}
      (hlength : values.length = values'.length) (h : ∀ pair ∈ values.zip values', Same pair.1 pair.2) :
      Same (.items form values) (.items form values')
  | fields {form : FieldsForm} {entries entries' : List (String × Datum)}
      (hkeys : (entries.map Prod.fst).Perm (entries'.map Prod.fst))
      (h : ∀ key value value', (key, value) ∈ entries → (key, value') ∈ entries' →
        Same value value') :
      Same (.fields form entries) (.fields form entries')

theorem sizeOf_lt_of_mem_children {child datum : Datum} (h : child ∈ datum.children) :
    sizeOf child < sizeOf datum := by
  cases datum with
  | scalar value => cases h
  | wrapper form value =>
      obtain rfl := List.mem_singleton.mp h
      simp
  | items form values =>
      have hmem : child ∈ values := h
      have hlt := List.sizeOf_lt_of_mem hmem
      simp only [Datum.items.sizeOf_spec]
      omega
  | fields form entries =>
      obtain ⟨⟨key, value⟩, hmem, rfl⟩ := List.mem_map.mp h
      have hlt := List.sizeOf_lt_of_mem hmem
      simp only [Datum.fields.sizeOf_spec, Prod.mk.sizeOf_spec] at hlt ⊢
      omega

/-- A property of every value follows from that of its parts. -/
theorem children_induction {P : Datum → Prop}
    (h : ∀ datum, (∀ child ∈ datum.children, P child) → P datum) (datum : Datum) : P datum := by
  induction hsize : sizeOf datum using Nat.strong_induction_on generalizing datum with
  | _ size ih =>
      refine h datum fun child hchild => ih (sizeOf child) ?_ child rfl
      rw [← hsize]
      exact sizeOf_lt_of_mem_children hchild

end Datum

/-! ## Types -/

/-- The variants of an enum, over what stands for the types of its fields. -/
inductive VariantShape (α : Type) where
  | unit
  | newtype (value : α)
  | tuple (elements : List α)
  | struct (fields : List (String × α))

/-- One layer of a type that serde reads and writes, over what stands for its parts: the types of the
standard library, and those that derive their conversion. -/
inductive Shape (α : Type) where
  | bool
  | integer (type : IntegerType)
  | char
  | string
  | bytes
  | unit
  | unitStruct (name : String)
  | option (inner : α)
  | newtypeStruct (name : String) (inner : α)
  | seq (element : α)
  | tuple (elements : List α)
  | array (length : Nat) (element : α)
  | tupleStruct (name : String) (elements : List α)
  | map (value : α)
  | struct (name : String) (fields : List (String × α))
  | enum (name : String) (variants : List (String × VariantShape α))

end GuestJs.Marshal
