import GuestJs.Library.Loops
import GuestJs.Marshal.Primitives

/-!
# Arrays, objects and the direct conversions of collections

A container is read whole before any part of it is converted: an array by its length and its indices,
an object by its own enumerable keys, strings and symbols alike. What reading runs is up to the guest.
-/

namespace GuestJs.Marshal

open QuickJs

variable {E : Engine} {α : Type}

def Elements.read (array : Value) : Op E (List Value) :=
  match kindOf E array with
  | .array => do
      let length ← IntegerType.usize.fromGuest (← get array (← newString "length"))
      (List.range length.toNat).mapM fun (index : Nat) => do
        let key ← IntegerType.usize.toGuest index
        get array key
  | kind => throw ((Expected.of ["array"]).mismatch kind)

def arrayOfLength (length : Nat) : String := "array of length " ++ toString length

def Elements.exact (length : Nat) (items : List α) : Op E (List α) :=
  if items.length = length then pure items
  else throw (.conversion (arrayOfLength length) (arrayOfLength items.length))

def Entries.read (object : Value) : Op E (List (Value × Value)) :=
  match kindOf E object with
  | .object => do
      let keys ← keys object
      keys.mapM fun key => do
        let value ← get object key
        pure (key, value)
  | kind => throw ((Expected.of ["object"]).mismatch kind)

/-- The one entry of an object that has one: `exact::<1>`. -/
def Entries.exact (entries : List (Value × Value)) : Op E (Value × Value) :=
  match entries with
  | [entry] => pure entry
  | _ =>
      throw (.conversion "object with 1 properties"
        ("object with " ++ toString entries.length ++ " properties"))

/-- A map of the standard library, as the list of its entries: a key that is there keeps its place. -/
def StdMap.insert (entries : List (String × α)) (key : String) (value : α) : List (String × α) :=
  if key ∈ entries.map Prod.fst then
    entries.map fun entry => if entry.1 = key then (key, value) else entry
  else entries ++ [(key, value)]

def StdMap.collect (entries : List (String × α)) : List (String × α) :=
  entries.foldl (fun map entry => insert map entry.1 entry.2) []

namespace StdMap

variable {entries : List (String × α)} {key other : String} {value : α}

theorem mem_keys_insert :
    key ∈ (insert entries other value).map Prod.fst ↔ key = other ∨ key ∈ entries.map Prod.fst := by
  unfold insert
  split
  · next hmem =>
      have hkeys : (entries.map fun entry => if entry.1 = other then (other, value) else entry).map
          Prod.fst = entries.map Prod.fst := by
        rw [List.map_map]
        refine List.map_congr_left fun entry _ => ?_
        simp only [Function.comp_apply]
        split
        · next heq => exact heq.symm
        · rfl
      rw [hkeys]
      exact ⟨Or.inr, fun h => h.elim (fun heq => heq ▸ hmem) id⟩
  · simp [or_comm]

theorem mem_keys_collect : key ∈ (collect entries).map Prod.fst ↔ key ∈ entries.map Prod.fst := by
  have hfold : ∀ map : List (String × α),
      key ∈ (entries.foldl (fun map entry => insert map entry.1 entry.2) map).map Prod.fst ↔
        key ∈ map.map Prod.fst ∨ key ∈ entries.map Prod.fst := by
    induction entries with
    | nil => simp
    | cons entry entries ih =>
        intro map
        rw [List.foldl_cons, ih, mem_keys_insert, List.map_cons, List.mem_cons]
        tauto
  rw [collect, hfold]
  simp

end StdMap

def optionFromGuest (inner : Value → Op E α) (value : Value) : Op E (Option α) :=
  match kindOf E value with
  | .undefined | .null => pure none
  | _ => some <$> inner value

def vecFromGuest (element : Value → Op E α) (value : Value) : Op E (List α) := do
  (← Elements.read value).mapM element

def tupleFromGuest (elements : List (Value → Op E α)) (value : Value) : Op E (List α) := do
  let items ← Elements.exact elements.length (← Elements.read value)
  (elements.zip items).mapM fun pair => pair.1 pair.2

/-- An array of fixed length is read as a vector, and its length is looked at last. -/
def arrayFromGuest (length : Nat) (element : Value → Op E α) (value : Value) : Op E (List α) := do
  Elements.exact length (← vecFromGuest element value)

def vecToGuest (element : α → Op E Value) (values : List α) : Op E Value := do
  newArray (← values.mapM element)

def tupleToGuest (elements : List (α → Op E Value)) (values : List α) : Op E Value := do
  newArray (← (elements.zip values).mapM fun pair => pair.1 pair.2)

/-- An entry is converted key first. -/
def convertEntry (key : Value → Op E String) (element : Value → Op E α) (entry : Value × Value) :
    Op E (String × α) := do
  let key ← key entry.1
  let value ← element entry.2
  pure (key, value)

/-- An entry is put under its key by an assignment. -/
def putEntry (element : α → Op E Value) (object : Value) (entry : String × α) : Op E Value := do
  let key ← newString entry.1
  let value ← element entry.2
  set object key value
  pure object

def mapToGuest (element : α → Op E Value) (entries : List (String × α)) : Op E Value := do
  entries.foldlM (putEntry element) (← newObject)

def mapFromGuest (element : Value → Op E α) (value : Value) : Op E (List (String × α)) := do
  let entries ← (← Entries.read value).mapM (convertEntry stringFromGuest element)
  pure (StdMap.collect entries)

end GuestJs.Marshal
