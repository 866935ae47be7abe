import Std.Data.ExtTreeMap
import Mathlib.Logic.Basic

/-!
# Tables

Ordered maps whose keys compare equal only when they are equal, and what they hold after one value
is bound to several keys at once.
-/

namespace Tables

variable {κ ν : Type*} [Ord κ] [Std.TransOrd κ] [Std.LawfulEqOrd κ]

theorem getElem?_insert [DecidableEq κ] (table : Std.ExtTreeMap κ ν) (key other : κ) (value : ν) :
    (table.insert key value)[other]? = if other = key then some value else table[other]? := by
  simp only [Std.ExtTreeMap.getElem?_insert, Std.compare_eq_iff_eq, eq_comm (a := key)]

theorem getElem?_erase [DecidableEq κ] (table : Std.ExtTreeMap κ ν) (key other : κ) :
    (table.erase key)[other]? = if other = key then none else table[other]? := by
  simp only [Std.ExtTreeMap.getElem?_erase, Std.compare_eq_iff_eq, eq_comm (a := key)]

theorem mem_insert {table : Std.ExtTreeMap κ ν} {key other : κ} {value : ν} :
    other ∈ table.insert key value ↔ other = key ∨ other ∈ table := by
  rw [Std.ExtTreeMap.mem_insert, Std.compare_eq_iff_eq, eq_comm]

theorem getElem?_insertMany_map [DecidableEq κ] (table : Std.ExtTreeMap κ ν) (keys : List κ)
    (other : κ) (value : ν) :
    (table.insertMany (keys.map fun key => (key, value)))[other]? =
      if other ∈ keys then some value else table[other]? := by
  induction keys generalizing table with
  | nil => simp
  | cons key keys ih =>
      rw [List.map_cons, Std.ExtTreeMap.insertMany_cons, ih, getElem?_insert]
      by_cases hmem : other ∈ keys <;> by_cases heq : other = key <;> simp [hmem, heq]

theorem mem_insertMany_map [DecidableEq κ] {table : Std.ExtTreeMap κ ν} {keys : List κ} {other : κ}
    {value : ν} :
    other ∈ table.insertMany (keys.map fun key => (key, value)) ↔
      other ∈ keys ∨ other ∈ table := by
  rw [Std.ExtTreeMap.mem_iff_isSome_getElem?, getElem?_insertMany_map,
    Std.ExtTreeMap.mem_iff_isSome_getElem?]
  by_cases hmem : other ∈ keys <;> simp [hmem]

omit [Std.LawfulEqOrd κ] in
theorem mem_iff_exists {table : Std.ExtTreeMap κ ν} {key : κ} :
    key ∈ table ↔ ∃ value, table[key]? = some value := by
  rw [Std.ExtTreeMap.mem_iff_isSome_getElem?, Option.isSome_iff_exists]

end Tables
