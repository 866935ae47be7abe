import Mathlib.Data.List.Basic

/-!
# Codes of a fixed width

Values that are coded in equally many cells each lie one after the other without anything between
them. Where every code of that width is a code of a value, a list of values and the cells it takes are
two views of the same thing, and a value is replaced by replacing its cells.
-/

structure FixedWidth (β α : Type*) where
  width : Nat
  encode : α → List β
  decode : List β → α
  width_pos : 0 < width
  length_encode : ∀ value, (encode value).length = width
  decode_encode : ∀ value, decode (encode value) = value
  encode_decode : ∀ cells, cells.length = width → encode (decode cells) = cells

namespace FixedWidth

variable {β α : Type*} (codec : FixedWidth β α)

def encodeAll (values : List α) : List β := values.flatMap codec.encode

def decodeMany : Nat → List β → List α
  | 0, _ => []
  | count + 1, cells =>
      codec.decode (cells.take codec.width) :: decodeMany count (cells.drop codec.width)

/-- The values in the cells, as far as they go. -/
def decodeAll (cells : List β) : List α := codec.decodeMany (cells.length / codec.width) cells

theorem encodeAll_cons (value : α) (values : List α) :
    codec.encodeAll (value :: values) = codec.encode value ++ codec.encodeAll values := rfl

theorem encodeAll_append (first second : List α) :
    codec.encodeAll (first ++ second) = codec.encodeAll first ++ codec.encodeAll second :=
  List.flatMap_append

@[simp]
theorem length_encodeAll (values : List α) :
    (codec.encodeAll values).length = values.length * codec.width := by
  induction values with
  | nil => simp [encodeAll]
  | cons value values ih =>
      rw [encodeAll_cons, List.length_append, codec.length_encode, ih, List.length_cons,
        Nat.succ_mul, Nat.add_comm]

theorem decodeMany_encodeAll (values : List α) (rest : List β) :
    codec.decodeMany values.length (codec.encodeAll values ++ rest) = values := by
  induction values with
  | nil => rfl
  | cons value values ih =>
      have hwidth := codec.length_encode value
      rw [encodeAll_cons, List.append_assoc, List.length_cons, decodeMany,
        List.take_left' hwidth, List.drop_left' hwidth, codec.decode_encode, ih]

theorem decodeAll_encodeAll (values : List α) : codec.decodeAll (codec.encodeAll values) = values := by
  have hmany := codec.decodeMany_encodeAll values []
  rw [List.append_nil] at hmany
  rw [decodeAll, length_encodeAll, Nat.mul_div_cancel _ codec.width_pos]
  exact hmany

theorem encodeAll_decodeMany (count : Nat) {cells : List β} (h : cells.length = count * codec.width) :
    codec.encodeAll (codec.decodeMany count cells) = cells := by
  induction count generalizing cells with
  | zero => exact (List.length_eq_zero_iff.mp (by omega)).symm
  | succ count ih =>
      have hlength : cells.length = count * codec.width + codec.width := by
        rw [h, Nat.succ_mul]
      have htake : (cells.take codec.width).length = codec.width := by
        rw [List.length_take]
        omega
      have hdrop : (cells.drop codec.width).length = count * codec.width := by
        rw [List.length_drop]
        omega
      rw [decodeMany, encodeAll_cons, codec.encode_decode _ htake, ih hdrop, List.take_append_drop]

theorem encodeAll_decodeAll {cells : List β} (h : cells.length % codec.width = 0) :
    codec.encodeAll (codec.decodeAll cells) = cells := by
  apply codec.encodeAll_decodeMany
  rw [Nat.div_mul_cancel (Nat.dvd_of_mod_eq_zero h)]

theorem take_encodeAll (values : List α) (count : Nat) :
    (codec.encodeAll values).take (count * codec.width) = codec.encodeAll (values.take count) := by
  by_cases hcount : count ≤ values.length
  · have hsplit : codec.encodeAll values =
        codec.encodeAll (values.take count) ++ codec.encodeAll (values.drop count) := by
      rw [← encodeAll_append, List.take_append_drop]
    rw [hsplit, List.take_left']
    rw [length_encodeAll, List.length_take, Nat.min_eq_left hcount]
  · have hle : values.length ≤ count := by omega
    rw [List.take_of_length_le hle, List.take_of_length_le]
    rw [length_encodeAll]
    exact Nat.mul_le_mul_right _ hle

theorem drop_encodeAll (values : List α) (count : Nat) :
    (codec.encodeAll values).drop (count * codec.width) = codec.encodeAll (values.drop count) := by
  have hsplit : codec.encodeAll (values.take count) ++ codec.encodeAll (values.drop count) =
      (codec.encodeAll values).take (count * codec.width) ++
        (codec.encodeAll values).drop (count * codec.width) := by
    rw [← encodeAll_append, List.take_append_drop, List.take_append_drop]
  rw [← codec.take_encodeAll values count] at hsplit
  exact (List.append_cancel_left hsplit).symm

/-- Values are replaced by replacing their cells. -/
theorem encodeAll_splice (values added : List α) (index : Nat) :
    (codec.encodeAll values).take (index * codec.width) ++ codec.encodeAll added ++
        (codec.encodeAll values).drop ((index + added.length) * codec.width) =
      codec.encodeAll (values.take index ++ added ++ values.drop (index + added.length)) := by
  rw [take_encodeAll, drop_encodeAll, encodeAll_append, encodeAll_append]

end FixedWidth
