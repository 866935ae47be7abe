import GuestJs.QuickJs.Values
import Mathlib.Algebra.Group.Nat.Defs
import Mathlib.Algebra.Order.Ring.Unbundled.Rat

/-!
# Numbers and bigints

What a guest number or a bigint is, as a number, and what the engine does with bigints: it makes
them of any integer, and takes 64 bits of them, in two's complement.
-/

namespace GuestJs

/-- The number a value is. A zero is zero with either sign. -/
def Value.numeric : Value → Option Rat
  | .number (.finite q) => some q
  | .number .negativeZero => some 0
  | .bigint n => some n
  | _ => none

namespace QuickJs

/-- ECMAScript's `BigInt`, with memory enough: `JS_NewBigInt64` and `JS_ToBigInt64`. -/
structure Bigints (E : Engine) : Prop where
  newBigint : ∀ n h, ∃ h', E.primitive (.newBigint n) h = .done (.ok (.bigint n)) h'
  toBigint64 : ∀ n h, ∃ h',
    E.primitive (.toBigint64 (.bigint n)) h = .done (.ok (n.bmod (2 ^ 64))) h'

/-- An engine that has bigints beside what it has. -/
def withBigints (E : Engine) {α : Type} (p : Primitive α) (heap : E.Heap) :
    Resumption E.Heap GuestCall Answer Fault α :=
  match p with
  | .newBigint n => .done (.ok (.bigint n)) heap
  | .toBigint64 (.bigint n) => .done (.ok (n.bmod (2 ^ 64))) heap
  | p => E.primitive p heap

section WithBigints

variable {E : Engine} {α : Type}

/-- A request is answered as before, or at once and with nothing changed. -/
theorem withBigints_cases (p : Primitive α) (heap : E.Heap) :
    withBigints E p heap = E.primitive p heap ∨
      ∃ a, withBigints E p heap = .done (.ok a) heap := by
  cases p
  case newBigint => exact Or.inr ⟨_, rfl⟩
  case toBigint64 value =>
    cases value
    case bigint => exact Or.inr ⟨_, rfl⟩
    all_goals exact Or.inl rfl
  all_goals exact Or.inl rfl

end WithBigints

abbrev Engine.withBigints (E : Engine) : Engine :=
  { E with
    primitive := QuickJs.withBigints E
    inert := by
      intro α p heap hinert
      obtain hsame | ⟨a, ha⟩ := withBigints_cases p heap
      · rw [hsame]
        exact E.inert p heap hinert
      · rw [ha]
        trivial
    block_read := by
      intro α p heap hread
      obtain hsame | ⟨a, ha⟩ := withBigints_cases p heap
      · rw [hsame]
        exact E.block_read p heap hread
      · rw [ha]
        exact fun _ _ h => h
    slots_read := by
      intro α p heap result heap' hread hdone view
      obtain hsame | ⟨a, ha⟩ := withBigints_cases p heap
      · rw [hsame] at hdone
        exact E.slots_read p heap result heap' hread hdone view
      · rw [ha] at hdone
        cases hdone
        rfl
    arrayBuffer_block := E.arrayBuffer_block
    own_getter := E.own_getter }

theorem bigints_withBigints (E : Engine) : Bigints E.withBigints :=
  ⟨fun _ heap => ⟨heap, rfl⟩, fun _ heap => ⟨heap, rfl⟩⟩

end QuickJs

end GuestJs
