import GuestJs.QuickJs.Engine

/-!
# Bare engines

An engine that has no buffers and no accessors of its own, whose reads are answered at once and
change nothing.
-/

namespace GuestJs.QuickJs

theorem Primitive.isRead_of_isInert {α : Type} {p : Primitive α} (h : p.isInert = true) :
    p.isRead = true := by
  cases p
  all_goals first | rfl | exact h

/-- No value is read as an integer. -/
def Engine.bareToU32 (_ : Value) : Option Nat := none

theorem Engine.bareToU32_natCast (n m : Nat) (h : bareToU32 (.number (.finite n)) = some m) :
    m = n := by
  cases h

def Engine.bare (Heap : Type)
    (primitive : {α : Type} → Primitive α → Heap → Resumption Heap GuestCall Answer Fault α)
    (hread : ∀ {α : Type} {p : Primitive α} heap, p.isRead = true →
      ∃ result, primitive p heap = .done result heap)
    (hbuffer : ∀ {buffer heap memory heap'},
      primitive (.arrayBuffer buffer) heap ≠ .done (.ok memory) heap') : Engine where
  Heap := Heap
  primitive := primitive
  objectKind := fun _ => .object
  isConstructor := fun _ => false
  isError := fun _ => false
  typedArrayType := fun _ => none
  typeName := fun _ => "value"
  isUncatchable := fun _ _ => false
  isImmutable := fun _ _ => false
  toU32 := bareToU32
  wellKnown := fun _ => .symbol 0
  globals := .undefined
  walk := 0
  block := fun _ _ => none
  slots := fun _ _ => ⟨.undefined, 0, 0⟩
  isOwn := fun _ _ _ => false
  toU32_natCast := bareToU32_natCast
  inert := by
    intro α p heap hinert
    obtain ⟨result, hdone⟩ := hread heap (Primitive.isRead_of_isInert hinert)
    exact Resumption.finished_iff.mpr ⟨result, heap, hdone⟩
  block_read := by
    intro α p heap hp
    obtain ⟨result, hdone⟩ := hread heap hp
    rw [hdone]
    exact fun _ _ h => h
  slots_read := fun _ _ _ _ _ _ _ => rfl
  arrayBuffer_block := fun _ _ _ _ _ h => absurd h hbuffer
  block_distinct := fun _ _ _ _ _ h => by cases h
  own_getter := fun _ _ _ _ h => by cases h

end GuestJs.QuickJs
