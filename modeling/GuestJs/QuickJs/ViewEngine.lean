import GuestJs.QuickJs.BareEngine
import GuestJs.QuickJs.Memory

/-!
# An engine with views

A buffer of eight bytes, a view of all of it and a view of its third to sixth byte. Their memory is
beside the heap, where nothing ever changes.
-/

namespace GuestJs.QuickJs.ViewEngine

def buffer : Value := .object 1

def whole : Value := .object 2

def middle : Value := .object 3

def objectKind : ObjectId → Kind
  | 1 => .arrayBuffer
  | _ => .typedArray

def slots (view : Value) : Value × Nat × Nat :=
  if view = middle then (buffer, 2, 4) else (buffer, 0, 8)

def block (_ : Unit) (value : Value) : Option Block :=
  if value = buffer then some ⟨256, 8⟩ else none

def primitive {α : Type} : Primitive α → Unit → Resumption Unit GuestCall Answer Fault α
  | .typedArrayBuffer view, heap => .done (.ok (slots view)) heap
  | .arrayBuffer value, heap =>
      .done (if value = buffer then .ok (256, 8) else .error (.other "not available")) heap
  | _, heap => .done (.error (.other "not available")) heap

theorem primitive_done {α : Type} (p : Primitive α) (heap : Unit) :
    ∃ result, primitive p heap = .done result heap := by
  cases p <;> exact ⟨_, rfl⟩

def engine : Engine where
  Heap := Unit
  primitive := primitive
  objectKind := objectKind
  isConstructor := fun _ => false
  isError := fun _ => false
  typedArrayType := fun _ => some .uint16
  typeName := fun _ => "object"
  isUncatchable := fun _ _ => false
  isImmutable := fun _ _ => false
  toU32 := Engine.bareToU32
  wellKnown := fun _ => .symbol 0
  globals := .undefined
  walk := 0
  block := block
  slots := fun _ _ => ⟨.undefined, 0, 0⟩
  isOwn := fun _ _ _ => false
  toU32_natCast := Engine.bareToU32_natCast
  inert := by
    intro α p heap _
    obtain ⟨result, hdone⟩ := primitive_done p heap
    exact Resumption.finished_iff.mpr ⟨result, heap, hdone⟩
  block_read := by
    intro α p heap _
    obtain ⟨result, hdone⟩ := primitive_done p heap
    rw [hdone]
    exact fun _ _ h => h
  slots_read := fun _ _ _ _ _ _ _ => rfl
  arrayBuffer_block := by
    intro value heap address size heap' h
    by_cases hvalue : value = buffer
    · have hdone : primitive (.arrayBuffer value) heap = .done (.ok (256, 8)) heap := by
        rw [primitive, if_pos hvalue]
      rw [hdone] at h
      cases h
      exact if_pos hvalue
    · have hdone : primitive (.arrayBuffer value) heap =
          .done (.error (.other "not available")) heap := by
        rw [primitive, if_neg hvalue]
      rw [hdone] at h
      cases h
  block_distinct := by
    intro heap first second b b' hfirst hsecond _ _ _
    unfold block at hfirst hsecond
    split at hfirst
    · next heq =>
        split at hsecond
        · next heq' => exact heq.trans heq'.symm
        · cases hsecond
    · cases hfirst
  own_getter := fun _ _ _ _ h => by cases h

/-- Nothing is lent, and every byte is zero. -/
def session : Session engine.withMemory := .entered ((), fun _ => 0)

end GuestJs.QuickJs.ViewEngine
