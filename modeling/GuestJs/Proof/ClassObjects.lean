import GuestJs.Proof.OrdinaryObjects
import GuestJs.QuickJs.ClassEngine

/-!
# Ordinary objects of an engine with prototypes

The laws of ordinary objects, for an engine in which they can be computed.
-/

namespace GuestJs.QuickJs.ClassEngine

open Heap

/-- The objects of the engine. Whatever an error inherits from is the first. -/
def classObjects : Objects engine where
  own := Heap.own
  prototype := Heap.prototype
  loose := fun heap object => object / 3 < heap.size ∧ object ≠ 0 ∧
    ∀ other, heap.prototype other ≠ some object

variable {heap : Heap} {object : ObjectId}

theorem allocate_loose (heap : Heap) (tag : Fin 3) (own : String → Option Value) :
    classObjects.loose (heap.allocate tag own) (3 * heap.size + tag) := by
  have hpositive := heap.nonempty
  have hnew : (3 * heap.size + tag.val) / 3 = heap.size := by omega
  refine ⟨hnew.symm ▸ Nat.lt_succ_self _, ?_, fun other hother => ?_⟩
  · show 3 * heap.size + tag.val ≠ 0
    omega
  · by_cases heq : other = 3 * heap.size + tag
    · rw [heq, prototype_allocate_self] at hother
      split at hother
      · have hzero : 0 = 3 * heap.size + tag.val := Option.some.inj hother
        omega
      · cases hother
    · have hlt := heap.closed other _ ((prototype_allocate_of_ne own heq).symm.trans hother)
      omega

def textOf : Option Value → Option String
  | some (.string text) => some text
  | _ => none

theorem newError_loose (message : String) (heap : Heap) :
    classObjects.loose (newError message heap) (3 * heap.size + 1) := by
  unfold newError
  exact allocate_loose heap 1 _

end GuestJs.QuickJs.ClassEngine
