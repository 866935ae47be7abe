import GuestJs.QuickJs.BareEngine
import GuestJs.QuickJs.Session
import Mathlib.Logic.Function.Basic

/-!
# An engine with errors

The objects of this engine are errors with texts of their own. One that has no name of its own is
called as its class is.
-/

namespace GuestJs.QuickJs.ErrorEngine

structure Heap where
  next : ObjectId
  texts : ObjectId → String → Option String
  uncatchable : ObjectId → Bool

def newError (message : String) (heap : Heap) : Heap where
  next := heap.next + 1
  texts := Function.update heap.texts heap.next fun key =>
    if key = "message" then some message else none
  uncatchable := Function.update heap.uncatchable heap.next false

def defineText (id : ObjectId) (key text : String) (heap : Heap) : Heap :=
  { heap with texts :=
      Function.update heap.texts id (Function.update (heap.texts id) key (some text)) }

def inherited (key : String) : Value := if key = "name" then .string "Error" else .undefined

def primitive {α : Type} : Primitive α → Heap → Resumption Heap GuestCall Answer Fault α
  | .newError _ message, heap => .done (.ok (.object heap.next)) (newError message heap)
  | .defineText (.object id) key text, heap => .done (.ok ()) (defineText id key text heap)
  | .setUncatchable (.object id), heap =>
      .done (.ok ()) { heap with uncatchable := Function.update heap.uncatchable id true }
  | .get (.object id) (.string key), heap =>
      .done (.ok ((heap.texts id key).elim (inherited key) .string)) heap
  | .toText (.string text), heap => .done (.ok text) heap
  | _, heap => .done (.error (.other "not available")) heap

theorem primitive_done {α : Type} (p : Primitive α) (heap : Heap) :
    ∃ result heap', primitive p heap = .done result heap' := by
  cases p with
  | defineText object key text => cases object <;> exact ⟨_, _, rfl⟩
  | setUncatchable error => cases error <;> exact ⟨_, _, rfl⟩
  | get object key => cases object <;> cases key <;> exact ⟨_, _, rfl⟩
  | toText value => cases value <;> exact ⟨_, _, rfl⟩
  | _ => exact ⟨_, _, rfl⟩

theorem primitive_arrayBuffer (buffer : Value) (heap : Heap) :
    primitive (.arrayBuffer buffer) heap = .done (.error (.other "not available")) heap := rfl

def isError : Value → Bool
  | .object _ => true
  | _ => false

def isUncatchable (heap : Heap) : Value → Bool
  | .object id => heap.uncatchable id
  | _ => false

def engine : Engine where
  Heap := Heap
  primitive := primitive
  objectKind := fun _ => .object
  isConstructor := fun _ => false
  isError := isError
  typedArrayType := fun _ => none
  typeName := fun _ => "object"
  isUncatchable := isUncatchable
  isImmutable := fun _ _ => false
  toU32 := Engine.bareToU32
  wellKnown := fun _ => .symbol 0
  globals := .undefined
  walk := 0
  block := fun _ _ => none
  slots := fun _ _ => ⟨.undefined, 0, 0⟩
  isOwn := fun _ _ _ => false
  toU32_natCast := Engine.bareToU32_natCast
  inert := fun p heap _ => Resumption.finished_iff.mpr (primitive_done p heap)
  block_read := by
    intro α p heap _
    obtain ⟨result, heap', hdone⟩ := primitive_done p heap
    rw [hdone]
    exact fun _ _ h => h
  slots_read := fun _ _ _ _ _ _ _ => rfl
  arrayBuffer_block := by
    intro buffer heap address size heap' h
    rw [primitive_arrayBuffer] at h
    cases h
  block_distinct := fun _ _ _ _ _ h => by cases h
  own_getter := fun _ _ _ _ h => by cases h

def session : Session engine := .entered ⟨1, fun _ _ => none, fun _ => false⟩

end GuestJs.QuickJs.ErrorEngine
