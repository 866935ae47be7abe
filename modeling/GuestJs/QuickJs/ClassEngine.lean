import GuestJs.QuickJs.BareEngine
import GuestJs.QuickJs.Session
import Mathlib.Logic.Function.Basic

/-!
# An engine with prototypes

The objects of this engine have properties and prototypes that a request finds without running
anything. The remainder of an identity by three says what the object is: a plain one, an error or a
function. The first object is the prototype of all errors.
-/

namespace GuestJs.QuickJs.ClassEngine

structure Heap where
  size : Nat
  own : Nat → String → Option Value
  prototype : Nat → Option Nat
  uncatchable : Nat → Bool
  nonempty : 0 < size
  absent : ∀ object, object % 3 ≠ 1 → size ≤ object / 3 → ∀ key, own object key = none
  bare : ∀ object, size ≤ object / 3 → prototype object = none
  closed : ∀ object above, prototype object = some above → above / 3 < size

def isError : Value → Bool
  | .object id => id % 3 = 1
  | _ => false

def objectKind (id : Nat) : Kind := if id % 3 = 2 then .function else .object

def isUncatchable (heap : Heap) : Value → Bool
  | .object id => heap.uncatchable id
  | _ => false

namespace Heap

variable (heap : Heap)

/-- A new object, whose prototype is the one of all errors if it is an error. -/
def allocate (tag : Fin 3) (own : String → Option Value) : Heap where
  size := heap.size + 1
  own := Function.update heap.own (3 * heap.size + tag) own
  prototype := Function.update heap.prototype (3 * heap.size + tag)
    (if tag.val = 1 then some 0 else none)
  uncatchable := Function.update heap.uncatchable (3 * heap.size + tag) false
  nonempty := by omega
  absent := by
    intro object hplain hfree key
    have hne : object ≠ 3 * heap.size + tag := by omega
    rw [Function.update_of_ne hne]
    exact heap.absent object hplain (by omega) key
  bare := by
    intro object hfree
    have hne : object ≠ 3 * heap.size + tag := by omega
    rw [Function.update_of_ne hne]
    exact heap.bare object (by omega)
  closed := by
    intro object above habove
    by_cases heq : object = 3 * heap.size + tag
    · rw [heq, Function.update_self] at habove
      split at habove
      · exact Option.some.inj habove ▸ Nat.succ_pos _
      · cases habove
    · rw [Function.update_of_ne heq] at habove
      exact Nat.lt_succ_of_lt (heap.closed object above habove)

def write (id : Nat) (key : String) (value : Value)
    (h : id % 3 = 1 ∨ id / 3 < heap.size) : Heap :=
  { heap with
    own := Function.update heap.own id (Function.update (heap.own id) key (some value))
    absent := by
      intro object hplain hfree other
      have hne : object ≠ id := fun heq => by omega
      rw [Function.update_of_ne hne]
      exact heap.absent object hplain hfree other }

def inherit (id above : Nat) (hid : id / 3 < heap.size) (habove : above / 3 < heap.size) : Heap :=
  { heap with
    prototype := Function.update heap.prototype id (some above)
    bare := by
      intro object hfree
      have hne : object ≠ id := fun heq => by omega
      rw [Function.update_of_ne hne]
      exact heap.bare object hfree
    closed := by
      intro object other hother
      by_cases heq : object = id
      · rw [heq, Function.update_self] at hother
        exact Option.some.inj hother ▸ habove
      · rw [Function.update_of_ne heq] at hother
        exact heap.closed object other hother }

/-- A property of the object's own, or of its prototype's. -/
def find (id : Nat) (key : String) : Value :=
  match heap.own id key with
  | some value => value
  | none =>
      match heap.prototype id with
      | some above => (heap.own above key).getD .undefined
      | none => .undefined

variable {heap} {object : Nat}

theorem prototype_allocate_self (heap : Heap) (tag : Fin 3) (own : String → Option Value) :
    (heap.allocate tag own).prototype (3 * heap.size + tag) =
      if tag.val = 1 then some 0 else none := Function.update_self ..

theorem prototype_allocate_of_ne {tag : Fin 3} (own : String → Option Value)
    (hne : object ≠ 3 * heap.size + tag) :
    (heap.allocate tag own).prototype object = heap.prototype object :=
  Function.update_of_ne hne _ _

end Heap

def newError (message : String) (heap : Heap) : Heap :=
  heap.allocate 1 fun key => if key = "message" then some (.string message) else none

def newFunction (name : String) (heap : Heap) : Heap :=
  heap.allocate 2 fun key => if key = "name" then some (.string name) else none

def defineText (id : Nat) (key text : String) (heap : Heap) : Except Fault Unit × Heap :=
  if h : id % 3 = 1 then (.ok (), heap.write id key (.string text) (Or.inl h))
  else (.error (.other "not an error"), heap)

def define (id : Nat) (key : String) (value : Value) (heap : Heap) : Except Fault Unit × Heap :=
  if h : id / 3 < heap.size then (.ok (), heap.write id key value (Or.inr h))
  else (.error (.other "not an object"), heap)

def setPrototype (id above : Nat) (heap : Heap) : Except Fault Unit × Heap :=
  if h : id / 3 < heap.size ∧ above / 3 < heap.size then (.ok (), heap.inherit id above h.1 h.2)
  else (.error (.other "not an object"), heap)

def reply {α : Type} : Primitive α → Heap → Except Fault α × Heap
  | .newString text, heap => (.ok (.string text), heap)
  | .newObject, heap => (.ok (.object (3 * heap.size)), heap.allocate 0 fun _ => none)
  | .newError _ message, heap => (.ok (.object (3 * heap.size + 1)), newError message heap)
  | .newFunction name _, heap => (.ok (.object (3 * heap.size + 2)), newFunction name heap)
  | .withConstructor function, heap => (.ok function, heap)
  | .defineText (.object id) key text, heap => defineText id key text heap
  | .setUncatchable (.object id), heap =>
      (.ok (), { heap with uncatchable := Function.update heap.uncatchable id true })
  | .get (.object id) (.string key), heap => (.ok (heap.find id key), heap)
  | .toText (.string text), heap => (.ok text, heap)
  | .getPrototype (.object id), heap => (.ok ((heap.prototype id).elim .null .object), heap)
  | .define (.object id) (.string key) (.value value _ _ _), heap => define id key value heap
  | .setPrototype (.object id) (some (.object above)), heap => setPrototype id above heap
  | _, heap => (.error (.other "not available"), heap)

def primitive {α : Type} (p : Primitive α) (heap : Heap) :
    Resumption Heap GuestCall Answer Fault α :=
  .done (reply p heap).1 (reply p heap).2

theorem primitive_arrayBuffer (buffer : Value) (heap : Heap) :
    primitive (.arrayBuffer buffer) heap = .done (.error (.other "not available")) heap := rfl

def engine : Engine where
  Heap := Heap
  primitive := primitive
  objectKind := objectKind
  isConstructor := fun _ => false
  isError := isError
  typedArrayType := fun _ => none
  typeName := fun _ => "object"
  isUncatchable := isUncatchable
  isImmutable := fun _ _ => false
  toU32 := Engine.bareToU32
  wellKnown := fun _ => .symbol 0
  globals := .undefined
  walk := 4
  block := fun _ _ => none
  slots := fun _ _ => ⟨.undefined, 0, 0⟩
  isOwn := fun _ _ _ => false
  toU32_natCast := Engine.bareToU32_natCast
  inert := fun _ _ _ => trivial
  block_read := fun _ _ _ _ _ h => h
  slots_read := fun _ _ _ _ _ _ _ => rfl
  arrayBuffer_block := by
    intro buffer heap address size heap' h
    rw [primitive_arrayBuffer] at h
    cases h
  block_distinct := fun _ _ _ _ _ h => by cases h
  own_getter := fun _ _ _ _ h => by cases h

section

variable {heap : Heap}

end

def heap : Heap where
  size := 1
  own := fun _ _ => none
  prototype := fun _ => none
  uncatchable := fun _ => false
  nonempty := Nat.one_pos
  absent := fun _ _ _ _ => rfl
  bare := fun _ _ => rfl
  closed := fun _ _ h => by cases h

def session : Session engine := .entered heap

end GuestJs.QuickJs.ClassEngine
