import GuestJs.QuickJs.Session

/-!
# An engine with an iterator

An engine whose guest has an iterator with a `return` method, and one result that says it is not done
and has a text for its value; a promise of the engine's is fulfilled with that result.
-/

namespace GuestJs.QuickJs.IteratorEngine

def iterator : Value := .object 1

def nextMethod : Value := .object 2

def returnMethod : Value := .object 3

def result : Value := .object 4

def promise : Value := .object 5

def objectKind : ObjectId → Kind
  | 2 | 3 => .function
  | 5 => .promise
  | _ => .object

def property (object : Value) (key : String) : Value :=
  if object = iterator ∧ key = "next" then nextMethod
  else if object = iterator ∧ key = "return" then returnMethod
  else if object = result ∧ key = "done" then .boolean false
  else if object = result ∧ key = "value" then .string "text"
  else .undefined

def primitive {α : Type} : Primitive α → Unit → Resumption Unit GuestCall Answer Fault α
  | .get object (.string key), heap => .done (.ok (property object key)) heap
  | .toBoolean value, heap => .done (.ok (value = .boolean true)) heap
  | .promiseResult _, heap => .done (.ok (.fulfilled result)) heap
  | .call function this arguments, heap =>
      .call ⟨function, this, arguments⟩ heap fun answer heap => .done answer heap
  | _, heap => .done (.error (.other "not available")) heap

def toU32 (_ : Value) : Option Nat := none

theorem guarantees {α : Type} (r : Resumption Unit GuestCall Answer Fault α) (heap : Unit) :
    r.Guarantees (Keeps fun _ _ => none) (fun h _ h' => Keeps (fun _ _ => none) h h') heap := by
  induction r generalizing heap with
  | done result heap' => exact fun _ _ h => nomatch h
  | call query heap' resume ih =>
      refine ⟨?_, fun answer t => ih answer t t⟩
      exact fun _ _ h => nomatch h

def engine : Engine where
  Heap := Unit
  primitive := primitive
  objectKind := objectKind
  isConstructor := fun _ => false
  isError := fun _ => false
  typedArrayType := fun _ => none
  typeName := fun _ => "value"
  isUncatchable := fun _ _ => false
  isImmutable := fun _ _ => false
  toU32 := toU32
  wellKnown := fun _ => .symbol 0
  globals := .undefined
  walk := 0
  block := fun _ _ => none
  slots := fun _ _ => ⟨.undefined, 0, 0⟩
  isOwn := fun _ _ _ => false
  toU32_natCast := fun _ _ h => nomatch h
  inert := by
    intro α p heap hinert
    cases p
    all_goals first | exact trivial | cases hinert
  block_read := fun p heap _ => guarantees (primitive p heap) heap
  slots_read := fun _ _ _ _ _ _ _ => rfl
  arrayBuffer_block := fun _ _ _ _ _ h => nomatch h
  block_distinct := fun _ _ _ _ _ h => nomatch h
  own_getter := fun _ _ _ _ h => nomatch h

/-- The guest's `next` gives what it is told to. -/
def guest (answer : Value) : GuestCall → Session engine → Answer × Session engine :=
  fun call session => (.ok (if call.function = nextMethod then answer else .undefined), session)

def session : Session engine where
  heap := ()
  loans := .empty
  context := 0
  depth := 1
  payloads := fun _ => none
  pendingExports := none
  nextImport := 1

end GuestJs.QuickJs.IteratorEngine
