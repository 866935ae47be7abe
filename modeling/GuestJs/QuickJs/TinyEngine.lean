import GuestJs.QuickJs.Session

/-!
# A small engine

An engine with two array buffers and a view of the first, in a realm where the guest has put its own
functions behind `DataView.prototype.buffer` and `globalThis.Set`. It obeys the laws of an engine, so
they can be met, and its guest behaves as any guest may.
-/

namespace GuestJs.QuickJs.TinyEngine

/-- What the guest can change here: the getter of the accessor, and the size of the second buffer,
which is resizable. -/
structure Heap where
  getter : Value
  size : Nat
  deriving DecidableEq

def view : Value := .object 1

def firstBuffer : Value := .object 2

def secondBuffer : Value := .object 3

def guestFunction : Value := .object 4

def ownGetter : Accessor → Value
  | .buffer => .object 5
  | .byteOffset => .object 6
  | .byteLength => .object 7

def globals : Value := .object 8

def typeError : Value := .object 9

/-- The exception of the engine's that cannot be caught. -/
def interruption : Value := .object 10

def objectKind : ObjectId → Kind
  | 1 => .dataView
  | 2 | 3 => .arrayBuffer
  | 4 | 5 | 6 | 7 => .function
  | _ => .object

def slots : Slots := ⟨firstBuffer, 0, 8⟩

def block (heap : Heap) (value : Value) : Option Block :=
  if value = firstBuffer then some ⟨256, 8⟩
  else if value = secondBuffer then some ⟨512, heap.size⟩
  else none

def callGuest (this : Value) (heap : Heap) : Resumption Heap GuestCall Answer Fault Value :=
  .call ⟨guestFunction, this, []⟩ heap fun answer heap => .done answer heap

def callGetter (getter view : Value) (heap : Heap) : Resumption Heap GuestCall Answer Fault Value :=
  if getter = ownGetter .buffer then .done (.ok slots.buffer) heap
  else if getter = ownGetter .byteOffset then
    .done (.ok (.number (.finite slots.byteOffset))) heap
  else if getter = ownGetter .byteLength then
    .done (.ok (.number (.finite slots.byteLength))) heap
  else callGuest view heap

/-- The getter of an accessor on the prototype: the guest has replaced that of the buffer. -/
def prototypeGetter (heap : Heap) : Accessor → Value
  | .buffer => heap.getter
  | accessor => ownGetter accessor

def memory (buffer : Value) (heap : Heap) : Resumption Heap GuestCall Answer Fault (Nat × Nat) :=
  match block heap buffer with
  | some block => .done (.ok (block.address, block.size)) heap
  | none => .done (.error (.exception typeError)) heap

def getProperty (object key : Value) (heap : Heap) :
    Resumption Heap GuestCall Answer Fault Value :=
  if key = .string "Set" then callGuest object heap else .done (.ok .undefined) heap

def primitive {α : Type} : Primitive α → Heap → Resumption Heap GuestCall Answer Fault α
  | .ownGetter _ accessor, heap => .done (.ok (some (prototypeGetter heap accessor))) heap
  | .callGetter getter view, heap => callGetter getter view heap
  | .arrayBuffer buffer, heap => memory buffer heap
  | .newError _ _, heap => .done (.ok typeError) heap
  | .defineText _ _ _, heap => .done (.ok ()) heap
  | .get object key, heap => getProperty object key heap
  | _, heap => .done (.error (.other "not available")) heap

def toU32 : Value → Option Nat
  | .number (.finite q) => if q.den = 1 then some q.num.toNat else none
  | _ => none

theorem callGetter_done {getter view : Value} {heap heap' : Heap} {result : Except Fault Value}
    (h : callGetter getter view heap = .done result heap') : heap' = heap := by
  unfold callGetter at h
  split at h
  · cases h; rfl
  split at h
  · cases h; rfl
  split at h
  · cases h; rfl
  · cases h

theorem callGetter_call {getter view : Value} {heap heap' : Heap} {query : GuestCall}
    {resume : Answer → Heap → Resumption Heap GuestCall Answer Fault Value}
    (h : callGetter getter view heap = .call query heap' resume) :
    heap' = heap ∧ resume = fun answer heap => .done answer heap := by
  unfold callGetter at h
  split at h
  · cases h
  split at h
  · cases h
  split at h
  · cases h
  · cases h; exact ⟨rfl, rfl⟩

theorem memory_done {buffer : Value} {heap heap' : Heap} {result : Except Fault (Nat × Nat)}
    (h : memory buffer heap = .done result heap') :
    heap' = heap ∧ ∀ address size, result = .ok (address, size) →
      block heap buffer = some ⟨address, size⟩ := by
  unfold memory at h
  split at h
  · next block hblock =>
      cases h
      refine ⟨rfl, fun address size hok => ?_⟩
      cases hok
      exact hblock
  · cases h
    exact ⟨rfl, fun address size hok => nomatch hok⟩

theorem primitive_done {α : Type} {p : Primitive α} {heap heap' : Heap} {result : Except Fault α}
    (h : primitive p heap = .done result heap') : heap' = heap := by
  cases p
  case callGetter => exact callGetter_done h
  case arrayBuffer => exact (memory_done h).1
  case get =>
    simp only [primitive, getProperty] at h
    split at h
    · cases h
    · cases h; rfl
  all_goals cases h; rfl

theorem primitive_call {α : Type} {p : Primitive α} {heap heap' : Heap} {query : GuestCall}
    {resume : Answer → Heap → Resumption Heap GuestCall Answer Fault α}
    (h : primitive p heap = .call query heap' resume) :
    heap' = heap ∧ ∀ answer t, ∃ result, resume answer t = .done result t := by
  cases p
  case callGetter =>
    obtain ⟨rfl, rfl⟩ := callGetter_call h
    exact ⟨rfl, fun answer t => ⟨answer, rfl⟩⟩
  case arrayBuffer =>
    simp only [primitive, memory] at h
    split at h <;> cases h
  case get =>
    simp only [primitive, getProperty] at h
    split at h
    · cases h; exact ⟨rfl, fun answer t => ⟨answer, rfl⟩⟩
    · cases h
  all_goals cases h

theorem primitive_guarantees {K : Heap → Heap → Prop} (hrefl : ∀ h, K h h) {α : Type}
    (p : Primitive α) (heap : Heap) :
    (primitive p heap).Guarantees K (fun h _ h' => K h h') heap := by
  cases hdone : primitive p heap with
  | done result heap' =>
      obtain rfl := primitive_done hdone
      exact hrefl heap'
  | call query heap' resume =>
      obtain ⟨rfl, hresume⟩ := primitive_call hdone
      refine ⟨hrefl heap', fun answer t => ?_⟩
      obtain ⟨result, hanswer⟩ := hresume answer t
      rw [hanswer]
      exact hrefl t

theorem primitive_inert {α : Type} (p : Primitive α) (heap : Heap) (h : p.isInert = true) :
    (primitive p heap).Finished := by
  cases p
  case arrayBuffer buffer =>
    simp only [primitive, memory]
    split <;> trivial
  all_goals first | exact trivial | cases h

theorem block_distinct (heap : Heap) (first second : Value) (b b' : Block)
    (hfirst : block heap first = some b) (hsecond : block heap second = some b')
    (haddress : b.address = b'.address) : first = second := by
  unfold block at hfirst hsecond
  split at hfirst
  · split at hsecond
    · simp_all
    · split at hsecond
      · cases hfirst; cases hsecond; cases haddress
      · cases hsecond
  · split at hfirst
    · split at hsecond
      · cases hfirst; cases hsecond; cases haddress
      · split at hsecond
        · simp_all
        · cases hsecond
    · cases hfirst

theorem own_getter {accessor : Accessor} {getter : Value} (h : getter = ownGetter accessor)
    (view : Value) (heap : Heap) :
    ∃ value, callGetter getter view heap = .done (.ok value) heap ∧
      slots.Reports accessor value := by
  subst h
  cases accessor <;> exact ⟨_, rfl, rfl⟩

def engine : Engine where
  Heap := Heap
  primitive := primitive
  objectKind := objectKind
  isConstructor := fun _ => false
  isError := fun value => value = typeError
  typedArrayType := fun _ => none
  typeName := fun _ => "object"
  isUncatchable := fun _ value => value = interruption
  isImmutable := fun _ _ => false
  toU32 := toU32
  wellKnown := fun _ => .symbol 0
  globals := globals
  walk := 1
  block := block
  slots := fun _ _ => slots
  isOwn := fun _ accessor getter => getter = ownGetter accessor
  toU32_natCast := by
    intro n m h
    simpa [toU32, eq_comm] using h
  inert := primitive_inert
  block_read := fun p heap _ => primitive_guarantees (fun _ _ _ h => h) p heap
  slots_read := fun _ _ _ _ _ _ _ => rfl
  arrayBuffer_block := by
    intro buffer heap address size heap' h
    obtain ⟨rfl, hblock⟩ := memory_done h
    exact hblock address size rfl
  block_distinct := fun heap first second b b' hfirst hsecond _ _ =>
    block_distinct heap first second b b' hfirst hsecond
  own_getter := by
    intro accessor getter view heap h
    obtain ⟨value, hdone, hvalue⟩ := own_getter (of_decide_eq_true h) view heap
    refine ⟨.ok value, heap, hdone, ?_⟩
    rintro _ ⟨⟩
    exact hvalue

def session (getter : Value) : Session engine where
  heap := ⟨getter, 8⟩
  loans := .empty
  context := 0
  depth := 1
  payloads := fun _ => none
  pendingExports := none
  nextImport := 1

end GuestJs.QuickJs.TinyEngine
