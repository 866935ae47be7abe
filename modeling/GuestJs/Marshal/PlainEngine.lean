import GuestJs.Marshal.Realm

/-!
# An engine of plain data

An engine that knows plain objects, arrays and byte arrays and has no guest functions. It obeys the
laws of an engine, and plain data behaves in it as in a realm; what its prototypes catch, and what it
has in its heap at first, is chosen freely.
-/

namespace GuestJs.Marshal.PlainEngine

open QuickJs

structure Heap where
  cells : List Contents
  caught : List String
  catchesElements : Bool
  deriving DecidableEq

def kindTag : Contents → Nat
  | .record _ => 0
  | .elements _ => 1
  | .buffer _ => 2
  | .view _ _ => 3

/-- The number of an object says of what class it is. -/
def objectKind (id : ObjectId) : Kind :=
  match id % 4 with
  | 0 => .object
  | 1 => .array
  | 2 => .arrayBuffer
  | _ => .typedArray

def contents (heap : Heap) (id : ObjectId) : Option Contents :=
  heap.cells[id / 4]?.filter fun found => kindTag found = id % 4

def allocate (found : Contents) (heap : Heap) : Value × Heap :=
  (.object (4 * heap.cells.length + kindTag found), { heap with cells := heap.cells ++ [found] })

def getProperty : Contents → Value → Option Value
  | .record properties, .string key => some ((properties.lookup key).getD .undefined)
  | .elements items, .string "length" => some (.number (.finite (items.length : Int)))
  | .elements items, .number (.finite q) => some (items[q.num.toNat]?.getD .undefined)
  | _, _ => none

/-- An assignment that a prototype catches is gone without a trace, as it is for the elements of an
array. -/
def setProperty (id : ObjectId) (key : String) (value : Value) (heap : Heap) : Option Heap :=
  match contents heap id with
  | some (.record properties) =>
      if key ∈ heap.caught then some heap
      else
        let found := Contents.record (StdMap.insert properties key value)
        some { heap with cells := heap.cells.set (id / 4) found }
  | _ => none

def ownKeys (heap : Heap) (id : ObjectId) : Option (List Value) :=
  match contents heap id with
  | some (.record properties) => some ((properties.map Prod.fst).map .string)
  | _ => none

def typedArrayBuffer (heap : Heap) (id : ObjectId) : Option (Value × Nat × Nat) :=
  match contents heap id with
  | some (.view buffer length) => some (.object buffer, 0, length)
  | _ => none

/-- The memory of a buffer is at the address that is its number. -/
def arrayBuffer (heap : Heap) (id : ObjectId) : Option (Nat × Nat) :=
  match contents heap id with
  | some (.buffer bytes) => some (id, bytes.length)
  | _ => none

def objectId : Value → Option ObjectId
  | .object id => some id
  | _ => none

def text : Value → Option String
  | .string text => some text
  | _ => none

def reply {α : Type} : Primitive α → Heap → Option (α × Heap)
  | .newString text, heap => some (.string text, heap)
  | .toCString value, heap => (text value).map fun text => (some text, heap)
  | .newObject, heap => some (allocate (.record []) heap)
  | .newArray items, heap =>
      if 2 ^ 32 ≤ items.length then none
      else some (allocate (.elements (if heap.catchesElements then [] else items)) heap)
  | .newArrayBuffer bytes, heap => some (allocate (.buffer bytes) heap)
  | .newTypedArray _ buffer _ length, heap =>
      (objectId buffer).map fun id => allocate (.view id length) heap
  | .get object key, heap =>
      (((objectId object).bind (contents heap)).bind fun found => getProperty found key).map
        fun value => (value, heap)
  | .set object key value, heap =>
      ((objectId object).bind fun id => (text key).bind fun key =>
        setProperty id key value heap).map fun heap => ((), heap)
  | .keys object, heap => ((objectId object).bind (ownKeys heap)).map fun keys => (keys, heap)
  | .typedArrayBuffer view, heap =>
      ((objectId view).bind (typedArrayBuffer heap)).map fun slots => (slots, heap)
  | .arrayBuffer buffer, heap =>
      ((objectId buffer).bind (arrayBuffer heap)).map fun memory => (memory, heap)
  | _, _ => none

def primitive {α : Type} (p : Primitive α) (heap : Heap) :
    Resumption Heap GuestCall Answer Fault α :=
  match reply p heap with
  | some (answer, heap') => .done (.ok answer) heap'
  | none => .done (.error (.other "not available")) heap

def block (heap : Heap) : Value → Option Block
  | .object id => (arrayBuffer heap id).map fun memory => ⟨memory.1, memory.2⟩
  | _ => none

theorem primitive_done {α : Type} {p : Primitive α} {heap heap' : Heap} {answer : α} :
    primitive p heap = .done (.ok answer) heap' ↔ reply p heap = some (answer, heap') := by
  unfold primitive
  split
  · next answer' heap'' hreply => simp [hreply]
  · next hreply => simp [hreply]

theorem contents_append {heap : Heap} {id : ObjectId} {found : Contents} (added : Contents)
    (h : contents heap id = some found) :
    contents { heap with cells := heap.cells ++ [added] } id = some found := by
  simp only [contents, Option.filter_eq_some_iff] at h ⊢
  refine ⟨?_, h.2⟩
  rw [List.getElem?_append_left (List.getElem?_eq_some_iff.mp h.1).1]
  exact h.1

theorem kindTag_lt (found : Contents) : kindTag found < 4 := by
  cases found <;> simp [kindTag]

theorem contents_allocated (heap : Heap) (found : Contents) :
    contents heap (4 * heap.cells.length + kindTag found) = none ∧
      contents { heap with cells := heap.cells ++ [found] }
        (4 * heap.cells.length + kindTag found) = some found := by
  have htag := kindTag_lt found
  have hindex : (4 * heap.cells.length + kindTag found) / 4 = heap.cells.length := by omega
  have hmod : (4 * heap.cells.length + kindTag found) % 4 = kindTag found := by omega
  simp [contents, hindex, hmod]

theorem kind_of_contents {heap : Heap} {id : ObjectId} {found : Contents}
    (h : contents heap id = some found) : objectKind id = found.kind := by
  simp only [contents, Option.filter_eq_some_iff, decide_eq_true_eq] at h
  unfold objectKind
  rw [← h.2]
  cases found <;> rfl

theorem objectId_eq_some {value : Value} {id : ObjectId} :
    objectId value = some id ↔ value = .object id := by
  cases value <;> simp [objectId]

theorem arrayBuffer_eq_some {heap : Heap} {id address size : Nat} :
    arrayBuffer heap id = some (address, size) ↔
      ∃ bytes, contents heap id = some (.buffer bytes) ∧ id = address ∧ bytes.length = size := by
  unfold arrayBuffer
  split
  · next bytes hbytes => simp [hbytes]
  · next hne =>
      simp only [reduceCtorEq, false_iff]
      rintro ⟨bytes, hbytes, -, -⟩
      exact hne bytes hbytes

theorem block_eq_some {heap : Heap} {value : Value} {found : Block} :
    block heap value = some found ↔
      ∃ id bytes, value = .object id ∧ contents heap id = some (.buffer bytes) ∧
        found = ⟨id, bytes.length⟩ := by
  cases value with
  | object id =>
      simp only [block, Option.map_eq_some_iff, Prod.exists, arrayBuffer_eq_some]
      constructor
      · rintro ⟨address, size, ⟨bytes, hbytes, rfl, rfl⟩, rfl⟩
        exact ⟨id, bytes, rfl, hbytes, rfl⟩
      · rintro ⟨_, bytes, ⟨⟩, hbytes, rfl⟩
        exact ⟨id, bytes.length, ⟨bytes, hbytes, rfl, rfl⟩, rfl⟩
  | _ => simp [block]

theorem keeps_append {heap : Heap} (added : Contents) :
    Keeps block heap { heap with cells := heap.cells ++ [added] } := by
  intro value found h
  obtain ⟨id, bytes, rfl, hbytes, rfl⟩ := block_eq_some.mp h
  exact block_eq_some.mpr ⟨id, bytes, rfl, contents_append added hbytes, rfl⟩

/-- A request that is a read leaves the heap alone, or makes one new thing. -/
theorem reply_read {α : Type} {p : Primitive α} {heap heap' : Heap} {answer : α}
    (hread : p.isRead = true) (h : reply p heap = some (answer, heap')) :
    heap' = heap ∨ ∃ added, heap' = { heap with cells := heap.cells ++ [added] } := by
  cases p
  case newObject => exact Or.inr ⟨_, by cases h; rfl⟩
  case newArrayBuffer => exact Or.inr ⟨_, by cases h; rfl⟩
  case newArray => cases hread
  case newTypedArray => cases hread
  case set => cases hread
  case keys => cases hread
  all_goals
    left
    simp only [reply, Option.map_eq_some_iff, Prod.mk.injEq, reduceCtorEq, Option.some.injEq] at h
  case newString => exact h.2.symm
  case toCString => obtain ⟨_, _, _, rfl⟩ := h; rfl
  case get => obtain ⟨_, _, _, rfl⟩ := h; rfl
  case typedArrayBuffer => obtain ⟨_, _, _, rfl⟩ := h; rfl
  case arrayBuffer => obtain ⟨_, _, _, rfl⟩ := h; rfl

theorem primitive_read {α : Type} {p : Primitive α} (heap : Heap) (hread : p.isRead = true) :
    ∃ result heap', primitive p heap = .done result heap' ∧ Keeps block heap heap' := by
  unfold primitive
  cases hreply : reply p heap with
  | none => exact ⟨_, heap, rfl, fun _ _ h => h⟩
  | some answer =>
      refine ⟨_, answer.2, rfl, ?_⟩
      obtain hsame | ⟨added, hadded⟩ := reply_read hread hreply
      · rw [hsame]
        exact fun _ _ h => h
      · rw [hadded]
        exact keeps_append added

abbrev engine : Engine where
  Heap := Heap
  primitive := primitive
  objectKind := objectKind
  isConstructor := fun _ => false
  isError := fun _ => false
  typedArrayType := fun _ => some .uint8
  typeName := fun _ => "value"
  isUncatchable := fun _ _ => false
  isImmutable := fun _ _ => false
  toU32 := fun _ => none
  wellKnown := fun _ => .symbol 0
  globals := .undefined
  walk := 0
  block := block
  slots := fun _ _ => ⟨.undefined, 0, 0⟩
  isOwn := fun _ _ _ => false
  toU32_natCast := fun _ _ h => nomatch h
  inert := by
    intro α p heap _
    unfold primitive
    split <;> trivial
  block_read := by
    intro α p heap hread
    obtain ⟨result, heap', hdone, hkeeps⟩ := primitive_read heap hread
    rw [hdone]
    exact hkeeps
  slots_read := fun _ _ _ _ _ _ _ => rfl
  arrayBuffer_block := by
    intro buffer heap address size heap' h
    have hreply := primitive_done.mp h
    simp only [reply, Option.map_eq_some_iff, Option.bind_eq_some_iff, Prod.mk.injEq] at hreply
    obtain ⟨_, ⟨id, hid, hmemory⟩, rfl, rfl⟩ := hreply
    obtain ⟨bytes, hbytes, rfl, rfl⟩ := arrayBuffer_eq_some.mp hmemory
    exact block_eq_some.mpr ⟨id, bytes, objectId_eq_some.mp hid, hbytes, rfl⟩
  block_distinct := by
    intro heap first second b b' hfirst hsecond _ _ haddress
    obtain ⟨id, bytes, rfl, _, rfl⟩ := block_eq_some.mp hfirst
    obtain ⟨id', bytes', rfl, _, rfl⟩ := block_eq_some.mp hsecond
    exact congrArg Value.object haddress
  own_getter := fun _ _ _ _ h => nomatch h

/-- The bytes of a buffer are read whole. -/
def memory (heap : Heap) (address length : Nat) : List UInt8 :=
  match contents heap address with
  | some (.buffer bytes) => if bytes.length = length then bytes else List.replicate length 0
  | _ => List.replicate length 0

theorem length_memory (heap : Heap) (address length : Nat) :
    (memory heap address length).length = length := by
  unfold memory
  split
  · split
    · assumption
    · exact List.length_replicate
  · exact List.length_replicate

theorem memory_of_contents {heap : Heap} {id : ObjectId} {bytes : List UInt8}
    (h : contents heap id = some (.buffer bytes)) : memory heap id bytes.length = bytes := by
  simp [memory, h]

def decimal : Number → String
  | .finite q => toString q.num ++ if q.den = 1 then ".0" else "/" ++ toString q.den
  | .negativeZero => "-0.0"
  | .infinity negative => if negative then "-inf" else "inf"
  | .nan => "NaN"

abbrev platform : Platform engine where
  bytes := memory
  length_bytes := length_memory
  quoted := String.quote
  decimal := decimal
  lossy := fun bytes => String.ofList (bytes.map fun byte => Char.ofNat byte.toNat)

abbrev store : Store engine where
  contents := contents
  caught := fun heap key => key ∈ heap.caught
  catchesElements := fun heap => heap.catchesElements = true

theorem store_keeps_append (heap : Heap) (added : Contents) :
    store.Keeps heap { heap with cells := heap.cells ++ [added] } where
  contents := fun _ _ _ h => contents_append added h
  caught := fun _ => Iff.rfl
  catchesElements := Iff.rfl

theorem store_set {heap : Heap} {id : ObjectId} {properties : List (String × Value)}
    (h : contents heap id = some (.record properties)) (changed : List (String × Value)) :
    contents { heap with cells := heap.cells.set (id / 4) (.record changed) } id =
        some (.record changed) ∧
      store.KeepsBut (· = id) heap
        { heap with cells := heap.cells.set (id / 4) (.record changed) } := by
  simp only [contents, Option.filter_eq_some_iff, decide_eq_true_eq] at h
  obtain ⟨hcell, htag⟩ := h
  have hlt := (List.getElem?_eq_some_iff.mp hcell).1
  refine ⟨?_, ?_, fun _ => Iff.rfl, Iff.rfl⟩
  · simp only [contents, List.getElem?_set_self hlt]
    exact Option.filter_eq_some_iff.mpr ⟨rfl, decide_eq_true htag⟩
  · intro other found hother hfound
    have hne : other ≠ id := hother
    simp only [contents, Option.filter_eq_some_iff, decide_eq_true_eq] at hfound ⊢
    obtain ⟨hcell', htag'⟩ := hfound
    refine ⟨?_, htag'⟩
    rw [List.getElem?_set_ne]
    · exact hcell'
    · -- Objects that share a cell have one number.
      intro hindex
      rw [← hindex, hcell] at hcell'
      have hkind : id % 4 = other % 4 := by rw [← htag, ← htag', Option.some.inj hcell']
      refine hne ?_
      rw [← Nat.div_add_mod other 4, ← Nat.div_add_mod id 4, hindex, hkind]

theorem reply_get {heap : Heap} {id : ObjectId} {found : Contents} {key value : Value}
    (h : contents heap id = some found) (hvalue : getProperty found key = some value) :
    reply (.get (.object id) key) heap = some (value, heap) := by
  simp [reply, objectId, h, hvalue]

theorem reply_set {heap : Heap} {id : ObjectId} {properties : List (String × Value)} {key : String}
    (value : Value) (h : contents heap id = some (.record properties)) (hkey : key ∉ heap.caught) :
    reply (.set (.object id) (.string key) value) heap = some ((), { heap with
      cells := heap.cells.set (id / 4) (.record (StdMap.insert properties key value)) }) := by
  simp [reply, objectId, text, setProperty, h, hkey]

theorem reply_keys {heap : Heap} {id : ObjectId} {properties : List (String × Value)}
    (h : contents heap id = some (.record properties)) :
    reply (.keys (.object id)) heap = some ((properties.map Prod.fst).map .string, heap) := by
  simp [reply, objectId, ownKeys, h]

theorem reply_newArray {heap : Heap} {items : List Value} (hcatches : heap.catchesElements ≠ true)
    (hlength : items.length < 2 ^ 32) :
    reply (.newArray items) heap = some (allocate (.elements items) heap) := by
  rw [reply, if_neg (Nat.not_le.mpr hlength), if_neg hcatches]

theorem reply_newString (heap : Heap) (text : String) :
    reply (.newString text) heap = some (.string text, heap) := rfl

theorem reply_toCString (heap : Heap) (text : String) :
    reply (.toCString (.string text)) heap = some (some text, heap) := rfl

theorem reply_newObject (heap : Heap) :
    reply .newObject heap = some (allocate (.record []) heap) := rfl

theorem reply_newArrayBuffer (heap : Heap) (bytes : List UInt8) :
    reply (.newArrayBuffer bytes) heap = some (allocate (.buffer bytes) heap) := rfl

theorem reply_newTypedArray (heap : Heap) (element : ElementType) (buffer offset length : Nat) :
    reply (.newTypedArray element (.object buffer) offset length) heap =
      some (allocate (.view buffer length) heap) := rfl

theorem reply_typedArrayBuffer {heap : Heap} {id buffer length : Nat}
    (h : contents heap id = some (.view buffer length)) :
    reply (.typedArrayBuffer (.object id)) heap = some ((.object buffer, 0, length), heap) := by
  simp [reply, objectId, typedArrayBuffer, h]

theorem reply_arrayBuffer {heap : Heap} {id : ObjectId} {bytes : List UInt8}
    (h : contents heap id = some (.buffer bytes)) :
    reply (.arrayBuffer (.object id)) heap = some ((id, bytes.length), heap) := by
  simp [reply, objectId, arrayBuffer, h]

def realm : Realm platform where
  toStore := store
  kind := fun _ _ _ h => kind_of_contents h
  newString := fun heap text => ⟨heap, primitive_done.mpr (reply_newString heap text), .refl⟩
  toCString := fun heap text => ⟨heap, primitive_done.mpr (reply_toCString heap text), .refl⟩
  newObject := fun heap =>
    ⟨_, _, primitive_done.mpr (reply_newObject heap), (contents_allocated heap (.record [])).1,
      (contents_allocated heap (.record [])).2, store_keeps_append heap _⟩
  set := fun heap id properties key value h hcaught =>
    ⟨_, primitive_done.mpr (reply_set value h hcaught), store_set h _⟩
  keys := fun heap id properties h =>
    ⟨properties.map Prod.fst, heap, primitive_done.mpr (reply_keys h), .refl _, .refl⟩
  getProperty := fun heap id properties key value h hlookup =>
    ⟨heap, primitive_done.mpr (reply_get h (by simp [getProperty, hlookup])), .refl⟩
  newArray := fun heap items hcatches hlength =>
    ⟨_, _, primitive_done.mpr (reply_newArray hcatches hlength),
      (contents_allocated heap (.elements items)).1, (contents_allocated heap (.elements items)).2,
      store_keeps_append heap _⟩
  getLength := fun heap id items h => ⟨heap, primitive_done.mpr (reply_get h rfl), .refl⟩
  getElement := fun heap id items index item h hitem =>
    ⟨heap, primitive_done.mpr (reply_get h (by simp [getProperty, hitem])), .refl⟩
  newArrayBuffer := fun heap bytes =>
    ⟨_, _, primitive_done.mpr (reply_newArrayBuffer heap bytes),
      (contents_allocated heap (.buffer bytes)).1, (contents_allocated heap (.buffer bytes)).2,
      store_keeps_append heap _⟩
  newTypedArray := fun heap buffer bytes _ =>
    ⟨_, _, primitive_done.mpr (reply_newTypedArray heap .uint8 buffer 0 bytes.length),
      (contents_allocated heap (.view buffer bytes.length)).1,
      (contents_allocated heap (.view buffer bytes.length)).2, store_keeps_append heap _⟩
  typedArrayBuffer := fun heap id buffer length h =>
    ⟨heap, primitive_done.mpr (reply_typedArrayBuffer h), .refl⟩
  arrayBuffer := fun heap buffer bytes h =>
    ⟨buffer, heap, primitive_done.mpr (reply_arrayBuffer h), memory_of_contents h, .refl⟩

def absence : Absence realm where
  lacks := fun heap id key => ∀ properties, contents heap id = some (.record properties) →
    key ∉ properties.map Prod.fst
  record := by
    intro heap id properties key h hkey properties' h'
    obtain ⟨⟩ : properties = properties' := by simpa using h.symm.trans h'
    exact hkey
  newString := by
    rintro heap text result heap' id key ⟨⟩ hlacks
    exact hlacks
  set := by
    intro heap id key other value hother
    show (primitive _ heap).Guarantees _ _ heap
    unfold primitive
    cases hreply : reply (.set (.object id) (.string other) value) heap with
    | none => exact fun hlacks => hlacks
    | some answer =>
        intro hlacks properties hproperties
        simp only [reply, objectId, text, Option.bind_some, Option.map_eq_some_iff] at hreply
        obtain ⟨heap', hset, rfl⟩ := hreply
        unfold setProperty at hset
        split at hset
        · next found hfound =>
            split at hset
            · cases hset
              exact hlacks properties hproperties
            · next hcaught =>
                cases hset
                have hinsert := (store_set hfound (StdMap.insert found other value)).1
                obtain ⟨⟩ : StdMap.insert found other value = properties := by
                  simpa using hinsert.symm.trans hproperties
                rw [StdMap.mem_keys_insert]
                rintro (rfl | hmem)
                · exact hcaught (hother rfl).1
                · exact hlacks found hfound hmem
        · cases hset
  keys := by
    intro heap id key hlacks
    show ∃ result heap', primitive _ heap = .done result heap' ∧ _
    unfold primitive
    cases hreply : reply (.keys (.object id)) heap with
    | none => exact ⟨_, heap, rfl, nofun⟩
    | some answer =>
        refine ⟨_, _, rfl, ?_⟩
        rintro names ⟨⟩
        simp only [reply, objectId, Option.bind_some, Option.map_eq_some_iff] at hreply
        obtain ⟨names, hkeys, rfl⟩ := hreply
        unfold ownKeys at hkeys
        split at hkeys
        · next properties hproperties =>
            cases hkeys
            intro name hname
            obtain ⟨other, hother, rfl⟩ := List.mem_map.mp hname
            refine Or.inr ⟨other, rfl, ?_⟩
            rintro rfl
            exact hlacks properties hproperties hother
        · cases hkeys

def session (heap : Heap) : Session engine where
  heap := heap
  loans := .empty
  context := 0
  depth := 1
  payloads := fun _ => none
  pendingExports := none
  nextImport := 1

end GuestJs.Marshal.PlainEngine
