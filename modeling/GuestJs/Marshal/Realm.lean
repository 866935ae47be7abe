import GuestJs.Marshal.Collections

/-!
# Plain data in a realm

What ECMAScript says of plain objects, arrays and byte arrays that no guest code has touched. An
assignment to a plain object creates or changes an own property, unless a prototype of the object has
a say in it, as `Object.prototype` has for `__proto__`; and the guest can give it more to say.
-/

namespace GuestJs.Marshal

open QuickJs

/-- What an object of plain data holds: the properties of a record, the elements of an array, the
bytes of a buffer, or a view of all the bytes of a buffer. -/
inductive Contents where
  | record (properties : List (String × Value))
  | elements (items : List Value)
  | buffer (bytes : List UInt8)
  | view (buffer : ObjectId) (length : Nat)
  deriving DecidableEq

def Contents.kind : Contents → Kind
  | record _ => .object
  | elements _ => .array
  | buffer _ => .arrayBuffer
  | view _ _ => .typedArray

/-- The plain data in a heap, and what the prototypes keep from being assigned. -/
structure Store (E : Engine) where
  contents : E.Heap → ObjectId → Option Contents
  caught : E.Heap → String → Prop
  catchesElements : E.Heap → Prop

namespace Store

variable {E : Engine} (store : Store E)

structure KeepsBut (changed : ObjectId → Prop) (h h' : E.Heap) : Prop where
  contents : ∀ id c, ¬ changed id → store.contents h id = some c → store.contents h' id = some c
  caught : ∀ key, store.caught h' key ↔ store.caught h key
  catchesElements : store.catchesElements h' ↔ store.catchesElements h

/-- Nothing there is changes, though there may be more. -/
abbrev Keeps (h h' : E.Heap) : Prop := store.KeepsBut (fun _ => False) h h'

variable {store} {changed : ObjectId → Prop} {h h' h'' : E.Heap}

theorem KeepsBut.refl : store.KeepsBut changed h h := ⟨fun _ _ _ hc => hc, fun _ => Iff.rfl, Iff.rfl⟩

theorem KeepsBut.trans (hfirst : store.KeepsBut changed h h')
    (hsecond : store.KeepsBut changed h' h'') : store.KeepsBut changed h h'' where
  contents := fun id c hid hc => hsecond.contents id c hid (hfirst.contents id c hid hc)
  caught := fun key => (hsecond.caught key).trans (hfirst.caught key)
  catchesElements := hsecond.catchesElements.trans hfirst.catchesElements

theorem KeepsBut.mono {changed' : ObjectId → Prop} (hkeeps : store.KeepsBut changed h h')
    (hmono : ∀ id c, store.contents h id = some c → ¬ changed' id → ¬ changed id) :
    store.KeepsBut changed' h h' where
  contents := fun id c hid hc => hkeeps.contents id c (hmono id c hc hid) hc
  caught := hkeeps.caught
  catchesElements := hkeeps.catchesElements

end Store

/-- What the engine does with plain data, with memory enough: strings keep their text, a new object is
new, what was assigned is found under its key and nowhere else, and bytes are where they were put. -/
structure Realm {E : Engine} (platform : Platform E) extends Store E where
  kind : ∀ h id c, contents h id = some c → E.objectKind id = c.kind
  newString : ∀ h text, ∃ h', E.primitive (.newString text) h = .done (.ok (.string text)) h' ∧
    toStore.Keeps h h'
  toCString : ∀ h text, ∃ h',
    E.primitive (.toCString (.string text)) h = .done (.ok (some text)) h' ∧ toStore.Keeps h h'
  newObject : ∀ h, ∃ id h', E.primitive .newObject h = .done (.ok (.object id)) h' ∧
    contents h id = none ∧ contents h' id = some (.record []) ∧ toStore.Keeps h h'
  set : ∀ h id properties key value, contents h id = some (.record properties) → ¬ caught h key →
    ∃ h', E.primitive (.set (.object id) (.string key) value) h = .done (.ok ()) h' ∧
      contents h' id = some (.record (StdMap.insert properties key value)) ∧
      toStore.KeepsBut (· = id) h h'
  /-- The keys come in an order of the engine's own. -/
  keys : ∀ h id properties, contents h id = some (.record properties) →
    ∃ (names : List String) (h' : E.Heap),
      E.primitive (.keys (.object id)) h = .done (.ok (names.map .string)) h' ∧
      names.Perm (properties.map Prod.fst) ∧ toStore.Keeps h h'
  getProperty : ∀ h id properties key value, contents h id = some (.record properties) →
    properties.lookup key = some value →
    ∃ h', E.primitive (.get (.object id) (.string key)) h = .done (.ok value) h' ∧
      toStore.Keeps h h'
  /-- An array has fewer than `2 ^ 32` elements. -/
  newArray : ∀ h items, ¬ catchesElements h → items.length < 2 ^ 32 →
    ∃ id h', E.primitive (.newArray items) h = .done (.ok (.object id)) h' ∧
      contents h id = none ∧ contents h' id = some (.elements items) ∧ toStore.Keeps h h'
  getLength : ∀ h id items, contents h id = some (.elements items) →
    ∃ h', E.primitive (.get (.object id) (.string "length")) h =
        .done (.ok (.number (.finite (items.length : Int)))) h' ∧ toStore.Keeps h h'
  getElement : ∀ h id items (index : Nat) item, contents h id = some (.elements items) →
    items[index]? = some item →
    ∃ h', E.primitive (.get (.object id) (.number (.finite (index : Int)))) h = .done (.ok item) h' ∧
      toStore.Keeps h h'
  newArrayBuffer : ∀ h bytes, ∃ id h',
    E.primitive (.newArrayBuffer bytes) h = .done (.ok (.object id)) h' ∧
      contents h id = none ∧ contents h' id = some (.buffer bytes) ∧ toStore.Keeps h h'
  newTypedArray : ∀ h buffer bytes, contents h buffer = some (.buffer bytes) →
    ∃ id h', E.primitive (.newTypedArray .uint8 (.object buffer) 0 bytes.length) h =
        .done (.ok (.object id)) h' ∧
      contents h id = none ∧ contents h' id = some (.view buffer bytes.length) ∧ toStore.Keeps h h'
  typedArrayBuffer : ∀ h id buffer length, contents h id = some (.view buffer length) →
    ∃ h', E.primitive (.typedArrayBuffer (.object id)) h =
        .done (.ok (.object buffer, 0, length)) h' ∧ toStore.Keeps h h'
  arrayBuffer : ∀ h buffer bytes, contents h buffer = some (.buffer bytes) →
    ∃ address h', E.primitive (.arrayBuffer (.object buffer)) h =
        .done (.ok (address, bytes.length)) h' ∧
      platform.bytes h' address bytes.length = bytes ∧ toStore.Keeps h h'

/-- What an object is without, whatever its prototypes are: an own property of a name. It gets one by
an assignment under the name, and not even so where a prototype catches that. -/
structure Absence {E : Engine} {platform : Platform E} (R : Realm platform) where
  lacks : E.Heap → ObjectId → String → Prop
  record : ∀ h id properties key, R.contents h id = some (.record properties) →
    key ∉ properties.map Prod.fst → lacks h id key
  newString : ∀ h text result h' id key,
    E.primitive (.newString text) h = .done result h' → lacks h id key → lacks h' id key
  /-- A setter that is run is the guest's. -/
  set : ∀ h id key other value,
    (other = key → R.caught h key ∧ ∃ properties, R.contents h id = some (.record properties)) →
    (E.primitive (.set (.object id) (.string other) value) h).Guarantees
      (fun h h' => lacks h id key → lacks h' id key)
      (fun h _ h' => lacks h id key → lacks h' id key) h
  /-- The keys that are there are strings and symbols. -/
  keys : ∀ h id key, lacks h id key → ∃ result h',
    E.primitive (.keys (.object id)) h = .done result h' ∧
      ∀ names, result = .ok names → ∀ name ∈ names,
        (∃ symbol, name = .symbol symbol) ∨ ∃ other, name = .string other ∧ other ≠ key

end GuestJs.Marshal
