import GuestJs.Handle.Views
import GuestJs.Proof.BufferWrites
import GuestJs.Proof.ViewSlots
import GuestJs.QuickJs.ViewEngine
import Mathlib.Logic.Function.Basic

/-!
# Buffers as stores

What calls on buffers and views copy is what a store of bytes would have them copy: every view is a
window of the bytes of its buffer, a write replaces bytes of the window if they fit in it, and a read
gives the bytes last written, through whichever view and as whichever elements that was.
-/

namespace GuestJs

open QuickJs

variable {E : Engine} {ρ : Type} {environment : Environment E}

/-- The bytes of the buffers that have been seen. -/
structure ByteStore where
  seen : Value → Prop
  byte : Value → Nat → UInt8

namespace ByteStore

def slice (store : ByteStore) (window : Window) : List UInt8 :=
  (List.range window.byteLength).map fun i => store.byte window.buffer (window.byteOffset + i)

def write (store : ByteStore) (window : Window) (offset : Nat) (bytes : List UInt8) : ByteStore :=
  { store with byte := fun buffer i =>
      if buffer = window.buffer then
        overwritten (window.byteOffset + offset) bytes i (store.byte buffer i)
      else store.byte buffer i }

def copy (store : ByteStore) (window : Window) (offset : Nat) (bytes : List UInt8) :
    Option Unit × ByteStore :=
  if offset + bytes.length ≤ window.byteLength then (some (), store.write window offset bytes)
  else (none, store)

@[simp]
theorem length_slice (store : ByteStore) (window : Window) :
    (store.slice window).length = window.byteLength := by
  rw [slice, List.length_map, List.length_range]

/-- What a window has after a write into it. -/
theorem slice_write {store : ByteStore} {window : Window} {offset : Nat} {bytes : List UInt8}
    (h : offset + bytes.length ≤ window.byteLength) :
    (store.write window offset bytes).slice window =
      (store.slice window).take offset ++ bytes ++
        (store.slice window).drop (offset + bytes.length) := by
  have htake : ((store.slice window).take offset).length = offset := by
    rw [List.length_take, length_slice, Nat.min_eq_left (by omega)]
  apply List.ext_getElem
  · rw [List.length_append, List.length_append, List.length_drop, htake, length_slice, length_slice]
    omega
  intro i hi hi'
  rw [length_slice] at hi
  have hwritten : ((store.write window offset bytes).slice window)[i] =
      overwritten offset bytes i (store.byte window.buffer (window.byteOffset + i)) := by
    simp only [slice, write, List.getElem_map, List.getElem_range, ite_true, overwritten_add]
  rw [hwritten]
  by_cases hbefore : i < offset
  · rw [overwritten_of_lt hbefore, List.getElem_append_left (by simp; omega),
      List.getElem_append_left (by omega), List.getElem_take]
    simp only [slice, List.getElem_map, List.getElem_range]
  by_cases hafter : offset + bytes.length ≤ i
  · rw [overwritten_of_le hafter, List.getElem_append_right (by simp; omega), List.getElem_drop]
    simp only [slice, List.getElem_map, List.getElem_range]
    congr 2
    simp
    omega
  · rw [List.getElem_append_left (by simp; omega), List.getElem_append_right (by omega)]
    simp only [htake, overwritten]
    rw [if_pos (by omega), List.getElem?_eq_getElem (by omega), Option.getD_some]

/-- More buffers have been seen. -/
def Extends (store store' : ByteStore) : Prop :=
  ∀ buffer, store.seen buffer →
    store'.seen buffer ∧ store'.byte buffer = store.byte buffer

end ByteStore

/-- What a call does with the window it is lent. A write that does not fit gives nothing. -/
def BufferCall.perform (store : ByteStore) (window : Window) : BufferCall ρ → Option ρ × ByteStore
  | bytes _ => (some (store.slice window), store)
  | writeBytes _ byteOffset written => store.copy window byteOffset written
  | toVec element _ => (some (element.cast (store.slice window)), store)
  | write element _ index values =>
      store.copy window (index * element.type.size) (element.asBytes values)

/-- A call that has been made, the session it was made in, and what it gave. -/
structure BufferEntry (E : Engine) where
  {Result : Type}
  call : BufferCall Result
  session : Session E
  result : Except Error Result

/-- A run of calls. Between them, too, the guest leaves the bytes as they are. -/
inductive RanCalls (memory : Memory E) (environment : Environment E) :
    Session E → List (BufferEntry E) → Session E → Prop
  | nil (s : Session E) : RanCalls memory environment s [] s
  | guest {s t u : Session E} {entries : List (BufferEntry E)} (h : Untouched memory s t)
      (hrest : RanCalls memory environment t entries u) : RanCalls memory environment s entries u
  | call {ρ : Type} {call : BufferCall ρ} {s t u : Session E} {result : Except Error ρ}
      {entries : List (BufferEntry E)}
      (h : (call.run memory s).resolve environment = (result, t))
      (hrest : RanCalls memory environment t entries u) :
      RanCalls memory environment s (⟨call, s, result⟩ :: entries) u

/-- A run of calls as one of a store: a call that is lent its view does there what it gives, and one
that is not fails with the error of the loan. A buffer comes into the store when it is first seen. -/
def Explained (environment : Environment E) : ByteStore → List (BufferEntry E) → ByteStore → Prop
  | store, [], store' => store' = store
  | store, entry :: entries, store' =>
      (∃ error t, (entry.call.borrow entry.session).resolve environment = (.error error, t) ∧
        entry.result = .error error ∧ Explained environment store entries store') ∨
      ∃ target t seen, (entry.call.borrow entry.session).resolve environment = (.ok target, t) ∧
        store.Extends seen ∧ seen.seen target.window.buffer ∧
        entry.result.toOption = (entry.call.perform seen target.window).1 ∧
        Explained environment (entry.call.perform seen target.window).2 entries store'

def Holds (memory : Memory E) (heap : E.Heap) (store : ByteStore) : Prop :=
  ∀ buffer, store.seen buffer → ∃ block, E.block heap buffer = some block ∧
    ∀ i < block.size, memory.byte heap buffer i = store.byte buffer i

/-- Allocated memory: no slice is longer than a slice can be, and no two buffers share a byte. -/
structure Allocated (E : Engine) : Prop where
  size_le : ∀ heap buffer block, E.block heap buffer = some block → block.size ≤ isizeMax
  apart : ∀ heap first second b b', E.block heap first = some b → E.block heap second = some b' →
    first ≠ second → ∀ i < b.size, ∀ j < b'.size, b.address + i ≠ b'.address + j

theorem Holds.keepsBytes {memory : Memory E} {heap heap' : E.Heap} {store : ByteStore}
    (h : Holds memory heap store) (hkept : KeepsBytes E memory.byte heap heap') :
    Holds memory heap' store := by
  intro buffer hseen
  obtain ⟨block, hblock, hbytes⟩ := h buffer hseen
  refine ⟨block, hkept.1 buffer block hblock, fun i hi => ?_⟩
  rw [hkept.2 buffer block hblock i hi, hbytes i hi]

/-- A buffer that is there comes into the store with the bytes it has. -/
theorem Holds.see {memory : Memory E} {heap : E.Heap} {store : ByteStore} {buffer : Value}
    {block : Block} (h : Holds memory heap store) (hblock : E.block heap buffer = some block) :
    ∃ store', store.Extends store' ∧ store'.seen buffer ∧ Holds memory heap store' := by
  by_cases hseen : store.seen buffer
  · exact ⟨store, fun other hother => ⟨hother, rfl⟩, hseen, h⟩
  refine ⟨⟨fun other => store.seen other ∨ other = buffer,
    Function.update store.byte buffer (memory.byte heap buffer)⟩, ?_, Or.inr rfl, ?_⟩
  · intro other hother
    have hne : other ≠ buffer := fun heq => hseen (heq ▸ hother)
    exact ⟨Or.inl hother, Function.update_of_ne hne _ _⟩
  · intro other hother
    dsimp only
    by_cases hne : other = buffer
    · subst hne
      rw [Function.update_self]
      exact ⟨block, hblock, fun i _ => rfl⟩
    · rw [Function.update_of_ne hne]
      exact h other (hother.resolve_right hne)

theorem Holds.slice_eq {memory : Memory E} {heap : E.Heap} {store : ByteStore} {target : Bytes}
    {block : Block} (h : Holds memory heap store) (hseen : store.seen target.window.buffer)
    (hplaced : BufferProtocol.Placed heap target block) :
    memory.slice heap target.window = store.slice target.window := by
  obtain ⟨block', hblock', hbytes⟩ := h _ hseen
  obtain rfl := Option.some.inj (hplaced.holds.symm.trans hblock')
  apply List.map_congr_left
  intro i hi
  have hinside := hplaced.inside
  rw [List.mem_range] at hi
  exact hbytes _ (by omega)

theorem fits_of_placed {heap : E.Heap} {target : Bytes} {block : Block} {offset : Nat}
    {bytes : List UInt8} (hplaced : BufferProtocol.Placed heap target block)
    (hwithin : offset + bytes.length ≤ target.window.byteLength) :
    Fits heap (target.address + offset) bytes.length := by
  by_cases hlength : bytes.length = 0
  · exact Or.inl hlength
  · have haddress := hplaced.address (by omega)
    have hinside := hplaced.inside
    exact Or.inr ⟨target.window.buffer, block, hplaced.holds, by omega, by omega⟩

/-- A copy into a buffer leaves the bytes of every other where they are. -/
theorem overwritten_apart {heap : E.Heap} {target : Bytes} {block other : Block} {buffer : Value}
    {offset i : Nat} {bytes : List UInt8} {byte : UInt8} (hE : Allocated E)
    (hplaced : BufferProtocol.Placed heap target block) (hother : E.block heap buffer = some other)
    (hne : buffer ≠ target.window.buffer) (hi : i < other.size)
    (hwithin : offset + bytes.length ≤ target.window.byteLength) :
    overwritten (target.address + offset) bytes (other.address + i) byte = byte := by
  by_cases hbefore : other.address + i < target.address + offset
  · exact overwritten_of_lt hbefore
  by_cases hafter : target.address + offset + bytes.length ≤ other.address + i
  · exact overwritten_of_le hafter
  have haddress := hplaced.address (by omega)
  have hinside := hplaced.inside
  have hapart := hE.apart heap buffer target.window.buffer other block hother hplaced.holds hne i hi
    (other.address + i - block.address) (by omega)
  exact absurd (by omega) hapart

theorem Holds.write {memory : Memory E} {heap : E.Heap} {store : ByteStore} {target : Bytes}
    {block : Block} {offset : Nat} {bytes : List UInt8} (hE : Allocated E)
    (h : Holds memory heap store) (hplaced : BufferProtocol.Placed heap target block)
    (hwithin : offset + bytes.length ≤ target.window.byteLength) :
    Holds memory (memory.write heap (target.address + offset) bytes)
      (store.write target.window offset bytes) := by
  have hfits := fits_of_placed hplaced hwithin
  intro buffer hseen
  obtain ⟨other, hother, hbytes⟩ := h buffer hseen
  refine ⟨other, (congrFun (memory.block_write heap _ bytes hfits) buffer).trans hother,
    fun i hi => ?_⟩
  rw [memory.byte_write heap _ bytes buffer other hfits hother i hi, hbytes i hi, ByteStore.write]
  dsimp only
  by_cases hsame : buffer = target.window.buffer
  · subst hsame
    obtain rfl := Option.some.inj (hplaced.holds.symm.trans hother)
    rw [if_pos rfl]
    by_cases hnil : bytes = []
    · rw [hnil, overwritten_nil, overwritten_nil]
    · have hlength := List.length_pos_of_ne_nil hnil
      rw [hplaced.address (by omega), Nat.add_assoc, overwritten_add]
  · rw [if_neg hsame, overwritten_apart hE hplaced hother hsame hi hwithin]

/-- A copy into a slice that is lent does what the store does. -/
theorem Holds.copyInto {memory : Memory E} {lent : Session E} {store : ByteStore} {target : Bytes}
    {block : Block} {offset start : Nat} {bytes : List UInt8} (hE : Allocated E)
    (h : Holds memory lent.heap store) (hplaced : BufferProtocol.Placed lent.heap target block)
    (hfits : ((checkedAdd offset bytes.length).filter
      fun last => last ≤ target.window.byteLength).isSome = true ↔
        start + bytes.length ≤ target.window.byteLength)
    (hstart : start + bytes.length ≤ target.window.byteLength → offset = start) :
    ∃ result heap, BufferProtocol.copyInto memory offset bytes target lent =
        .done result { lent with heap } ∧
      result.toOption = (store.copy target.window start bytes).1 ∧
        Holds memory heap (store.copy target.window start bytes).2 := by
  rcases BufferProtocol.copyInto_cases memory offset bytes target lent with
    ⟨hin, hcopy⟩ | ⟨hout, error, hcopy⟩
  · have hwithin := hfits.mp hin
    obtain rfl := hstart hwithin
    refine ⟨_, _, hcopy, ?_, ?_⟩
    · rw [ByteStore.copy, if_pos hwithin]
      rfl
    · rw [ByteStore.copy, if_pos hwithin]
      exact h.write hE hplaced hwithin
  · have hbeyond : ¬ start + bytes.length ≤ target.window.byteLength := fun hwithin => by
      rw [hfits.mpr hwithin] at hout
      cases hout
    refine ⟨_, _, hcopy, ?_, ?_⟩
    · rw [ByteStore.copy, if_neg hbeyond]
      rfl
    · rw [ByteStore.copy, if_neg hbeyond]
      exact h

/-! ### The calls -/

namespace BufferCall

/-- What a call does with its loan. -/
def closure (memory : Memory E) : BufferCall ρ → Bytes → Op E ρ
  | bytes _ => BufferProtocol.copyOut memory
  | writeBytes _ byteOffset written => BufferProtocol.copyInto memory byteOffset written
  | toVec element _ => fun source => element.cast <$> BufferProtocol.copyOut memory source
  | write element _ index values =>
      BufferProtocol.copyInto memory (saturatingMul index element.type.size)
        (element.asBytes values)

theorem run_eq (memory : Memory E) (call : BufferCall ρ) :
    call.run memory = (do withBorrowed (call.closure memory) (← call.borrow)) := by
  cases call <;> rfl

theorem guarantees_borrow {R : Session E → Session E → Prop} (hR : Reading R) (call : BufferCall ρ)
    (s : Session E) : ((call.borrow : Op E Bytes) s).Guarantees R (Lends R) s := by
  cases call with
  | bytes view => exact hR.borrowElements BufferProtocol.byte .shared view s
  | writeBytes view byteOffset written => exact hR.borrowElements BufferProtocol.byte .exclusive view s
  | toVec element view => exact hR.borrowElements element.layout .shared view s
  | write element view index values => exact hR.borrowElements BufferProtocol.byte .exclusive view s

/-- **A closure refines the store.** -/
theorem closure_done {memory : Memory E} {lent : Session E} {store : ByteStore} {target : Bytes}
    {block : Block} (hE : Allocated E) (call : BufferCall ρ) (h : Holds memory lent.heap store)
    (hseen : store.seen target.window.buffer)
    (hplaced : BufferProtocol.Placed lent.heap target block) :
    ∃ result heap, call.closure memory target lent = .done result { lent with heap } ∧
      result.toOption = (call.perform store target.window).1 ∧
        Holds memory heap (call.perform store target.window).2 := by
  have hsize : target.window.byteLength ≤ isizeMax := by
    have hblock := hE.size_le lent.heap _ block hplaced.holds
    have hinside := hplaced.inside
    omega
  have hlimit : isizeMax < usizeMax := by decide
  have hout : BufferProtocol.copyOut memory target lent =
      .done (.ok (store.slice target.window)) lent := by
    rw [← h.slice_eq hseen hplaced]
    rfl
  cases call with
  | bytes view => exact ⟨_, _, hout, rfl, h⟩
  | toVec element view =>
      refine ⟨.ok (element.cast (store.slice target.window)), lent.heap, ?_, rfl, h⟩
      exact Process.bind_of_ok hout
  | writeBytes view byteOffset written =>
      refine h.copyInto hE hplaced ?_ fun _ => rfl
      rw [isSome_filter_checkedAdd]
      omega
  | write element view index values =>
      refine h.copyInto hE hplaced (fits_iff hsize) fun hwithin => ?_
      exact saturatingMul_of_le (by omega)

end BufferCall

/-- A borrow that goes through lends what was there, where the guest leaves the bytes alone. -/
theorem Lends.resolved {R : Session E → Session E → Prop} (hR : Reading R)
    (henvironment : ∀ query s, R s (environment query s).2) {s : Session E}
    {r : Resumption (Session E) GuestCall Answer Error Bytes} (h : r.Guarantees R (Lends R) s) :
    Lends R s (r.resolve environment).1 (r.resolve environment).2 := by
  induction r generalizing s with
  | done result s' => exact h
  | call query s' resume ih =>
      have hafter := ih _ _ (h.2 (environment query s').1 (environment query s').2)
      exact hR.lends_after (hR.trans _ _ _ h.1 (henvironment query s')) hafter

/-- **A call refines the store.** -/
theorem BufferCall.run_explained {memory : Memory E} (hE : Allocated E)
    (hquiet : ∀ query s, Untouched memory s (environment query s).2) (call : BufferCall ρ)
    {s t : Session E} {result : Except Error ρ} {store : ByteStore}
    (h : Holds memory s.heap store)
    (hrun : (call.run memory s).resolve environment = (result, t)) :
    t.loans = s.loans ∧
      ((∃ error u, (call.borrow s).resolve environment = (.error error, u) ∧
          result = .error error ∧ Holds memory t.heap store) ∨
        ∃ target u seen, (call.borrow s).resolve environment = (.ok target, u) ∧
          store.Extends seen ∧ seen.seen target.window.buffer ∧
          result.toOption = (call.perform seen target.window).1 ∧
          Holds memory t.heap (call.perform seen target.window).2) := by
  have hlends : Lends (Untouched memory) s ((call.borrow s).resolve environment).1
      ((call.borrow s).resolve environment).2 :=
    Lends.resolved (untouched_reading memory) hquiet
      (call.guarantees_borrow (untouched_reading memory) s)
  rw [call.run_eq] at hrun
  cases hborrow : (call.borrow s).resolve environment with
  | mk borrowed lent =>
      rw [hborrow] at hlends
      cases borrowed with
      | error error =>
          rw [Process.resolve_bind_of_error hborrow] at hrun
          obtain ⟨rfl, rfl⟩ := Prod.mk.inj hrun
          exact ⟨hlends.1, Or.inl ⟨error, lent, rfl, rfl, h.keepsBytes hlends.2⟩⟩
      | ok target =>
          obtain ⟨u, kind, window, data, size, hkept, hblock, hgranted⟩ := hlends
          have hplaced := BufferProtocol.placed_of_granted hblock hgranted
          have hheld : Holds memory lent.heap store := by
            rw [hgranted.heap_eq]
            exact h.keepsBytes hkept.2
          obtain ⟨seen, hextends, hseen, hholds⟩ := hheld.see hplaced.holds
          obtain ⟨result', heap, hclosure, hresult, hheap⟩ :=
            call.closure_done hE hholds hseen hplaced
          rw [Process.resolve_bind_of_ok hborrow,
            withBorrowed_of_done hclosure] at hrun
          obtain ⟨rfl, rfl⟩ := Prod.mk.inj hrun
          have hloans : target.drop lent.loans = u.loans :=
            congrArg Session.loans hgranted.session_eq
          exact ⟨hloans.trans hkept.1,
            Or.inr ⟨target, lent, seen, rfl, hextends, hseen, hresult, hheap⟩⟩

/-- A view is a list of elements: a write replaces elements of it. -/
theorem BufferCall.perform_write_toVec {α : Type} (element : PlainElement α) (view : Value)
    (store : ByteStore) (window : Window) (index : Nat) (added : List α)
    (hwhole : window.byteLength % element.type.size = 0)
    (hfits : index + added.length ≤ (element.cast (store.slice window)).length) :
    ∃ store', (BufferCall.write element view index added).perform store window =
        (some (), store') ∧
      ((BufferCall.toVec element view).perform store' window).1 =
        some ((element.cast (store.slice window)).take index ++ added ++
          (element.cast (store.slice window)).drop (index + added.length)) := by
  have hcells : element.codec.encodeAll (element.cast (store.slice window)) =
      store.slice window := by
    apply element.codec.encodeAll_decodeAll
    rw [ByteStore.length_slice]
    exact hwhole
  have hlength := element.codec.length_encodeAll (element.cast (store.slice window))
  rw [hcells, ByteStore.length_slice] at hlength
  have hadded : (element.asBytes added).length = added.length * element.type.size :=
    element.length_asBytes added
  have hwithin : index * element.type.size + (element.asBytes added).length ≤ window.byteLength := by
    rw [hadded, hlength, ← Nat.add_mul]
    exact Nat.mul_le_mul_right _ hfits
  refine ⟨store.write window (index * element.type.size) (element.asBytes added), ?_, ?_⟩
  · exact if_pos hwithin
  · show some (element.cast _) = _
    rw [ByteStore.slice_write hwithin, hadded, ← Nat.add_mul]
    have hsplice := element.codec.encodeAll_splice (element.cast (store.slice window)) added index
    rw [hcells] at hsplice
    have hcast := element.codec.decodeAll_encodeAll
      ((element.cast (store.slice window)).take index ++ added ++
        (element.cast (store.slice window)).drop (index + added.length))
    rw [← hsplice] at hcast
    exact congrArg some hcast

theorem RanCalls.explained {memory : Memory E} (hE : Allocated E)
    (hquiet : ∀ query s, Untouched memory s (environment query s).2) {s t : Session E}
    {entries : List (BufferEntry E)} (h : RanCalls memory environment s entries t)
    {store : ByteStore} (hstore : Holds memory s.heap store) :
    t.loans = s.loans ∧ ∃ store', Explained environment store entries store' ∧
      Holds memory t.heap store' := by
  induction h generalizing store with
  | nil s => exact ⟨rfl, store, rfl, hstore⟩
  | guest hkept _ ih =>
      obtain ⟨hloans, hrest⟩ := ih (hstore.keepsBytes hkept.2)
      exact ⟨hloans.trans hkept.1, hrest⟩
  | @call ρ call s t u result entries hrun _ ih =>
      obtain ⟨hloans, hstep⟩ := call.run_explained hE hquiet hstore hrun
      rcases hstep with ⟨error, v, hborrow, hresult, hholds⟩ |
        ⟨target, v, seen, hborrow, hextends, hseen, hresult, hholds⟩
      · obtain ⟨hloans', store', hexplained, hheld⟩ := ih hholds
        exact ⟨hloans'.trans hloans, store',
          Or.inl ⟨error, v, hborrow, hresult, hexplained⟩, hheld⟩
      · obtain ⟨hloans', store', hexplained, hheld⟩ := ih hholds
        exact ⟨hloans'.trans hloans, store',
          Or.inr ⟨target, v, seen, hborrow, hextends, hseen, hresult, hexplained⟩, hheld⟩

/-- **Buffers are stores.** In a run of calls between which, and in which, the guest leaves the bytes
alone, each call does what it does on a store of bytes, and every loan is returned. In the store a view
of whole elements is a list of them: a write replaces elements, and the next read gives the list. -/
theorem buffers_are_stores {memory : Memory E} (hE : Allocated E)
    (hquiet : ∀ query s, Untouched memory s (environment query s).2) {s t : Session E}
    {entries : List (BufferEntry E)} (h : RanCalls memory environment s entries t)
    {store : ByteStore} (hstore : Holds memory s.heap store) :
    (t.loans = s.loans ∧ ∃ store', Explained environment store entries store' ∧
      Holds memory t.heap store') ∧
    ∀ {α : Type} (element : PlainElement α) (view : Value) (store : ByteStore) (window : Window)
      (index : Nat) (added : List α), window.byteLength % element.type.size = 0 →
        index + added.length ≤ (element.cast (store.slice window)).length →
          ∃ store', (BufferCall.write element view index added).perform store window =
              (some (), store') ∧
            ((BufferCall.toVec element view).perform store' window).1 =
              some ((element.cast (store.slice window)).take index ++ added ++
                (element.cast (store.slice window)).drop (index + added.length)) :=
  ⟨h.explained hE hquiet hstore, BufferCall.perform_write_toVec⟩

section

open ViewEngine

/-- A number of sixteen bits, by its bytes. -/
def pair : PlainElement (UInt8 × UInt8) where
  type := .uint16
  toBytes value := [value.1, value.2]
  length_toBytes _ := rfl
  align := 2
  ofBytes bytes := (bytes.getD 0 0, bytes.getD 1 0)
  ofBytes_toBytes _ := rfl
  toBytes_ofBytes := by
    intro bytes hlength
    obtain ⟨low, high, rfl⟩ := List.length_eq_two.mp hlength
    rfl

def idleGuest : Environment engine.withMemory := fun _ s => (.ok .undefined, s)

def writeSecond : BufferCall Unit := .write pair whole 1 [(1, 2), (3, 4)]

def afterWrite : Session engine.withMemory :=
  ((writeSecond.run (Memory.ofAddresses engine) ViewEngine.session).resolve idleGuest).2

def zeroes : ByteStore := ⟨(· = ViewEngine.buffer), fun _ _ => 0⟩

theorem allocated_viewEngine : Allocated engine.withMemory where
  size_le := by
    intro heap value found h
    have hblock : block () value = some found := h
    unfold block at hblock
    split at hblock
    · cases hblock
      decide
    · cases hblock
  apart := by
    intro heap first second b b' h h' hne
    have hfirst : block () first = some b := h
    have hsecond : block () second = some b' := h'
    unfold block at hfirst hsecond
    split at hfirst
    · next heq =>
        split at hsecond
        · next heq' => exact absurd (heq.trans heq'.symm) hne
        · cases hsecond
    · cases hfirst

theorem holds_zeroes : Holds (Memory.ofAddresses engine) ViewEngine.session.heap zeroes := by
  rintro _ rfl
  exact ⟨⟨256, 8⟩, rfl, fun _ _ => rfl⟩

def readMiddle : BufferCall (List (UInt8 × UInt8)) := .toVec pair middle

theorem ran_overlapping : RanCalls (Memory.ofAddresses engine) idleGuest ViewEngine.session
    [⟨writeSecond, ViewEngine.session, .ok ()⟩, ⟨readMiddle, afterWrite, .ok [(1, 2), (3, 4)]⟩]
      ((readMiddle.run (Memory.ofAddresses engine) afterWrite).resolve idleGuest).2 := by
  refine .call ?_ (.call ?_ (.nil _))
  · rfl
  · rfl

/-- Numbers written through a view of the whole buffer are read through one of its middle. -/
theorem buffers_are_stores_overlapping : ∃ store', Explained idleGuest zeroes
    [⟨writeSecond, ViewEngine.session, .ok ()⟩, ⟨readMiddle, afterWrite, .ok [(1, 2), (3, 4)]⟩]
      store' := by
  have hquiet : ∀ query s, Untouched (Memory.ofAddresses engine) s (idleGuest query s).2 :=
    fun _ s => (untouched_reading (Memory.ofAddresses engine)).refl s
  obtain ⟨⟨-, store', hexplained, -⟩, -⟩ :=
    buffers_are_stores allocated_viewEngine hquiet ran_overlapping holds_zeroes
  exact ⟨store', hexplained⟩

end

end GuestJs
