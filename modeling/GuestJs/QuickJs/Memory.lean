import GuestJs.QuickJs.Session

/-!
# The memory of buffers

What the bytes of a buffer are, and what a copy of the host's into lent memory makes of them. The
memory is the engine's: reading moves no byte of it, and a copy writes where it is pointed.
-/

namespace GuestJs.QuickJs

variable {E : Engine}

/-- A byte at `position` after `bytes` have been copied to `start` and on. -/
def overwritten (start : Nat) (bytes : List UInt8) (position : Nat) (byte : UInt8) : UInt8 :=
  if start ≤ position then bytes[position - start]?.getD byte else byte

/-- The bytes lie in the memory of a buffer. -/
def Fits (heap : E.Heap) (address length : Nat) : Prop :=
  length = 0 ∨ ∃ buffer block, E.block heap buffer = some block ∧ block.address ≤ address ∧
    address + length ≤ block.address + block.size

/-- The memory of every buffer is where it was, with the bytes it had. -/
def KeepsBytes (E : Engine) (byte : E.Heap → Value → Nat → UInt8) (heap heap' : E.Heap) : Prop :=
  Keeps E.block heap heap' ∧ ∀ buffer block, E.block heap buffer = some block →
    ∀ i < block.size, byte heap' buffer i = byte heap buffer i

structure Memory (E : Engine) where
  byte : E.Heap → Value → Nat → UInt8
  write : E.Heap → Nat → List UInt8 → E.Heap
  block_write : ∀ heap address bytes, Fits heap address bytes.length →
    E.block (write heap address bytes) = E.block heap
  byte_write : ∀ heap address bytes buffer block, Fits heap address bytes.length →
    E.block heap buffer = some block → ∀ i < block.size,
      byte (write heap address bytes) buffer i =
        overwritten address bytes (block.address + i) (byte heap buffer i)
  byte_read : ∀ {α : Type} (p : Primitive α) heap, p.isRead = true →
    (E.primitive p heap).Guarantees (KeepsBytes E byte) (fun h _ h' => KeepsBytes E byte h h') heap

theorem overwritten_of_lt {start position : Nat} {bytes : List UInt8} {byte : UInt8}
    (h : position < start) : overwritten start bytes position byte = byte :=
  if_neg (Nat.not_le.mpr h)

theorem overwritten_of_le {start position : Nat} {bytes : List UInt8} {byte : UInt8}
    (h : start + bytes.length ≤ position) : overwritten start bytes position byte = byte := by
  rw [overwritten, if_pos (by omega), List.getElem?_eq_none (by omega)]
  rfl

theorem overwritten_add {base start position : Nat} {bytes : List UInt8} {byte : UInt8} :
    overwritten (base + start) bytes (base + position) byte =
      overwritten start bytes position byte := by
  simp only [overwritten, Nat.add_le_add_iff_left, Nat.add_sub_add_left]

theorem overwritten_nil {start position : Nat} {byte : UInt8} :
    overwritten start [] position byte = byte := by
  simp [overwritten]

/-! ### An engine with memory -/

abbrev HeapWithMemory (E : Engine) := E.Heap × (Nat → UInt8)

def withMemory (E : Engine) {α : Type} (p : Primitive α) (heap : HeapWithMemory E) :
    Resumption (HeapWithMemory E) GuestCall Answer Fault α :=
  (E.primitive p heap.1).zoom Prod.fst (fun t whole => (t, whole.2)) heap

theorem withMemory_eq_done {α : Type} {p : Primitive α} {heap heap' : HeapWithMemory E}
    {result : Except Fault α} :
    withMemory E p heap = .done result heap' ↔
      ∃ t, E.primitive p heap.1 = .done result t ∧ heap' = (t, heap.2) := by
  rw [withMemory]
  cases E.primitive p heap.1 with
  | done result' t =>
      constructor
      · rintro ⟨⟩
        exact ⟨t, rfl, rfl⟩
      · rintro ⟨_, ⟨⟩, rfl⟩
        rfl
  | call query t resume => simp [Resumption.zoom]

theorem withMemory_guarantees {K : E.Heap → E.Heap → Prop}
    {K' : HeapWithMemory E → HeapWithMemory E → Prop}
    (hK : ∀ heap t, K heap.1 t → K' heap (t, heap.2)) {α : Type} {p : Primitive α}
    {heap : HeapWithMemory E}
    (h : (E.primitive p heap.1).Guarantees K (fun h _ h' => K h h') heap.1) :
    (withMemory E p heap).Guarantees K' (fun h _ h' => K' h h') heap := by
  have hfirst : (E.primitive p heap.1).Guarantees K (fun h _ h' => K h h') (Prod.fst heap) := h
  exact hfirst.zoom hK fun s _ t ht => hK s t ht

/-- An engine whose buffers lie in memory it has beside its heap. -/
abbrev Engine.withMemory (E : Engine) : Engine :=
  { E with
    Heap := HeapWithMemory E
    primitive := QuickJs.withMemory E
    isUncatchable := fun heap => E.isUncatchable heap.1
    isImmutable := fun heap => E.isImmutable heap.1
    block := fun heap => E.block heap.1
    slots := fun heap => E.slots heap.1
    isOwn := fun heap => E.isOwn heap.1
    inert := by
      intro α p heap hinert
      obtain ⟨result, t, hdone⟩ := Resumption.finished_iff.mp (E.inert p heap.1 hinert)
      exact Resumption.finished_iff.mpr ⟨result, _, withMemory_eq_done.mpr ⟨t, hdone, rfl⟩⟩
    block_read := fun p heap hread =>
      withMemory_guarantees (fun _ _ h => h) (E.block_read p heap.1 hread)
    slots_read := by
      intro α p heap result heap' hread hdone view
      obtain ⟨t, hfirst, rfl⟩ := withMemory_eq_done.mp hdone
      exact E.slots_read p heap.1 result t hread hfirst view
    arrayBuffer_block := by
      intro buffer heap address size heap' hdone
      obtain ⟨t, hfirst, rfl⟩ := withMemory_eq_done.mp hdone
      exact E.arrayBuffer_block buffer heap.1 address size t hfirst
    block_distinct := fun heap => E.block_distinct heap.1
    own_getter := by
      intro accessor getter view heap hown
      obtain ⟨result, t, hdone, hreports⟩ := E.own_getter accessor getter view heap.1 hown
      exact ⟨result, _, withMemory_eq_done.mpr ⟨t, hdone, rfl⟩, hreports⟩ }

/-- A byte of a buffer, by its address. -/
def byteOf (E : Engine) (heap : HeapWithMemory E) (buffer : Value) (i : Nat) : UInt8 :=
  match E.block heap.1 buffer with
  | some block => heap.2 (block.address + i)
  | none => 0

theorem byteOf_of_block {heap : HeapWithMemory E} {buffer : Value} {block : Block} {i : Nat}
    (h : E.block heap.1 buffer = some block) : byteOf E heap buffer i = heap.2 (block.address + i) := by
  rw [byteOf, h]

theorem keepsBytes_of_keeps {heap : HeapWithMemory E} {t : E.Heap}
    (h : Keeps E.block heap.1 t) : KeepsBytes E.withMemory (byteOf E) heap (t, heap.2) := by
  refine ⟨h, fun buffer block hblock i _ => ?_⟩
  rw [byteOf_of_block (h buffer block hblock), byteOf_of_block hblock]

def Memory.ofAddresses (E : Engine) : Memory E.withMemory where
  byte := byteOf E
  write := fun (heap : HeapWithMemory E) address bytes =>
    (heap.1, fun position => overwritten address bytes position (heap.2 position))
  block_write _ _ _ _ := rfl
  byte_write heap address bytes buffer block _ hblock i _ := by
    rw [byteOf_of_block hblock]
    exact byteOf_of_block hblock
  byte_read p heap hread :=
    withMemory_guarantees (fun _ _ h => keepsBytes_of_keeps h) (E.block_read p heap.1 hread)

end GuestJs.QuickJs
