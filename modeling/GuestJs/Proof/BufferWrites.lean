import GuestJs.Handle.Buffers
import GuestJs.Proof.Reading
import GuestJs.QuickJs.TinyEngine

/-!
# Writes are in bounds and framed

The saturating and checked arithmetic of a write refuses exactly what does not fit, because a slice is
never as long as the greatest machine integer. What is copied lands in the window of the view, and
before and after it nothing but reads has happened: a write that fails leaves memory and loans alone.
-/

namespace Resumption

variable {σ Query Answer ε α : Type}

/-- Against an environment the end is as promised, from the last answer on. -/
theorem Guarantees.resolved {R : σ → σ → Prop} {Q : σ → Except ε α → σ → Prop}
    {r : Resumption σ Query Answer ε α} {s : σ} (h : r.Guarantees R Q s)
    (environment : Query → σ → Answer × σ) :
    ∃ t, Q t (r.resolve environment).1 (r.resolve environment).2 := by
  induction r generalizing s with
  | done result s' => exact ⟨s, h⟩
  | call query s' resume ih => exact ih _ _ (h.2 _ _)

end Resumption

namespace GuestJs

open QuickJs

variable {E : Engine} {α : Type}

/-- The loans, the memory of the buffers and its bytes are as they were. -/
def Untouched (memory : Memory E) (s s' : Session E) : Prop :=
  s'.loans = s.loans ∧ KeepsBytes E memory.byte s.heap s'.heap

theorem untouched_reading (memory : Memory E) : Reading (Untouched memory) :=
  Reading.of_heap (fun _ => ⟨fun _ _ h => h, fun _ _ _ _ _ => rfl⟩)
    (fun _ _ _ hst htu => ⟨fun buffer block h => htu.1 buffer block (hst.1 buffer block h),
      fun buffer block h i hi =>
        (htu.2 buffer block (hst.1 buffer block h) i hi).trans (hst.2 buffer block h i hi)⟩)
    memory.byte_read fun _ _ => Iff.rfl

/-! ### Arithmetic -/

theorem isSome_filter_checkedAdd {offset length size : Nat} :
    ((checkedAdd offset length).filter fun last => last ≤ size).isSome = true ↔
      offset + length ≤ usizeMax ∧ offset + length ≤ size := by
  rw [checkedAdd]
  split
  · next h => simp [Option.filter, h]
  · next h => simp [h]

/-- An end that overflows, or that follows an offset that has saturated, is beyond every slice. -/
theorem fits_iff {index factor length size : Nat} (hsize : size ≤ isizeMax) :
    ((checkedAdd (saturatingMul index factor) length).filter fun last => last ≤ size).isSome =
        true ↔ index * factor + length ≤ size := by
  have hlimit : isizeMax < usizeMax := by decide
  rw [isSome_filter_checkedAdd, saturatingMul]
  omega

theorem saturatingMul_of_le {index factor : Nat} (h : index * factor ≤ usizeMax) :
    saturatingMul index factor = index * factor := Nat.min_eq_left h

/-! ### The closure -/

/-- The slice is dropped however the closure ends. -/
theorem withBorrowed_of_done {f : Bytes → Op E α} {borrowed : Bytes} {s s' : Session E}
    {result : Except Error α} (h : f borrowed s = .done result s') :
    withBorrowed f borrowed s =
      .done result { s' with loans := borrowed.drop s'.loans } := by
  rw [withBorrowed, Process.bind_of_ok (Process.attempt_of_done h)]
  cases result <;> rfl

namespace BufferProtocol

/-- What a copy into a slice comes to. -/
theorem copyInto_cases (memory : Memory E) (byteOffset : Nat) (bytes : List UInt8)
    (target : Bytes) (s : Session E) :
    (((checkedAdd byteOffset bytes.length).filter
          fun last => last ≤ target.window.byteLength).isSome = true ∧
        copyInto memory byteOffset bytes target s = .done (.ok ())
          { s with heap := memory.write s.heap (target.address + byteOffset) bytes }) ∨
      ((checkedAdd byteOffset bytes.length).filter
          fun last => last ≤ target.window.byteLength).isSome = false ∧
        ∃ error, copyInto memory byteOffset bytes target s = .done (.error error) s := by
  rw [copyInto]
  cases (checkedAdd byteOffset bytes.length).filter
      fun last => last ≤ target.window.byteLength with
  | some last => exact Or.inl ⟨rfl, rfl⟩
  | none => exact Or.inr ⟨rfl, _, rfl⟩

/-- The memory a granted slice lies in, which holds its window. -/
structure Placed (heap : E.Heap) (target : Bytes) (block : Block) : Prop where
  holds : E.block heap target.window.buffer = some block
  inside : target.window.byteOffset + target.window.byteLength ≤ block.size
  address : target.window.byteLength ≠ 0 →
    target.address = block.address + target.window.byteOffset

theorem placed_of_granted {t lent : Session E} {kind : BorrowKind} {window : Window}
    {data size : Nat} {target : Bytes} (hblock : E.block t.heap window.buffer = some ⟨data, size⟩)
    (h : Granted t kind window data size target lent) : Placed lent.heap target ⟨data, size⟩ := by
  cases h with
  | empty hrange _ hempty => exact ⟨hblock, hrange, fun hne => absurd hempty hne⟩
  | loan hrange _ _ _ => exact ⟨hblock, hrange, fun _ => rfl⟩

/-- The window of the view has the bytes from `start` on, and no other byte of its buffer has
changed. -/
def Written (memory : Memory E) (target : Bytes) (start : Nat) (bytes : List UInt8)
    (heap heap' : E.Heap) : Prop :=
  ∃ block, Placed heap target block ∧ ∀ i < block.size,
    memory.byte heap' target.window.buffer i =
      overwritten (target.window.byteOffset + start) bytes i
        (memory.byte heap target.window.buffer i)

theorem written_of_placed {heap : E.Heap} {target : Bytes} {block : Block} {start : Nat}
    {bytes : List UInt8} (hplaced : Placed heap target block)
    (hfits : start + bytes.length ≤ target.window.byteLength) :
    Written memory target start bytes heap
      (memory.write heap (target.address + start) bytes) := by
  refine ⟨block, hplaced, fun i hi => ?_⟩
  by_cases hnil : bytes = []
  · subst hnil
    rw [memory.byte_write heap _ [] _ block (Or.inl rfl) hplaced.holds i hi, overwritten_nil,
      overwritten_nil]
  · have hlength := List.length_pos_of_ne_nil hnil
    have haddress := hplaced.address (by omega)
    have hinside := hplaced.inside
    have hwithin : Fits heap (target.address + start) bytes.length :=
      Or.inr ⟨target.window.buffer, block, hplaced.holds, by omega, by omega⟩
    rw [memory.byte_write heap _ bytes _ block hwithin hplaced.holds i hi, haddress,
      Nat.add_assoc, overwritten_add]

theorem Written.outside {memory : Memory E} {target : Bytes} {start : Nat} {bytes : List UInt8}
    {heap heap' : E.Heap} (h : Written memory target start bytes heap heap') :
    ∃ block, E.block heap target.window.buffer = some block ∧ ∀ i < block.size,
      (i < target.window.byteOffset + start ∨
        target.window.byteOffset + start + bytes.length ≤ i) →
      memory.byte heap' target.window.buffer i = memory.byte heap target.window.buffer i := by
  obtain ⟨block, hplaced, hbytes⟩ := h
  refine ⟨block, hplaced.holds, fun i hi houtside => ?_⟩
  rw [hbytes i hi]
  rcases houtside with hbefore | hafter
  · exact overwritten_of_lt hbefore
  · exact overwritten_of_le hafter

/-- What a write of `bytes` at `start` of a view is to do: once the view is lent, it succeeds exactly
when they fit in the window, and writes there and nowhere else; a view that is not lent is not written
to; and from the last moment guest code has run in it returns every loan, and changes no byte when it
fails. -/
structure WritesExactly (memory : Memory E) (op : Op E Unit) (view : Value) (start : Nat)
    (bytes : List UInt8) : Prop where
  succeeds : ∀ (moment : Moment E) target lent,
    moment.enter (fromGuestMut byte view) = (.ok target, lent) →
    target.window.byteLength ≤ isizeMax →
      ((∃ final, moment.enter op = (.ok (), final)) ↔
        start + bytes.length ≤ target.window.byteLength)
  writes : ∀ (moment : Moment E) target lent final,
    moment.enter (fromGuestMut byte view) = (.ok target, lent) →
    target.window.byteLength ≤ isizeMax → moment.enter op = (.ok (), final) →
      Written memory target start bytes lent.heap final.heap
  fails : ∀ (moment : Moment E) target lent error final,
    moment.enter (fromGuestMut byte view) = (.ok target, lent) →
      moment.enter op = (.error error, final) → final.heap = lent.heap
  refuses : ∀ (moment : Moment E) error s,
    moment.enter (fromGuestMut byte view) = (.error error, s) → moment.enter op = (.error error, s)
  frame : ∀ s, (op s).Guarantees (Untouched memory)
    (fun t result t' => t'.loans = t.loans ∧ ∀ error, result = .error error → Untouched memory t t') s

/-- What a write that has been lent its view comes to. -/
theorem enter_writeBytes (memory : Memory E) {moment : Moment E} {view : Value} {offset : Nat}
    {bytes : List UInt8} {target : Bytes} {lent : Session E}
    (h : moment.enter (fromGuestMut byte view) = (.ok target, lent)) :
    ∃ result final, moment.enter (writeBytes memory view offset bytes) = (result, final) ∧
      ((((checkedAdd offset bytes.length).filter
            fun last => last ≤ target.window.byteLength).isSome = true ∧ result = .ok () ∧
          final.heap = memory.write lent.heap (target.address + offset) bytes) ∨
        ((checkedAdd offset bytes.length).filter
            fun last => last ≤ target.window.byteLength).isSome = false ∧
          (∃ error, result = .error error) ∧ final.heap = lent.heap) := by
  have hentered := Moment.entered_of_enter h
  have hwrite : moment.enter (writeBytes memory view offset bytes) =
      (withBorrowed (copyInto memory offset bytes) target lent).resolve moment.environment := by
    rw [writeBytes, borrowAsWithMut, Moment.enter_bind, h]
    simp only [Moment.enter, Moment.after, hentered]
  rw [hwrite]
  rcases copyInto_cases memory offset bytes target lent with ⟨hfits, hcopy⟩ | ⟨hfits, error, hcopy⟩
  · rw [withBorrowed_of_done hcopy]
    exact ⟨_, _, rfl, Or.inl ⟨hfits, rfl, rfl⟩⟩
  · rw [withBorrowed_of_done hcopy]
    exact ⟨_, _, rfl, Or.inr ⟨hfits, ⟨error, rfl⟩, rfl⟩⟩

theorem exists_placed {moment : Moment E} {view : Value} {target : Bytes} {lent : Session E}
    (memory : Memory E) (h : moment.enter (fromGuestMut byte view) = (.ok target, lent)) :
    ∃ block, Placed lent.heap target block := by
  have hlends := ((untouched_reading memory).borrowElements byte .exclusive view
    moment.session).resolved moment.environment
  rw [Moment.enter] at h
  split at h
  · cases h
  · rw [show borrowElements byte .exclusive view = fromGuestMut byte view from rfl, h] at hlends
    obtain ⟨_, t, kind, window, data, size, -, hblock, hgranted⟩ := hlends
    exact ⟨_, placed_of_granted hblock hgranted⟩

/-- Between the calls of guest functions a write reads, and when it is over its loan is returned. -/
theorem frame_writeBytes (memory : Memory E) (view : Value) (offset : Nat) (bytes : List UInt8)
    (s : Session E) :
    (writeBytes memory view offset bytes s).Guarantees (Untouched memory)
      (fun t result t' => t'.loans = t.loans ∧
        ∀ error, result = .error error → Untouched memory t t') s := by
  rw [writeBytes, borrowAsWithMut, Process.bind_apply]
  refine ((untouched_reading memory).borrowElements byte .exclusive view s).andThen ?_
  rintro s (error | target) lent hlends
  · exact ⟨hlends.1, fun _ _ => hlends⟩
  · obtain ⟨t, _, _, _, _, hread, -, hgranted⟩ := hlends
    have hdropped := hgranted.session_eq
    have hloans : target.drop lent.loans = t.loans := congrArg Session.loans hdropped
    rcases copyInto_cases memory offset bytes target lent with ⟨-, hcopy⟩ | ⟨-, error, hcopy⟩
    · dsimp only
      rw [withBorrowed_of_done hcopy]
      exact ⟨hloans.trans hread.1, fun _ h => by cases h⟩
    · dsimp only
      rw [withBorrowed_of_done hcopy, hdropped]
      exact ⟨hread.1, fun _ _ => hread⟩

/-- A write whose offset, as far as it can be represented, is where the bytes are to start. -/
theorem writesExactly {memory : Memory E} {view : Value} {offset start : Nat} {bytes : List UInt8}
    (hfits : ∀ size ≤ isizeMax,
      (((checkedAdd offset bytes.length).filter fun last => last ≤ size).isSome = true ↔
        start + bytes.length ≤ size))
    (hstart : ∀ size ≤ isizeMax, start + bytes.length ≤ size → offset = start) :
    WritesExactly memory (writeBytes memory view offset bytes) view start bytes where
  succeeds moment target lent hlent hsize := by
    obtain ⟨result, final, hwrite, hcases⟩ := enter_writeBytes memory hlent
    rw [hwrite, ← hfits _ hsize]
    constructor
    · rintro ⟨final', heq⟩
      obtain ⟨rfl, -⟩ := Prod.mk.inj heq
      rcases hcases with ⟨hin, -, -⟩ | ⟨-, ⟨error, herror⟩, -⟩
      · exact hin
      · cases herror
    · intro hin
      rcases hcases with ⟨-, rfl, -⟩ | ⟨hout, -, -⟩
      · exact ⟨final, rfl⟩
      · rw [hin] at hout
        cases hout
  writes moment target lent final hlent hsize hok := by
    obtain ⟨result, final', hwrite, hcases⟩ := enter_writeBytes memory hlent
    obtain ⟨rfl, rfl⟩ := Prod.mk.inj (hwrite.symm.trans hok)
    rcases hcases with ⟨hin, -, hheap⟩ | ⟨-, ⟨error, herror⟩, -⟩
    · obtain ⟨block, hplaced⟩ := exists_placed memory hlent
      have hwithin := (hfits _ hsize).mp hin
      rw [hheap, hstart _ hsize hwithin]
      exact written_of_placed hplaced hwithin
    · cases herror
  fails moment target lent error final hlent hfailed := by
    obtain ⟨result, final', hwrite, hcases⟩ := enter_writeBytes memory hlent
    obtain ⟨rfl, rfl⟩ := Prod.mk.inj (hwrite.symm.trans hfailed)
    rcases hcases with ⟨-, hok, -⟩ | ⟨-, -, hheap⟩
    · cases hok
    · exact hheap
  refuses moment error s hrefused := by
    rw [writeBytes, borrowAsWithMut, Moment.enter_bind, hrefused]
  frame := frame_writeBytes memory view offset bytes

end BufferProtocol

open BufferProtocol

/-- **Writes are in bounds and framed.** A write of bytes at any offset, and one of elements at any
index, does what it is to do where the bytes are to start; and in exact integers, `(index + n) * size`
is where `n` elements written at `index` end. -/
theorem writes_exact (memory : Memory E) (view : Value) :
    (∀ byteOffset bytes,
      WritesExactly memory (writeBytes memory view byteOffset bytes) view byteOffset bytes) ∧
    ∀ (element : NativeElement α) index (values : List α),
      WritesExactly memory (TypedArray.write memory element view index values) view
        (index * element.type.size) (element.asBytes values) ∧
      index * element.type.size + (element.asBytes values).length =
        (index + values.length) * element.type.size := by
  have hlimit : isizeMax < usizeMax := by decide
  refine ⟨fun byteOffset bytes => writesExactly (fun size hsize => ?_) fun _ _ _ => rfl,
    fun element index values => ⟨writesExactly (fun size hsize => fits_iff hsize) ?_, ?_⟩⟩
  · rw [isSome_filter_checkedAdd]
    omega
  · intro size hsize hfits
    exact saturatingMul_of_le (by omega)
  · rw [element.length_asBytes, Nat.add_mul]

namespace QuickJs.TinyEngine

/-- Nothing is lent, and every byte is zero. -/
def moment : Moment engine.withMemory where
  refusal := none
  session := .entered ((⟨ownGetter .buffer, 8⟩ : Heap), fun _ => (0 : UInt8))
  environment := fun _ s => (.ok .undefined, s)

theorem writes_exact_last :
    (∃ final, moment.enter (writeBytes (Memory.ofAddresses engine) firstBuffer 6 [1, 2]) =
      (.ok (), final)) ∧
    ¬ ∃ final, moment.enter (writeBytes (Memory.ofAddresses engine) firstBuffer 7 [1, 2]) =
      (.ok (), final) := by
  have h := (writes_exact (α := Unit) (Memory.ofAddresses engine) firstBuffer).1
  refine ⟨((h 6 [1, 2]).succeeds moment _ _ rfl (by decide)).mpr (by decide), fun hwritten => ?_⟩
  have hfits := ((h 7 [1, 2]).succeeds moment _ _ rfl (by decide)).mp hwritten
  exact absurd hfits (by decide)

end QuickJs.TinyEngine

end GuestJs
