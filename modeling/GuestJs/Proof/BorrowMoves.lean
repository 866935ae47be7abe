import GuestJs.Proof.LoanTable
import GuestJs.Proof.Reading
import GuestJs.QuickJs.Lending

/-!
# What a borrow does on its way

Up to the moment it enters its loan, a borrow only reads: it leaves the table of loans alone and moves
no memory, between the calls of guest functions it makes as well as after the last. What those do is
theirs.
-/

namespace GuestJs.QuickJs

variable {E : Engine} {α : Type}

/-- No loan is entered or returned, and no memory moves. -/
structure Session.Steady (s s' : Session E) : Prop where
  loans : s'.loans = s.loans
  block : Keeps E.block s.heap s'.heap

/-- A read enters and returns no loan, and moves no memory. -/
theorem steady_reading : Reading (Session.Steady : Session E → Session E → Prop) :=
  Reading.of_heap (K := Keeps E.block) (fun _ _ _ h => h)
    (fun _ _ _ hst htu buffer b h => htu buffer b (hst buffer b h))
    E.block_read fun _ _ => ⟨fun h => ⟨h.loans, h.block⟩, fun h => ⟨h.1, h.2⟩⟩

/-! ## What a borrow comes to -/

/-- A slice as a borrow hands it out: in memory that its window fits in, and with a loan of that
memory unless it is empty. -/
structure Entered (s : Session E) (bytes : Bytes) (s' : Session E) : Prop where
  keeps : Keeps E.block s.heap s'.heap
  block : ∃ block, E.block s'.heap bytes.window.buffer = some block ∧
    bytes.window.byteOffset + bytes.window.byteLength ≤ block.size ∧
    ((bytes.guard = none ∧ bytes.window.byteLength = 0 ∧ s'.loans = s.loans) ∨
      (bytes.guard = some ⟨"ArrayBuffer", block.address⟩ ∧ bytes.window.byteLength ≠ 0 ∧
        bytes.address = block.address + bytes.window.byteOffset ∧
        s.loans.lend ⟨"ArrayBuffer", block.address⟩ bytes.kind = .ok s'.loans))

/-- A borrow enters what it hands out, or leaves the table as it was. -/
def Settles (s : Session E) (result : Except Error Bytes) (s' : Session E) : Prop :=
  match result with
  | .ok bytes => Entered s bytes s'
  | .error _ => s.Steady s'

theorem Granted.entered {s s' : Session E} {kind : BorrowKind} {window : Window} {data size : Nat}
    {bytes : Bytes} (h : Granted s kind window data size bytes s')
    (hblock : E.block s.heap window.buffer = some ⟨data, size⟩) : Entered s bytes s' := by
  cases h with
  | empty hrange _ hempty =>
      exact ⟨fun _ _ h => h, _, hblock, hrange, Or.inl ⟨rfl, hempty, rfl⟩⟩
  | loan hrange _ hempty hlend =>
      exact ⟨fun _ _ h => h, _, hblock, hrange, Or.inr ⟨rfl, hempty, rfl, hlend⟩⟩

theorem Entered.after {s t u : Session E} {bytes : Bytes} (hst : s.Steady t)
    (h : Entered t bytes u) : Entered s bytes u where
  keeps := fun buffer b hb => h.keeps buffer b (hst.block buffer b hb)
  block := by rw [← hst.loans]; exact h.block

def Borrows (op : Op E Bytes) : Prop := ∀ s, (op s).Guarantees Session.Steady Settles s

theorem Lends.settles {s s' : Session E} {result : Except Error Bytes}
    (h : Lends Session.Steady s result s') : Settles s result s' := by
  cases result with
  | ok bytes =>
      obtain ⟨t, kind, window, data, size, hsteady, hblock, hgranted⟩ := h
      exact Entered.after hsteady (hgranted.entered hblock)
  | error error => exact h

theorem borrow_borrows (element : Option Element) (kind : BorrowKind) (source : Value) :
    Borrows (Lending.borrow element kind source : Op E Bytes) := by
  intro s
  rcases element with _ | element <;> cases kind
  · exact (steady_reading.new source .shared s).mono fun _ _ _ => Lends.settles
  · exact (steady_reading.new source .exclusive s).mono fun _ _ _ => Lends.settles
  · exact (steady_reading.borrowElements element .shared source s).mono fun _ _ _ => Lends.settles
  · exact (steady_reading.borrowElements element .exclusive source s).mono fun _ _ _ =>
      Lends.settles

end GuestJs.QuickJs
