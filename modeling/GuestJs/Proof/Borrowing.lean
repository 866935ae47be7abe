import GuestJs.QuickJs.Buffers

/-!
# Borrows, resolved

What the requests of a borrow come to in an environment of guest functions, and what a granted
borrow has checked.
-/

namespace GuestJs.QuickJs

variable {E : Engine} {α β : Type}

variable {environment : Environment E}

theorem exists_of_inert {p : Primitive α} (hinert : p.isInert = true) (session : Session E) :
    ∃ result heap, E.primitive p session.heap = .done result heap ∧
      request p session = .done result { session with heap } := by
  obtain ⟨result, heap, h⟩ := Resumption.finished_iff.mp (E.inert p session.heap hinert)
  exact ⟨result, heap, h, request_of_done h⟩

theorem resolve_inert_ok {p : Primitive α} (hinert : p.isInert = true) {session session' : Session E}
    {a : α} : (request p session).resolve environment = (.ok a, session') ↔
      ∃ heap, E.primitive p session.heap = .done (.ok a) heap ∧ session' = { session with heap } := by
  obtain ⟨result, heap, hdone, hrequest⟩ := exists_of_inert hinert session
  rw [hrequest, hdone, Resumption.resolve]
  constructor
  · intro heq
    cases heq
    exact ⟨heap, rfl, rfl⟩
  · rintro ⟨_, heq, rfl⟩
    cases heq
    rfl

theorem resolve_capture_ok {raw : Raw E α} {session session' : Session E} {a : α} :
    (capture raw session).resolve environment = (.ok a, session') ↔
      (raw session).resolve environment = (.ok a, session') := by
  rw [capture, Process.resolve_handle_ok, or_iff_left]
  rintro ⟨fault, captured, -, hhandler⟩
  cases fault with
  | exception thrown =>
      obtain ⟨_, _, -, hthrow⟩ := Process.resolve_bind_ok.mp hhandler
      cases hthrow
  | fromJs source target => cases hhandler
  | other message => cases hhandler

theorem resolve_asFunction_ok {value function : Value} {session session' : Session E} :
    (asFunction value session).resolve environment = (.ok function, session') ↔
      kindOf E value = .function ∧ function = value ∧ session' = session := by
  unfold asFunction
  cases kindOf E value <;> simp [mistyped, Resumption.resolve, eq_comm]

theorem arrayBuffer_of_kind {buffer : Value} (hkind : kindOf E buffer = .arrayBuffer) :
    (arrayBuffer buffer : Raw E (Nat × Nat)) = request (.arrayBuffer buffer) := by
  simp only [arrayBuffer, hkind]

theorem arrayBuffer_of_kind_ne {buffer : Value} (hkind : kindOf E buffer ≠ .arrayBuffer) :
    (arrayBuffer buffer : Raw E (Nat × Nat)) = throwNew .typeError "not an ArrayBuffer" := by
  unfold arrayBuffer
  split
  · next h => exact absurd h hkind
  · rfl

/-- What a borrow of a window has found when it is granted: memory that the window fits in, not
immutable for a writer, and a table that agrees. -/
inductive Granted (session : Session E) (kind : BorrowKind) (window : Window) (data size : Nat) :
    Bytes → Session E → Prop where
  | empty (hrange : window.byteOffset + window.byteLength ≤ size)
      (hmutable : ¬ (kind = .exclusive ∧ E.isImmutable session.heap window.buffer = true))
      (hempty : window.byteLength = 0) :
      Granted session kind window data size ⟨none, kind, 1, window⟩ session
  | loan {loans : Loans} (hrange : window.byteOffset + window.byteLength ≤ size)
      (hmutable : ¬ (kind = .exclusive ∧ E.isImmutable session.heap window.buffer = true))
      (hempty : window.byteLength ≠ 0)
      (hlend : session.loans.lend ⟨"ArrayBuffer", data⟩ kind = .ok loans) :
      Granted session kind window data size
        ⟨some ⟨"ArrayBuffer", data⟩, kind, data + window.byteOffset, window⟩
        { session with loans }

theorem Granted.grant_eq {session session' : Session E} {kind : BorrowKind} {window : Window}
    {data size : Nat} {bytes : Bytes} (h : Granted session kind window data size bytes session') :
    Bytes.grant kind window data size session = .done (.ok bytes) session' := by
  cases h with
  | empty hrange hmutable hempty =>
      show (if _ then _ else if _ then _ else if _ then _ else _ : Op E Bytes) session = _
      rw [if_neg (Nat.not_lt.mpr hrange), if_neg hmutable, if_pos hempty]
      rfl
  | loan hrange hmutable hempty hlend =>
      show (if _ then _ else if _ then _ else if _ then _ else _ : Op E Bytes) session = _
      rw [if_neg (Nat.not_lt.mpr hrange), if_neg hmutable, if_neg hempty, hlend]
      rfl

/-- What a grant comes to: the slice and the loan at once, or an error after which the table is as
it was, though the guest may have a say in what the error is. -/
theorem grant_cases (kind : BorrowKind) (window : Window) (data size : Nat) (session : Session E) :
    (∃ bytes session', Bytes.grant kind window data size session = .done (.ok bytes) session' ∧
        Granted session kind window data size bytes session') ∨
      (∃ errorKind message, Bytes.grant kind window data size session =
        capture (throwNew errorKind message) session) ∨
      ∃ error, Bytes.grant kind window data size session = .done (.error error) session := by
  by_cases hrange : size < window.byteOffset + window.byteLength
  · right; left
    exact ⟨.rangeError, "byte range is outside the ArrayBuffer", by
      show (if _ then _ else _ : Op E Bytes) session = _
      rw [if_pos hrange]⟩
  by_cases himmutable : kind = .exclusive ∧ E.isImmutable session.heap window.buffer = true
  · right; left
    exact ⟨.typeError, "ArrayBuffer is immutable", by
      show (if _ then _ else if _ then _ else _ : Op E Bytes) session = _
      rw [if_neg hrange, if_pos himmutable]⟩
  by_cases hempty : window.byteLength = 0
  · have hgranted : Granted session kind window data size _ session :=
      .empty (Nat.le_of_not_lt hrange) himmutable hempty
    exact Or.inl ⟨_, _, hgranted.grant_eq, hgranted⟩
  cases hlend : session.loans.lend ⟨"ArrayBuffer", data⟩ kind with
  | error error =>
      right; right
      refine ⟨error, ?_⟩
      show (if _ then _ else if _ then _ else if _ then _ else _ : Op E Bytes) session = _
      rw [if_neg hrange, if_neg himmutable, if_neg hempty, hlend]
      rfl
  | ok loans =>
      have hgranted := Granted.loan (Nat.le_of_not_lt hrange) himmutable hempty hlend
      exact Or.inl ⟨_, _, hgranted.grant_eq, hgranted⟩

end GuestJs.QuickJs
