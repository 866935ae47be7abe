import GuestJs.Proof.Silence
import GuestJs.QuickJs.TinyEngine

/-!
# Guest code below a loan

While a slice is lent, no operation may run guest code: what could run some has to answer with the
borrow error. The operations that ask the table first do so. For the others it depends on the heap:
they keep to the rule exactly where they are silent.
-/

namespace GuestJs.QuickJs

variable {E : Engine} {α : Type}

namespace Operation

/-- What an operation owes the holders of slices: it starts no guest code, and where it could have
started some it answers with the borrow error. -/
def Respects (operation : Operation) (session : Session E) : Prop :=
  (operation.run E session).Finished ∧
    (¬ (operation.run E { session with loans := .empty }).Finished →
      ∃ kind name session', operation.run E session = .done (.error (.borrow kind name)) session')

theorem settled_bind_of_error {rest : Unit → Op E α} {session : Session E} {error : Error}
    (h : session.loans.settled = .error error) :
    (settled >>= rest) session = .done (.error error) session := by
  refine Process.bind_of_error ?_
  rw [settled, Process.check_apply, h]

theorem discard_of_error {p : Op E α} {session : Session E} {error : Error}
    (h : p session = .done (.error error) session) :
    (discard p : Op E Unit) session = .done (.error error) session :=
  Process.bind_of_error h

theorem run_of_guarded {operation : Operation} (hguarded : operation.isGuarded = true)
    {session : Session E} {error : Error} (h : session.loans.settled = .error error) :
    operation.run E session = .done (.error error) session := by
  cases operation
  all_goals
    first
      | exact discard_of_error (settled_bind_of_error h)
      | exact settled_bind_of_error h
      | exact nomatch hguarded

/-- **Guest code and loans.** While some memory is lent, an operation respects the loan exactly when
it asks the table first or none of its requests hands control to the guest. -/
theorem respects_iff (operation : Operation) (session : Session E)
    (hlent : session.loans.entries ≠ ∅) :
    operation.Respects session ↔ operation.isGuarded = true ∨ operation.Silent E session := by
  cases hguarded : operation.isGuarded with
  | true =>
      refine iff_of_true ?_ (Or.inl rfl)
      cases hsettled : session.loans.settled with
      | ok _ => exact absurd (Loans.settled_eq_ok_iff.mp hsettled) hlent
      | error error =>
          obtain ⟨kind, name, rfl⟩ := Loans.settled_eq_error hsettled
          have hrun := run_of_guarded hguarded hsettled
          refine ⟨?_, fun _ => ⟨kind, name, session, hrun⟩⟩
          rw [hrun]
          trivial
  | false =>
      rw [or_iff_right Bool.false_ne_true]
      constructor
      · exact fun hrespects => (finished_iff hguarded).mp hrespects.1
      · intro hsilent
        have hempty : (operation.run E { session with loans := .empty }).Finished :=
          (finished_iff hguarded).mpr hsilent
        exact ⟨(finished_iff hguarded).mpr hsilent, fun hnot => absurd hempty hnot⟩

section

open TinyEngine

def lentSession : Session engine :=
  { TinyEngine.session guestFunction with
    loans := Loans.insert .empty ⟨"ArrayBuffer", 256⟩ .exclusive Loans.positive_exclusive }

theorem lentSession_loans : lentSession.loans.entries ≠ ∅ := by
  intro hempty
  have hentry := congrArg (fun entries => entries[(⟨"ArrayBuffer", 256⟩ : Storage)]?) hempty
  rw [show lentSession.loans.entries[(⟨"ArrayBuffer", 256⟩ : Storage)]? = some .exclusive from
    (Tables.getElem?_insert _ _ _ _).trans (if_pos rfl), Std.ExtTreeMap.getElem?_empty] at hentry
  cases hentry

theorem respects_iff_get : (get globals (.string "Set")).Respects lentSession ↔
    (get globals (.string "Set")).isGuarded = true ∨
      (get globals (.string "Set")).Silent engine lentSession :=
  respects_iff (get globals (.string "Set")) lentSession lentSession_loans

theorem newSet_not_respects :
    (∃ bytes, QuickJs.borrowBytesMut firstBuffer (TinyEngine.session guestFunction) =
      .done (.ok bytes) lentSession) ∧
      lentSession.loans.entries ≠ ∅ ∧ ¬ (newSet []).Respects lentSession :=
  ⟨⟨_, rfl⟩, lentSession_loans, fun h => h.1⟩

end

end Operation

end GuestJs.QuickJs
