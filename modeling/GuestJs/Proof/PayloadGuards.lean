import GuestJs.Host.Calls
import GuestJs.Library.Positions
import GuestJs.Proof.LoanTable
import GuestJs.QuickJs.TinyEngine

/-!
# Borrowed payloads follow the calls

The state of a payload's cell is a function of the guards that the calls under way hold. So it is
back to what it was when a call is over, and a borrow is refused only for a guard of a call that
encloses it.
-/

namespace GuestJs

open QuickJs Transition

variable {E : Engine}

namespace QuickJs

/-! ### Cells -/

theorem AreCompatible.cons_shared {kinds : List BorrowKind} (h : AreCompatible kinds)
    (hne : kinds ≠ [.exclusive]) : AreCompatible (.shared :: kinds) := by
  refine Or.inr fun kind hmem => ?_
  rcases List.mem_cons.mp hmem with rfl | hmem
  · rfl
  · exact h.shared_or_exclusive.resolve_right hne kind hmem

theorem not_areCompatible_exclusive_cons {kind : BorrowKind} {kinds : List BorrowKind} :
    ¬ AreCompatible (.exclusive :: kind :: kinds) := by
  intro h
  rcases h with hlength | hshared
  · simp at hlength
  · exact nomatch hshared .exclusive List.mem_cons_self

namespace PayloadCell

variable {cell cell' : PayloadCell} {kind held : BorrowKind} {kinds : List BorrowKind}

theorem lend_of_compatible (hsummary : cell.borrowed = Loan.summary kinds)
    (h : AreCompatible (kind :: kinds)) :
    cell.lend kind = .ok { cell with borrowed := Loan.summary (kind :: kinds) } := by
  unfold lend
  rw [hsummary]
  rcases h.shared_or_exclusive with hshared | heq
  · obtain rfl := hshared kind List.mem_cons_self
    rcases kinds with _ | ⟨other, kinds⟩
    · rfl
    · obtain rfl := hshared other (List.mem_cons_of_mem _ List.mem_cons_self)
      rfl
  · obtain ⟨rfl, rfl⟩ := List.cons_eq_cons.mp heq
    rfl

theorem lend_of_not_compatible (hsummary : cell.borrowed = Loan.summary kinds)
    (hkinds : AreCompatible kinds) (h : ¬ AreCompatible (kind :: kinds)) :
    ∃ held, cell.lend kind = .error held ∧ kinds ≠ [] ∧ ∀ other ∈ kinds, other = held := by
  have hne : kinds ≠ [] := by
    rintro rfl
    exact h (Or.inl (Nat.le_refl 1))
  unfold lend
  rw [hsummary]
  rcases hkinds.shared_or_exclusive with hshared | rfl
  · rw [Loan.summary_of_all_shared hshared hne]
    cases kind with
    | shared => exact absurd (hkinds.cons_shared fun heq => nomatch hshared .exclusive (by simp [heq])) h
    | exclusive => exact ⟨.shared, rfl, hne, hshared⟩
  · refine ⟨.exclusive, ?_, hne, fun other hmem => List.mem_singleton.mp hmem⟩
    cases kind <;> rfl

theorem borrowed_release (hsummary : cell.borrowed = Loan.summary (kind :: kinds))
    (h : AreCompatible (kind :: kinds)) : cell.release.borrowed = Loan.summary kinds := by
  unfold release
  rw [hsummary]
  rcases h.shared_or_exclusive with hshared | heq
  · obtain rfl := hshared kind List.mem_cons_self
    rcases kinds with _ | ⟨other, kinds⟩
    · rfl
    · obtain rfl := hshared other (List.mem_cons_of_mem _ List.mem_cons_self)
      rfl
  · obtain ⟨rfl, rfl⟩ := List.cons_eq_cons.mp heq
    rfl

end PayloadCell

/-! ### Borrows -/

theorem borrow_object {kind : BorrowKind} {object : ObjectId} {type : PayloadType}
    {session : Session E} {cell : PayloadCell} (hcell : session.payloads object = some cell)
    (htype : cell.type.id = type.id) :
    BackendClasses.borrow kind (.object object) type session =
      match cell.lend kind with
      | .ok cell =>
          .done (.ok ()) { session with payloads := Function.update session.payloads object (some cell) }
      | .error held => .done (.error (.borrow held cell.type.name)) session := by
  have htyped : PayloadCell.typed session (.object object) type = .ok (object, cell) := by
    simp only [PayloadCell.typed, hcell, if_pos htype]
  rw [BackendClasses.borrow, Process.bind_of_ok (by rw [Process.check_apply, htyped])]
  dsimp only
  cases cell.lend kind <;> rfl

/-- What a borrow comes to: another guard's worth in the cell, or an error and no change. -/
theorem borrow_cases (kind : BorrowKind) (value : Value) (type : PayloadType) (session : Session E) :
    (∃ object cell cell', value = .object object ∧ session.payloads object = some cell ∧
      cell.lend kind = .ok cell' ∧ BackendClasses.borrow kind value type session = .done (.ok ())
        { session with payloads := Function.update session.payloads object (some cell') }) ∨
      ∃ error, BackendClasses.borrow kind value type session = .done (.error error) session := by
  cases htyped : PayloadCell.typed session value type with
  | error error =>
      exact Or.inr ⟨error, by rw [BackendClasses.borrow, Process.bind_of_error
        (by rw [Process.check_apply, htyped])]⟩
  | ok found =>
      obtain ⟨object, cell⟩ := found
      unfold PayloadCell.typed at htyped
      split at htyped
      · next id =>
        split at htyped
        · next cell' hcell =>
          split at htyped
          · next htype =>
            obtain ⟨rfl, rfl⟩ := Prod.mk.inj (Except.ok.inj htyped)
            rw [borrow_object hcell htype]
            cases hlend : cell'.lend kind with
            | ok lent => exact Or.inl ⟨_, _, lent, rfl, hcell, hlend, rfl⟩
            | error held => exact Or.inr ⟨_, rfl⟩
          · cases htyped
        · cases htyped
      · cases htyped

end QuickJs

namespace HostCalls

/-! ### The guards account for the cells -/

theorem kinds_cons (guard : Guard) (guards : List Guard) (object : ObjectId) :
    kinds (guard :: guards) object =
      if guard.object = object then guard.kind :: kinds guards object else kinds guards object := by
  unfold kinds
  rw [List.filterMap_cons]
  by_cases h : guard.object = object
  · rw [if_pos h, if_pos h]
  · rw [if_neg h, if_neg h]

theorem kinds_eq_nil_iff {guards : List Guard} {object : ObjectId} :
    kinds guards object = [] ↔ ∀ guard ∈ guards, guard.object ≠ object := by
  simp [kinds, List.filterMap_eq_nil_iff]

/-- Every cell is in the state that the guards of it make. -/
def Accounts (session : Session E) (guards : List Guard) : Prop :=
  ∀ object, AreCompatible (kinds guards object) ∧
    (session.payloads object).bind PayloadCell.borrowed = Loan.summary (kinds guards object)

variable {session : Session E} {guards held : List Guard} {guard : Guard} {object : ObjectId}
  {cell cell' : PayloadCell}

theorem Accounts.borrowed (h : Accounts session guards) (hcell : session.payloads object = some cell) :
    cell.borrowed = Loan.summary (kinds guards object) := by
  have hsummary := (h object).2
  rwa [hcell, Option.bind_some] at hsummary

theorem Accounts.exists_cell (h : Accounts session (guard :: guards)) :
    ∃ cell, session.payloads guard.object = some cell := by
  have hsummary := (h guard.object).2
  cases hcell : session.payloads guard.object with
  | some cell => exact ⟨cell, rfl⟩
  | none =>
      rw [hcell, Option.bind_none, kinds_cons, if_pos rfl] at hsummary
      exact nomatch Loan.summary_eq_none_iff.mp hsummary.symm

/-- A change of one cell keeps the account when the cell's new state is what the new guards make. -/
theorem Accounts.update (h : Accounts session guards) {new : Option PayloadCell} {guards' : List Guard}
    (hother : ∀ other, other ≠ object → kinds guards' other = kinds guards other)
    (hcompatible : AreCompatible (kinds guards' object))
    (hsummary : new.bind PayloadCell.borrowed = Loan.summary (kinds guards' object)) :
    Accounts { session with payloads := Function.update session.payloads object new } guards' := by
  intro other
  by_cases heq : other = object
  · subst heq
    refine ⟨hcompatible, ?_⟩
    simpa only [Function.update_self] using hsummary
  · rw [hother other heq]
    simpa only [Function.update_of_ne heq] using h other

theorem Accounts.lend (h : Accounts session guards) (guard : Guard)
    (hcell : session.payloads guard.object = some cell) (hlend : cell.lend guard.kind = .ok cell') :
    Accounts { session with payloads := Function.update session.payloads guard.object (some cell') }
      (guard :: guards) := by
  have hborrowed := h.borrowed hcell
  have hcompatible : AreCompatible (guard.kind :: kinds guards guard.object) := by
    by_contra hnot
    obtain ⟨_, hrefused, -⟩ := PayloadCell.lend_of_not_compatible hborrowed (h guard.object).1 hnot
    rw [hlend] at hrefused
    cases hrefused
  rw [PayloadCell.lend_of_compatible hborrowed hcompatible] at hlend
  have hself : kinds (guard :: guards) guard.object = guard.kind :: kinds guards guard.object := by
    rw [kinds_cons, if_pos rfl]
  refine h.update (fun other hne => ?_) (hself ▸ hcompatible) ?_
  · rw [kinds_cons, if_neg (Ne.symm hne)]
  · rw [hself, ← Except.ok.inj hlend]
    rfl

theorem Accounts.drop (h : Accounts session (guard :: guards)) :
    Accounts (guard.drop session) guards := by
  obtain ⟨cell, hcell⟩ := h.exists_cell
  have hself : kinds (guard :: guards) guard.object = guard.kind :: kinds guards guard.object := by
    rw [kinds_cons, if_pos rfl]
  have hcompatible : AreCompatible (guard.kind :: kinds guards guard.object) :=
    hself ▸ (h guard.object).1
  refine h.update (fun other hne => ?_) (hcompatible.of_sublist (List.sublist_cons_self _ _)) ?_
  · rw [kinds_cons, if_neg (Ne.symm hne)]
  · rw [hcell]
    exact PayloadCell.borrowed_release (hself ▸ h.borrowed hcell) hcompatible

theorem Accounts.dropAll (h : Accounts session (held ++ guards)) :
    Accounts (held.foldl (fun session guard => guard.drop session) session) guards := by
  induction held generalizing session with
  | nil => exact h
  | cons guard held ih => exact ih h.drop

/-! ### Expressions -/

theorem Accounts.borrow (h : Accounts session guards) {kind : BorrowKind} {value : Value}
    {type : PayloadType} {session' : Session E}
    (hdone : BackendClasses.borrow kind value type session = .done (.ok ()) session') :
    ∃ object, value = .object object ∧ Accounts session' (⟨object, kind⟩ :: guards) := by
  rcases borrow_cases kind value type session with
    ⟨object, cell, cell', rfl, hcell, hlend, heq⟩ | ⟨error, heq⟩
  · rw [heq] at hdone
    cases hdone
    exact ⟨object, rfl, h.lend ⟨object, kind⟩ hcell hlend⟩
  · rw [heq] at hdone
    cases hdone

theorem Accounts.evaluate (h : Accounts session guards) {expression : Expression} {args : Args}
    {state : HostState} {session' : Session E}
    (hdone : expression.evaluate args state session = .done (.ok ()) session') :
    Accounts session' ((expression.guard (expression.take args).1).toList ++ guards) := by
  cases expression with
  | thisPayload kind type | nextPayload kind type =>
      obtain ⟨object, hvalue, haccounts⟩ := h.borrow hdone
      simpa only [Expression.guard, Expression.borrows, Expression.take, hvalue, Option.toList_some,
        List.singleton_append] using haccounts
  | state type =>
      change (Process.check fun _ => state.check type : Op E Unit) session = _ at hdone
      rw [Process.check_apply] at hdone
      obtain ⟨-, rfl⟩ := Resumption.done.inj hdone
      exact h
  | next | nextBorrow kind | rest | this | enter | context =>
      cases hdone
      exact h

theorem evaluate_error {expression : Expression} {args : Args} {state : HostState}
    {session' : Session E} {error : Error}
    (hdone : expression.evaluate args state session = .done (.error error) session') :
    session' = session := by
  cases expression with
  | thisPayload kind type | nextPayload kind type =>
      rcases borrow_cases kind _ type session with ⟨_, _, _, -, -, -, heq⟩ | ⟨_, heq⟩
      · exact nomatch heq.symm.trans hdone
      · cases heq.symm.trans hdone
        rfl
  | state type =>
      change (Process.check fun _ => state.check type : Op E Unit) session = _ at hdone
      rw [Process.check_apply] at hdone
      exact (Resumption.done.inj hdone).2.symm
  | next | nextBorrow kind | rest | this | enter | context => cases hdone

theorem guard_of_converts {expression : Expression} (h : expression.converts = true)
    (argument : Argument) : expression.guard argument = none := by
  cases expression <;> first | rfl | cases h

/-! ### Runs -/

/-- The guards of the expressions that a call has evaluated, the last one first. -/
def evaluated (call : HostCall) : List (Option Guard) :=
  (List.zipWith Expression.guard call.expressions call.arguments).reverse

structure Sound (s : HostCalls E) : Prop where
  accounts : Accounts s.session s.guards
  holds : ∀ call ∈ s.calls, call.guards = (evaluated call).reduceOption

variable {s t : HostCalls E} {call : HostCall} {calls : List HostCall} {expression : Expression}

theorem sound_init (hfree : ∀ object cell, session.payloads object = some cell → cell.borrowed = none) :
    Sound (init session) where
  accounts object := by
    refine ⟨Sharing.compatible_nil, ?_⟩
    show (session.payloads object).bind PayloadCell.borrowed = none
    cases hcell : session.payloads object with
    | none => rfl
    | some cell => exact hfree object cell hcell
  holds := nofun

theorem evaluated_take (hnext : call.next = some expression) :
    evaluated (call.take expression) =
      expression.guard (expression.take call.args).1 :: evaluated call := by
  unfold evaluated HostCall.take
  rw [Positions.zipWith_concat hnext, List.reverse_append, List.reverse_singleton,
    List.singleton_append]

theorem Sound.take (h : Sound ⟨session, call :: calls⟩) (hnext : call.next = some expression)
    {session' : Session E} (haccounts : Accounts session'
      ((expression.guard (expression.take call.args).1).toList ++ (call.guards ++
        calls.flatMap HostCall.guards))) :
    Sound (⟨session', call.take expression :: calls⟩ : HostCalls E) where
  accounts := by
    show Accounts session' ((call.take expression :: calls).flatMap HostCall.guards)
    rw [List.flatMap_cons]
    simpa only [HostCall.take, List.append_assoc] using haccounts
  holds := by
    refine List.forall_mem_cons.mpr ⟨?_, fun other hmem => h.holds other (List.mem_cons_of_mem _ hmem)⟩
    have hheld := h.holds call List.mem_cons_self
    rw [evaluated_take hnext]
    show (expression.guard _).toList ++ call.guards = _
    rw [hheld]
    cases expression.guard (expression.take call.args).1 <;> rfl

theorem Sound.leave (h : Sound ⟨session, call :: calls⟩) : Sound (leave session call calls) where
  accounts := by
    have haccounts : Accounts session (call.guards ++ calls.flatMap HostCall.guards) := h.accounts
    exact haccounts.dropAll
  holds other hmem := h.holds other (List.mem_cons_of_mem _ hmem)

theorem Sound.enter (h : Sound s) (expressions : List Expression) (state : HostState) (args : Args) :
    Sound (s.enter expressions state args) where
  accounts := h.accounts
  holds := by
    refine List.forall_mem_cons.mpr ⟨?_, h.holds⟩
    show [] = (evaluated (HostCall.new expressions state args)).filterMap id
    simp [evaluated, HostCall.new]

theorem Sound.setPayload (h : Sound s) {new : Option PayloadCell}
    (hkinds : kinds s.guards object = []) (hnew : new.bind PayloadCell.borrowed = none) :
    Sound (s.setPayload object new) where
  accounts := by
    refine Accounts.update h.accounts (fun _ _ => rfl) (hkinds ▸ Sharing.compatible_nil) ?_
    show _ = Loan.summary (kinds s.guards object)
    rw [hkinds, hnew]
    rfl
  holds := h.holds

/-- What one step does. -/
inductive Moves (s : HostCalls E) : HostCalls E → Prop where
  | enter (expressions : List Expression) (state : HostState) {args : Args} (hargs : args.next = 0) :
      Moves s (s.enter expressions state args)
  | convert {call : HostCall} {calls : List HostCall} {expression : Expression}
      (hcalls : s.calls = call :: calls) (hnext : call.next = some expression)
      (hconverts : expression.converts = true) :
      Moves s ⟨s.session, call.take expression :: calls⟩
  | evaluate {call : HostCall} {calls : List HostCall} {expression : Expression} {session' : Session E}
      (hcalls : s.calls = call :: calls) (hnext : call.next = some expression)
      (hdone : expression.evaluate call.args call.state s.session = .done (.ok ()) session') :
      Moves s ⟨session', call.take expression :: calls⟩
  | leave {call : HostCall} {calls : List HostCall} (hcalls : s.calls = call :: calls) :
      Moves s (leave s.session call calls)
  | guest (heap : E.Heap) : Moves s { s with session := { s.session with heap } }
  | instantiate {object : ObjectId} (type : PayloadType) (hnone : s.session.payloads object = none) :
      Moves s (s.setPayload object (some ⟨type, none⟩))
  | collect {object : ObjectId} (hfree : ∀ guard ∈ s.guards, guard.object ≠ object) :
      Moves s (s.setPayload object none)

theorem moves_of_evaluate (hcalls : s.calls = call :: calls) (hnext : call.next = some expression)
    (ht : s.evaluate call calls expression = some t) : Moves s t := by
  unfold HostCalls.evaluate at ht
  split at ht
  · next session' hdone =>
    cases ht
    exact .evaluate hcalls hnext hdone
  · next error session' hdone =>
    cases ht
    rw [evaluate_error hdone]
    exact .leave hcalls
  · cases ht

theorem moves_of_step {event : Event E} (ht : s.step event = some t) : Moves s t := by
  cases event with
  | call callback state this values newTarget =>
      obtain ⟨-, ⟨⟩⟩ := Option.ite_none_right_eq_some.mp ht
      exact .enter _ _ rfl
  | borrowWith kind type value =>
      obtain ⟨-, ⟨⟩⟩ := Option.ite_none_right_eq_some.mp ht
      exact .enter _ _ rfl
  | evaluate =>
      simp only [step] at ht
      split at ht
      · cases ht
      · next call calls hcalls =>
        split at ht
        · next expression hnext =>
          split at ht
          · cases ht
          · exact moves_of_evaluate hcalls hnext ht
        · cases ht
  | converted accepted =>
      simp only [step] at ht
      split at ht
      · cases ht
      · next call calls hcalls =>
        split at ht
        · next expression hnext =>
          split at ht
          · cases ht
          · next hconverts =>
            split at ht
            · cases ht
              exact .convert hcalls hnext (by simpa using hconverts)
            · cases ht
              exact .leave hcalls
        · cases ht
  | finish =>
      simp only [step] at ht
      split at ht
      · cases ht
      · next call calls hcalls =>
        split at ht
        · cases ht
        · cases ht
          exact .leave hcalls
  | guest heap =>
      obtain ⟨-, ⟨⟩⟩ := Option.ite_none_right_eq_some.mp ht
      exact .guest heap
  | instantiate object type =>
      obtain ⟨⟨-, hnone⟩, ⟨⟩⟩ := Option.ite_none_right_eq_some.mp ht
      exact .instantiate type hnone
  | collect object =>
      obtain ⟨hfree, ⟨⟩⟩ := Option.ite_none_right_eq_some.mp ht
      exact .collect fun guard hmem => by simpa using List.all_eq_true.mp hfree guard hmem

/-- What one step preserves. -/
theorem Sound.step {event : Event E} (h : Sound s) (ht : s.step event = some t) : Sound t := by
  obtain ⟨session, calls⟩ := s
  cases moves_of_step ht with
  | enter expressions state hargs => exact h.enter expressions state _
  | convert hcalls hnext hconverts =>
      obtain rfl : calls = _ :: _ := hcalls
      refine h.take hnext ?_
      rw [guard_of_converts hconverts]
      exact h.accounts
  | evaluate hcalls hnext hdone =>
      obtain rfl : calls = _ :: _ := hcalls
      exact h.take hnext (Accounts.evaluate h.accounts hdone)
  | leave hcalls =>
      obtain rfl : calls = _ :: _ := hcalls
      exact h.leave
  | guest heap => exact ⟨h.accounts, h.holds⟩
  | @instantiate object type hnone =>
      refine h.setPayload (Loan.summary_eq_none_iff.mp ?_) rfl
      rw [← (h.accounts object).2, hnone]
      rfl
  | collect hfree => exact h.setPayload (kinds_eq_nil_iff.mpr hfree) rfl

theorem Sound.borrow (h : Sound s) {kind : BorrowKind} {type : PayloadType}
    (hcell : s.session.payloads object = some cell) (htype : cell.type.id = type.id) :
    (AreCompatible (kind :: kinds s.guards object) ∧ ∃ session',
      BackendClasses.borrow kind (.object object) type s.session = .done (.ok ()) session') ∨
    (¬ AreCompatible (kind :: kinds s.guards object) ∧ ∃ guard ∈ s.guards, guard.object = object ∧
      BackendClasses.borrow kind (.object object) type s.session =
        .done (.error (.borrow guard.kind cell.type.name)) s.session) := by
  have hborrowed := h.accounts.borrowed hcell
  rw [borrow_object hcell htype]
  by_cases hcompatible : AreCompatible (kind :: kinds s.guards object)
  · rw [PayloadCell.lend_of_compatible hborrowed hcompatible]
    exact Or.inl ⟨hcompatible, _, rfl⟩
  · obtain ⟨held, hlend, hne, hall⟩ :=
      PayloadCell.lend_of_not_compatible hborrowed (h.accounts object).1 hcompatible
    obtain ⟨other, hother⟩ := List.exists_mem_of_ne_nil _ hne
    obtain ⟨guard, hguard, hkind⟩ := List.mem_filterMap.mp hother
    obtain ⟨hobject, heq⟩ := Option.ite_none_right_eq_some.mp hkind
    refine Or.inr ⟨hcompatible, guard, hguard, hobject, ?_⟩
    rw [hlend, Option.some.inj heq, hall other hother]

/-- **Borrowed payloads follow the calls.** At every point of every run, however calls nest, fail and
return: a payload is borrowed just as the guards of the calls under way say, many readers or one
writer, and each call holds the guards of the borrows it has evaluated. Another borrow is refused
only where it would not be compatible with these, and then for one of them. When the same calls are
under way again, each payload is as it was. -/
theorem payload_borrows_follow_calls {events : List (Event E)}
    (hfree : ∀ object cell, session.payloads object = some cell → cell.borrowed = none)
    (h : (machine E).run (init session) events = some s) :
    (∀ object cell, s.session.payloads object = some cell →
      cell.borrowed = Loan.summary (kinds s.guards object)) ∧
    (∀ object, AreCompatible (kinds s.guards object)) ∧
    (∀ call ∈ s.calls, call.guards = (evaluated call).reduceOption) ∧
    (∀ object cell kind (type : PayloadType), s.session.payloads object = some cell →
      cell.type.id = type.id →
      (AreCompatible (kind :: kinds s.guards object) ∧ ∃ session',
        BackendClasses.borrow kind (.object object) type s.session = .done (.ok ()) session') ∨
      (¬ AreCompatible (kind :: kinds s.guards object) ∧ ∃ guard ∈ s.guards,
        guard.object = object ∧ BackendClasses.borrow kind (.object object) type s.session =
          .done (.error (.borrow guard.kind cell.type.name)) s.session)) ∧
    (∀ later t, (machine E).run s later = some t → t.calls = s.calls → ∀ object cell cell',
      s.session.payloads object = some cell → t.session.payloads object = some cell' →
        cell'.borrowed = cell.borrowed) := by
  have hstep : ∀ s event t, Sound s → (machine E).step s event = some t → Sound t :=
    fun _ _ _ hs ht => hs.step ht
  have hsound : Sound s := Machine.run_invariant hstep (sound_init hfree) h
  refine ⟨fun object cell hcell => hsound.accounts.borrowed hcell,
    fun object => (hsound.accounts object).1, hsound.holds,
    fun object cell kind type hcell htype => hsound.borrow hcell htype, ?_⟩
  intro later t hrun hcalls object cell cell' hcell hcell'
  have hsound' : Sound t := Machine.run_invariant hstep hsound hrun
  have hguards : t.guards = s.guards := by rw [guards, guards, hcalls]
  rw [hsound'.accounts.borrowed hcell', hsound.accounts.borrowed hcell, hguards]

section

open TinyEngine

/-- A session with one instance of a host class. -/
def counterSession : Session engine :=
  { TinyEngine.session guestFunction with
    payloads := fun object => if object = 20 then some ⟨⟨0, "Counter"⟩, none⟩ else none }

theorem counterSession_free (object : ObjectId) (cell : PayloadCell)
    (hcell : counterSession.payloads object = some cell) : cell.borrowed = none := by
  obtain ⟨-, ⟨⟩⟩ := Option.ite_none_right_eq_some.mp hcell
  rfl

/-- A method that takes its receiver exclusively calls the guest, which calls it again. -/
def reenteringRun : List (Event engine) :=
  let method : ClassCallback := ⟨⟨0, "Counter"⟩, .exclusive, [], false⟩
  [.call method.expressions none (.object 20) [] none, .evaluate,
    .call method.expressions none (.object 20) [] none]

theorem payload_borrows_follow_calls_reentering :
    ∃ s, (machine engine).run (init counterSession) reenteringRun = some s ∧
      ∃ guard ∈ s.guards, guard.object = 20 ∧
        BackendClasses.borrow .exclusive (.object 20) ⟨0, "Counter"⟩ s.session =
          .done (.error (.borrow guard.kind "Counter")) s.session := by
  have hlast : ∃ s, (machine engine).run (init counterSession) reenteringRun = some s ∧
      s.guards = [⟨20, .exclusive⟩] ∧
      s.session.payloads 20 = some ⟨⟨0, "Counter"⟩, some .exclusive⟩ := ⟨_, rfl, rfl, rfl⟩
  obtain ⟨s, hrun, hguards, hcell⟩ := hlast
  refine ⟨s, hrun, ?_⟩
  rcases (payload_borrows_follow_calls counterSession_free hrun).2.2.2.1 20 _ .exclusive ⟨0, "Counter"⟩ hcell rfl with
    ⟨hcompatible, -⟩ | ⟨-, hrefused⟩
  · rw [hguards] at hcompatible
    exact absurd hcompatible not_areCompatible_exclusive_cons
  · exact hrefused

end

end HostCalls

end GuestJs
