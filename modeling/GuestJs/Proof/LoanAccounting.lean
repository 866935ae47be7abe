import GuestJs.Proof.BorrowMoves
import GuestJs.QuickJs.TinyEngine

/-!
# Loans account for the slices held

The table of loans is a summary of the slices in the hands of the host: for every address, the modes
in which its memory is held. That much survives whatever the guest does. That a slice still lies in
its buffer does not: a guest function behind an accessor runs in the middle of a borrow, with other
slices out, and can shrink or detach their buffers.
-/

namespace GuestJs.QuickJs

variable {E : Engine}

open Sharing

namespace Lending

def modes (held : List Bytes) (storage : Storage) : List BorrowKind :=
  (held.filter fun bytes => bytes.guard = some storage).map Bytes.kind

/-- A slice has a loan of the memory its bytes lie in, unless it is empty. -/
def Guarded (bytes : Bytes) : Prop :=
  (bytes.guard = none ∧ bytes.window.byteLength = 0) ∨
    ∃ address, bytes.guard = some ⟨"ArrayBuffer", address⟩ ∧ bytes.window.byteLength ≠ 0 ∧
      bytes.address = address + bytes.window.byteOffset

/-- The table counts the slices held, and nothing else. -/
structure Accounted (s : Lending E) : Prop where
  compatible : ∀ storage, AreCompatible (modes s.held storage)
  entries : ∀ storage : Storage,
    s.session.loans.entries[storage]? = Loan.summary (modes s.held storage)
  guarded : ∀ bytes ∈ s.held, Guarded bytes
  pending : ∀ resume ∈ s.pending, ∀ answer t,
    (resume answer t).Guarantees Session.Steady Settles t

theorem modes_cons (bytes : Bytes) (held : List Bytes) (storage : Storage) :
    modes (bytes :: held) storage =
      if bytes.guard = some storage then bytes.kind :: modes held storage
      else modes held storage := by
  unfold modes
  by_cases hguard : bytes.guard = some storage <;> simp [hguard]

theorem modes_perm {held held' : List Bytes} (h : held.Perm held') (storage : Storage) :
    (modes held storage).Perm (modes held' storage) :=
  (h.filter _).map _

theorem modes_sublist {held held' : List Bytes} (h : held.Sublist held') (storage : Storage) :
    (modes held storage).Sublist (modes held' storage) :=
  (h.filter _).map _

theorem accounted_init (session : Session E) : Accounted (init session) where
  compatible := fun _ => compatible_nil
  entries := fun _ => Std.ExtTreeMap.getElem?_empty
  guarded := fun _ hmem => nomatch hmem
  pending := fun _ hmem => nomatch hmem

theorem Accounted.enter {s : Lending E} (h : Accounted s) {bytes : Bytes} {session : Session E}
    (hentered : Entered s.session bytes session) :
    Accounted { s with session, held := bytes :: s.held } := by
  obtain ⟨block, -, -, ⟨hguard, hempty, hloans⟩ | ⟨hguard, hlength, haddress, hlend⟩⟩ :=
    hentered.block
  · have hmodes : ∀ storage, modes (bytes :: s.held) storage = modes s.held storage := by
      intro storage
      rw [modes_cons, if_neg (by simp [hguard])]
    constructor
    · intro storage
      rw [hmodes]
      exact h.compatible storage
    · intro storage
      rw [hmodes]
      show session.loans.entries[storage]? = _
      rw [hloans]
      exact h.entries storage
    · exact List.forall_mem_cons.mpr ⟨Or.inl ⟨hguard, hempty⟩, h.guarded⟩
    · exact h.pending
  · obtain ⟨hkinds, hentries⟩ :=
      Loans.lend_eq_ok hlend (h.entries _) (h.compatible _)
    constructor
    · intro storage
      rw [modes_cons, hguard]
      split
      · next heq =>
          cases heq
          exact hkinds
      · exact h.compatible storage
    · intro storage
      rw [modes_cons, hguard]
      refine (hentries storage).trans ?_
      by_cases heq : storage = ⟨"ArrayBuffer", block.address⟩
      · subst heq
        rw [if_pos rfl, if_pos rfl]
      · rw [if_neg heq, if_neg fun hsome => heq (Option.some.inj hsome).symm]
        exact h.entries storage
    · exact List.forall_mem_cons.mpr
        ⟨Or.inr ⟨block.address, hguard, hlength, haddress⟩, h.guarded⟩
    · exact h.pending

theorem Accounted.steady {s : Lending E} (h : Accounted s) {session : Session E}
    (hloans : session.loans = s.session.loans) : Accounted { s with session } where
  compatible := h.compatible
  entries := fun storage => by
    show session.loans.entries[storage]? = _
    rw [hloans]
    exact h.entries storage
  guarded := h.guarded
  pending := h.pending

theorem Accounted.proceed {s : Lending E} (h : Accounted s)
    {r : Resumption (Session E) GuestCall Answer Error Bytes}
    (hr : r.Guarantees Session.Steady Settles s.session) : Accounted (s.proceed r) := by
  rcases r with ⟨error | bytes, session⟩ | ⟨query, session, resume⟩
  · exact h.steady (Session.Steady.loans hr)
  · exact h.enter hr
  · have hsteady := h.steady (Session.Steady.loans hr.1)
    exact ⟨hsteady.compatible, hsteady.entries, hsteady.guarded,
      List.forall_mem_cons.mpr ⟨hr.2, h.pending⟩⟩

theorem Accounted.drop {s : Lending E} (h : Accounted s) {index : Nat} {bytes : Bytes}
    (hbytes : s.held[index]? = some bytes) :
    Accounted { s with
      session := { s.session with loans := bytes.drop s.session.loans }
      held := s.held.eraseIdx index } := by
  obtain ⟨hindex, rfl⟩ := List.getElem?_eq_some_iff.mp hbytes
  have hsub : (s.held.eraseIdx index).Sublist s.held := List.eraseIdx_sublist _ _
  have hperm : ∀ storage, (modes s.held storage).Perm
      (modes (s.held[index] :: s.held.eraseIdx index) storage) := fun storage =>
    modes_perm ((List.perm_cons_erase (List.getElem_mem hindex)).trans
      ((List.erase_getElem hindex).cons _)) storage
  constructor
  · exact fun storage => (h.compatible storage).of_sublist (modes_sublist hsub storage)
  · intro storage
    have hentry := (h.entries storage).trans
      (Loan.summary_perm (h.compatible storage) (hperm storage))
    rw [modes_cons] at hentry
    show ((s.held[index].drop s.session.loans).entries)[storage]? = _
    cases hguard : s.held[index].guard with
    | none =>
        rw [hguard, if_neg nofun] at hentry
        rw [Bytes.drop, hguard]
        exact hentry
    | some own =>
        have hown := hperm own
        rw [modes_cons, if_pos hguard] at hown
        rw [Bytes.drop, hguard]
        refine (Loans.release_entries (h.entries own) (h.compatible own) hown storage).trans ?_
        split
        · next heq => rw [heq]
        · next hne =>
            rw [hguard, if_neg fun hsome => hne (Option.some.inj hsome).symm] at hentry
            exact hentry
  · exact fun bytes hmem => h.guarded bytes (hsub.subset hmem)
  · exact h.pending

theorem Accounted.result_guarantees {s : Lending E} (h : Accounted s) {event : LendingEvent E}
    {r : Resumption (Session E) GuestCall Answer Error Bytes} (hr : s.result event = some r) :
    r.Guarantees Session.Steady Settles s.session := by
  cases event with
  | borrow element kind source =>
      cases hr
      exact borrow_borrows element kind source s.session
  | answer answer =>
      obtain ⟨resume, hresume, rfl⟩ := Option.map_eq_some_iff.mp hr
      exact h.pending resume (List.mem_of_head? hresume) answer s.session
  | guest heap => cases hr
  | drop index => cases hr

theorem Accounted.step {s s' : Lending E} {event : LendingEvent E} (h : Accounted s)
    (hstep : s.step event = some s') : Accounted s' := by
  cases event with
  | borrow element kind source =>
      have hmap : (s.result (.borrow element kind source)).map s.proceed = some s' := hstep
      obtain ⟨r, hr, rfl⟩ := Option.map_eq_some_iff.mp hmap
      exact h.proceed (h.result_guarantees hr)
  | answer answer =>
      have hmap : (s.result (.answer answer)).map
          ({ s with pending := s.pending.tail } : Lending E).proceed =
          some s' := hstep
      obtain ⟨r, hr, rfl⟩ := Option.map_eq_some_iff.mp hmap
      have htail : Accounted { s with pending := s.pending.tail } :=
        ⟨h.compatible, h.entries, h.guarded, fun resume hmem =>
          h.pending resume (List.mem_of_mem_tail hmem)⟩
      exact htail.proceed (h.result_guarantees hr)
  | guest heap =>
      simp only [Lending.step] at hstep
      split at hstep
      · cases hstep
      · cases hstep
        exact h.steady rfl
  | drop index =>
      obtain ⟨bytes, hbytes, rfl⟩ := Option.map_eq_some_iff.mp hstep
      exact h.drop hbytes

/-! ## Soundness -/

def Inside (E : Engine) (heap : E.Heap) (bytes : Bytes) : Prop :=
  bytes.window.byteLength ≠ 0 → ∃ block, E.block heap bytes.window.buffer = some block ∧
    bytes.window.byteOffset + bytes.window.byteLength ≤ block.size ∧
    bytes.address = block.address + bytes.window.byteOffset

def Overlap (first second : Window) : Prop :=
  first.buffer = second.buffer ∧ ∃ position,
    (first.byteOffset ≤ position ∧ position < first.byteOffset + first.byteLength) ∧
      second.byteOffset ≤ position ∧ position < second.byteOffset + second.byteLength

/-- How many slices of a buffer are held in a mode, empty ones not counted. -/
def holders (held : List Bytes) (buffer : Value) (kind : BorrowKind) : Nat :=
  held.countP fun bytes =>
    bytes.window.buffer = buffer ∧ bytes.window.byteLength ≠ 0 ∧ bytes.kind = kind

/-- What the holders of slices rely on. -/
structure Sound (s : Lending E) : Prop where
  aliasing : s.held.Pairwise fun first second =>
    Overlap first.window second.window → first.kind = .shared ∧ second.kind = .shared
  shared : ∀ buffer block, E.block s.session.heap buffer = some block → 0 < block.size → ∀ count,
    s.session.loans.entries[(⟨"ArrayBuffer", block.address⟩ : Storage)]? = some (.shared count) ↔
      0 < count ∧ holders s.held buffer .shared = count
  exclusive : ∀ buffer block, E.block s.session.heap buffer = some block → 0 < block.size →
    (s.session.loans.entries[(⟨"ArrayBuffer", block.address⟩ : Storage)]? = some .exclusive ↔
      holders s.held buffer .exclusive = 1)
  inside : ∀ bytes ∈ s.held, Inside E s.session.heap bytes
  settled : s.session.loans.settled = .ok () ↔ ∀ bytes ∈ s.held, bytes.window.byteLength = 0

theorem Guarded.guard_eq_none_iff {bytes : Bytes} (h : Guarded bytes) :
    bytes.guard = none ↔ bytes.window.byteLength = 0 := by
  rcases h with ⟨hguard, hempty⟩ | ⟨address, hguard, hlength, -⟩
  · exact iff_of_true hguard hempty
  · rw [hguard]
    exact iff_of_false nofun hlength

/-- The loan of a slice that lies in its buffer is one of the memory of that buffer, and of no
other. -/
theorem Guarded.guard_eq_iff {heap : E.Heap} {bytes : Bytes} (h : Guarded bytes)
    (hinside : Inside E heap bytes) {buffer : Value} {block : Block}
    (hblock : E.block heap buffer = some block) (hsize : 0 < block.size) :
    bytes.guard = some ⟨"ArrayBuffer", block.address⟩ ↔
      bytes.window.buffer = buffer ∧ bytes.window.byteLength ≠ 0 := by
  rcases h with ⟨hguard, hempty⟩ | ⟨address, hguard, hlength, haddress⟩
  · rw [hguard]
    exact iff_of_false nofun fun h => h.2 hempty
  obtain ⟨own, hown, hrange, haddress'⟩ := hinside hlength
  obtain rfl : address = own.address := by omega
  rw [hguard, and_iff_left hlength]
  constructor
  · intro heq
    have haddresses : own.address = block.address :=
      congrArg Storage.address (Option.some.inj heq)
    exact E.block_distinct heap _ _ own block hown hblock (by omega) hsize haddresses
  · rintro rfl
    rw [Option.some.inj (hown.symm.trans hblock)]

theorem modes_eq_nil_iff {held : List Bytes} {storage : Storage} :
    modes held storage = [] ↔ ∀ bytes ∈ held, bytes.guard ≠ some storage := by
  simp [modes]

theorem count_modes {heap : E.Heap} {held : List Bytes} (hguarded : ∀ bytes ∈ held, Guarded bytes)
    (hinside : ∀ bytes ∈ held, Inside E heap bytes) {buffer : Value} {block : Block}
    (hblock : E.block heap buffer = some block) (hsize : 0 < block.size) (kind : BorrowKind) :
    (modes held ⟨"ArrayBuffer", block.address⟩).count kind = holders held buffer kind := by
  rw [modes, holders, List.count, List.countP_map, List.countP_filter]
  refine List.countP_congr fun bytes hmem => ?_
  have hguard := (hguarded bytes hmem).guard_eq_iff (hinside bytes hmem) hblock hsize
  simp only [Function.comp_apply, beq_iff_eq, Bool.and_eq_true, decide_eq_true_eq, hguard]
  tauto

theorem Overlap.nonempty {first second : Window} (h : Overlap first second) :
    first.byteLength ≠ 0 ∧ second.byteLength ≠ 0 := by
  obtain ⟨-, position, hfirst, hsecond⟩ := h
  omega

theorem Accounted.aliasing {s : Lending E} (h : Accounted s)
    (hinside : ∀ bytes ∈ s.held, Inside E s.session.heap bytes) :
    s.held.Pairwise fun first second =>
      Overlap first.window second.window → first.kind = .shared ∧ second.kind = .shared := by
  rw [List.pairwise_iff_forall_sublist]
  intro first second hsub hoverlap
  have hfirst : first ∈ s.held := hsub.subset (by simp)
  have hsecond : second ∈ s.held := hsub.subset (by simp)
  obtain ⟨hlength, hlength'⟩ := hoverlap.nonempty
  obtain ⟨block, hblock, hrange, -⟩ := hinside first hfirst hlength
  have hsize : 0 < block.size := by omega
  have hguard := ((h.guarded first hfirst).guard_eq_iff (hinside first hfirst) hblock hsize).mpr
    ⟨rfl, hlength⟩
  have hguard' := ((h.guarded second hsecond).guard_eq_iff (hinside second hsecond) hblock hsize).mpr
    ⟨hoverlap.1.symm, hlength'⟩
  have hmodes : modes [first, second] ⟨"ArrayBuffer", block.address⟩ = [first.kind, second.kind] := by
    rw [modes_cons, if_pos hguard, modes_cons, if_pos hguard']
    rfl
  have hcompatible : AreCompatible (modes [first, second] ⟨"ArrayBuffer", block.address⟩) :=
    (h.compatible _).of_sublist (modes_sublist hsub _)
  rw [hmodes] at hcompatible
  exact hcompatible.shared_of_two (List.Perm.refl _)

theorem Accounted.settled_iff {s : Lending E} (h : Accounted s) :
    s.session.loans.settled = .ok () ↔ ∀ bytes ∈ s.held, bytes.window.byteLength = 0 := by
  rw [Loans.settled_eq_ok_iff]
  constructor
  · intro hempty bytes hmem
    refine (h.guarded bytes hmem).guard_eq_none_iff.mp ?_
    cases hguard : bytes.guard with
    | none => rfl
    | some storage =>
        have hnone := h.entries storage
        rw [hempty, Std.ExtTreeMap.getElem?_empty] at hnone
        exact absurd hguard
          (modes_eq_nil_iff.mp (Loan.summary_eq_none_iff.mp hnone.symm) bytes hmem)
  · intro hall
    ext storage loan : 2
    have hnil : modes s.held storage = [] := by
      refine modes_eq_nil_iff.mpr fun bytes hmem => ?_
      rw [(h.guarded bytes hmem).guard_eq_none_iff.mpr (hall bytes hmem)]
      exact nofun
    rw [h.entries, hnil, Std.ExtTreeMap.getElem?_empty]
    rfl

/-- With the accounts kept, all the holders rely on comes down to where their slices lie. -/
theorem Accounted.sound_iff {s : Lending E} (h : Accounted s) :
    Sound s ↔ ∀ bytes ∈ s.held, Inside E s.session.heap bytes := by
  constructor
  · exact Sound.inside
  · intro hinside
    refine ⟨h.aliasing hinside, ?_, ?_, hinside, h.settled_iff⟩
    · intro buffer block hblock hsize count
      rw [h.entries, Loan.summary_eq_shared_iff (h.compatible _),
        count_modes h.guarded hinside hblock hsize]
    · intro buffer block hblock hsize
      rw [h.entries, Loan.summary_eq_exclusive_iff (h.compatible _),
        count_modes h.guarded hinside hblock hsize]

theorem Inside.keeps {heap heap' : E.Heap} {bytes : Bytes} (h : Inside E heap bytes)
    (hkeeps : Keeps E.block heap heap') : Inside E heap' bytes := by
  intro hlength
  obtain ⟨block, hblock, hin⟩ := h hlength
  exact ⟨block, hkeeps _ _ hblock, hin⟩

theorem inside_of_entered {s s' : Session E} {bytes : Bytes} (h : Entered s bytes s') :
    Inside E s'.heap bytes := by
  intro hlength
  obtain ⟨block, hblock, hrange, ⟨-, hempty, -⟩ | ⟨-, -, haddress, -⟩⟩ := h.block
  · exact absurd hempty hlength
  · exact ⟨block, hblock, hrange, haddress⟩

theorem inside_proceed {s : Lending E} {r : Resumption (Session E) GuestCall Answer Error Bytes}
    (hr : r.Guarantees Session.Steady Settles s.session)
    (hinside : ∀ bytes ∈ s.held, Inside E s.session.heap bytes) :
    ∀ bytes ∈ (s.proceed r).held, Inside E (s.proceed r).session.heap bytes := by
  rcases r with ⟨error | bytes, session⟩ | ⟨query, session, resume⟩
  · exact fun bytes hmem => (hinside bytes hmem).keeps (Session.Steady.block hr)
  · exact List.forall_mem_cons.mpr ⟨inside_of_entered hr, fun other hmem =>
      (hinside other hmem).keeps (Entered.keeps hr)⟩
  · exact fun bytes hmem => (hinside bytes hmem).keeps hr.1.block

/-- What the guest does to the heap leaves the bytes of every slice held where they are. -/
def KeepsLent (s : Lending E) : LendingEvent E → Prop
  | .guest heap => ∀ bytes ∈ s.held, Inside E heap bytes
  | .borrow _ _ _ | .answer _ | .drop _ => True

theorem Accounted.sound_step_iff {s s' : Lending E} {event : LendingEvent E} (h : Accounted s)
    (hsound : Sound s) (hstep : s.step event = some s') : Sound s' ↔ KeepsLent s event := by
  rw [(h.step hstep).sound_iff]
  cases event with
  | borrow element kind source =>
      have hmap : (s.result (.borrow element kind source)).map s.proceed = some s' := hstep
      obtain ⟨r, hr, rfl⟩ := Option.map_eq_some_iff.mp hmap
      exact iff_of_true (inside_proceed (h.result_guarantees hr) hsound.inside) trivial
  | answer answer =>
      have hmap : (s.result (.answer answer)).map
          ({ s with pending := s.pending.tail } : Lending E).proceed = some s' := hstep
      obtain ⟨r, hr, rfl⟩ := Option.map_eq_some_iff.mp hmap
      exact iff_of_true (inside_proceed (h.result_guarantees hr) hsound.inside) trivial
  | guest heap =>
      simp only [Lending.step] at hstep
      split at hstep
      · cases hstep
      · cases hstep
        rfl
  | drop index =>
      obtain ⟨bytes, hbytes, rfl⟩ := Option.map_eq_some_iff.mp hstep
      refine iff_of_true (fun other hmem => ?_) trivial
      exact hsound.inside other ((List.eraseIdx_sublist _ _).subset hmem)

theorem sound_init (session : Session E) : Sound (init session) :=
  (accounted_init session).sound_iff.mpr fun _ hmem => nomatch hmem

/-- **What loans rest on.** In every run of borrows and drops, with the guest at work whenever a
borrow has called it or no slice is out, the loans are sound all along exactly when whatever the guest
does to the heap leaves the bytes of the slices held where they are. A borrow that succeeds has found
its window inside its buffer, and one that fails leaves the table as it was, in any case. -/
theorem throughout_sound_iff (session : Session E) (events : List (LendingEvent E)) :
    ((machine E).Throughout Sound (init session) events ↔
        (machine E).Along KeepsLent (init session) events) ∧
      ∀ s, (machine E).run (init session) events = some s → ∀ event session',
        (∀ bytes, s.result event = some (.done (.ok bytes) session') →
          ∃ block, E.block session'.heap bytes.window.buffer = some block ∧
            bytes.window.byteOffset + bytes.window.byteLength ≤ block.size) ∧
        (∀ error, s.result event = some (.done (.error error) session') →
          session'.loans = s.session.loans) := by
  constructor
  · exact Transition.Machine.throughout_iff_along (fun _ _ _ h hstep => h.step hstep)
      (fun _ _ _ h hsound hstep => h.sound_step_iff hsound hstep) (accounted_init session)
      (sound_init session)
  · intro s hrun event session'
    have haccounted : Accounted s :=
      Transition.Machine.run_invariant (M := machine E) (fun _ _ _ h hstep => h.step hstep)
        (accounted_init session) hrun
    constructor
    · intro bytes hresult
      have hentered : Entered s.session bytes session' := haccounted.result_guarantees hresult
      obtain ⟨block, hblock, hrange, -⟩ := hentered.block
      exact ⟨block, hblock, hrange⟩
    · intro error hresult
      exact Session.Steady.loans (haccounted.result_guarantees hresult)

section

open TinyEngine

/-- The second buffer is lent for writing, the first one is borrowed through a view, and the guest's
accessor shrinks the second. -/
def shrinkingRun : List (LendingEvent engine) :=
  [.borrow none .exclusive secondBuffer, .borrow none .shared TinyEngine.view,
    .guest ⟨guestFunction, 0⟩]

theorem not_sound_shrinkingRun :
    ¬ ∀ events, (machine engine).Throughout Sound (init (TinyEngine.session guestFunction)) events := by
  intro hall
  have hlast : ∃ s, (machine engine).run (init (TinyEngine.session guestFunction)) shrinkingRun = some s ∧
      s.session.heap = ⟨guestFunction, 0⟩ ∧
      s.held = [⟨some ⟨"ArrayBuffer", 512⟩, .exclusive, 512, ⟨secondBuffer, 0, 8⟩⟩] :=
    ⟨_, rfl, rfl, rfl⟩
  obtain ⟨s, hrun, hheap, hheld⟩ := hlast
  have hinside := ((hall shrinkingRun).last hrun).inside _ (hheld ▸ List.mem_cons_self)
  obtain ⟨block, hblock, hrange, -⟩ := hinside (by decide)
  rw [hheap] at hblock
  cases hblock
  revert hrange
  decide

end

end Lending

end GuestJs.QuickJs
