import GuestJs.Library.Sharing
import GuestJs.QuickJs.Loans

/-!
# The table of loans, summarized

An entry of the table stands for the modes in which some memory is held. Lending counts one holder
more and releasing one less, so that what the table says is a function of the holders alone.
-/

namespace GuestJs.QuickJs

open Sharing

def Loan.summary : List BorrowKind → Option Loan
  | [] => none
  | .shared :: kinds => some (.shared (kinds.length + 1))
  | .exclusive :: _ => some .exclusive

abbrev AreCompatible (kinds : List BorrowKind) : Prop := Compatible (· = BorrowKind.shared) kinds

theorem Loan.summary_eq_none_iff {kinds : List BorrowKind} : summary kinds = none ↔ kinds = [] := by
  rcases kinds with _ | ⟨_ | _, kinds⟩ <;> simp [summary]

theorem Loan.summary_of_all_shared {kinds : List BorrowKind}
    (hshared : ∀ kind ∈ kinds, kind = .shared) (hne : kinds ≠ []) :
    summary kinds = some (.shared kinds.length) := by
  cases kinds with
  | nil => exact absurd rfl hne
  | cons kind kinds =>
      obtain rfl := hshared kind List.mem_cons_self
      rfl

theorem Loan.summary_perm {kinds kinds' : List BorrowKind} (h : AreCompatible kinds)
    (hperm : kinds.Perm kinds') : summary kinds = summary kinds' := by
  by_cases hnil : kinds = []
  · subst hnil
    rw [hperm.nil_eq]
  rcases h with hlength | hshared
  · have hpositive := List.length_pos_of_ne_nil hnil
    obtain ⟨kind, rfl⟩ := List.length_eq_one_iff.mp (by omega : kinds.length = 1)
    rw [List.perm_singleton.mp hperm.symm]
  · have hnil' : kinds' ≠ [] := fun hnil' => hnil (by rw [hnil'] at hperm; exact hperm.eq_nil)
    have hshared' : ∀ kind ∈ kinds', kind = .shared := fun kind hmem =>
      hshared kind (hperm.mem_iff.mpr hmem)
    rw [summary_of_all_shared hshared hnil, summary_of_all_shared hshared' hnil', hperm.length_eq]

/-- The two kinds of compatible holders: readers, and a single writer. -/
theorem AreCompatible.shared_or_exclusive {kinds : List BorrowKind} (h : AreCompatible kinds) :
    (∀ kind ∈ kinds, kind = .shared) ∨ kinds = [.exclusive] := by
  rcases h with hlength | hshared
  · rcases kinds with _ | ⟨_ | _, _ | ⟨_, _⟩⟩
    · exact Or.inl nofun
    · exact Or.inl (by simp)
    · simp at hlength
    · exact Or.inr rfl
    · simp at hlength
  · exact Or.inl hshared

theorem Loan.summary_eq_shared_iff {kinds : List BorrowKind} (h : AreCompatible kinds)
    {count : Nat} :
    summary kinds = some (.shared count) ↔ 0 < count ∧ kinds.count .shared = count := by
  rcases h.shared_or_exclusive with hshared | rfl
  · by_cases hnil : kinds = []
    · subst hnil
      simp [summary]
      omega
    · have hpositive := List.length_pos_of_ne_nil hnil
      have hcount : kinds.count .shared = kinds.length :=
        List.count_eq_length.mpr fun kind hmem => (hshared kind hmem).symm
      rw [summary_of_all_shared hshared hnil, hcount, Option.some.injEq, Loan.shared.injEq]
      exact ⟨fun heq => ⟨heq ▸ hpositive, heq⟩, fun h => h.2⟩
  · have hcount : List.count BorrowKind.shared [.exclusive] = 0 := rfl
    rw [hcount]
    refine iff_of_false nofun fun h => ?_
    omega

theorem Loan.summary_eq_exclusive_iff {kinds : List BorrowKind} (h : AreCompatible kinds) :
    summary kinds = some .exclusive ↔ kinds.count .exclusive = 1 := by
  rcases h.shared_or_exclusive with hshared | rfl
  · have hcount : kinds.count .exclusive = 0 :=
      List.count_eq_zero.mpr fun hmem => nomatch hshared _ hmem
    rw [hcount]
    refine iff_of_false (fun hsummary => ?_) nofun
    by_cases hnil : kinds = []
    · rw [hnil] at hsummary
      cases hsummary
    · rw [summary_of_all_shared hshared hnil] at hsummary
      cases hsummary
  · exact iff_of_true rfl rfl

namespace Loans

theorem getElem?_insert (loans : Loans) (storage other : Storage) (loan : Loan)
    (h : ∀ count, loan = .shared count → 0 < count) :
    (loans.insert storage loan h).entries[other]? =
      if other = storage then some loan else loans.entries[other]? :=
  Tables.getElem?_insert loans.entries storage other loan

theorem getElem?_remove (loans : Loans) (storage other : Storage) :
    (loans.remove storage).entries[other]? =
      if other = storage then none else loans.entries[other]? :=
  Tables.getElem?_erase loans.entries storage other

/-- What a granted loan does to the table: it counts one more holder, which is compatible with the
others. -/
theorem lend_eq_ok {loans loans' : Loans} {storage : Storage} {kind : BorrowKind}
    {kinds : List BorrowKind} (h : loans.lend storage kind = .ok loans')
    (hsummary : loans.entries[storage]? = Loan.summary kinds) (hkinds : AreCompatible kinds) :
    AreCompatible (kind :: kinds) ∧ ∀ other, loans'.entries[other]? =
      if other = storage then Loan.summary (kind :: kinds) else loans.entries[other]? := by
  unfold lend at h
  rw [hsummary] at h
  rcases kinds with _ | ⟨_ | _, kinds⟩ <;> cases kind <;> cases h
  · exact ⟨Or.inl (Nat.le_refl 1), fun other => getElem?_insert _ _ _ _ _⟩
  · exact ⟨Or.inl (Nat.le_refl 1), fun other => getElem?_insert _ _ _ _ _⟩
  · refine ⟨Or.inr fun kind hmem => ?_, fun other => getElem?_insert _ _ _ _ _⟩
    have hall : ∀ kind ∈ BorrowKind.shared :: kinds, kind = .shared := by
      rcases hkinds with hlength | hall
      · have hnil : kinds = [] := List.length_eq_zero_iff.mp (by simpa using hlength)
        simp [hnil]
      · exact hall
    rcases List.mem_cons.mp hmem with rfl | hmem
    · rfl
    · exact hall kind hmem

/-- What returning a loan does: one holder less is counted. -/
theorem release_entries {loans : Loans} {storage : Storage} {kind : BorrowKind}
    {kinds rest : List BorrowKind} (hsummary : loans.entries[storage]? = Loan.summary kinds)
    (hkinds : AreCompatible kinds) (hperm : kinds.Perm (kind :: rest)) (other : Storage) :
    (loans.release storage).entries[other]? =
      if other = storage then Loan.summary rest else loans.entries[other]? := by
  have hlength := hperm.length_eq
  simp only [List.length_cons] at hlength
  by_cases hone : rest = []
  · -- The last holder: whatever its mode, the entry goes.
    subst hone
    obtain ⟨held, rfl⟩ := List.length_eq_one_iff.mp hlength
    unfold release
    rw [hsummary]
    cases held
    · exact getElem?_remove loans storage other
    · exact getElem?_remove loans storage other
  · have hshared : ∀ kind ∈ kinds, kind = .shared := by
      rcases hkinds with hle | hall
      · have := List.length_pos_of_ne_nil hone
        omega
      · exact hall
    have hrest : ∀ kind ∈ rest, kind = .shared := fun kind hmem =>
      hshared kind (hperm.mem_iff.mpr (List.mem_cons_of_mem _ hmem))
    have hne : kinds ≠ [] := by
      rintro rfl
      simp at hlength
    unfold release
    rw [hsummary, Loan.summary_of_all_shared hshared hne]
    have hcount : 1 < kinds.length := by
      have := List.length_pos_of_ne_nil hone
      omega
    simp only [hcount, ↓reduceDIte]
    rw [getElem?_insert, Loan.summary_of_all_shared hrest hone, hlength, Nat.add_sub_cancel]

theorem exists_summary (loans : Loans) (storage : Storage) :
    ∃ kinds, AreCompatible kinds ∧ loans.entries[storage]? = Loan.summary kinds := by
  cases hentry : loans.entries[storage]? with
  | none => exact ⟨[], compatible_nil, rfl⟩
  | some loan =>
      cases loan with
      | exclusive => exact ⟨[.exclusive], Or.inl (Nat.le_refl 1), rfl⟩
      | shared count =>
          have hpositive := loans.positive storage count hentry
          have hshared : ∀ kind ∈ List.replicate count BorrowKind.shared, kind = .shared :=
            fun kind hmem => List.eq_of_mem_replicate hmem
          have hne : List.replicate count BorrowKind.shared ≠ [] := by
            rw [Ne, List.replicate_eq_nil_iff]
            omega
          refine ⟨_, Or.inr hshared, ?_⟩
          rw [Loan.summary_of_all_shared hshared hne, List.length_replicate]

/-- A loan that is returned at once leaves the table as it was. -/
theorem release_of_lend {loans loans' : Loans} {storage : Storage} {kind : BorrowKind}
    (h : loans.lend storage kind = .ok loans') : loans'.release storage = loans := by
  obtain ⟨kinds, hkinds, hsummary⟩ := exists_summary loans storage
  obtain ⟨hkinds', hlend⟩ := lend_eq_ok h hsummary hkinds
  have hsummary' : loans'.entries[storage]? = Loan.summary (kind :: kinds) := by
    rw [hlend, if_pos rfl]
  ext other : 2
  rw [release_entries hsummary' hkinds' (List.Perm.refl _), hlend]
  split
  · next heq => rw [heq, hsummary]
  · rfl

end Loans

end GuestJs.QuickJs
