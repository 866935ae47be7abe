import Mathlib.Data.List.Nodup
import Mathlib.Data.List.Perm.Subperm
import Mathlib.Data.Nat.Find

/-!
# Searching for a fresh name

Numbered candidates are tried in their order until one is not taken. A search knows no bound of its
own: it ends because candidates with different numbers differ and only finitely many things are
taken, so that one of the first `n + 1` candidates is not among `n` things.
-/

namespace Fresh

variable {α : Type} (candidate : Nat → α) (taken : α → Bool)

/-- The loop from `index` on, given up after `fuel` candidates. -/
def search : (fuel index : Nat) → Option α
  | 0, _ => none
  | fuel + 1, index =>
      if taken (candidate index) then search fuel (index + 1) else some (candidate index)

/-- No candidate before `index` is free, and this one is. -/
def IsFirst (index : Nat) : Prop :=
  taken (candidate index) = false ∧ ∀ j < index, taken (candidate j) = true

variable {candidate taken}

theorem search_of_isFirst {last : Nat} (hfirst : IsFirst candidate taken last) {fuel index : Nat}
    (hindex : index ≤ last) (hfuel : last < index + fuel) :
    search candidate taken fuel index = some (candidate last) := by
  induction fuel generalizing index with
  | zero => omega
  | succ fuel ih =>
      rw [search]
      rcases Nat.lt_or_eq_of_le hindex with hlt | rfl
      · rw [if_pos (hfirst.2 index hlt)]
        exact ih (by omega) (by omega)
      · rw [if_neg (by simp [hfirst.1])]

/-- **Pigeonhole.** Of more candidates than there are things in use one is free. -/
theorem exists_not_mem (hinj : Function.Injective candidate) (used : List α) :
    ∃ i ≤ used.length, candidate i ∉ used := by
  by_contra hall
  push Not at hall
  have hnodup : ((List.range (used.length + 1)).map candidate).Nodup :=
    List.nodup_range.map hinj
  have hsub : (List.range (used.length + 1)).map candidate ⊆ used := by
    intro a ha
    obtain ⟨i, hi, rfl⟩ := List.mem_map.mp ha
    exact hall i (Nat.le_of_lt_succ (List.mem_range.mp hi))
  have hlength := (hnodup.subperm hsub).length_le
  rw [List.length_map, List.length_range] at hlength
  omega

/-- There is a first free candidate, and its number is at most that of the things in use. -/
theorem exists_isFirst (hinj : Function.Injective candidate) {used : List α}
    (htaken : ∀ a, taken a = true → a ∈ used) :
    ∃ i ≤ used.length, IsFirst candidate taken i := by
  obtain ⟨bound, hbound, hfree⟩ := exists_not_mem hinj used
  have hnot : taken (candidate bound) = false := Bool.eq_false_iff.mpr fun h => hfree (htaken _ h)
  have hex : ∃ i, taken (candidate i) = false := ⟨bound, hnot⟩
  refine ⟨Nat.find hex, Nat.le_trans (Nat.find_min' hex hnot) hbound, Nat.find_spec hex, ?_⟩
  intro j hj
  simpa using Nat.find_min hex hj

end Fresh
