import Mathlib.Data.List.Basic

/-!
# Positions in lists that change

Tables that only grow and whose entries are replaced in place, as lists: what is at a position after
such a change, by cases.
-/

namespace Positions

variable {α : Type*} {l : List α} {a b : α} {i j : Nat}

theorem cases_of_set (h : (l.set i a)[j]? = some b) :
    (j = i ∧ b = a) ∨ (j ≠ i ∧ l[j]? = some b) := by
  rw [List.getElem?_set] at h
  by_cases heq : i = j
  · subst heq
    rw [if_pos rfl] at h
    split at h
    · exact Or.inl ⟨rfl, (Option.some.inj h).symm⟩
    · cases h
  · rw [if_neg heq] at h
    exact Or.inr ⟨Ne.symm heq, h⟩

/-- The list around an entry, and the list with another in its place. -/
theorem exists_split (h : l[i]? = some a) : ∃ before after, l = before ++ a :: after ∧
    ∀ b, l.set i b = before ++ b :: after := by
  obtain ⟨hlt, rfl⟩ := List.getElem?_eq_some_iff.mp h
  refine ⟨l.take i, l.drop (i + 1), ?_, fun b => ?_⟩
  · rw [List.getElem_cons_drop, List.take_append_drop]
  · rw [List.set_eq_take_append_cons_drop, if_pos hlt]

theorem cases_of_concat (h : (l ++ [a])[j]? = some b) : (j = l.length ∧ b = a) ∨ l[j]? = some b := by
  by_cases hlt : j < l.length
  · rw [List.getElem?_append_left hlt] at h
    exact Or.inr h
  · rw [List.getElem?_append_right (Nat.le_of_not_lt hlt), List.getElem?_singleton] at h
    split at h
    · exact Or.inl ⟨by omega, (Option.some.inj h).symm⟩
    · cases h

/-- A split of a list with a new last entry is one of the list before, or the split at the end. -/
theorem cases_of_concat_eq {before after : List α} (h : l ++ [a] = before ++ b :: after) :
    (l = before ∧ a = b ∧ after = []) ∨ ∃ rest, after = rest ++ [a] ∧ l = before ++ b :: rest := by
  rcases List.eq_nil_or_concat after with rfl | ⟨rest, last, rfl⟩
  · obtain ⟨rfl, hlast⟩ := List.append_inj' h rfl
    exact Or.inl ⟨rfl, List.singleton_inj.mp hlast, rfl⟩
  · rw [List.concat_eq_append, ← List.cons_append, ← List.append_assoc] at h
    obtain ⟨rfl, hlast⟩ := List.append_inj' h rfl
    refine Or.inr ⟨rest, ?_, rfl⟩
    rw [List.concat_eq_append, List.singleton_inj.mp hlast]

theorem zipWith_concat {β γ : Type*} {f : α → β → γ} {bs : List β} {b : β}
    (h : l[bs.length]? = some a) :
    List.zipWith f l (bs ++ [b]) = List.zipWith f l bs ++ [f a b] := by
  induction bs generalizing l with
  | nil =>
      cases l with
      | nil => cases h
      | cons head tail =>
          obtain rfl := Option.some.inj h
          simp
  | cons first bs ih =>
      cases l with
      | nil => cases h
      | cons head tail =>
          rw [List.cons_append, List.zipWith_cons_cons, ih (by simpa using h), List.zipWith_cons_cons,
            List.cons_append]

end Positions
