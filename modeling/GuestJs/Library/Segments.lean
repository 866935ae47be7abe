import Mathlib.Data.List.Basic
import Mathlib.Data.List.TakeWhile


/-!
# Lists cut into segments

A list with separators in it reads as a path: its first segment is what stands before the first
separator, and a path lies within another when it is that path or continues it after a separator.
The two notions meet at a path of one segment, which contains exactly the paths that begin with it.
-/

namespace Segments

variable {α : Type*} [DecidableEq α] (sep : α)

def first (path : List α) : List α := (path.splitOn sep).headD path

/-- `path` is `ancestor` itself or continues it after a separator. -/
def Within (ancestor path : List α) : Prop :=
  path = ancestor ∨ ∃ rest, path = ancestor ++ sep :: rest

variable {sep}

theorem first_eq_takeWhile (path : List α) : first sep path = path.takeWhile (· != sep) := by
  have hhead : ∀ l : List α, ∃ rest, l.splitOn sep = l.takeWhile (· != sep) :: rest := by
    intro l
    induction l with
    | nil => exact ⟨[], by simp⟩
    | cons x l ih =>
        obtain ⟨rest, hrest⟩ := ih
        rw [List.splitOn_eq_splitOnP] at hrest ⊢
        rw [List.splitOnP_cons_eq_if_modifyHead, hrest]
        by_cases hx : x = sep
        · exact ⟨_, by simp [hx]; rfl⟩
        · exact ⟨rest, by simp [hx]⟩
  obtain ⟨rest, hrest⟩ := hhead path
  simp [first, hrest]

theorem sep_not_mem_first (path : List α) : sep ∉ first sep path := by
  rw [first_eq_takeWhile]
  intro hmem
  simpa using List.mem_takeWhile_imp hmem

theorem first_of_not_mem {path : List α} (h : sep ∉ path) : first sep path = path := by
  rw [first_eq_takeWhile, List.takeWhile_eq_self_iff]
  intro x hx
  simpa using ne_of_mem_of_not_mem hx h

theorem first_append_sep (ancestor rest : List α) :
    first sep (ancestor ++ sep :: rest) = first sep ancestor := by
  simp only [first_eq_takeWhile, List.takeWhile_append, List.takeWhile_cons, bne_self_eq_false,
    Bool.false_eq_true, if_false, List.append_nil]
  split
  · next hlength => exact ((List.takeWhile_prefix _).eq_of_length hlength).symm
  · rfl

theorem Within.first_eq {ancestor path : List α} (h : Within sep ancestor path) :
    first sep path = first sep ancestor := by
  obtain rfl | ⟨rest, rfl⟩ := h
  · rfl
  · exact first_append_sep ancestor rest

theorem within_first (path : List α) : Within sep (first sep path) path := by
  rw [first_eq_takeWhile]
  rcases hrest : path.dropWhile (· != sep) with _ | ⟨x, rest⟩
  · left
    have hsplit := List.takeWhile_append_dropWhile (p := (· != sep)) (l := path)
    rw [hrest, List.append_nil] at hsplit
    exact hsplit.symm
  · right
    obtain rfl : x = sep := by
      have hhead := List.head?_dropWhile_not (· != sep) path
      simpa [hrest] using hhead
    refine ⟨rest, ?_⟩
    rw [← hrest, List.takeWhile_append_dropWhile]

theorem within_iff_first_eq {ancestor path : List α} (h : sep ∉ ancestor) :
    Within sep ancestor path ↔ first sep path = ancestor := by
  constructor
  · intro hwithin
    rw [hwithin.first_eq, first_of_not_mem h]
  · rintro rfl
    exact within_first path

theorem sep_not_mem_of_mem_splitOn {path segment : List α} (h : segment ∈ path.splitOn sep) :
    sep ∉ segment := by
  induction path generalizing segment with
  | nil =>
      rw [List.splitOn_nil, List.mem_singleton] at h
      subst h
      exact List.not_mem_nil
  | cons x path ih =>
      rw [List.splitOn_cons_eq_if_modifyHead] at h
      split at h
      · obtain rfl | h := List.mem_cons.mp h
        · exact List.not_mem_nil
        · exact ih h
      · next hx =>
          obtain ⟨head, rest, hsplit⟩ := List.exists_cons_of_ne_nil (List.splitOn_ne_nil sep path)
          rw [hsplit, List.modifyHead_cons, List.mem_cons] at h
          obtain rfl | h := h
          · have hhead : sep ∉ head := ih (hsplit ▸ List.mem_cons_self)
            rw [List.mem_cons, not_or]
            exact ⟨fun heq => hx (by rw [heq, beq_self_eq_true]), hhead⟩
          · exact ih (hsplit ▸ List.mem_cons_of_mem _ h)

/-- The test by stripping the prefix and looking at what is left. -/
theorem dropPrefix?_any_iff {ancestor path : List α} :
    (path.dropPrefix? ancestor).any (fun rest => rest.isEmpty || rest.head? == some sep) = true
      ↔ Within sep ancestor path := by
  rw [Option.any_eq_true_iff_get]
  constructor
  · rintro ⟨hsome, htest⟩
    obtain ⟨rest, hrest⟩ := Option.isSome_iff_exists.mp hsome
    simp only [hrest, Option.get_some] at htest
    obtain ⟨ancestor', rfl, hancestor⟩ := List.dropPrefix?_eq_some_iff.mp hrest
    obtain rfl : ancestor' = ancestor := by simpa using hancestor
    cases rest with
    | nil => exact Or.inl (by simp)
    | cons x rest =>
        obtain rfl : x = sep := by simpa using htest
        exact Or.inr ⟨rest, rfl⟩
  · intro hwithin
    have hstrip : ∀ rest, (ancestor ++ rest).dropPrefix? ancestor = some rest := fun rest =>
      List.dropPrefix?_eq_some_iff.mpr ⟨ancestor, rfl, by simp⟩
    obtain rfl | ⟨rest, rfl⟩ := hwithin
    · have := hstrip []
      rw [List.append_nil] at this
      exact ⟨by simp [this], by simp [this]⟩
    · exact ⟨by simp [hstrip], by simp [hstrip]⟩

end Segments
