import Mathlib.Data.List.Nodup

/-!
# Many readers or one writer

Holders of one resource, each in a mode: they are compatible when there is at most one of them or
all of them hold it in a shared mode.
-/

namespace Sharing

variable {Mode : Type*} (Shared : Mode → Prop)

def Compatible (modes : List Mode) : Prop := modes.length ≤ 1 ∨ ∀ mode ∈ modes, Shared mode

variable {Shared}

theorem compatible_nil : Compatible Shared [] := Or.inl (Nat.zero_le 1)

theorem Compatible.of_sublist {modes modes' : List Mode} (h : Compatible Shared modes)
    (hsub : modes'.Sublist modes) : Compatible Shared modes' :=
  h.imp (fun hlength => Nat.le_trans hsub.length_le hlength) fun hall mode hmem =>
    hall mode (hsub.subset hmem)

theorem Compatible.shared_of_two {modes rest : List Mode} {first second : Mode}
    (h : Compatible Shared modes) (hperm : modes.Perm (first :: second :: rest)) :
    Shared first ∧ Shared second := by
  rcases h with hlength | hall
  · have hcount := hperm.length_eq
    simp only [List.length_cons] at hcount
    omega
  · exact ⟨hall first (hperm.mem_iff.mpr (by simp)), hall second (hperm.mem_iff.mpr (by simp))⟩

end Sharing
