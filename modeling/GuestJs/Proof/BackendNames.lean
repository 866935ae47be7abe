import GuestJs.Macros.Backend
import Std.Data.String.ToNat

/-!
# The name of a synthesised backend

The search for a name goes past every name that is written as the candidate is, and ends after at
most one candidate for each parameter. It does not see a parameter that is written as a raw
identifier, which has the same name without being the same identifier.
-/

namespace GuestJs

namespace BackendParameter

/-- The identifiers of all parameters, of the impl and of its methods. -/
def parameters (generics : Generics) (methods : List Generics) : List Ident :=
  (generics :: methods).flatMap fun source => source.params.map GenericParam.ident

/-- The names of all parameters. -/
def names (generics : Generics) (methods : List Generics) : List String :=
  (parameters generics methods).map Ident.name

/-- Every raw identifier that a candidate is the name of stands behind a free candidate or beside the
candidate itself, so that the search does not stop at its name. -/
def RawFree (generics : Generics) (methods : List Generics) : Prop :=
  ∀ index, { candidate index with raw := true } ∈ parameters generics methods →
    candidate index ∈ parameters generics methods ∨
      ∃ earlier < index, candidate earlier ∉ parameters generics methods

/-! ### The candidates -/

theorem candidate_raw (index : Nat) : (candidate index).raw = false := by
  rcases index with _ | _ | index <;> rfl

theorem candidate_text_length (index : Nat) : 16 ≤ (candidate (index + 1)).text.length := by
  have hword : "__GuestjsBackend".length = 16 := rfl
  cases index with
  | zero => exact Nat.le_of_eq hword.symm
  | succ index =>
      show 16 ≤ ("__GuestjsBackend" ++ (index + 1).repr).length
      rw [String.length_append, hword]
      omega

theorem candidate_ne_first (index : Nat) : candidate 0 ≠ candidate (index + 1) := by
  intro h
  have hlength := candidate_text_length index
  rw [← h] at hlength
  exact absurd hlength (by decide)

theorem candidate_ne_second (index : Nat) : candidate 1 ≠ candidate (index + 2) := by
  intro h
  have htext : "__GuestjsBackend" = "__GuestjsBackend" ++ (index + 1).repr := congrArg Ident.text h
  exact Nat.repr_ne_empty (String.append_eq_left_iff.mp htext.symm)

theorem candidate_injective : Function.Injective candidate := by
  intro i j h
  match i, j with
  | 0, 0 => rfl
  | 0, j + 1 => exact absurd h (candidate_ne_first j)
  | i + 1, 0 => exact absurd h.symm (candidate_ne_first i)
  | 1, 1 => rfl
  | 1, j + 2 => exact absurd h (candidate_ne_second j)
  | i + 2, 1 => exact absurd h.symm (candidate_ne_second i)
  | i + 2, j + 2 =>
      have htext : "__GuestjsBackend" ++ (i + 1).repr = "__GuestjsBackend" ++ (j + 1).repr :=
        congrArg Ident.text h
      have hnumber := Nat.repr_inj.mp ((String.append_right_inj _).mp htext)
      omega

theorem occupied_iff {generics : Generics} {ident : Ident} :
    occupied generics ident = true ↔ ident ∈ generics.params.map GenericParam.ident := by
  rw [occupied, List.any_eq_true, List.mem_map]
  simp only [beq_iff_eq]

theorem taken_iff {generics : Generics} {methods : List Generics} {ident : Ident} :
    taken generics methods ident = true ↔ ident ∈ parameters generics methods := by
  rw [taken, Bool.or_eq_true, List.any_eq_true, parameters, List.flatMap_cons, List.mem_append,
    List.mem_flatMap]
  simp only [occupied_iff]

/-! ### What the search finds -/

theorem isFirst_iff {generics : Generics} {methods : List Generics} {index : Nat} :
    Fresh.IsFirst candidate (taken generics methods) index ↔
      candidate index ∉ parameters generics methods ∧
        ∀ j < index, candidate j ∈ parameters generics methods := by
  simp only [Fresh.IsFirst, ← Bool.not_eq_true, taken_iff]

theorem resolve_of_isFirst {generics : Generics} {methods : List Generics}
    (hbounded : ∀ parameter ∈ generics.typeParams, bounded generics parameter = false) {index : Nat}
    (hfirst : Fresh.IsFirst candidate (taken generics methods) index) {fuel : Nat}
    (hfuel : index < fuel) :
    resolve fuel none generics methods = some (.ok (.synthesized (candidate index))) := by
  have hfind : generics.typeParams.find? (bounded generics) = none :=
    List.find?_eq_none.mpr fun parameter h => by simp [hbounded parameter h]
  have hsearch : Fresh.search candidate (taken generics methods) fuel 0 = some (candidate index) :=
    Fresh.search_of_isFirst hfirst (Nat.zero_le index) (by omega)
  rw [resolve, hfind, hsearch]
  rfl

/-- An identifier that no parameter is has a name of its own unless a parameter is its raw
spelling. -/
theorem name_fresh_iff {generics : Generics} {methods : List Generics} {ident : Ident}
    (hraw : ident.raw = false) (hfresh : ident ∉ parameters generics methods) :
    ident.name ∉ names generics methods ↔
      { ident with raw := true } ∉ parameters generics methods := by
  refine not_congr ⟨fun hname => ?_, fun hmem => ?_⟩
  · obtain ⟨other, hother, heq⟩ := List.mem_map.mp hname
    have htext : other.text = ident.text := heq
    rcases hspelling : other.raw with _ | _
    · have hsame : other = ident := by
        cases other; cases ident
        simp_all
      exact absurd (hsame ▸ hother) hfresh
    · have hsame : other = { ident with raw := true } := by
        cases other; cases ident
        simp_all
      exact hsame ▸ hother
  · exact List.mem_map.mpr ⟨_, hmem, rfl⟩

theorem rawFree_iff {generics : Generics} {methods : List Generics} {index : Nat}
    (hfirst : Fresh.IsFirst candidate (taken generics methods) index) :
    RawFree generics methods ↔
      { candidate index with raw := true } ∉ parameters generics methods := by
  obtain ⟨hfree, hbefore⟩ := isFirst_iff.mp hfirst
  constructor
  · intro hrawFree hmem
    rcases hrawFree index hmem with hcandidate | ⟨earlier, hlt, hnot⟩
    · exact hfree hcandidate
    · exact hnot (hbefore earlier hlt)
  · intro hnot j hmem
    rcases Nat.lt_trichotomy j index with hlt | rfl | hlt
    · exact Or.inl (hbefore j hlt)
    · exact absurd hmem hnot
    · exact Or.inr ⟨index, hlt, hfree⟩

/-- **A synthesised backend.** With nothing selected and no type parameter bounded by `Backend` the
search ends, after no more candidates than there are parameters, with an identifier that is none of
theirs; its name is none of theirs exactly when no raw identifier has the name it stops at. -/
theorem synthesized_fresh_iff {generics : Generics} {methods : List Generics}
    (hbounded : ∀ parameter ∈ generics.typeParams, bounded generics parameter = false) :
    ∃ ident, ident ∉ parameters generics methods ∧
      (∀ fuel, (parameters generics methods).length < fuel →
        resolve fuel none generics methods = some (.ok (.synthesized ident))) ∧
      (ident.name ∉ names generics methods ↔ RawFree generics methods) := by
  obtain ⟨index, hindex, hfirst⟩ :=
    Fresh.exists_isFirst candidate_injective fun _ (h : taken generics methods _ = true) =>
      taken_iff.mp h
  have hfree := (isFirst_iff.mp hfirst).1
  refine ⟨candidate index, hfree, fun fuel hfuel => ?_, ?_⟩
  · exact resolve_of_isFirst hbounded hfirst (by omega)
  · rw [name_fresh_iff (candidate_raw index) hfree, rawFree_iff hfirst]

/-- `<B, __GuestjsBackend>` on the impl and `<__GuestjsBackend1>` on a method. -/
theorem synthesized_fresh_occupied :
    let generics : Generics :=
      ⟨[.type ⟨.new "B", []⟩, .type ⟨.new "__GuestjsBackend", []⟩], []⟩
    let methods : List Generics := [⟨[.type ⟨.new "__GuestjsBackend1", []⟩], []⟩]
    ∃ ident, ident ∉ parameters generics methods ∧
      (∀ fuel, 3 < fuel →
        resolve fuel none generics methods = some (.ok (.synthesized ident))) ∧
      (ident.name ∉ names generics methods ↔ RawFree generics methods) :=
  synthesized_fresh_iff (by decide)

/-- `<r#B>` has a parameter `B` already, and is given another. -/
theorem not_synthesized_fresh_raw :
    let generics : Generics := ⟨[.type ⟨⟨true, "B"⟩, []⟩], []⟩
    (∀ parameter ∈ generics.typeParams, bounded generics parameter = false) ∧
      ¬ ∃ fuel ident, resolve fuel none generics [] = some (.ok (.synthesized ident)) ∧
        ident.name ∉ names generics [] := by
  refine ⟨by decide, ?_⟩
  rintro ⟨fuel, ident, hresolve, hname⟩
  cases fuel with
  | zero => cases hresolve
  | succ fuel =>
      have hident : Ident.new "B" = ident := by
        simpa [resolve, Generics.typeParams, GenericParam.typeParam, bounded, Fresh.search, taken,
          occupied, GenericParam.ident, candidate, Ident.new] using hresolve
      subst hident
      exact hname (by decide)

end BackendParameter

end GuestJs
