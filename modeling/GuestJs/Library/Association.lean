import Mathlib.Data.List.Forall2
import Mathlib.Data.List.Nodup
import Mathlib.Data.List.Perm.Basic

/-!
# Lists of entries

Entries under keys, looked up by the key. Where no key occurs twice, an entry is found by either of
the two lookups wherever it stands in the list.
-/

namespace Association

variable {κ α β : Type*} {entries : List (κ × α)} {key : κ} {value : α}

theorem value_unique {value' : α} (hkeys : (entries.map Prod.fst).Nodup)
    (h : (key, value) ∈ entries) (h' : (key, value') ∈ entries) : value = value' :=
  congrArg Prod.snd (List.inj_on_of_nodup_map hkeys h h' rfl)

theorem mem_of_lookup [BEq κ] [LawfulBEq κ] (h : entries.lookup key = some value) :
    (key, value) ∈ entries := by
  obtain ⟨before, after, rfl, -⟩ := List.lookup_eq_some_iff.mp h
  exact List.mem_append_right before List.mem_cons_self

theorem lookup_of_mem [BEq κ] [LawfulBEq κ] (hkeys : (entries.map Prod.fst).Nodup)
    (h : (key, value) ∈ entries) : entries.lookup key = some value := by
  cases hlookup : entries.lookup key with
  | none =>
      have hne := List.lookup_eq_none_iff.mp hlookup (key, value) h
      simp at hne
  | some value' => rw [value_unique hkeys h (mem_of_lookup hlookup)]

theorem find?_of_mem [DecidableEq κ] (hkeys : (entries.map Prod.fst).Nodup)
    (h : (key, value) ∈ entries) :
    (entries.find? fun entry => entry.1 = key) = some (key, value) := by
  cases hfind : entries.find? fun entry => entry.1 = key with
  | none =>
      have hne := List.find?_eq_none.mp hfind (key, value) h
      simp at hne
  | some found =>
      have hkey : found.1 = key := by simpa using List.find?_some hfind
      rw [List.inj_on_of_nodup_map hkeys (List.mem_of_find?_eq_some hfind) h hkey]

/-- The keys in another order are the keys of the entries in another order. -/
theorem exists_perm_of_keys {keys : List κ} (h : keys.Perm (entries.map Prod.fst)) :
    ∃ entries' : List (κ × α), keys = entries'.map Prod.fst ∧ entries'.Perm entries := by
  have hcomp := congrFun (congrFun (List.eq_map_comp_perm (Prod.fst : κ × α → κ)) keys) entries
  exact hcomp.mpr h

theorem keys_eq_of_forall₂ {entries' : List (κ × β)}
    (h : List.Forall₂ (fun entry entry' => entry.1 = entry'.1) entries entries') :
    entries.map Prod.fst = entries'.map Prod.fst := by
  rw [← List.forall₂_eq_eq_eq, List.forall₂_map_left_iff, List.forall₂_map_right_iff]
  exact h

theorem forall₂_of_keys {Q : α → β → Prop} {entries' : List (κ × β)}
    (hkeys : entries.map Prod.fst = entries'.map Prod.fst)
    (hall : ∀ pair ∈ entries.zip entries', Q pair.1.2 pair.2.2) :
    List.Forall₂ (fun entry entry' => entry.1 = entry'.1 ∧ Q entry.2 entry'.2) entries entries' := by
  have hpairs : List.Forall₂ Eq (entries.map Prod.fst) (entries'.map Prod.fst) := by
    rwa [List.forall₂_eq_eq_eq]
  rw [List.forall₂_map_left_iff, List.forall₂_map_right_iff] at hpairs
  obtain ⟨hlength, hkey⟩ := List.forall₂_iff_zip.mp hpairs
  exact List.forall₂_iff_zip.mpr ⟨hlength, fun hpair => ⟨hkey hpair, hall _ hpair⟩⟩

theorem exists_of_forall₂ {Q : α → β → Prop} {entries' : List (κ × β)}
    (h : List.Forall₂ (fun entry entry' => entry.1 = entry'.1 ∧ Q entry.2 entry'.2) entries entries')
    (hmem : (key, value) ∈ entries) : ∃ value', (key, value') ∈ entries' ∧ Q value value' := by
  induction h with
  | nil => cases hmem
  | cons hentry _ ih =>
      cases hmem with
      | head =>
          obtain ⟨rfl, hQ⟩ := hentry
          exact ⟨_, List.mem_cons_self, hQ⟩
      | tail _ hmem =>
          obtain ⟨value', hvalue', hQ⟩ := ih hmem
          exact ⟨value', List.mem_cons_of_mem _ hvalue', hQ⟩

end Association
