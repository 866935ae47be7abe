import GuestJs.Library.Association
import Mathlib.Data.List.Induction

/-!
# Entries that are merged under their keys

A list of entries in which a later entry for a key is merged into the one that is there, and a new
key comes last. Whatever is declared in whatever order, the entry of a key comes from the declarations
of that key alone.
-/

namespace Merged

variable {κ α β : Type*} [DecidableEq κ] (merge : α → α → α)

def upsert (key : κ) (value : α) : List (κ × α) → List (κ × α)
  | [] => [(key, value)]
  | (existing, held) :: rest =>
      if existing = key then (existing, merge held value) :: rest
      else (existing, held) :: upsert key value rest

def declare (declarations : List (κ × α)) : List (κ × α) :=
  declarations.foldl (fun entries declaration => upsert merge declaration.1 declaration.2 entries) []

/-- What is declared for a key, in order. -/
def own (key : κ) (declarations : List (κ × α)) : List α :=
  (declarations.filter fun declaration => declaration.1 = key).map Prod.snd

/-- The left fold over what is declared, from the first on. -/
def fold : List α → Option α
  | [] => none
  | first :: rest => some (rest.foldl merge first)

variable {merge} {key other : κ} {value : α} {entries declarations : List (κ × α)}

theorem keys_upsert : (upsert merge key value entries).map Prod.fst =
    if key ∈ entries.map Prod.fst then entries.map Prod.fst
    else entries.map Prod.fst ++ [key] := by
  induction entries with
  | nil => simp [upsert]
  | cons entry rest ih => grind [upsert]

theorem lookup_upsert : (upsert merge key value entries).lookup other =
    if other = key then some (((entries.lookup key).map (merge · value)).getD value)
    else entries.lookup other := by
  induction entries with
  | nil => grind [upsert]
  | cons entry rest ih =>
      obtain ⟨existing, held⟩ := entry
      rw [upsert]
      split
      · grind
      · grind

theorem nodup_upsert (h : (entries.map Prod.fst).Nodup) :
    ((upsert merge key value entries).map Prod.fst).Nodup := by
  rw [keys_upsert]
  split
  · exact h
  · next hnew => exact List.nodup_append.mpr ⟨h, by simp, by grind⟩

theorem upsert_map {merge' : β → β → β} {f : α → β}
    (hf : ∀ held later, f (merge held later) = merge' (f held) (f later)) :
    (upsert merge key value entries).map (Prod.map id f) =
      upsert merge' key (f value) (entries.map (Prod.map id f)) := by
  induction entries with
  | nil => rfl
  | cons entry rest ih =>
      obtain ⟨existing, held⟩ := entry
      simp only [upsert, List.map_cons, Prod.map_apply, id_eq]
      split
      · rw [List.map_cons, Prod.map_apply, hf, id_eq]
      · rw [List.map_cons, ih, Prod.map_apply, id_eq]

theorem declare_concat (declarations : List (κ × α)) (last : κ × α) :
    declare merge (declarations ++ [last]) =
      upsert merge last.1 last.2 (declare merge declarations) := by
  rw [declare, List.foldl_concat]
  rfl

theorem own_concat (declarations : List (κ × α)) (last : κ × α) :
    own key (declarations ++ [last]) =
      if last.1 = key then own key declarations ++ [last.2] else own key declarations := by
  rw [own, List.filter_append, List.map_append]
  split
  · next h => simp [own, h]
  · next h => simp [own, h]

theorem fold_concat (values : List α) (last : α) :
    fold merge (values ++ [last]) =
      some (((fold merge values).map (merge · last)).getD last) := by
  cases values with
  | nil => rfl
  | cons first rest =>
      rw [List.cons_append, fold, List.foldl_concat]
      rfl

/-- The keys stand in the order in which they are first declared. -/
theorem keys_declare (declarations : List (κ × α)) :
    (declare merge declarations).map Prod.fst = (declarations.map Prod.fst).eraseDups := by
  induction declarations using List.reverseRecOn with
  | nil => rfl
  | append_singleton declarations last ih =>
      rw [declare_concat, keys_upsert, ih, List.map_append, List.eraseDups_append,
        List.map_singleton]
      by_cases hmem : last.1 ∈ declarations.map Prod.fst
      · rw [if_pos (List.mem_eraseDups.mpr hmem)]
        simp [hmem, List.removeAll]
      · rw [if_neg (mt List.mem_eraseDups.mp hmem)]
        simp [hmem, List.removeAll, List.eraseDups_cons]

theorem nodup_declare (declarations : List (κ × α)) :
    ((declare merge declarations).map Prod.fst).Nodup := by
  induction declarations using List.reverseRecOn with
  | nil => exact List.nodup_nil
  | append_singleton declarations last ih =>
      rw [declare_concat]
      exact nodup_upsert ih

/-- **Merging.** What a key has is the fold over its own declarations. -/
theorem lookup_declare (declarations : List (κ × α)) (key : κ) :
    (declare merge declarations).lookup key = fold merge (own key declarations) := by
  induction declarations using List.reverseRecOn with
  | nil => rfl
  | append_singleton declarations last ih =>
      rw [declare_concat, lookup_upsert, own_concat]
      by_cases hkey : last.1 = key
      · rw [if_pos hkey, if_pos hkey.symm, fold_concat, ← ih, hkey]
      · rw [if_neg hkey, if_neg (Ne.symm hkey), ih]

/-- Declarations that are the same for every key give the same entries, up to their order. -/
theorem declare_perm {declarations' : List (κ × α)}
    (h : ∀ key, own key declarations = own key declarations') :
    (declare merge declarations).Perm (declare merge declarations') := by
  have hnodup : ((declare merge declarations).map Prod.fst).Nodup := nodup_declare declarations
  have hnodup' : ((declare merge declarations').map Prod.fst).Nodup := nodup_declare declarations'
  refine (List.perm_ext_iff_of_nodup hnodup.of_map hnodup'.of_map).mpr ?_
  rintro ⟨key, value⟩
  have hlookup : (declare merge declarations).lookup key =
      (declare merge declarations').lookup key := by
    rw [lookup_declare, lookup_declare, h]
  constructor
  · intro hmem
    exact Association.mem_of_lookup (hlookup ▸ Association.lookup_of_mem hnodup hmem)
  · intro hmem
    exact Association.mem_of_lookup (hlookup.symm ▸ Association.lookup_of_mem hnodup' hmem)

/-- Declarations of different keys may change places. -/
theorem declare_swap {before after : List (κ × α)} {first second : κ × α}
    (hne : first.1 ≠ second.1) :
    (declare merge (before ++ first :: second :: after)).Perm
      (declare merge (before ++ second :: first :: after)) := by
  refine declare_perm fun key => ?_
  simp only [own, List.filter_append, List.filter_cons]
  by_cases hfirst : first.1 = key
  · have hsecond : second.1 ≠ key := fun h => hne (hfirst.trans h.symm)
    simp [hfirst, hsecond]
  · simp [hfirst]

end Merged
