import GuestJs.Imports
import GuestJs.Proof.CatalogOwnership

/-!
# Mounts do not move what resolves

A mount is checked against all three layers of a guest. A layer that already knows a name below a
root of the mounted bundle can pass its check only when it holds that very bundle, because identities
are never reused: so the new layer answers as the old ones did, for a name and for its `index`.
-/

namespace GuestJs

open Fallible

namespace Sources

variable {B : Backend} {store : BundleStore}

/-- A table of sources that insertions led to, over the bundles of a store. -/
structure Layer (store : BundleStore) (sources : Sources B) : Prop where
  wellFormed : sources.WellFormed
  stored : ∀ (root : Name) (bundle : Bundle), sources.bundles[root]? = some bundle →
    bundle ∈ store.bundles

theorem layer_new : (new : Sources B).Layer store :=
  ⟨wellFormed_new, by simp [new]⟩

theorem Layer.insertHost {sources sources' : Sources B} (hlayer : sources.Layer store)
    {module : ModuleDeclaration B}
    (hrun : exec (Sources.insertHost module) sources = (.ok (), sources')) :
    sources'.Layer store := by
  refine ⟨hlayer.wellFormed.insert (.host module) hrun, ?_⟩
  obtain ⟨-, rfl⟩ := exec_insertHost_eq_ok_iff.mp hrun
  exact hlayer.stored

theorem Layer.insertNative {sources sources' : Sources B} (hlayer : sources.Layer store)
    {module : NativeModule B}
    (hrun : exec (Sources.insertNative module) sources = (.ok (), sources')) :
    sources'.Layer store := by
  refine ⟨hlayer.wellFormed.insert (.native module) hrun, ?_⟩
  obtain ⟨-, rfl⟩ := exec_insertNative_eq_ok_iff.mp hrun
  exact hlayer.stored

theorem Layer.insertBundle {sources sources' : Sources B} (hlayer : sources.Layer store)
    {bundle : Bundle} (hbundle : bundle ∈ store.bundles)
    (hrun : exec (Sources.insertBundle bundle) sources = (.ok (), sources')) :
    sources'.Layer store := by
  refine ⟨hlayer.wellFormed.insert (.bundle bundle) hrun, ?_⟩
  obtain ⟨-, rfl⟩ := exec_insertBundle_eq_ok_iff.mp hrun
  intro root owner howner
  rw [Tables.getElem?_insertMany_map] at howner
  split at howner
  · obtain rfl : bundle = owner := Option.some.inj howner
    exact hbundle
  · exact hlayer.stored root owner howner

/-- The layer already holds the bundle wherever it knows a name below one of its roots. -/
theorem Layer.owner_eq {sources : Sources B} (hlayer : sources.Layer store) {bundle owner : Bundle}
    (hbundle : bundle ∈ store.bundles) (hcheck : sources.checkBundle bundle = .ok ()) {root : Name}
    (hroot : root ∈ bundle.roots) (howner : sources.bundles[root]? = some owner) :
    owner = bundle := by
  rcases checkRoot_eq_ok_iff.mp (checkBundle_eq_ok_iff.mp hcheck root hroot) with
    ⟨owner', howner', hid⟩ | ⟨hnone, -⟩
  · obtain rfl : owner = owner' := Option.some.inj (howner.symm.trans howner')
    exact BundleStore.eq_of_id_eq (hlayer.stored root owner howner) hbundle hid
  · rw [hnone] at howner
    cases howner

theorem bundle_eq_some_iff {sources : Sources B} {name : Name} {bundle : Bundle} :
    sources.bundle name = some bundle ↔
      sources.bundles[ModuleName.root name]? = some bundle ∧ bundle.contains name = true :=
  Option.filter_eq_some_iff

theorem canonical_eq_some_iff {sources : Sources B} {name canonical : Name} :
    sources.canonical name = some canonical ↔
      ((name ∈ sources.modules ∨ ∃ bundle, sources.bundle name = some bundle) ∧ name = canonical) ∨
        ((name ∉ sources.modules ∧ sources.bundle name = none) ∧
          sources.aliases[name]? = some canonical) := by
  simp only [Sources.canonical, Sources.«alias», ← Std.ExtTreeMap.contains_iff_mem]
  cases sources.modules.contains name <;> cases sources.bundle name <;> simp

theorem canonical_eq_none_iff {sources : Sources B} {name : Name} :
    sources.canonical name = none ↔
      name ∉ sources.modules ∧ sources.bundle name = none ∧ sources.aliases[name]? = none := by
  simp only [Sources.canonical, Sources.«alias», ← Std.ExtTreeMap.contains_iff_mem]
  cases sources.modules.contains name <;> cases sources.bundle name <;> simp

variable {sources : Sources B} {bundle : Bundle}

/-- Below a root of a bundle that passes the check, a layer answers with that bundle only. -/
theorem Layer.canonical_of_root_mem (hlayer : sources.Layer store) (hbundle : bundle ∈ store.bundles)
    (hcheck : sources.checkBundle bundle = .ok ()) {name canonical : Name}
    (hroot : ModuleName.root name ∈ bundle.roots)
    (hcanonical : sources.canonical name = some canonical) :
    name = canonical ∧ sources.bundles[ModuleName.root name]? = some bundle := by
  have hfree : ¬ (name ∈ sources.modules ∨ name ∈ sources.aliases) := fun hname =>
    hlayer.wellFormed.not_isWithin_of_checkRoot (checkBundle_eq_ok_iff.mp hcheck _ hroot)
      (ModuleName.root_root name) hname rfl
  rw [not_or] at hfree
  rcases canonical_eq_some_iff.mp hcanonical with ⟨hmodule | ⟨owner, howner⟩, hname⟩ | ⟨-, halias⟩
  · exact absurd hmodule hfree.1
  · rw [bundle_eq_some_iff] at howner
    obtain rfl := hlayer.owner_eq hbundle hcheck hroot howner.1
    exact ⟨hname, howner.1⟩
  · exact absurd (Tables.mem_iff_exists.mpr ⟨_, halias⟩) hfree.2

theorem Layer.find_of_root_mem (hlayer : sources.Layer store) (hbundle : bundle ∈ store.bundles)
    (hcheck : sources.checkBundle bundle = .ok ()) {name : Name} {source : ModuleSource B}
    (hroot : ModuleName.root name ∈ bundle.roots) (hfind : sources.find name = some source) :
    source = .bundle bundle := by
  have hfree : name ∉ sources.modules := fun hname =>
    hlayer.wellFormed.not_isWithin_of_checkRoot (checkBundle_eq_ok_iff.mp hcheck _ hroot)
      (ModuleName.root_root name) (Or.inl hname) rfl
  rw [Sources.find, Std.ExtTreeMap.getElem?_eq_none hfree, Option.none_or, Option.map_eq_some_iff]
    at hfind
  obtain ⟨owner, howner, rfl⟩ := hfind
  rw [bundle_eq_some_iff] at howner
  rw [hlayer.owner_eq hbundle hcheck hroot howner.1]

theorem bundle_insertMany (sources : Sources B) (bundle : Bundle) (name : Name) :
    Sources.bundle { sources with
        bundles := sources.bundles.insertMany (bundle.roots.map fun root => (root, bundle)) } name =
      if ModuleName.root name ∈ bundle.roots then
        (some bundle).filter fun bundle => bundle.contains name
      else sources.bundle name := by
  simp only [Sources.bundle, Tables.getElem?_insertMany_map]
  split <;> rfl

variable {sources' : Sources B}

/-- What a table knew before it took a bundle, it knows unchanged. -/
theorem Layer.bundle_insertBundle (hlayer : sources.Layer store) (hbundle : bundle ∈ store.bundles)
    (hrun : exec (Sources.insertBundle bundle) sources = (.ok (), sources')) {name : Name}
    {owner : Bundle} (howner : sources.bundle name = some owner) :
    sources'.bundle name = some owner := by
  obtain ⟨hcheck, rfl⟩ := exec_insertBundle_eq_ok_iff.mp hrun
  rw [bundle_insertMany]
  split
  · next hroot =>
      rw [bundle_eq_some_iff] at howner
      obtain rfl := hlayer.owner_eq hbundle hcheck hroot howner.1
      rw [Option.filter_some, if_pos howner.2]
  · exact howner

theorem Layer.canonical_insertBundle (hlayer : sources.Layer store)
    (hbundle : bundle ∈ store.bundles)
    (hrun : exec (Sources.insertBundle bundle) sources = (.ok (), sources')) {name canonical : Name}
    (hcanonical : sources.canonical name = some canonical) :
    sources'.canonical name = some canonical := by
  obtain ⟨hcheck, rfl⟩ := exec_insertBundle_eq_ok_iff.mp hrun
  rw [canonical_eq_some_iff] at hcanonical ⊢
  rcases hcanonical with ⟨hmodule | ⟨owner, howner⟩, hname⟩ | ⟨⟨hmodule, hnone⟩, halias⟩
  · exact Or.inl ⟨Or.inl hmodule, hname⟩
  · exact Or.inl ⟨Or.inr ⟨owner, hlayer.bundle_insertBundle hbundle hrun howner⟩, hname⟩
  · refine Or.inr ⟨⟨hmodule, ?_⟩, halias⟩
    have hroot : ModuleName.root name ∉ bundle.roots := fun hroot =>
      hlayer.wellFormed.not_isWithin_of_checkRoot (checkBundle_eq_ok_iff.mp hcheck _ hroot)
        (ModuleName.root_root name) (Or.inr (Tables.mem_iff_exists.mpr ⟨_, halias⟩)) rfl
    rw [bundle_insertMany, if_neg hroot, hnone]

theorem Layer.find_insertBundle (hlayer : sources.Layer store) (hbundle : bundle ∈ store.bundles)
    (hrun : exec (Sources.insertBundle bundle) sources = (.ok (), sources')) {name : Name}
    {source : ModuleSource B} (hfind : sources.find name = some source) :
    sources'.find name = some source := by
  obtain ⟨-, rfl⟩ := exec_insertBundle_eq_ok_iff.mp hrun
  rw [Sources.find, Option.or_eq_some_iff, Option.map_eq_some_iff] at hfind ⊢
  refine hfind.imp_right ?_
  rintro ⟨hnone, owner, howner, hsource⟩
  exact ⟨hnone, owner, hlayer.bundle_insertBundle hbundle hrun howner, hsource⟩

theorem contains_of_bundle_eq_none
    (hrun : exec (Sources.insertBundle bundle) sources = (.ok (), sources')) {name : Name}
    {owner : Bundle} (hbefore : sources.bundle name = none)
    (hafter : sources'.bundle name = some owner) :
    ModuleName.root name ∈ bundle.roots ∧ bundle.contains name = true ∧ owner = bundle := by
  obtain ⟨-, rfl⟩ := exec_insertBundle_eq_ok_iff.mp hrun
  rw [bundle_insertMany] at hafter
  split at hafter
  · next hroot =>
      obtain ⟨howner, hcontains⟩ := Option.filter_eq_some_iff.mp hafter
      obtain rfl : bundle = owner := Option.some.inj howner
      exact ⟨hroot, hcontains, rfl⟩
  · rw [hbefore] at hafter
    cases hafter

theorem contains_of_canonical_eq_none
    (hrun : exec (Sources.insertBundle bundle) sources = (.ok (), sources')) {name canonical : Name}
    (hbefore : sources.canonical name = none) (hafter : sources'.canonical name = some canonical) :
    ModuleName.root name ∈ bundle.roots ∧ bundle.contains name = true ∧ name = canonical := by
  obtain ⟨-, rfl⟩ := exec_insertBundle_eq_ok_iff.mp hrun
  obtain ⟨hmodule, hnone, halias⟩ := canonical_eq_none_iff.mp hbefore
  rcases canonical_eq_some_iff.mp hafter with ⟨hknown | ⟨owner, howner⟩, hname⟩ | ⟨-, hknown⟩
  · exact absurd hknown hmodule
  · obtain ⟨hroot, hcontains, -⟩ := contains_of_bundle_eq_none hrun hnone howner
    exact ⟨hroot, hcontains, hname⟩
  · exact absurd (halias.symm.trans hknown) (by simp)

theorem contains_of_find_eq_none
    (hrun : exec (Sources.insertBundle bundle) sources = (.ok (), sources')) {name : Name}
    {source : ModuleSource B} (hbefore : sources.find name = none)
    (hafter : sources'.find name = some source) :
    ModuleName.root name ∈ bundle.roots ∧ source = .bundle bundle := by
  obtain ⟨-, rfl⟩ := exec_insertBundle_eq_ok_iff.mp hrun
  rw [Sources.find, Option.or_eq_none_iff, Option.map_eq_none_iff] at hbefore
  rw [Sources.find, hbefore.1, Option.none_or, Option.map_eq_some_iff] at hafter
  obtain ⟨owner, howner, rfl⟩ := hafter
  obtain ⟨hroot, -, rfl⟩ := contains_of_bundle_eq_none hrun hbefore.2 howner
  exact ⟨hroot, rfl⟩

end Sources

theorem Catalog.Built.layer {B : Backend} {store : BundleStore} {catalog : Catalog B}
    (hbuilt : catalog.Built store) : catalog.sources.Layer store := by
  have hextend : ∀ {catalog extended : Catalog B} {insertion : Fallible (Sources B) Error Unit},
      catalog.extend insertion = .ok extended →
        exec insertion catalog.sources = (.ok (), extended.sources) := by
    intro catalog extended insertion hok
    unfold Catalog.extend at hok
    split at hok
    · next sources hrun =>
        obtain rfl := Except.ok.inj hok
        exact hrun
    · cases hok
  induction hbuilt with
  | new => exact Sources.layer_new
  | host library _ hok ih =>
      exact forM_invariant (fun _ _ _ _ hlayer hrun => hlayer.insertHost hrun) ih (hextend hok)
  | native library _ hok ih =>
      exact forM_invariant (fun _ _ _ _ hlayer hrun => hlayer.insertNative hrun) ih (hextend hok)
  | bundle bundle _ hok ih => exact ih.insertBundle bundle.2 (hextend hok)
  | deny name _ ih => exact ih

namespace GuestBindings

variable {B : Backend} {store : BundleStore}

structure Layered (store : BundleStore) (bindings : GuestBindings B) : Prop where
  runtime : bindings.runtime.sources.Layer store
  guest : bindings.guest.sources.Layer store
  mounted : bindings.mounted.Layer store

theorem exec_mount_eq_ok_iff {bundle : Bundle} {bindings bindings' : GuestBindings B} :
    exec (mount bundle) bindings = (.ok (), bindings') ↔
      bindings.runtime.sources.checkBundle bundle = .ok () ∧
        bindings.guest.sources.checkBundle bundle = .ok () ∧
          ∃ mounted, exec (Sources.insertBundle bundle) bindings.mounted = (.ok (), mounted) ∧
            bindings' = { bindings with mounted } := by
  simp only [mount, onMounted, exec_check_unit_bind_ok, exec_zoom, Prod.mk.injEq]
  refine and_congr_right fun _ => and_congr_right fun _ => ?_
  constructor
  · rintro ⟨hok, rfl⟩
    exact ⟨_, Prod.ext hok rfl, rfl⟩
  · rintro ⟨mounted, hrun, rfl⟩
    rw [hrun]
    exact ⟨rfl, rfl⟩

theorem atomic_mount (bundle : Bundle) : Atomic (mount (B := B) bundle) := by
  refine (readOnly_check _).atomic_bind fun _ => (readOnly_check _).atomic_bind fun _ => ?_
  exact (Sources.atomic_insertBundle bundle).zoom fun _ => rfl

theorem Layered.mount {bindings bindings' : GuestBindings B} (hlayered : bindings.Layered store)
    {bundle : Bundle} (hbundle : bundle ∈ store.bundles)
    (hrun : exec (GuestBindings.mount bundle) bindings = (.ok (), bindings')) :
    bindings'.Layered store := by
  obtain ⟨-, -, mounted, hinsert, rfl⟩ := exec_mount_eq_ok_iff.mp hrun
  exact ⟨hlayered.runtime, hlayered.guest, hlayered.mounted.insertBundle hbundle hinsert⟩

/-- A lookup through the layers keeps its answer when the first layer keeps its own and agrees with
the others where its answer is new. -/
theorem first_mounted {α : Type} {find : Sources B → Option α} {bindings : GuestBindings B}
    {mounted : Sources B} {a : α}
    (hkept : find bindings.mounted = some a → find mounted = some a)
    (hagree : ∀ a', find bindings.mounted = none → find mounted = some a' →
      find bindings.guest.sources = some a ∨ find bindings.runtime.sources = some a → a' = a)
    (hfirst : bindings.first find = some a) :
    { bindings with mounted }.first find = some a := by
  simp only [first, Option.or_eq_some_iff, Option.or_eq_none_iff] at hfirst ⊢
  rcases hmounted : find bindings.mounted with _ | b
  · simp only [hmounted, reduceCtorEq, false_or, true_and] at hfirst
    rcases hnew : find mounted with _ | a'
    · simpa using hfirst
    · left; left
      refine congrArg some (hagree a' hmounted hnew (hfirst.imp_right And.right))
  · simp only [hmounted, reduceCtorEq, false_and, or_false] at hfirst
    exact Or.inl (Or.inl (hkept (hmounted.trans hfirst)))

theorem first_eq_none_iff {α : Type} {find : Sources B → Option α} {bindings : GuestBindings B} :
    bindings.first find = none ↔ find bindings.mounted = none ∧
      find bindings.guest.sources = none ∧ find bindings.runtime.sources = none := by
  simp [first, and_assoc]

theorem exists_of_first_eq_some {α : Type} {find : Sources B → Option α} {bindings : GuestBindings B}
    {a : α} (hfirst : bindings.first find = some a) : find bindings.mounted = some a ∨
      find bindings.guest.sources = some a ∨ find bindings.runtime.sources = some a := by
  simp only [first, Option.or_eq_some_iff] at hfirst
  tauto

theorem candidate_eq_some_iff {bindings : GuestBindings B} {name located : Name} :
    bindings.candidate name = some located ↔
      bindings.first (fun sources => sources.canonical name) = some located ∨
        (bindings.first (fun sources => sources.canonical name) = none ∧
          bindings.first (fun sources => sources.canonical (name ++ "/index".toList)) =
            some located) := by
  simp only [candidate, List.findSome?_cons, List.findSome?_nil]
  cases bindings.first (fun sources => sources.canonical name) <;>
    cases bindings.first (fun sources => sources.canonical (name ++ "/index".toList)) <;> simp

section

variable {bindings bindings' : GuestBindings B} {bundle : Bundle} {name : Name}

theorem Layered.canonical_mount (hlayered : bindings.Layered store)
    (hbundle : bundle ∈ store.bundles)
    (hrun : exec (GuestBindings.mount bundle) bindings = (.ok (), bindings')) {canonical : Name}
    (hfirst : bindings.first (fun sources => sources.canonical name) = some canonical) :
    bindings'.first (fun sources => sources.canonical name) = some canonical := by
  obtain ⟨hruntime, hguest, mounted, hinsert, rfl⟩ := exec_mount_eq_ok_iff.mp hrun
  refine first_mounted (hlayered.mounted.canonical_insertBundle hbundle hinsert) ?_ hfirst
  intro canonical' hbefore hafter hlower
  obtain ⟨hroot, -, rfl⟩ := Sources.contains_of_canonical_eq_none hinsert hbefore hafter
  rcases hlower with hlower | hlower
  · exact (hlayered.guest.canonical_of_root_mem hbundle hguest hroot hlower).1
  · exact (hlayered.runtime.canonical_of_root_mem hbundle hruntime hroot hlower).1

theorem Layered.source_mount (hlayered : bindings.Layered store)
    (hbundle : bundle ∈ store.bundles)
    (hrun : exec (GuestBindings.mount bundle) bindings = (.ok (), bindings'))
    {source : ModuleSource B} (hsource : bindings.source name = some source) :
    bindings'.source name = some source := by
  obtain ⟨hruntime, hguest, mounted, hinsert, rfl⟩ := exec_mount_eq_ok_iff.mp hrun
  refine first_mounted (hlayered.mounted.find_insertBundle hbundle hinsert) ?_ hsource
  intro source' hbefore hafter hlower
  obtain ⟨hroot, rfl⟩ := Sources.contains_of_find_eq_none hinsert hbefore hafter
  rcases hlower with hlower | hlower
  · exact (hlayered.guest.find_of_root_mem hbundle hguest hroot hlower).symm
  · exact (hlayered.runtime.find_of_root_mem hbundle hruntime hroot hlower).symm

/-- A mount does not put a module in front of one that was found at its `index`: the layer with the
index would hold the mounted bundle, and with it the module. -/
theorem Layered.not_shadowed (hlayered : bindings.Layered store) (hbundle : bundle ∈ store.bundles)
    (hrun : exec (GuestBindings.mount bundle) bindings = (.ok (), bindings')) {located : Name}
    (hnone : bindings.first (fun sources => sources.canonical name) = none)
    (hindex : bindings.first (fun sources => sources.canonical (name ++ "/index".toList)) =
      some located) :
    bindings'.first (fun sources => sources.canonical name) = none := by
  obtain ⟨hruntime, hguest, mounted, hinsert, rfl⟩ := exec_mount_eq_ok_iff.mp hrun
  obtain ⟨hcheck, -⟩ := Sources.exec_insertBundle_eq_ok_iff.mp hinsert
  rw [first_eq_none_iff] at hnone ⊢
  refine ⟨?_, hnone.2⟩
  by_contra hshadow
  obtain ⟨canonical, hcanonical⟩ := Option.ne_none_iff_exists'.mp hshadow
  obtain ⟨hroot, hcontains, -⟩ :=
    Sources.contains_of_canonical_eq_none hinsert hnone.1 hcanonical
  have hknown : ∀ {sources : Sources B}, sources.Layer store → sources.checkBundle bundle = .ok () →
      sources.canonical (name ++ "/index".toList) = some located → sources.canonical name ≠ none := by
    intro sources hlayer hcheck hsome
    have howner := (hlayer.canonical_of_root_mem hbundle hcheck
      (by rwa [ModuleName.root_append_index]) hsome).2
    rw [ModuleName.root_append_index] at howner
    rw [Ne, Sources.canonical_eq_none_iff, Sources.bundle_eq_some_iff.mpr ⟨howner, hcontains⟩]
    simp
  rcases exists_of_first_eq_some hindex with hindex | hindex | hindex
  · exact hknown hlayered.mounted hcheck hindex hnone.1
  · exact hknown hlayered.guest hguest hindex hnone.2.1
  · exact hknown hlayered.runtime hruntime hindex hnone.2.2

theorem Layered.candidate_mount (hlayered : bindings.Layered store)
    (hbundle : bundle ∈ store.bundles)
    (hrun : exec (GuestBindings.mount bundle) bindings = (.ok (), bindings')) {located : Name}
    (hcandidate : bindings.candidate name = some located) :
    bindings'.candidate name = some located := by
  rw [candidate_eq_some_iff] at hcandidate ⊢
  rcases hcandidate with hname | ⟨hnone, hindex⟩
  · exact Or.inl (hlayered.canonical_mount hbundle hrun hname)
  · exact Or.inr ⟨hlayered.not_shadowed hbundle hrun hnone hindex,
      hlayered.canonical_mount hbundle hrun hindex⟩

theorem locate_eq_ok_iff {located : Name} :
    bindings.locate name = .ok located ↔ bindings.candidate name = some located ∧
      bindings.isDenied name = false ∧ bindings.isDenied located = false := by
  unfold locate
  cases bindings.candidate name with
  | none => simp
  | some found =>
      cases hdenied : bindings.isDenied name || bindings.isDenied found with
      | true =>
          simp only [hdenied, reduceCtorEq, false_iff, Option.some.injEq]
          rintro ⟨rfl, hname, hfound⟩
          simp [hname, hfound] at hdenied
      | false =>
          obtain ⟨hname, hfound⟩ := Bool.or_eq_false_iff.mp hdenied
          simp only [hdenied, Except.ok.injEq, Option.some.injEq]
          constructor
          · rintro rfl
            exact ⟨rfl, hname, hfound⟩
          · exact And.left

theorem Layered.locate_mount (hlayered : bindings.Layered store) (hbundle : bundle ∈ store.bundles)
    (hrun : exec (GuestBindings.mount bundle) bindings = (.ok (), bindings')) {located : Name}
    (hlocate : bindings.locate name = .ok located) : bindings'.locate name = .ok located := by
  rw [locate_eq_ok_iff] at hlocate ⊢
  refine ⟨hlayered.candidate_mount hbundle hrun hlocate.1, ?_⟩
  obtain ⟨-, -, mounted, -, rfl⟩ := exec_mount_eq_ok_iff.mp hrun
  exact hlocate.2

end

theorem layered_new {runtime guest : Catalog B} (hruntime : runtime.Built store)
    (hguest : guest.Built store) : (GuestBindings.new runtime guest).Layered store :=
  ⟨hruntime.layer, hguest.layer, Sources.layer_new⟩

/-- An invariant of successful mounts is one of all mounts, since a failed one changes nothing. -/
theorem mountAll_invariant {P : GuestBindings B → Prop} {bindings : GuestBindings B}
    (bundles : List Bundle)
    (hmount : ∀ bundle ∈ bundles, ∀ bindings bindings', P bindings →
      exec (GuestBindings.mount bundle) bindings = (.ok (), bindings') → P bindings')
    (hP : P bindings) : P (bindings.mountAll bundles) := by
  induction bundles generalizing bindings with
  | nil => exact hP
  | cons bundle bundles ih =>
      rw [mountAll, List.foldl_cons]
      refine ih (fun other hother => hmount other (List.mem_cons_of_mem _ hother)) ?_
      rcases hrun : exec (GuestBindings.mount bundle) bindings with ⟨result, bindings'⟩
      cases result with
      | ok _ => exact hmount bundle List.mem_cons_self bindings bindings' hP hrun
      | error error =>
          have hsame := atomic_mount bundle bindings error (by rw [hrun])
          rw [hrun] at hsame
          exact hsame ▸ hP

theorem mem_bundles_of_mem_map {bundles : List store.Handle} {bundle : Bundle}
    (hbundle : bundle ∈ bundles.map Subtype.val) : bundle ∈ store.bundles := by
  obtain ⟨handle, -, rfl⟩ := List.mem_map.mp hbundle
  exact handle.2

/-- **Mounts do not move what resolves.** On any runtime and guest catalogs, a name that locates
after some mounts locates at the same canonical name, with the same source, after any further
mounts; and a mount that fails leaves what every name resolves to. -/
theorem mountAll_locate {runtime guest : Catalog B} (hruntime : runtime.Built store)
    (hguest : guest.Built store) (earlier later : List store.Handle) :
    let bindings := (GuestBindings.new runtime guest).mountAll (earlier.map Subtype.val)
    let bindings' := bindings.mountAll (later.map Subtype.val)
    (∀ name located source, bindings.locate name = .ok located →
      bindings.source located = some source →
        bindings'.locate name = .ok located ∧ bindings'.source located = some source) ∧
    (∀ bundle error, (exec (GuestBindings.mount bundle) bindings).1 = .error error →
      ∀ name, (exec (GuestBindings.mount bundle) bindings).2.locate name = bindings.locate name ∧
        (exec (GuestBindings.mount bundle) bindings).2.source name = bindings.source name) := by
  have hlayered : ((GuestBindings.new runtime guest).mountAll
      (earlier.map Subtype.val)).Layered store :=
    mountAll_invariant _
      (fun _ hbundle _ _ h hrun => h.mount (mem_bundles_of_mem_map hbundle) hrun)
      (layered_new hruntime hguest)
  refine ⟨fun name located source hlocate hsource => ?_, fun bundle error herror name => ?_⟩
  · have hkept := mountAll_invariant (later.map Subtype.val)
      (P := fun bindings => bindings.Layered store ∧ bindings.locate name = .ok located ∧
        bindings.source located = some source)
      (fun bundle hmem _ _ h hrun =>
        have hbundle := mem_bundles_of_mem_map hmem
        ⟨h.1.mount hbundle hrun, h.1.locate_mount hbundle hrun h.2.1,
          h.1.source_mount hbundle hrun h.2.2⟩)
      ⟨hlayered, hlocate, hsource⟩
    exact hkept.2
  · rw [atomic_mount bundle _ error herror]
    exact ⟨rfl, rfl⟩

section

def fs : NativeModule ⟨Unit, Unit⟩ := (NativeModule.new "fs".toList ()).alias "node:fs".toList

def fsCatalog : Catalog ⟨Unit, Unit⟩ := ⟨(exec (Sources.insertNative fs) .new).2, .new⟩

def pluginStore : BundleStore :=
  (BundleStore.empty.build (.ofList [("plugin/index".toList, "")]) ∅).build
    (.ofList [("fs/promises".toList, "")]) ∅

def plugin : pluginStore.Handle :=
  ⟨⟨1, .ofList [("plugin/index".toList, "")], ∅⟩, .tail _ (.head _)⟩

def promises : pluginStore.Handle :=
  ⟨⟨2, .ofList [("fs/promises".toList, "")], ∅⟩, .head _⟩

/-- A refused mount and a repeated one leave the plugin where the first mount put it. -/
theorem mountAll_locate_plugin :
    let bindings := (GuestBindings.new fsCatalog .new).mountAll [plugin.1]
    (bindings.mountAll [promises.1, plugin.1]).locate "plugin".toList =
      .ok "plugin/index".toList :=
  ((mountAll_locate (.native [fs] .new rfl) .new [plugin] [promises, plugin]).1 "plugin".toList
    "plugin/index".toList (.bundle plugin.1) rfl rfl).1

example : (exec (GuestBindings.mount promises.1) (.new fsCatalog .new)).1 =
    .error (.importing "fs" "the root is already in use") := by decide

end

end GuestBindings

end GuestJs
