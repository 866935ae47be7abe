import GuestJs.Catalog
import GuestJs.Library.Tables
import Mathlib.Data.Set.Basic

/-!
# Names have one owner

A name of a table is owned by a module, by an alias or by a bundle root it lies within. The checks
compare names in two ways, by first segment and by prefix; they meet at bundle roots, which are
single segments, so a table under insertions stays `WellFormed`: no name has two owners.
-/

namespace GuestJs

open Fallible

inductive Owner where
  | module (name : Name)
  | alias (name : Name)
  | bundle (root : Name)
  deriving DecidableEq

namespace Sources

variable {B : Backend}

/-- A module and an alias own their name, a bundle root the names at or under it. -/
def Owns (sources : Sources B) : Owner → Name → Prop
  | .module own, name => own ∈ sources.modules ∧ name = own
  | .alias own, name => own ∈ sources.aliases ∧ name = own
  | .bundle root, name => root ∈ sources.bundles ∧ ModuleName.isWithin name root = true

structure WellFormed (sources : Sources B) : Prop where
  aliases_modules : ∀ name ∈ sources.aliases, name ∉ sources.modules
  modules_bundles : ∀ name ∈ sources.modules, ModuleName.root name ∉ sources.bundles
  aliases_bundles : ∀ name ∈ sources.aliases, ModuleName.root name ∉ sources.bundles
  targets : ∀ (name target : Name), sources.aliases[name]? = some target → target ∈ sources.modules
  roots : ∀ (root : Name) (bundle : Bundle), sources.bundles[root]? = some bundle → root ∈ bundle.roots

theorem claim_eq_ok_iff {sources : Sources B} {name : Name} :
    sources.claim name = .ok () ↔
      name ∉ sources.modules ∧ name ∉ sources.aliases ∧
        ModuleName.root name ∉ sources.bundles := by
  simp only [claim, ← Std.ExtTreeMap.contains_iff_mem]
  cases sources.modules.contains name <;> cases sources.aliases.contains name <;>
    cases sources.bundles.contains (ModuleName.root name) <;> simp

theorem checkRoot_eq_ok_iff {sources : Sources B} {bundle : Bundle} {root : Name} :
    sources.checkRoot bundle root = .ok () ↔
      (∃ owner, sources.bundles[root]? = some owner ∧ owner.id = bundle.id) ∨
        (sources.bundles[root]? = none ∧ ∀ name, name ∈ sources.modules ∨ name ∈ sources.aliases →
          ModuleName.isWithin name root = false) := by
  unfold checkRoot
  cases hroot : sources.bundles[root]? with
  | some owner => by_cases hid : owner.id = bundle.id <;> simp [hid]
  | none => simp [or_imp, forall_and]

theorem checkBundle_eq_ok_iff {sources : Sources B} {bundle : Bundle} :
    sources.checkBundle bundle = .ok () ↔
      ∀ root ∈ bundle.roots, sources.checkRoot bundle root = .ok () :=
  forM_eq_ok_iff

theorem exec_insertHost_eq_ok_iff {module : ModuleDeclaration B} {sources sources' : Sources B} :
    exec (insertHost module) sources = (.ok (), sources') ↔
      sources.claim module.name = .ok () ∧
        sources' = { sources with
          modules := sources.modules.insert module.name (.host module) } := by
  simp only [insertHost, exec_check_unit_bind_ok, exec_modify_ok]

theorem exec_insertNative_eq_ok_iff {module : NativeModule B} {sources sources' : Sources B} :
    exec (insertNative module) sources = (.ok (), sources') ↔
      (∀ name ∈ module.name :: module.aliases, sources.claim name = .ok ()) ∧
        sources' = { sources with
          aliases := sources.aliases.insertMany
            (module.aliases.map fun added => (added, module.name))
          modules := sources.modules.insert module.name (.native module) } := by
  simp only [insertNative, List.forM_eq_forM, exec_check_unit_bind_ok, exec_forM_check_bind_ok,
    exec_modify_bind, exec_modify_ok, List.forall_mem_cons, and_assoc]

theorem exec_insertBundle_eq_ok_iff {bundle : Bundle} {sources sources' : Sources B} :
    exec (insertBundle bundle) sources = (.ok (), sources') ↔
      sources.checkBundle bundle = .ok () ∧
        sources' = { sources with
          bundles := sources.bundles.insertMany
            (bundle.roots.map fun root => (root, bundle)) } := by
  simp only [insertBundle, exec_check_unit_bind_ok, exec_modify_ok]

theorem atomic_insertHost (module : ModuleDeclaration B) : Atomic (insertHost module) :=
  (readOnly_check _).atomic_bind fun _ => atomic_of_ok fun _ => ⟨_, rfl⟩

theorem atomic_insertNative (module : NativeModule B) : Atomic (insertNative module) := by
  refine (readOnly_check _).atomic_bind fun _ => ?_
  refine (readOnly_forM (fun _ => readOnly_check _) _).atomic_bind fun _ => ?_
  exact atomic_of_ok fun _ => ⟨_, rfl⟩

theorem atomic_insertBundle (bundle : Bundle) : Atomic (insertBundle (B := B) bundle) :=
  (readOnly_check _).atomic_bind fun _ => atomic_of_ok fun _ => ⟨_, rfl⟩

theorem wellFormed_new : (new : Sources B).WellFormed := by
  constructor <;> simp [new]

theorem WellFormed.insert_module {sources : Sources B} (hwf : sources.WellFormed) {name : Name}
    (hclaim : sources.claim name = .ok ()) (source : ModuleSource B) :
    { sources with modules := sources.modules.insert name source }.WellFormed := by
  obtain ⟨-, haliases, hbundles⟩ := claim_eq_ok_iff.mp hclaim
  constructor
  · intro other hother
    rw [Tables.mem_insert, not_or]
    exact ⟨ne_of_mem_of_not_mem hother haliases, hwf.aliases_modules other hother⟩
  · intro other hother
    rcases Tables.mem_insert.mp hother with rfl | hother
    · exact hbundles
    · exact hwf.modules_bundles other hother
  · exact hwf.aliases_bundles
  · intro other target htarget
    exact Tables.mem_insert.mpr (Or.inr (hwf.targets other target htarget))
  · exact hwf.roots

theorem WellFormed.insertNative {sources : Sources B} (hwf : sources.WellFormed)
    (module : NativeModule B)
    (hclaims : ∀ name ∈ module.name :: module.aliases, sources.claim name = .ok ()) :
    { sources with
      aliases := sources.aliases.insertMany (module.aliases.map fun added => (added, module.name))
      modules := sources.modules.insert module.name (.native module) }.WellFormed := by
  rw [List.forall_mem_cons] at hclaims
  obtain ⟨hname, haliases⟩ := hclaims
  have hmodule := hwf.insert_module hname (.native module)
  constructor
  · intro other hother
    rcases Tables.mem_insertMany_map.mp hother with hother | hother
    · rw [Tables.mem_insert, not_or]
      exact ⟨ne_of_mem_of_not_mem hother module.name_notMem,
        (claim_eq_ok_iff.mp (haliases other hother)).1⟩
    · exact hmodule.aliases_modules other hother
  · exact hmodule.modules_bundles
  · intro other hother
    rcases Tables.mem_insertMany_map.mp hother with hother | hother
    · exact (claim_eq_ok_iff.mp (haliases other hother)).2.2
    · exact hmodule.aliases_bundles other hother
  · intro other target htarget
    rw [Tables.getElem?_insertMany_map] at htarget
    split at htarget
    · obtain rfl : module.name = target := Option.some.inj htarget
      exact Tables.mem_insert.mpr (Or.inl rfl)
    · exact hmodule.targets other target htarget
  · exact hmodule.roots

/-- A root that passes its check is at no module and no alias: an owner of the same identity had
passed it before. -/
theorem WellFormed.not_isWithin_of_checkRoot {sources : Sources B} (hwf : sources.WellFormed)
    {bundle : Bundle} {root : Name} (hcheck : sources.checkRoot bundle root = .ok ())
    (hroot : ModuleName.root root = root) {name : Name}
    (hname : name ∈ sources.modules ∨ name ∈ sources.aliases) : ModuleName.root name ≠ root := by
  rcases checkRoot_eq_ok_iff.mp hcheck with ⟨owner, howner, -⟩ | ⟨-, hfree⟩
  · rintro rfl
    have hmem : ModuleName.root name ∈ sources.bundles := Tables.mem_iff_exists.mpr ⟨owner, howner⟩
    rcases hname with hname | hname
    · exact hwf.modules_bundles name hname hmem
    · exact hwf.aliases_bundles name hname hmem
  · intro heq
    have hwithin := hfree name hname
    rw [← hroot, Bool.eq_false_iff, ne_eq, ModuleName.isWithin_root_iff, hroot] at hwithin
    exact hwithin heq

theorem WellFormed.insertBundle {sources : Sources B} (hwf : sources.WellFormed) (bundle : Bundle)
    (hcheck : sources.checkBundle bundle = .ok ()) :
    { sources with
      bundles := sources.bundles.insertMany
        (bundle.roots.map fun root => (root, bundle)) }.WellFormed := by
  have hfree : ∀ name, name ∈ sources.modules ∨ name ∈ sources.aliases →
      ModuleName.root name ∉ bundle.roots := fun name hname hmem =>
    hwf.not_isWithin_of_checkRoot (checkBundle_eq_ok_iff.mp hcheck _ hmem)
      (ModuleName.root_root name) hname rfl
  constructor
  · exact hwf.aliases_modules
  · intro name hname
    rw [Tables.mem_insertMany_map, not_or]
    exact ⟨hfree name (Or.inl hname), hwf.modules_bundles name hname⟩
  · intro name hname
    rw [Tables.mem_insertMany_map, not_or]
    exact ⟨hfree name (Or.inr hname), hwf.aliases_bundles name hname⟩
  · exact hwf.targets
  · intro root owner howner
    rw [Tables.getElem?_insertMany_map] at howner
    split at howner
    · next hmem =>
        obtain rfl : bundle = owner := Option.some.inj howner
        exact hmem
    · exact hwf.roots root owner howner

theorem atomic_insert (insertion : Insertion B) : Atomic insertion.insert := by
  cases insertion with
  | host module => exact atomic_insertHost module
  | native module => exact atomic_insertNative module
  | bundle bundle => exact atomic_insertBundle bundle

/-- An invariant of successful insertions is one of all insertions, since a failed one writes
nothing. -/
theorem insertAll_invariant {P : Sources B → Prop}
    (hinsert : ∀ (insertion : Insertion B) sources sources', P sources →
      exec insertion.insert sources = (.ok (), sources') → P sources')
    {sources : Sources B} (hP : P sources) (insertions : List (Insertion B)) :
    P (sources.insertAll insertions) := by
  induction insertions generalizing sources with
  | nil => exact hP
  | cons insertion insertions ih =>
      rw [insertAll, List.foldl_cons]
      refine ih ?_
      rcases hrun : exec insertion.insert sources with ⟨result, sources'⟩
      cases result with
      | ok _ => exact hinsert insertion sources sources' hP hrun
      | error error =>
          have hsame := atomic_insert insertion sources error (by rw [hrun])
          rw [hrun] at hsame
          exact hsame ▸ hP

theorem WellFormed.insert {sources sources' : Sources B} (hwf : sources.WellFormed)
    (insertion : Insertion B) (hrun : exec insertion.insert sources = (.ok (), sources')) :
    sources'.WellFormed := by
  cases insertion with
  | host module =>
      obtain ⟨hclaim, rfl⟩ := exec_insertHost_eq_ok_iff.mp hrun
      exact hwf.insert_module hclaim (.host module)
  | native module =>
      obtain ⟨hclaims, rfl⟩ := exec_insertNative_eq_ok_iff.mp hrun
      exact hwf.insertNative module hclaims
  | bundle bundle =>
      obtain ⟨hcheck, rfl⟩ := exec_insertBundle_eq_ok_iff.mp hrun
      exact hwf.insertBundle bundle hcheck

theorem wellFormed_insertAll (insertions : List (Insertion B)) :
    (new.insertAll insertions : Sources B).WellFormed :=
  insertAll_invariant (fun insertion _ _ hwf hrun => hwf.insert insertion hrun) wellFormed_new
    insertions

def Holds (sources : Sources B) (bundle : Bundle) : Prop :=
  ∀ root ∈ bundle.roots, ∃ owner, sources.bundles[root]? = some owner ∧ owner.id = bundle.id

theorem holds_of_insertBundle {bundle : Bundle} {sources sources' : Sources B}
    (hrun : exec (insertBundle bundle) sources = (.ok (), sources')) : sources'.Holds bundle := by
  obtain ⟨-, rfl⟩ := exec_insertBundle_eq_ok_iff.mp hrun
  intro root hroot
  exact ⟨bundle, by rw [Tables.getElem?_insertMany_map, if_pos hroot], rfl⟩

/-- A root changes hands only between bundles of one identity. -/
theorem Holds.insert {bundle : Bundle} {insertion : Insertion B} {sources sources' : Sources B}
    (hholds : sources.Holds bundle) (hrun : exec insertion.insert sources = (.ok (), sources')) :
    sources'.Holds bundle := by
  cases insertion with
  | host module =>
      obtain ⟨-, rfl⟩ := exec_insertHost_eq_ok_iff.mp hrun
      exact hholds
  | native module =>
      obtain ⟨-, rfl⟩ := exec_insertNative_eq_ok_iff.mp hrun
      exact hholds
  | bundle added =>
      obtain ⟨hcheck, rfl⟩ := exec_insertBundle_eq_ok_iff.mp hrun
      intro root hroot
      obtain ⟨owner, howner, hid⟩ := hholds root hroot
      simp only [Tables.getElem?_insertMany_map]
      split
      · next hmem =>
          refine ⟨added, rfl, ?_⟩
          rcases checkRoot_eq_ok_iff.mp (checkBundle_eq_ok_iff.mp hcheck root hmem) with
            ⟨owner', howner', hid'⟩ | ⟨hnone, -⟩
          · obtain rfl : owner = owner' := Option.some.inj (howner.symm.trans howner')
            exact hid'.symm.trans hid
          · rw [hnone] at howner
            cases howner
      · exact ⟨owner, howner, hid⟩

theorem WellFormed.root_of_mem_bundles {sources : Sources B} (hwf : sources.WellFormed) {root : Name}
    (hroot : root ∈ sources.bundles) : ModuleName.root root = root := by
  obtain ⟨bundle, hbundle⟩ := Tables.mem_iff_exists.mp hroot
  exact Bundle.root_of_mem_roots (hwf.roots root bundle hbundle)

theorem WellFormed.isWithin_iff {sources : Sources B} (hwf : sources.WellFormed) {name root : Name}
    (hroot : root ∈ sources.bundles) :
    ModuleName.isWithin name root = true ↔ ModuleName.root name = root := by
  rw [← hwf.root_of_mem_bundles hroot, ModuleName.isWithin_root_iff]

theorem WellFormed.owner_unique {sources : Sources B} (hwf : sources.WellFormed)
    {owner owner' : Owner} {name : Name} (howner : sources.Owns owner name)
    (howner' : sources.Owns owner' name) : owner = owner' := by
  have hbundle : ∀ {root}, sources.Owns (.bundle root) name →
      ModuleName.root name = root ∧ ModuleName.root name ∈ sources.bundles := by
    rintro root ⟨hroot, hwithin⟩
    have heq := (hwf.isWithin_iff hroot).mp hwithin
    exact ⟨heq, heq ▸ hroot⟩
  rcases owner with own | own | root <;> rcases owner' with own' | own' | root'
  · exact congrArg Owner.module (howner.2.symm.trans howner'.2)
  · obtain ⟨hmodule, rfl⟩ := howner
    obtain ⟨halias, rfl⟩ := howner'
    exact absurd hmodule (hwf.aliases_modules _ halias)
  · obtain ⟨hmodule, rfl⟩ := howner
    exact absurd (hbundle howner').2 (hwf.modules_bundles _ hmodule)
  · obtain ⟨halias, rfl⟩ := howner
    obtain ⟨hmodule, rfl⟩ := howner'
    exact absurd hmodule (hwf.aliases_modules _ halias)
  · exact congrArg Owner.alias (howner.2.symm.trans howner'.2)
  · obtain ⟨halias, rfl⟩ := howner
    exact absurd (hbundle howner').2 (hwf.aliases_bundles _ halias)
  · obtain ⟨hmodule, rfl⟩ := howner'
    exact absurd (hbundle howner).2 (hwf.modules_bundles _ hmodule)
  · obtain ⟨halias, rfl⟩ := howner'
    exact absurd (hbundle howner).2 (hwf.aliases_bundles _ halias)
  · exact congrArg Owner.bundle ((hbundle howner).1.symm.trans (hbundle howner').1)

/-- **One owner, and all or nothing.** After any insertions into a table, failed ones included, no
name has two owners, every alias targets a module of the table, every root of a bundle whose
insertion succeeded still belongs to a bundle of its identity, and an insertion that fails changes
nothing. -/
theorem insertAll_owners (insertions : List (Insertion B)) :
    let sources : Sources B := new.insertAll insertions
    (∀ owner owner' name, sources.Owns owner name → sources.Owns owner' name → owner = owner') ∧
    (∀ name target : Name, sources.aliases[name]? = some target → target ∈ sources.modules) ∧
    (∀ before bundle after, insertions = before ++ .bundle bundle :: after →
      (exec (insertBundle bundle) (new.insertAll before : Sources B)).1 = .ok () →
      ∀ root ∈ bundle.roots, ∃ owner,
        sources.bundles[root]? = some owner ∧ owner.id = bundle.id) ∧
    (∀ (insertion : Insertion B) error, (exec insertion.insert sources).1 = .error error →
      (exec insertion.insert sources).2 = sources) := by
  have hwf := wellFormed_insertAll insertions
  refine ⟨fun _ _ _ => hwf.owner_unique, hwf.targets, ?_, fun insertion => atomic_insert insertion _⟩
  rintro before bundle after rfl hok
  have hrun : new.insertAll (before ++ .bundle bundle :: after) =
      (exec (insertBundle bundle) (new.insertAll before : Sources B)).2.insertAll after := by
    simp [insertAll, Insertion.insert]
  rw [hrun]
  have hholds := holds_of_insertBundle
    (show exec (insertBundle bundle) (new.insertAll before : Sources B) = (.ok (), _) from
      Prod.ext hok rfl)
  exact insertAll_invariant (fun _ _ _ => Holds.insert) hholds after

end Sources

end GuestJs
