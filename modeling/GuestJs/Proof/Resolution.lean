import GuestJs.Imports.Resolver
import GuestJs.Proof.MountStability

/-!
# What a request reaches

A located name is loaded by a second lookup, over the same layers. The two agree on every name but
those the guest's own catalog has as aliases: there the alias stands in front of the module the
runtime has under that name. A denial is compared with the name that was asked for and with the name
it located, and with nothing else.
-/

namespace GuestJs

open Fallible

namespace Sources

variable {B : Backend} {sources : Sources B} {name canonical : Name}

def Has (sources : Sources B) (name : Name) : Prop :=
  name ∈ sources.modules ∨ ∃ bundle, sources.bundle name = some bundle

theorem find_isSome_iff : (sources.find name).isSome ↔ sources.Has name := by
  rw [find, Has, Std.ExtTreeMap.mem_iff_isSome_getElem?, Option.isSome_or, Bool.or_eq_true,
    Option.isSome_map, Option.isSome_iff_exists (x := sources.bundle name)]

theorem canonical_of_has (hhas : sources.Has name) : sources.canonical name = some name :=
  canonical_eq_some_iff.mpr (Or.inl ⟨hhas, rfl⟩)

theorem canonical_of_not_has (hnot : ¬ sources.Has name) :
    sources.canonical name = sources.alias name := by
  obtain ⟨hmodule, hbundle⟩ := not_or.mp hnot
  have hcontains : sources.modules.contains name = false := by
    rwa [← Std.ExtTreeMap.contains_iff_mem, Bool.not_eq_true] at hmodule
  have hnone : sources.bundle name = none :=
    Option.eq_none_iff_forall_ne_some.mpr (not_exists.mp hbundle)
  simp only [canonical, hcontains, hnone, Option.isSome_none, Bool.or_self]

/-- A canonical name is one the table has: an alias targets a module of its own table. -/
theorem WellFormed.has_canonical (hwf : sources.WellFormed)
    (hcanonical : sources.canonical name = some canonical) : sources.Has canonical := by
  rcases canonical_eq_some_iff.mp hcanonical with ⟨hhas, rfl⟩ | ⟨-, halias⟩
  · exact hhas
  · exact Or.inl (hwf.targets name canonical halias)

theorem WellFormed.not_has_alias (hwf : sources.WellFormed) (halias : name ∈ sources.aliases) :
    ¬ sources.Has name := by
  rintro (hmodule | ⟨bundle, hbundle⟩)
  · exact hwf.aliases_modules name halias hmodule
  · obtain ⟨hroot, -⟩ := bundle_eq_some_iff.mp hbundle
    exact hwf.aliases_bundles name halias (Tables.mem_iff_exists.mpr ⟨bundle, hroot⟩)

end Sources

namespace GuestBindings

variable {B : Backend} {bindings : GuestBindings B} {name located : Name}

/-- The tables of a guest: each is well formed, the mounted one holds bundles only, and none of its
roots is one of an alias of the guest. -/
structure Coherent (bindings : GuestBindings B) : Prop where
  runtime : bindings.runtime.sources.WellFormed
  guest : bindings.guest.sources.WellFormed
  mounted : bindings.mounted.WellFormed
  mounted_modules : ∀ name, name ∉ bindings.mounted.modules
  mounted_aliases : ∀ name, name ∉ bindings.mounted.aliases
  guest_aliases : ∀ name ∈ bindings.guest.sources.aliases,
    ModuleName.root name ∉ bindings.mounted.bundles

theorem Coherent.mount (hcoherent : bindings.Coherent) {bundle : Bundle}
    {bindings' : GuestBindings B}
    (hrun : exec (GuestBindings.mount bundle) bindings = (.ok (), bindings')) :
    bindings'.Coherent := by
  obtain ⟨-, hguest, mounted, hinsert, rfl⟩ := exec_mount_eq_ok_iff.mp hrun
  have hwf := hcoherent.mounted.insert (.bundle bundle) hinsert
  obtain ⟨-, rfl⟩ := Sources.exec_insertBundle_eq_ok_iff.mp hinsert
  refine ⟨hcoherent.runtime, hcoherent.guest, hwf, hcoherent.mounted_modules,
    hcoherent.mounted_aliases, ?_⟩
  intro name halias
  rw [Tables.mem_insertMany_map, not_or]
  refine ⟨fun hroot => ?_, hcoherent.guest_aliases name halias⟩
  have hcheck := Sources.checkBundle_eq_ok_iff.mp hguest _ hroot
  exact hcoherent.guest.not_isWithin_of_checkRoot hcheck (ModuleName.root_root name)
    (Or.inr halias) rfl

theorem Coherent.mountAll (hcoherent : bindings.Coherent) (bundles : List Bundle) :
    (bindings.mountAll bundles).Coherent :=
  mountAll_invariant bundles (fun _ _ _ _ h hrun => h.mount hrun) hcoherent

theorem coherent_new {runtime guest : Catalog B} (hruntime : runtime.sources.WellFormed)
    (hguest : guest.sources.WellFormed) : (GuestBindings.new runtime guest).Coherent where
  runtime := hruntime
  guest := hguest
  mounted := Sources.wellFormed_new
  mounted_modules := by simp [GuestBindings.new, Sources.new]
  mounted_aliases := by simp [GuestBindings.new, Sources.new]
  guest_aliases := by simp [GuestBindings.new, Sources.new]

def Has (bindings : GuestBindings B) (name : Name) : Prop :=
  bindings.mounted.Has name ∨ bindings.guest.sources.Has name ∨ bindings.runtime.sources.Has name

theorem source_isSome_iff : (bindings.source name).isSome ↔ bindings.Has name := by
  simp only [source, first, Option.isSome_or, Bool.or_eq_true, Sources.find_isSome_iff, Has,
    or_assoc]

theorem Coherent.has_of_candidate (hcoherent : bindings.Coherent)
    (hcandidate : bindings.candidate name = some located) : bindings.Has located := by
  have hlayer : ∀ {name}, bindings.first (fun sources => sources.canonical name) = some located →
      bindings.Has located := by
    intro name hfirst
    rcases exists_of_first_eq_some hfirst with hmounted | hguest | hruntime
    · exact Or.inl (hcoherent.mounted.has_canonical hmounted)
    · exact Or.inr (Or.inl (hcoherent.guest.has_canonical hguest))
    · exact Or.inr (Or.inr (hcoherent.runtime.has_canonical hruntime))
  rcases candidate_eq_some_iff.mp hcandidate with hname | ⟨-, hindex⟩
  · exact hlayer hname
  · exact hlayer hindex

theorem Coherent.canonical_mounted (hcoherent : bindings.Coherent)
    (hnot : ¬ bindings.mounted.Has name) : bindings.mounted.canonical name = none := by
  rw [Sources.canonical_of_not_has hnot]
  exact Std.ExtTreeMap.getElem?_eq_none (hcoherent.mounted_aliases name)

theorem candidate_of_first {canonical : Name}
    (hfirst : bindings.first (fun sources => sources.canonical name) = some canonical) :
    bindings.candidate name = some canonical :=
  candidate_eq_some_iff.mpr (Or.inl hfirst)

/-- Only an alias of the guest stands in front of a module: the mounted layer has no aliases, and
behind the runtime's there is no layer. -/
theorem Coherent.candidate_of_has (hcoherent : bindings.Coherent) (hhas : bindings.Has name)
    (halias : bindings.guest.sources.alias name = none) : bindings.candidate name = some name := by
  apply candidate_of_first
  by_cases hmounted : bindings.mounted.Has name
  · simp only [first, Sources.canonical_of_has hmounted, Option.some_or]
  · have hnone := hcoherent.canonical_mounted hmounted
    by_cases hguest : bindings.guest.sources.Has name
    · simp only [first, hnone, Sources.canonical_of_has hguest, Option.none_or, Option.some_or]
    · have hruntime : bindings.runtime.sources.Has name :=
        (hhas.resolve_left hmounted).resolve_left hguest
      simp only [first, hnone, Sources.canonical_of_not_has hguest, halias,
        Sources.canonical_of_has hruntime, Option.none_or]

theorem Coherent.candidate_of_alias (hcoherent : bindings.Coherent) {target : Name}
    (halias : bindings.guest.sources.alias name = some target) :
    bindings.candidate name = some target ∧ target ≠ name := by
  have hmem : name ∈ bindings.guest.sources.aliases := Tables.mem_iff_exists.mpr ⟨target, halias⟩
  have hguest := hcoherent.guest.not_has_alias hmem
  have hmounted : ¬ bindings.mounted.Has name := by
    rintro (hmodule | ⟨bundle, hbundle⟩)
    · exact hcoherent.mounted_modules name hmodule
    · obtain ⟨hroot, -⟩ := Sources.bundle_eq_some_iff.mp hbundle
      exact hcoherent.guest_aliases name hmem (Tables.mem_iff_exists.mpr ⟨bundle, hroot⟩)
  constructor
  · apply candidate_of_first
    simp only [first, hcoherent.canonical_mounted hmounted, Sources.canonical_of_not_has hguest,
      halias, Option.none_or, Option.some_or]
  · rintro rfl
    exact hguest (Or.inl (hcoherent.guest.targets target target halias))

/-- **Locating and loading.** In a guest built by insertions and mounts, a name that locates has a
source under the name it located, and that name locates itself exactly when the guest's own catalog
does not have it as an alias. -/
theorem locate_located (runtime guest : List (Insertion B)) (runtimeDenied guestDenied : DeniedNames)
    (bundles : List Bundle) {name located : Name} :
    let bindings := (GuestBindings.new ⟨.insertAll .new runtime, runtimeDenied⟩
      ⟨.insertAll .new guest, guestDenied⟩).mountAll bundles
    bindings.locate name = .ok located →
      (bindings.source located).isSome ∧
        (bindings.locate located = .ok located ↔ bindings.guest.sources.alias located = none) := by
  intro bindings hlocate
  have hcoherent : bindings.Coherent := (coherent_new (Sources.wellFormed_insertAll runtime)
    (Sources.wellFormed_insertAll guest)).mountAll bundles
  obtain ⟨hcandidate, -, hdenied⟩ := locate_eq_ok_iff.mp hlocate
  have hhas := hcoherent.has_of_candidate hcandidate
  refine ⟨source_isSome_iff.mpr hhas, ?_, ?_⟩
  · intro hself
    by_contra halias
    obtain ⟨target, halias⟩ := Option.ne_none_iff_exists'.mp halias
    obtain ⟨htarget, hne⟩ := hcoherent.candidate_of_alias halias
    have heq := htarget.symm.trans (locate_eq_ok_iff.mp hself).1
    exact hne (Option.some.inj heq)
  · intro halias
    exact locate_eq_ok_iff.mpr ⟨hcoherent.candidate_of_has hhas halias, hdenied, hdenied⟩

theorem locate_located_plugin :
    let bindings := (GuestBindings.new ⟨.insertAll .new [.native fs], .new⟩
      ⟨.insertAll .new [], .new⟩).mountAll [plugin.1]
    (bindings.source "plugin/index".toList).isSome ∧
      (bindings.locate "plugin/index".toList = .ok "plugin/index".toList ↔
        bindings.guest.sources.alias "plugin/index".toList = none) :=
  have hlocate : ((GuestBindings.new ⟨.insertAll .new [.native fs], .new⟩
      ⟨.insertAll .new [], .new⟩).mountAll [plugin.1]).locate "plugin".toList =
        .ok "plugin/index".toList := by decide
  locate_located [.native fs] [] .new .new [plugin.1] hlocate

def customFs : NativeModule ⟨Unit, Unit⟩ :=
  (NativeModule.new "custom-fs".toList ()).alias "fs".toList

/-- The runtime's alias leads to a name that the guest's own alias leads away from. -/
theorem locate_customFs :
    let bindings := (GuestBindings.new ⟨.insertAll .new [.native fs], .new⟩
      ⟨.insertAll .new [.native customFs], .new⟩).mountAll []
    bindings.locate "node:fs".toList = .ok "fs".toList ∧
      bindings.locate "fs".toList = .ok "custom-fs".toList := by
  decide

end GuestBindings

namespace DeniedNames

theorem denies_iff {denied : DeniedNames} {name : Name} :
    denied.denies name = true ↔
      ∃ ancestor ∈ denied.names, ModuleName.isWithin name ancestor = true := by
  simp [denies, Std.ExtTreeSet.mem_toList]

end DeniedNames

namespace GuestBindings

variable {B : Backend}

def Denied (bindings : GuestBindings B) (name : Name) : Prop :=
  ∃ denied, (denied ∈ bindings.guest.denied.names ∨ denied ∈ bindings.runtime.denied.names) ∧
    ModuleName.isWithin name denied = true

theorem isDenied_iff {bindings : GuestBindings B} {name : Name} :
    bindings.isDenied name = true ↔ bindings.Denied name := by
  simp only [isDenied, Bool.or_eq_true, DeniedNames.denies_iff, Denied, or_and_right, exists_or]

theorem resolve_eq_ok_iff {bindings : GuestBindings B} {referrer specifier located : Name} :
    bindings.resolve referrer specifier = .ok located ↔
      ∃ name, Resolver.resolve referrer specifier = .ok name ∧
        bindings.candidate name = some located ∧
          ¬ bindings.Denied name ∧ ¬ bindings.Denied located := by
  simp only [← isDenied_iff, Bool.not_eq_true]
  unfold resolve
  cases Resolver.resolve referrer specifier with
  | error error => simp [bind, Except.bind]
  | ok name =>
      simp only [bind, Except.bind, locate_eq_ok_iff, Except.ok.injEq, exists_eq_left']

/-- The engine loads what it was told to load: a request that resolves has a module behind it. -/
theorem Coherent.load_of_resolve {bindings : GuestBindings B} (hcoherent : bindings.Coherent)
    {referrer specifier located : Name}
    (hresolve : bindings.resolve referrer specifier = .ok located) :
    ∃ source, bindings.load located = .ok source := by
  obtain ⟨name, -, hcandidate, -⟩ := resolve_eq_ok_iff.mp hresolve
  have hsource := source_isSome_iff.mpr (hcoherent.has_of_candidate hcandidate)
  obtain ⟨source, hsource⟩ := Option.isSome_iff_exists.mp hsource
  exact ⟨source, by simp only [load, hsource]⟩

/-- **What a denial covers.** A module whose canonical name is denied is reached by no request, on
whatever route; a denied name of any kind refuses the requests that spell it; and a request whose
name and whose module are not denied reaches the module. -/
theorem resolve_denied (bindings : GuestBindings B) (referrer specifier : Name) :
    (∀ located, bindings.Denied located →
      bindings.resolve referrer specifier ≠ .ok located) ∧
    (∀ name, Resolver.resolve referrer specifier = .ok name → bindings.Denied name →
      ∀ located, bindings.resolve referrer specifier ≠ .ok located) ∧
    (∀ name located, Resolver.resolve referrer specifier = .ok name →
      bindings.candidate name = some located → ¬ bindings.Denied name →
        ¬ bindings.Denied located → bindings.resolve referrer specifier = .ok located) := by
  refine ⟨?_, ?_, ?_⟩
  · intro located hdenied hresolve
    obtain ⟨_, _, _, _, hnot⟩ := resolve_eq_ok_iff.mp hresolve
    exact hnot hdenied
  · intro name hname hdenied located hresolve
    obtain ⟨name', hname', _, hnot, _⟩ := resolve_eq_ok_iff.mp hresolve
    obtain rfl : name = name' := Except.ok.inj (hname.symm.trans hname')
    exact hnot hdenied
  · intro name located hname hcandidate hname' hlocated
    exact resolve_eq_ok_iff.mpr ⟨name, hname, hcandidate, hname', hlocated⟩

/-- The alias is denied, the module it stands for is not. -/
theorem resolve_deniedAlias :
    let bindings := GuestBindings.new (fsCatalog.deny "node:fs".toList) .new
    bindings.runtime.sources.alias "node:fs".toList = some "fs".toList ∧
      bindings.isDenied "node:fs".toList = true ∧
        bindings.resolve [] "fs".toList = .ok "fs".toList := by
  decide

end GuestBindings

end GuestJs
