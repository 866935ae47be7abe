import GuestJs.Library.Results
import GuestJs.Proof.BundleFiles
import GuestJs.Proof.Resolution
import Mathlib.Algebra.Ring.Int.Defs

/-!
# Relative names

A bundle names a module by its path and a module asks for another by a path of its own. The resolver
walks the second path on a stack of segments, and drops an extension as the bundle did: so the way
from one file to another leads to the name of the other.
-/

namespace GuestJs

open Fallible

namespace Resolver

variable {specifier : Name} {stack stack' segments base climbed rest : List Name}

/-- How much deeper a segment leads. -/
def rise (segment : Name) : Int :=
  if segment = "..".toList then -1
  else if segment = ".".toList ∨ segment = [] then 0
  else 1

/-- Some prefix of the specifier leads out of the directory it starts in. -/
def ClimbsAbove (referrer specifier : Name) : Prop :=
  ∃ walked, walked <+: specifier.splitOn '/' ∧
    (directory referrer).length + (walked.map rise).sum < 0

/-- The way up from a directory and down to a file. -/
def relative (climbed rest : List Name) : Name :=
  List.intercalate ['/'] ((match climbed with
    | [] => [".".toList]
    | _ :: _ => List.replicate climbed.length "..".toList) ++ rest)

theorem enter_ok {segment : Name} (h : enter specifier stack segment = .ok stack') :
    segment ≠ [] ∧ (stack'.length : Int) = stack.length + rise segment := by
  unfold enter at h
  unfold rise
  split at h
  · next hdot =>
      cases h
      subst hdot
      exact ⟨nofun, by simp⟩
  · next hdot =>
      split at h
      · next hup =>
          split at h
          · cases h
          · next hstack =>
              cases h
              subst hup
              have hpos : stack.length ≠ 0 := by
                simpa using hstack
              refine ⟨nofun, ?_⟩
              rw [if_pos rfl, List.length_dropLast]
              omega
      · next hup =>
          split at h
          · cases h
          · next hempty =>
              cases h
              refine ⟨hempty, ?_⟩
              rw [if_neg hup, if_neg (not_or.mpr ⟨hdot, hempty⟩), List.length_append,
                List.length_singleton]
              omega

theorem exists_enter {segment : Name} (hne : segment ≠ [])
    (hrise : 0 ≤ stack.length + rise segment) : ∃ stack', enter specifier stack segment = .ok stack' := by
  unfold enter
  unfold rise at hrise
  split
  · exact ⟨_, rfl⟩
  · split
    · next hup =>
        rw [if_pos hup] at hrise
        rw [if_neg (by rw [List.isEmpty_iff]; rintro rfl; simp at hrise)]
        exact ⟨_, rfl⟩
    · exact ⟨_, rfl⟩

/-- The walk ends when a segment is empty or the stack has nothing left to pop. -/
theorem exists_foldlM_enter_iff :
    (∃ reached, segments.foldlM (enter specifier) stack = .ok reached) ↔
      [] ∉ segments ∧ ∀ walked, walked <+: segments → 0 ≤ stack.length + (walked.map rise).sum := by
  induction segments generalizing stack with
  | nil =>
      refine iff_of_true ⟨stack, rfl⟩ ⟨List.not_mem_nil, fun walked hwalked => ?_⟩
      rw [List.prefix_nil.mp hwalked]
      simp
  | cons segment segments ih =>
      constructor
      · rintro ⟨reached, hreached⟩
        obtain ⟨stack', hstack', hrest⟩ := Results.foldlM_cons_eq_ok.mp hreached
        obtain ⟨hne, hlength⟩ := enter_ok hstack'
        obtain ⟨hnotMem, hdepth⟩ := ih.mp ⟨reached, hrest⟩
        refine ⟨List.not_mem_cons_of_ne_of_not_mem hne.symm hnotMem, fun walked hwalked => ?_⟩
        obtain rfl | ⟨walked', rfl, hwalked'⟩ := List.prefix_cons_iff.mp hwalked
        · simp
        · have := hdepth walked' hwalked'
          rw [List.map_cons, List.sum_cons]
          omega
      · rintro ⟨hnotMem, hdepth⟩
        obtain ⟨hne, hnotMem⟩ := List.ne_and_not_mem_of_not_mem_cons hnotMem
        have hfirst := hdepth [segment] (List.prefix_cons_iff.mpr (Or.inr ⟨[], rfl, List.nil_prefix⟩))
        rw [List.map_singleton, List.sum_singleton] at hfirst
        have hentered : ∃ stack', enter specifier stack segment = .ok stack' :=
          exists_enter hne.symm hfirst
        obtain ⟨stack', hstack'⟩ := hentered
        have hlength := (enter_ok hstack').2
        obtain ⟨reached, hreached⟩ := (@ih stack').mpr ⟨hnotMem, fun walked hwalked => by
          have hwalk := hdepth (segment :: walked)
            (List.prefix_cons_iff.mpr (Or.inr ⟨walked, rfl, hwalked⟩))
          rw [List.map_cons, List.sum_cons] at hwalk
          omega⟩
        exact ⟨reached, Results.foldlM_cons_eq_ok.mpr ⟨stack', hstack', hreached⟩⟩

theorem foldlM_up :
    (List.replicate climbed.length "..".toList).foldlM (enter specifier) (base ++ climbed) =
      .ok base := by
  induction climbed using List.reverseRecOn with
  | nil => rw [List.append_nil]; rfl
  | append_singleton climbed segment ih =>
      rw [List.length_append, List.length_singleton, List.replicate_succ,
        Results.foldlM_cons_eq_ok]
      refine ⟨base ++ climbed, ?_, ih⟩
      rw [enter, if_neg (by decide), if_pos rfl, ← List.append_assoc, List.dropLast_concat,
        if_neg (by simp)]

theorem foldlM_named (hnamed : ∀ segment ∈ rest, BundlePath.isSegment segment = true) :
    rest.foldlM (enter specifier) stack = .ok (stack ++ rest) := by
  induction rest generalizing stack with
  | nil => rw [List.append_nil]; rfl
  | cons segment rest ih =>
      rw [List.forall_mem_cons] at hnamed
      obtain ⟨hsegment, hrest⟩ := hnamed
      simp only [BundlePath.isSegment, Bool.and_eq_true, decide_eq_true_eq] at hsegment
      obtain ⟨⟨hempty, hdot⟩, hup⟩ := hsegment
      refine Results.foldlM_cons_eq_ok.mpr ⟨stack ++ [segment], ?_, ?_⟩
      · rw [enter, if_neg hdot, if_neg hup, if_neg hempty]
      · rw [ih hrest, List.append_assoc, List.singleton_append]

theorem splitOn_relative (hrest : rest ≠ []) (hclean : ∀ segment ∈ rest, '/' ∉ segment) :
    (relative climbed rest).splitOn '/' = (match climbed with
      | [] => [".".toList]
      | _ :: _ => List.replicate climbed.length "..".toList) ++ rest := by
  refine List.splitOn_intercalate '/' (fun segment hmem => ?_) (by simp [hrest])
  obtain hmem | hmem := List.mem_append.mp hmem
  · cases climbed with
    | nil =>
        obtain rfl := List.mem_singleton.mp hmem
        decide
    | cons =>
        obtain rfl := List.eq_of_mem_replicate hmem
        decide
  · exact hclean segment hmem

/-- A relative specifier is one to the resolver. -/
theorem resolve_relative {referrer : Name} (hrest : rest ≠ []) :
    resolve referrer (relative climbed rest) = join referrer (relative climbed rest) := by
  obtain ⟨segment, rest, rfl⟩ := List.exists_cons_of_ne_nil hrest
  unfold relative
  cases climbed with
  | nil =>
      rw [List.singleton_append, List.intercalate_cons_cons]
      rfl
  | cons up climbed =>
      rw [List.length_cons, List.replicate_succ, List.cons_append]
      obtain ⟨next, others, hnext⟩ := List.exists_cons_of_ne_nil
        (List.append_ne_nil_of_right_ne_nil (List.replicate climbed.length "..".toList)
          (List.cons_ne_nil segment rest))
      rw [hnext, List.intercalate_cons_cons]
      rfl

/-- The way from the directory of a module to a file leads to the name of the file. -/
theorem resolve_relative_path {referrer path name : Name} (hreferrer : referrer ≠ [])
    (hpath : BundlePath.isNamed path = true) (hname : ModuleName.fromPath path = some name)
    (hdirectory : directory referrer = base ++ climbed) (hsplit : path.splitOn '/' = base ++ rest)
    (hrest : rest ≠ []) : resolve referrer (relative climbed rest) = .ok name := by
  have hnamed : ∀ segment ∈ rest, BundlePath.isSegment segment = true := by
    intro segment hmem
    have hall := List.all_eq_true.mp hpath segment (hsplit ▸ List.mem_append_right base hmem)
    exact (Bool.and_eq_true_iff.mp hall).1
  have hclean : ∀ segment ∈ rest, '/' ∉ segment := fun segment hmem =>
    Segments.sep_not_mem_of_mem_splitOn (hsplit ▸ List.mem_append_right base hmem)
  have hwalk : ((relative climbed rest).splitOn '/').foldlM (enter (relative climbed rest))
      (directory referrer) = .ok (path.splitOn '/') := by
    rw [splitOn_relative hrest hclean, List.foldlM_append, hdirectory, hsplit]
    cases climbed with
    | nil =>
        rw [List.append_nil]
        exact foldlM_named hnamed
    | cons up climbed =>
        rw [foldlM_up]
        exact foldlM_named hnamed
  rw [resolve_relative hrest, join, if_neg (by rwa [List.isEmpty_iff]), hwalk]
  show Except.ok ((ModuleName.fromPath (List.intercalate ['/'] (path.splitOn '/'))).getD _) = _
  rw [List.intercalate_splitOn, hname]
  rfl

theorem ne_nil_of_named {referrer : Name}
    (hreferrer : ∀ segment ∈ referrer.splitOn '/', BundlePath.isSegment segment = true) :
    referrer ≠ [] := by
  rintro rfl
  have hempty := hreferrer [] (by simp)
  simp [BundlePath.isSegment] at hempty

/-- A relative specifier fails for an empty segment or for leaving the tree, and for nothing else. -/
theorem exists_resolve_error_iff {referrer : Name} (hreferrer : referrer ≠ [])
    (hrelative : "./".toList <+: specifier ∨ "../".toList <+: specifier) :
    (∃ error, resolve referrer specifier = .error error) ↔
      [] ∈ specifier.splitOn '/' ∨ ClimbsAbove referrer specifier := by
  have hresolve : resolve referrer specifier = join referrer specifier := by
    obtain ⟨rest, rfl⟩ | ⟨rest, rfl⟩ := hrelative <;> rfl
  have hjoin : (∃ name, join referrer specifier = .ok name) ↔ ∃ reached,
      (specifier.splitOn '/').foldlM (enter specifier) (directory referrer) = .ok reached := by
    rw [join, if_neg (by rwa [List.isEmpty_iff])]
    simp only [Results.bind_eq_ok]
    constructor
    · rintro ⟨name, reached, hreached, -⟩
      exact ⟨reached, hreached⟩
    · rintro ⟨reached, hreached⟩
      exact ⟨_, reached, hreached, rfl⟩
  rw [Results.exists_error_iff, hresolve, hjoin, exists_foldlM_enter_iff, ClimbsAbove, not_and_or,
    not_not]
  simp only [not_forall, not_le, exists_prop]

end Resolver

namespace Sources

variable {B : Backend} {sources sources' : Sources B} {bundle : Bundle} {name : Name}

/-- Nothing is bound but the bundle. -/
structure Only (bundle : Bundle) (sources : Sources B) : Prop where
  modules : ∀ name, name ∉ sources.modules
  aliases : ∀ name, name ∉ sources.aliases
  bundles : ∀ (root : Name) owner, sources.bundles[root]? = some owner → owner = bundle

theorem only_new : Only bundle (new : Sources B) := ⟨by simp [new], by simp [new], by simp [new]⟩

theorem Only.checkBundle (honly : Only bundle sources) : sources.checkBundle bundle = .ok () := by
  refine checkBundle_eq_ok_iff.mpr fun root _ => checkRoot_eq_ok_iff.mpr ?_
  cases howner : sources.bundles[root]? with
  | some owner => exact Or.inl ⟨owner, rfl, congrArg Bundle.id (honly.bundles root owner howner)⟩
  | none =>
      refine Or.inr ⟨rfl, fun name hmem => ?_⟩
      exact absurd hmem (not_or.mpr ⟨honly.modules name, honly.aliases name⟩)

theorem Only.insertBundle (honly : Only bundle sources) : ∃ sources',
    exec (Sources.insertBundle bundle) sources = (.ok (), sources') ∧ Only bundle sources' ∧
      ∀ root ∈ bundle.roots, sources'.bundles[root]? = some bundle := by
  refine ⟨_, exec_insertBundle_eq_ok_iff.mpr ⟨honly.checkBundle, rfl⟩,
    ⟨honly.modules, honly.aliases, fun root owner howner => ?_⟩, fun root hroot => ?_⟩
  · rw [Tables.getElem?_insertMany_map] at howner
    split at howner
    · exact (Option.some.inj howner).symm
    · exact honly.bundles root owner howner
  · rw [Tables.getElem?_insertMany_map, if_pos hroot]

theorem has_of_bundles (hcontains : bundle.contains name = true)
    (hroots : ∀ root ∈ bundle.roots, sources.bundles[root]? = some bundle) : sources.Has name :=
  Or.inr ⟨bundle, bundle_eq_some_iff.mpr
    ⟨hroots _ (Bundle.mem_roots.mpr ⟨name, hcontains, rfl⟩), hcontains⟩⟩

theorem Only.insertAll (honly : Only bundle sources) {insertions : List (Insertion B)}
    (hall : ∀ insertion ∈ insertions, insertion = .bundle bundle) :
    Only bundle (sources.insertAll insertions) ∧ (insertions ≠ [] →
      ∀ root ∈ bundle.roots, (sources.insertAll insertions).bundles[root]? = some bundle) := by
  induction insertions using List.reverseRecOn with
  | nil => exact ⟨honly, fun hne => absurd rfl hne⟩
  | append_singleton insertions insertion ih =>
      obtain ⟨hbefore, -⟩ := ih fun other hmem => hall other (List.mem_append_left _ hmem)
      obtain rfl := hall insertion (List.mem_append_right _ List.mem_cons_self)
      obtain ⟨sources', hrun, hafter, hroots⟩ := hbefore.insertBundle
      have hlast : sources.insertAll (insertions ++ [.bundle bundle]) = sources' := by
        rw [Sources.insertAll, List.foldl_append, ← Sources.insertAll]
        exact congrArg Prod.snd hrun
      rw [hlast]
      exact ⟨hafter, fun _ => hroots⟩

end Sources

namespace GuestBindings

variable {B : Backend} {bindings : GuestBindings B} {bundle : Bundle} {name : Name}

theorem mountAll_only (hruntime : bindings.runtime.sources.Only bundle)
    (hguest : bindings.guest.sources.Only bundle) (hmounted : bindings.mounted.Only bundle)
    {bundles : List Bundle} (hall : ∀ other ∈ bundles, other = bundle) :
    (bindings.mountAll bundles).runtime = bindings.runtime ∧
      (bindings.mountAll bundles).guest = bindings.guest ∧
        (bindings.mountAll bundles).mounted.Only bundle ∧ (bundles ≠ [] →
          ∀ root ∈ bundle.roots, (bindings.mountAll bundles).mounted.bundles[root]? = some bundle) := by
  induction bundles using List.reverseRecOn with
  | nil => exact ⟨rfl, rfl, hmounted, fun hne => absurd rfl hne⟩
  | append_singleton bundles other ih =>
      obtain ⟨hsameRuntime, hsameGuest, hbefore, -⟩ :=
        ih fun other hmem => hall other (List.mem_append_left _ hmem)
      obtain rfl := hall other (List.mem_append_right _ List.mem_cons_self)
      obtain ⟨mounted, hrun, hafter, hroots⟩ := hbefore.insertBundle
      have hmount := exec_mount_eq_ok_iff.mpr
        ⟨hsameRuntime ▸ hruntime.checkBundle, hsameGuest ▸ hguest.checkBundle, mounted, hrun, rfl⟩
      have hlast : bindings.mountAll (bundles ++ [other]) =
          { bindings.mountAll bundles with mounted } := by
        rw [mountAll, List.foldl_append, ← mountAll]
        exact congrArg Prod.snd hmount
      rw [hlast]
      exact ⟨hsameRuntime, hsameGuest, hafter, fun _ => hroots⟩

theorem locate_mountAll_only (hcoherent : bindings.Coherent)
    (hruntime : bindings.runtime.sources.Only bundle) (hguest : bindings.guest.sources.Only bundle)
    (hmounted : bindings.mounted.Only bundle) (hdenied : ∀ name, bindings.isDenied name = false)
    {bundles : List Bundle} (hbundles : ∀ other ∈ bundles, other = bundle)
    (hsome : (∀ root ∈ bundle.roots, bindings.runtime.sources.bundles[root]? = some bundle) ∨
      (∀ root ∈ bundle.roots, bindings.guest.sources.bundles[root]? = some bundle) ∨ bundles ≠ [])
    (hcontains : bundle.contains name = true) :
    (bindings.mountAll bundles).locate name = .ok name := by
  have hafter := hcoherent.mountAll bundles
  obtain ⟨hsameRuntime, hsameGuest, -, hrootsMounted⟩ :=
    mountAll_only hruntime hguest hmounted hbundles
  have hhas : (bindings.mountAll bundles).Has name := by
    rcases hsome with hroots | hroots | hne
    · exact Or.inr (Or.inr (hsameRuntime ▸ Sources.has_of_bundles hcontains hroots))
    · exact Or.inr (Or.inl (hsameGuest ▸ Sources.has_of_bundles hcontains hroots))
    · exact Or.inl (Sources.has_of_bundles hcontains (hrootsMounted hne))
  have halias : (bindings.mountAll bundles).guest.sources.alias name = none := by
    rw [hsameGuest]
    exact Std.ExtTreeMap.getElem?_eq_none (hguest.aliases name)
  have hfree : (bindings.mountAll bundles).isDenied name = false := by
    rw [isDenied, hsameRuntime, hsameGuest]
    exact hdenied name
  exact locate_eq_ok_iff.mpr ⟨hafter.candidate_of_has hhas halias, hfree, hfree⟩

/-- A bundle that is the only thing bound gives each of its modules under its name. -/
theorem locate_only {runtime guest : List (Insertion B)} {bundles : List Bundle}
    (hruntime : ∀ insertion ∈ runtime, insertion = .bundle bundle)
    (hguest : ∀ insertion ∈ guest, insertion = .bundle bundle)
    (hbundles : ∀ other ∈ bundles, other = bundle)
    (hsome : runtime ≠ [] ∨ guest ≠ [] ∨ bundles ≠ []) (hcontains : bundle.contains name = true) :
    ((GuestBindings.new ⟨.insertAll .new runtime, .new⟩ ⟨.insertAll .new guest, .new⟩).mountAll
      bundles).locate name = .ok name := by
  obtain ⟨honlyRuntime, hrootsRuntime⟩ := Sources.only_new.insertAll hruntime
  obtain ⟨honlyGuest, hrootsGuest⟩ := Sources.only_new.insertAll hguest
  have hcoherent : (GuestBindings.new (B := B) ⟨.insertAll .new runtime, .new⟩
      ⟨.insertAll .new guest, .new⟩).Coherent :=
    coherent_new (Sources.wellFormed_insertAll runtime) (Sources.wellFormed_insertAll guest)
  refine locate_mountAll_only hcoherent honlyRuntime honlyGuest Sources.only_new (fun _ => rfl)
    hbundles ?_ hcontains
  exact hsome.imp hrootsRuntime (Or.imp_left hrootsGuest)

end GuestBindings

theorem Bundle.contains_of_fromFiles {toolchain : Toolchain} {files : List (Name × List UInt8)}
    {id : BundleId} {bundle : Bundle} {path name : Name} {contents : List UInt8}
    (hbundle : Bundle.fromFiles toolchain files id = .ok bundle) (hmem : (path, contents) ∈ files)
    (hname : ModuleName.fromPath path = some name) : bundle.contains name = true := by
  obtain ⟨haccepted, -, -, hcontains⟩ := Bundle.fromFiles_ok_iff.mp hbundle
  rw [Bundle.contains, ← Std.ExtTreeMap.mem_iff_contains, hcontains.mem_modules haccepted]
  exact mem_moduleNames.mpr ⟨(path, contents), hmem, hname⟩

/-- **Relative resolution and bundle naming agree.** From any module, the relative specifier of a
file leads to the name its bundle has it under, and the name locates where the bundle is all there
is; a relative specifier fails only for an empty segment or for climbing out of its tree. -/
theorem relative_names (B : Backend) :
    (∀ (path name referrer : Name) (base climbed rest : List Name),
      BundlePath.isNamed path = true → ModuleName.fromPath path = some name →
      (∀ segment ∈ referrer.splitOn '/', BundlePath.isSegment segment = true) →
      Resolver.directory referrer = base ++ climbed → path.splitOn '/' = base ++ rest → rest ≠ [] →
        Resolver.resolve referrer (Resolver.relative climbed rest) = .ok name) ∧
    (∀ (toolchain : Toolchain) (files : List (Name × List UInt8)) (id : BundleId) (bundle : Bundle)
        (path name : Name) (contents : List UInt8),
      Bundle.fromFiles toolchain files id = .ok bundle → (path, contents) ∈ files →
      ModuleName.fromPath path = some name → bundle.contains name = true) ∧
    (∀ (bundle : Bundle) (name : Name) (runtime guest : List (Insertion B)) (bundles : List Bundle),
      bundle.contains name = true → (∀ insertion ∈ runtime, insertion = .bundle bundle) →
      (∀ insertion ∈ guest, insertion = .bundle bundle) → (∀ other ∈ bundles, other = bundle) →
      (runtime ≠ [] ∨ guest ≠ [] ∨ bundles ≠ []) →
        ((GuestBindings.new ⟨.insertAll .new runtime, .new⟩
          ⟨.insertAll .new guest, .new⟩).mountAll bundles).locate name = .ok name) ∧
    ∀ referrer specifier : Name,
      (∀ segment ∈ referrer.splitOn '/', BundlePath.isSegment segment = true) →
      ("./".toList <+: specifier ∨ "../".toList <+: specifier) →
        ((∃ error, Resolver.resolve referrer specifier = .error error) ↔
          [] ∈ specifier.splitOn '/' ∨ Resolver.ClimbsAbove referrer specifier) := by
  refine ⟨?_, ?_, ?_, ?_⟩
  · intro path name referrer base climbed rest hpath hname hreferrer hdirectory hsplit hrest
    exact Resolver.resolve_relative_path (Resolver.ne_nil_of_named hreferrer) hpath hname hdirectory
      hsplit hrest
  · intro toolchain files id bundle path name contents hbundle hmem hname
    exact Bundle.contains_of_fromFiles hbundle hmem hname
  · intro bundle name runtime guest bundles hcontains hruntime hguest hbundles hsome
    exact GuestBindings.locate_only hruntime hguest hbundles hsome hcontains
  · intro referrer specifier hreferrer hrelative
    exact Resolver.exists_resolve_error_iff (Resolver.ne_nil_of_named hreferrer) hrelative

example : Resolver.resolve "plugin/a/main".toList
    (Resolver.relative ["a".toList] ["lib".toList, "util.test.js".toList]) =
      .ok "plugin/lib/util.test".toList := by decide

end GuestJs
