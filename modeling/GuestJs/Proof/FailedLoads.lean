import GuestJs.Imports.GuestModules
import GuestJs.Proof.MountStability

/-!
# Loads that fail

A load that fails before its bundle is mounted changes nothing. One that fails later leaves the
bundle mounted: no name that located moves, and outside the roots of what was mounted no name changes
at all, but the roots belong to that bundle from then on.
-/

namespace GuestJs

open Fallible

namespace Sources

variable {B : Backend} {sources sources' : Sources B} {bundle : Bundle} {name : Name}

/-- Inserting a bundle changes nothing outside its roots. -/
theorem insertBundle_frame (hrun : exec (insertBundle bundle) sources = (.ok (), sources'))
    (hroot : ModuleName.root name ∉ bundle.roots) :
    sources'.canonical name = sources.canonical name ∧ sources'.find name = sources.find name := by
  obtain ⟨-, rfl⟩ := exec_insertBundle_eq_ok_iff.mp hrun
  have hsame := bundle_insertMany sources bundle name
  rw [if_neg hroot] at hsame
  exact ⟨by rw [canonical, hsame]; rfl, by rw [find, hsame]; rfl⟩

end Sources

namespace GuestBindings

variable {B : Backend} {store : BundleStore} {bindings bindings' : GuestBindings B}
  {bundle other : Bundle} {bundles : List Bundle} {name : Name}

theorem mountAll_cons :
    bindings.mountAll (bundle :: bundles) = (exec (mount bundle) bindings).2.mountAll bundles := rfl

/-- What a mount can do: nothing, or the insertion of its bundle in the mounted table. -/
theorem mount_cases (bundle : Bundle) (bindings : GuestBindings B) :
    (∃ error, exec (mount bundle) bindings = (.error error, bindings)) ∨
      ∃ mounted, exec (Sources.insertBundle bundle) bindings.mounted = (.ok (), mounted) ∧
        exec (mount bundle) bindings = (.ok (), { bindings with mounted }) := by
  rcases hrun : exec (mount bundle) bindings with ⟨result, after⟩
  cases result with
  | error error =>
      have hsame := atomic_mount bundle bindings error (by rw [hrun])
      rw [hrun] at hsame
      exact Or.inl ⟨error, by rw [← hsame]⟩
  | ok value =>
      obtain ⟨-, -, mounted, hinsert, rfl⟩ := exec_mount_eq_ok_iff.mp hrun
      exact Or.inr ⟨mounted, hinsert, rfl⟩

/-- A mount changes nothing outside the roots of its bundle. -/
theorem mount_frame (bindings : GuestBindings B) (hroot : ModuleName.root name ∉ bundle.roots) :
    (exec (mount bundle) bindings).2.locate name = bindings.locate name ∧
      (exec (mount bundle) bindings).2.source name = bindings.source name := by
  obtain ⟨error, hrun⟩ | ⟨mounted, hinsert, hrun⟩ := mount_cases bundle bindings
  · rw [hrun]
    exact ⟨rfl, rfl⟩
  · rw [hrun]
    have hname := Sources.insertBundle_frame hinsert hroot
    have hindexRoot : ModuleName.root (name ++ "/index".toList) ∉ bundle.roots := by
      rwa [ModuleName.root_append_index]
    have hindex := Sources.insertBundle_frame hinsert hindexRoot
    constructor
    · have hcandidate : GuestBindings.candidate { bindings with mounted } name =
          bindings.candidate name := by
        simp only [candidate, first, List.findSome?_cons, List.findSome?_nil, hname.1, hindex.1]
      rw [locate, hcandidate]
      rfl
    · simp only [source, first, hname.2]

theorem mountAll_frame (bindings : GuestBindings B)
    (hroots : ∀ bundle ∈ bundles, ModuleName.root name ∉ bundle.roots) :
    (bindings.mountAll bundles).locate name = bindings.locate name ∧
      (bindings.mountAll bundles).source name = bindings.source name := by
  induction bundles generalizing bindings with
  | nil => exact ⟨rfl, rfl⟩
  | cons bundle bundles ih =>
      rw [List.forall_mem_cons] at hroots
      obtain ⟨hlocate, hsource⟩ := ih (exec (mount bundle) bindings).2 hroots.2
      obtain ⟨hlocate', hsource'⟩ := mount_frame bindings hroots.1
      rw [mountAll_cons]
      exact ⟨hlocate.trans hlocate', hsource.trans hsource'⟩

theorem mountAll_catalogs (bindings : GuestBindings B) (bundles : List Bundle) :
    (bindings.mountAll bundles).runtime = bindings.runtime ∧
      (bindings.mountAll bundles).guest = bindings.guest := by
  induction bundles generalizing bindings with
  | nil => exact ⟨rfl, rfl⟩
  | cons bundle bundles ih =>
      rw [mountAll_cons]
      obtain ⟨hruntime, hguest⟩ := ih (exec (mount bundle) bindings).2
      obtain ⟨error, hrun⟩ | ⟨mounted, -, hrun⟩ := mount_cases bundle bindings
      · rw [hrun] at hruntime hguest ⊢
        exact ⟨hruntime, hguest⟩
      · rw [hrun] at hruntime hguest ⊢
        exact ⟨hruntime, hguest⟩

/-- Whoever owns a root keeps it. -/
theorem holds_mountAll (hholds : bindings.mounted.Holds bundle) :
    (bindings.mountAll bundles).mounted.Holds bundle := by
  refine mountAll_invariant (P := fun bindings => bindings.mounted.Holds bundle) bundles
    (fun other _ bindings bindings' hholds hrun => ?_) hholds
  obtain ⟨-, -, mounted, hinsert, rfl⟩ := exec_mount_eq_ok_iff.mp hrun
  have hinserted : exec (Insertion.bundle other).insert bindings.mounted = (.ok (), mounted) := hinsert
  exact hholds.insert hinserted

theorem mount_refused (hholds : bindings.mounted.Holds bundle) (hid : other.id ≠ bundle.id)
    {root : Name} (hroot : root ∈ bundle.roots) (hother : root ∈ other.roots) :
    ∃ error, exec (mount other) bindings = (.error error, bindings) := by
  obtain hrefused | ⟨mounted, hinsert, -⟩ := mount_cases other bindings
  · exact hrefused
  · obtain ⟨hcheck, -⟩ := Sources.exec_insertBundle_eq_ok_iff.mp hinsert
    obtain ⟨owner, howner, howned⟩ := hholds root hroot
    rcases Sources.checkRoot_eq_ok_iff.mp (Sources.checkBundle_eq_ok_iff.mp hcheck root hother) with
      ⟨owner', howner', hid'⟩ | ⟨hnone, -⟩
    · obtain rfl : owner = owner' := Option.some.inj (howner.symm.trans howner')
      exact absurd (hid'.symm.trans howned) hid
    · rw [hnone] at howner
      cases howner

/-- A bundle that is mounted can be mounted again. -/
theorem mount_again (hholds : bindings.mounted.Holds bundle)
    (hruntime : bindings.runtime.sources.checkBundle bundle = .ok ())
    (hguest : bindings.guest.sources.checkBundle bundle = .ok ()) :
    ∃ bindings', exec (mount bundle) bindings = (.ok (), bindings') := by
  have hcheck : bindings.mounted.checkBundle bundle = .ok () := by
    refine Sources.checkBundle_eq_ok_iff.mpr fun root hroot => Sources.checkRoot_eq_ok_iff.mpr ?_
    obtain ⟨owner, howner, hid⟩ := hholds root hroot
    exact Or.inl ⟨owner, howner, hid⟩
  exact ⟨_, exec_mount_eq_ok_iff.mpr ⟨hruntime, hguest, _,
    Sources.exec_insertBundle_eq_ok_iff.mpr ⟨hcheck, rfl⟩, rfl⟩⟩

theorem Layered.mountAll (hlayered : bindings.Layered store) (handles : List store.Handle) :
    (bindings.mountAll (handles.map Subtype.val)).Layered store :=
  mountAll_invariant _ (fun _ hmem _ _ h hrun => h.mount (mem_bundles_of_mem_map hmem) hrun) hlayered

theorem Layered.locate_mountAll (hlayered : bindings.Layered store) (handles : List store.Handle)
    {located : Name} (hlocate : bindings.locate name = .ok located) :
    (bindings.mountAll (handles.map Subtype.val)).locate name = .ok located := by
  have hkept := mountAll_invariant (handles.map Subtype.val)
    (P := fun bindings => bindings.Layered store ∧ bindings.locate name = .ok located)
    (fun _ hmem _ _ h hrun =>
      have hbundle := mem_bundles_of_mem_map hmem
      ⟨h.1.mount hbundle hrun, h.1.locate_mount hbundle hrun h.2⟩)
    ⟨hlayered, hlocate⟩
  exact hkept.2

/-- Mounting a bundle that is mounted changes nothing. -/
theorem Layered.mount_mounted (hlayered : bindings.Layered store) (hbundle : bundle ∈ store.bundles)
    (hholds : bindings.mounted.Holds bundle)
    (hrun : exec (GuestBindings.mount bundle) bindings = (.ok (), bindings')) :
    bindings' = bindings := by
  obtain ⟨-, -, mounted, hinsert, rfl⟩ := exec_mount_eq_ok_iff.mp hrun
  obtain ⟨hcheck, rfl⟩ := Sources.exec_insertBundle_eq_ok_iff.mp hinsert
  have hsame : bindings.mounted.bundles.insertMany (bundle.roots.map fun root => (root, bundle)) =
      bindings.mounted.bundles := by
    refine Std.ExtTreeMap.ext_getElem? fun root => ?_
    rw [Tables.getElem?_insertMany_map]
    split
    · next hroot =>
        obtain ⟨owner, howner, -⟩ := hholds root hroot
        rw [howner, hlayered.mounted.owner_eq hbundle hcheck hroot howner]
    · rfl
  rw [hsame]

end GuestBindings

namespace GuestModules

open GuestBindings

variable {B : Backend} {M : Type} {store : BundleStore} {engine : ModuleEngine store B M}
  {toolchain : Toolchain} {bindings after : GuestBindings B} {error : Error}

/-- What is mounted while an import goes on, whether or not the mounts succeed. -/
def mounts : Importing store B M → GuestBindings B → List store.Handle
  | .done _, _ => []
  | .resolve entry referrer specifier next, bindings =>
      mounts (next (do entry; bindings.resolve referrer specifier)) bindings
  | .load entry name next, bindings => mounts (next (do entry; bindings.load name)) bindings
  | .mount bundle next, bindings =>
      bundle :: mounts (next (exec (mount bundle.1) bindings).1) (exec (mount bundle.1) bindings).2

theorem exec_run (importing : Importing store B M) (bindings : GuestBindings B) :
    (exec importing.run bindings).2 =
      bindings.mountAll ((mounts importing bindings).map Subtype.val) := by
  induction importing generalizing bindings with
  | done result =>
      rw [Importing.run, exec_check]
      rfl
  | resolve entry referrer specifier next ih =>
      rw [Importing.run, exec_bind, exec_attempt, exec_check]
      exact ih _ bindings
  | load entry name next ih =>
      rw [Importing.run, exec_bind, exec_attempt, exec_check]
      exact ih _ bindings
  | mount bundle next ih =>
      rw [Importing.run, exec_bind, exec_attempt]
      exact ih _ (exec (mount bundle.1) bindings).2

/-- An entry leaves behind what is done in it, where the guest is entered. -/
theorem exec_enter {α : Type} (engine : ModuleEngine store B M)
    (body : Fallible (GuestBindings B) Error α) (bindings : GuestBindings B) :
    (exec (engine.enter body) bindings).2 =
      if engine.entry = .ok () then (exec body bindings).2 else bindings := by
  rw [ModuleEngine.enter, exec_bind, exec_check]
  cases engine.entry with
  | error error => rfl
  | ok admitted =>
      rw [if_pos rfl]
      dsimp only
      rw [exec_bind, exec_attempt]
      dsimp only
      rw [exec_check]

/-- What the code an import evaluates mounts. -/
def nested (engine : ModuleEngine store B M) (name : Name) (bindings : GuestBindings B) :
    List store.Handle :=
  match engine.entry, Resolver.resolve [] name with
  | .ok (), .ok specifier => mounts (engine.import specifier) bindings
  | _, _ => []

theorem exec_import (engine : ModuleEngine store B M) (name : Name) (bindings : GuestBindings B) :
    (exec («import» engine name) bindings).2 =
      bindings.mountAll ((nested engine name bindings).map Subtype.val) := by
  rw [«import», exec_enter, nested]
  cases engine.entry with
  | error error => rfl
  | ok admitted =>
      rw [if_pos rfl, exec_bind, exec_check]
      cases Resolver.resolve [] name with
      | error error => rfl
      | ok specifier => exact exec_run (engine.import specifier) bindings

/-- A load ends at its root, at its mount, or in its import. -/
theorem exec_load_cases {bundle : Bundle}
    (hrun : exec (load engine toolchain bundle) bindings = (.error error, after)) :
    (bundle.root = none ∧ after = bindings) ∨
      ∃ root, bundle.root = some root ∧
        ((exec (mount bundle) bindings = (.error error, bindings) ∧ after = bindings) ∨
          ∃ mounted, exec (mount bundle) bindings = (.ok (), mounted) ∧
            exec («import» engine root) mounted = (.error error, after)) := by
  unfold load at hrun
  cases hroot : bundle.root with
  | none =>
      rw [hroot] at hrun
      exact Or.inl ⟨rfl, (congrArg Prod.snd hrun).symm⟩
  | some root =>
      simp only [hroot, exec_bind] at hrun
      refine Or.inr ⟨root, rfl, ?_⟩
      obtain ⟨refusal, hmount⟩ | ⟨mounted, -, hmount⟩ := mount_cases bundle bindings
      · simp only [hmount] at hrun
        obtain ⟨⟨⟩, rfl⟩ := Prod.mk.inj hrun
        exact Or.inl ⟨hmount, rfl⟩
      · simp only [hmount] at hrun
        exact Or.inr ⟨_, hmount, hrun⟩

/-- What an import that fails leaves of a bundle that was mounted for it. -/
structure Remains (engine : ModuleEngine store B M) (toolchain : Toolchain) (bundle : Bundle)
    (root : Name) (before mounted after : GuestBindings B) : Prop where
  mounts : after = mounted.mountAll ((nested engine root mounted).map Subtype.val)
  located : ∀ name located, before.locate name = .ok located → after.locate name = .ok located
  frame : ∀ name, (∀ other ∈ bundle :: (nested engine root mounted).map Subtype.val,
    ModuleName.root name ∉ other.roots) → after.locate name = before.locate name
  repeated : before.mounted.Holds bundle → mounted = before
  holds : after.mounted.Holds bundle
  again : ∃ remounted, exec (mount bundle) after = (.ok (), remounted)
  refused : ∀ other, other.id ≠ bundle.id → other.root = some root →
    ∃ error, exec (load engine toolchain other) after = (.error error, after)

theorem mem_roots_of_root {bundle : Bundle} {root : Name} (hroot : bundle.root = some root) :
    root ∈ bundle.roots := by
  unfold Bundle.root at hroot
  split at hroot
  · next hroots =>
      obtain rfl := Option.some.inj hroot
      rw [hroots]
      exact List.mem_cons_self
  · cases hroot

theorem load_refused {bundle other : Bundle} {root : Name} (hholds : after.mounted.Holds bundle)
    (hid : other.id ≠ bundle.id) (hroot : bundle.root = some root) (hother : other.root = some root) :
    ∃ error, exec (load engine toolchain other) after = (.error error, after) := by
  obtain ⟨error, hrefused⟩ :=
    mount_refused hholds hid (mem_roots_of_root hroot) (mem_roots_of_root hother)
  refine ⟨error, ?_⟩
  simp only [load, hother, exec_bind, hrefused]

theorem remains_of_import {bundle : Bundle} {root : Name} {mounted : GuestBindings B}
    (hlayered : bindings.Layered store) (hbundle : bundle ∈ store.bundles)
    (hroot : bundle.root = some root)
    (hmount : exec (mount bundle) bindings = (.ok (), mounted))
    (himport : exec («import» engine root) mounted = (.error error, after)) :
    Remains engine toolchain bundle root bindings mounted after := by
  obtain ⟨hruntime, hguest, sources, hinsert, hmounted⟩ := exec_mount_eq_ok_iff.mp hmount
  have hafter : after = mounted.mountAll ((nested engine root mounted).map Subtype.val) := by
    rw [← exec_import, himport]
  have hholdsMounted : mounted.mounted.Holds bundle := by
    subst hmounted
    exact Sources.holds_of_insertBundle hinsert
  have hholds : after.mounted.Holds bundle := hafter ▸ holds_mountAll hholdsMounted
  have hlayeredMounted := hlayered.mount hbundle hmount
  obtain ⟨hsameRuntime, hsameGuest⟩ :=
    mountAll_catalogs mounted ((nested engine root mounted).map Subtype.val)
  refine ⟨hafter, fun name located hlocate => ?_, fun name hroots => ?_,
    fun hbefore => hlayered.mount_mounted hbundle hbefore hmount, hholds, ?_,
    fun other hid hother => ?_⟩
  · rw [hafter]
    exact hlayeredMounted.locate_mountAll _ (hlayered.locate_mount hbundle hmount hlocate)
  · rw [List.forall_mem_cons] at hroots
    have hfirst := (mount_frame bindings hroots.1).1
    rw [hmount] at hfirst
    rw [hafter, (mountAll_frame mounted hroots.2).1]
    exact hfirst
  · refine mount_again hholds ?_ ?_
    · rw [hafter, hsameRuntime, hmounted]
      exact hruntime
    · rw [hafter, hsameGuest, hmounted]
      exact hguest
  · exact load_refused hholds hid hroot hother

/-- **What a failed load leaves.** A load that fails before its bundle is mounted changes nothing.
One whose import fails leaves the bundle mounted, together with what the evaluated code mounted: no
name that located moves, none changes outside the roots of those bundles, the bundle can be loaded
again, and another bundle of its root is refused. -/
theorem load_failed {runtime guest : Catalog B} (hruntime : runtime.Built store)
    (hguest : guest.Built store) (engine : ModuleEngine store B M) (toolchain : Toolchain)
    (earlier : List store.Handle) :
    let before := (GuestBindings.new runtime guest).mountAll (earlier.map Subtype.val)
    (∀ (bundle : store.Handle) error after,
      exec (load engine toolchain bundle.1) before = (.error error, after) →
        (bundle.1.root = none ∨ (∃ refusal, (exec (mount bundle.1) before).1 = .error refusal) →
          after = before) ∧
        ∀ root mounted, bundle.1.root = some root → exec (mount bundle.1) before = (.ok (), mounted) →
          Remains engine toolchain bundle.1 root before mounted after) ∧
    ∀ path source id,
      (∀ refusal, Bundle.single toolchain path source id = .error refusal →
        exec (guestModule engine toolchain path source id) before = (.error refusal, before)) ∧
      ∀ bundle, Bundle.single toolchain path source id = .ok bundle →
        exec (guestModule engine toolchain path source id) before =
          exec (load engine toolchain bundle) before := by
  intro before
  have hlayered : before.Layered store := (layered_new hruntime hguest).mountAll earlier
  refine ⟨fun bundle error after hrun => ⟨?_, ?_⟩, fun path source id => ⟨?_, ?_⟩⟩
  · intro hrefused
    obtain ⟨-, hafter⟩ | ⟨root, hroot, ⟨-, hafter⟩ | ⟨mounted, hmount, -⟩⟩ := exec_load_cases hrun
    · exact hafter
    · exact hafter
    · obtain hnone | ⟨refusal, hrefusal⟩ := hrefused
      · cases hroot.symm.trans hnone
      · rw [hmount] at hrefusal
        cases hrefusal
  · intro root mounted hroot hmount
    obtain ⟨hnone, -⟩ | ⟨root', hroot', ⟨hrefused, -⟩ | ⟨mounted', hmount', himport⟩⟩ :=
      exec_load_cases hrun
    · cases hroot.symm.trans hnone
    · cases hmount.symm.trans hrefused
    · obtain rfl := Option.some.inj (hroot.symm.trans hroot')
      obtain rfl : mounted = mounted' := congrArg Prod.snd (hmount.symm.trans hmount')
      exact remains_of_import hlayered bundle.2 hroot hmount himport
  · intro refusal hrefusal
    simp only [guestModule, exec_bind, exec_check, hrefusal]
  · intro bundle hbundle
    simp only [guestModule, exec_bind, exec_check, hbundle]

section

def utilStore : BundleStore :=
  (BundleStore.empty.build (.ofList [("plugin/util".toList, "")]) ∅).build
    (.ofList [("plugin/index".toList, "")]) ∅

/-- A bundle without an entry module. -/
def util : utilStore.Handle :=
  ⟨⟨1, .ofList [("plugin/util".toList, "")], ∅⟩, .tail _ (.head _)⟩

def corrected : utilStore.Handle :=
  ⟨⟨2, .ofList [("plugin/index".toList, "")], ∅⟩, .head _⟩

/-- An error of the dispatcher, thrown in the guest and captured again. -/
def captured (error : Error) : Error :=
  .guest ⟨"ReferenceError", error.toString, none, ["ReferenceError", "Error"], ⟨.object 7, 16⟩⟩

/-- Imports through a module of its own, and evaluates what is found without running anything. -/
def plainEngine : ModuleEngine utilStore ⟨Unit, Unit⟩ Unit where
  entry := .ok ()
  «import» specifier := .resolve (.ok ()) "/import/1".toList specifier fun
    | .error error => .done (.error (captured error))
    | .ok located => .load (.ok ()) located fun
        | .error error => .done (.error (captured error))
        | .ok _ => .done (.ok ())
  interruption := .timeout

def plainToolchain : Toolchain where
  transpile := fun _ source => .ok source
  quoted := fun name => String.ofList name
  utf8Error := fun _ => "invalid utf-8 sequence"

def unbound : GuestBindings ⟨Unit, Unit⟩ := (GuestBindings.new .new .new).mountAll []

/-- The import fails for want of an entry module, and what the bundle has locates from then on: the
corrected bundle, which would load, is refused. -/
theorem load_util :
    let after := (exec (load plainEngine plainToolchain util.1) unbound).2
    (exec (load plainEngine plainToolchain util.1) unbound).1 =
        .error (captured (.importing "plugin" "no module of that name is bound to this guest")) ∧
      unbound.locate "plugin/util".toList =
        .error (.importing "plugin/util" "no module of that name is bound to this guest") ∧
      after.locate "plugin/util".toList = .ok "plugin/util".toList ∧
      (exec (load plainEngine plainToolchain corrected.1) unbound).1 = .ok () ∧
      (exec (load plainEngine plainToolchain corrected.1) after).1 =
        .error (.importing "plugin" "a different bundle already owns this root") := by
  decide

theorem load_failed_util :
    (exec (load plainEngine plainToolchain util.1) unbound).2.mounted.Holds util.1 :=
  (((load_failed .new .new plainEngine plainToolchain []).1 util _ _
    (Prod.ext (by decide) rfl)).2 "plugin".toList _ (by decide) (Prod.ext (by decide) rfl)).holds

end

end GuestModules

end GuestJs
