import GuestJs.Builder
import GuestJs.Library.Insertions
import GuestJs.Library.Results
import GuestJs.Proof.MountStability

/-!
# Builders in any order

Two insertions agree when neither brings a name of the other, or one at a root of the other's bundle,
and a root they share is of one bundle. What a table holds is determined by the insertions made in it,
so the order in which libraries, bundles and denials are given to the builders of a runtime and of a
guest, and in which bundles are mounted after that, does not change what a name stands for.
-/

namespace GuestJs

open Fallible

variable {B : Backend} {P : EngineTypes} {store : BundleStore}

namespace Insertion

/-- Names a module or an alias would own. -/
def names : Insertion B → List Name
  | .host module => [module.name]
  | .native module => module.name :: module.aliases
  | .bundle _ => []

def roots : Insertion B → List Name
  | .bundle added => added.roots
  | _ => []

def bundle? : Insertion B → Option Bundle
  | .bundle added => some added
  | _ => none

structure Agrees (first second : Insertion B) : Prop where
  names : ∀ name ∈ first.names, name ∉ second.names
  roots_second : ∀ name ∈ first.names, ModuleName.root name ∉ second.roots
  roots_first : ∀ name ∈ second.names, ModuleName.root name ∉ first.roots
  owner : ∀ root ∈ first.roots, root ∈ second.roots →
    first.bundle?.map Bundle.id = second.bundle?.map Bundle.id

theorem Agrees.symm {first second : Insertion B} (h : first.Agrees second) :
    second.Agrees first where
  names name hsecond hfirst := h.names name hfirst hsecond
  roots_second := h.roots_first
  roots_first := h.roots_second
  owner root hsecond hfirst := (h.owner root hfirst hsecond).symm

/-- The bundles that are inserted have been built. -/
def IsStored (store : BundleStore) (insertion : Insertion B) : Prop :=
  ∀ bundle ∈ insertion.bundle?, bundle ∈ store.bundles

abbrev Stored (B : Backend) (store : BundleStore) : Type :=
  { insertion : Insertion B // insertion.IsStored store }

namespace Stored

def host (module : ModuleDeclaration B) : Stored B store := ⟨.host module, nofun⟩

def native (module : NativeModule B) : Stored B store := ⟨.native module, nofun⟩

def bundle (added : store.Handle) : Stored B store :=
  ⟨.bundle added.1, fun _ h => Option.some.inj h ▸ added.2⟩

end Stored

/-- The module an insertion puts under a name. -/
def module? : Insertion B → Name → Option (ModuleSource B)
  | .host module, name => if name = module.name then some (.host module) else none
  | .native module, name => if name = module.name then some (.native module) else none
  | .bundle _, _ => none

def alias? : Insertion B → Name → Option Name
  | .native module, name => if module.aliases.contains name then some module.name else none
  | _, _ => none

def owner? (insertion : Insertion B) (root : Name) : Option Bundle :=
  insertion.bundle?.filter fun bundle => bundle.roots.contains root

theorem mem_names_iff {insertion : Insertion B} {name : Name} :
    name ∈ insertion.names ↔
      (insertion.module? name).isSome = true ∨ (insertion.alias? name).isSome = true := by
  cases insertion with
  | host module =>
      by_cases heq : name = module.name <;> simp [names, module?, alias?, heq]
  | native module =>
      by_cases heq : name = module.name <;> by_cases hmem : name ∈ module.aliases <;>
        simp [names, module?, alias?, heq, hmem]
  | bundle added => simp [names, module?, alias?]

theorem mem_roots_iff {insertion : Insertion B} {root : Name} :
    root ∈ insertion.roots ↔ (insertion.owner? root).isSome = true := by
  cases insertion with
  | host module => simp [roots, owner?, bundle?]
  | native module => simp [roots, owner?, bundle?]
  | bundle added =>
      by_cases hmem : root ∈ added.roots <;> simp [roots, owner?, bundle?, hmem]

theorem bundle_of_mem_roots {insertion : Insertion B} {root : Name} (h : root ∈ insertion.roots) :
    ∃ bundle, insertion.bundle? = some bundle ∧ root ∈ bundle.roots := by
  cases insertion with
  | host module => cases h
  | native module => cases h
  | bundle added => exact ⟨added, rfl, h⟩

theorem mem_roots_of_bundle {insertion : Insertion B} {bundle : Bundle} {root : Name}
    (hadded : insertion.bundle? = some bundle) (h : root ∈ bundle.roots) :
    root ∈ insertion.roots := by
  cases insertion with
  | host module => cases hadded
  | native module => cases hadded
  | bundle added =>
      cases hadded
      exact h

end Insertion

namespace Sources

/-- The table holds what these insertions put into it, and nothing else. -/
structure Holding (done : Set (Insertion.Stored B store)) (sources : Sources B) : Prop where
  wellFormed : sources.WellFormed
  modules : ∀ (name : Name) source, sources.modules[name]? = some source ↔
    ∃ insertion ∈ done, insertion.1.module? name = some source
  aliases : ∀ (name target : Name), sources.aliases[name]? = some target ↔
    ∃ insertion ∈ done, insertion.1.alias? name = some target
  bundles : ∀ (root : Name) bundle, sources.bundles[root]? = some bundle ↔
    ∃ insertion ∈ done, insertion.1.owner? root = some bundle

variable {done : Set (Insertion.Stored B store)} {sources sources' : Sources B}

theorem holding_new : Holding (∅ : Set (Insertion.Stored B store)) (new : Sources B) where
  wellFormed := wellFormed_new
  modules name source := by simp [new]
  aliases name target := by simp [new]
  bundles root bundle := by simp [new]

theorem Holding.mem_modules (h : Holding done sources) {name : Name} :
    name ∈ sources.modules ↔ ∃ insertion ∈ done, (insertion.1.module? name).isSome = true := by
  simp only [Tables.mem_iff_exists, h.modules, Option.isSome_iff_exists]
  exact ⟨fun ⟨source, insertion, hmem, hsource⟩ => ⟨insertion, hmem, source, hsource⟩,
    fun ⟨insertion, hmem, source, hsource⟩ => ⟨source, insertion, hmem, hsource⟩⟩

theorem Holding.mem_aliases (h : Holding done sources) {name : Name} :
    name ∈ sources.aliases ↔ ∃ insertion ∈ done, (insertion.1.alias? name).isSome = true := by
  simp only [Tables.mem_iff_exists, h.aliases, Option.isSome_iff_exists]
  exact ⟨fun ⟨target, insertion, hmem, htarget⟩ => ⟨insertion, hmem, target, htarget⟩,
    fun ⟨insertion, hmem, target, htarget⟩ => ⟨target, insertion, hmem, htarget⟩⟩

theorem Holding.mem_names (h : Holding done sources) {name : Name} :
    (name ∈ sources.modules ∨ name ∈ sources.aliases) ↔
      ∃ insertion ∈ done, name ∈ insertion.1.names := by
  rw [h.mem_modules, h.mem_aliases, ← exists_or]
  simp only [← and_or_left, ← Insertion.mem_names_iff]

theorem Holding.mem_bundles (h : Holding done sources) {root : Name} :
    root ∈ sources.bundles ↔ ∃ insertion ∈ done, root ∈ insertion.1.roots := by
  simp only [Tables.mem_iff_exists, h.bundles, Insertion.mem_roots_iff, Option.isSome_iff_exists]
  exact ⟨fun ⟨bundle, insertion, hmem, hbundle⟩ => ⟨insertion, hmem, bundle, hbundle⟩,
    fun ⟨insertion, hmem, bundle, hbundle⟩ => ⟨bundle, insertion, hmem, hbundle⟩⟩

theorem Holding.claim_iff (h : Holding done sources) {name : Name} :
    sources.claim name = .ok () ↔ ∀ insertion ∈ done,
      name ∉ insertion.1.names ∧ ModuleName.root name ∉ insertion.1.roots := by
  rw [claim_eq_ok_iff, ← and_assoc, ← not_or, h.mem_names, h.mem_bundles]
  push Not
  exact ⟨fun ⟨hnames, hroots⟩ insertion hmem => ⟨hnames insertion hmem, hroots insertion hmem⟩,
    fun hall => ⟨fun insertion hmem => (hall insertion hmem).1,
      fun insertion hmem => (hall insertion hmem).2⟩⟩

/-- An owner of the same identity had its roots to itself, so only a root without an owner is looked
for among the names. -/
theorem Holding.checkRoot_iff (h : Holding done sources) {bundle : Bundle} {root : Name}
    (hroot : root ∈ bundle.roots) :
    sources.checkRoot bundle root = .ok () ↔ ∀ insertion ∈ done,
      (∀ name ∈ insertion.1.names, ModuleName.root name ≠ root) ∧
        (root ∈ insertion.1.roots → insertion.1.bundle?.map Bundle.id = some bundle.id) := by
  have hself := Bundle.root_of_mem_roots hroot
  constructor
  · intro hcheck insertion hmem
    refine ⟨fun name hname => ?_, fun hshared => ?_⟩
    · exact h.wellFormed.not_isWithin_of_checkRoot hcheck hself
        (h.mem_names.mpr ⟨insertion, hmem, hname⟩)
    · obtain ⟨owner, howner⟩ := Option.isSome_iff_exists.mp (Insertion.mem_roots_iff.mp hshared)
      have hheld := (h.bundles root owner).mpr ⟨insertion, hmem, howner⟩
      rcases checkRoot_eq_ok_iff.mp hcheck with ⟨owner', howner', hid⟩ | ⟨hnone, -⟩
      · obtain rfl : owner = owner' := Option.some.inj (hheld.symm.trans howner')
        rw [(Option.filter_eq_some_iff.mp howner).1, Option.map_some, hid]
      · rw [hheld] at hnone
        cases hnone
  · intro hall
    refine checkRoot_eq_ok_iff.mpr ?_
    cases howner : sources.bundles[root]? with
    | some owner =>
        obtain ⟨insertion, hmem, hfound⟩ := (h.bundles root owner).mp howner
        have hid := (hall insertion hmem).2
          (Insertion.mem_roots_iff.mpr (by rw [hfound, Option.isSome_some]))
        rw [(Option.filter_eq_some_iff.mp hfound).1, Option.map_some] at hid
        exact Or.inl ⟨owner, rfl, Option.some.inj hid⟩
    | none =>
        refine Or.inr ⟨rfl, fun name hname => ?_⟩
        obtain ⟨insertion, hmem, hnames⟩ := h.mem_names.mp hname
        rw [Bool.eq_false_iff, ne_eq, ← hself, ModuleName.isWithin_root_iff, hself]
        exact (hall insertion hmem).1 name hnames

theorem Holding.unique (h : Holding done sources) (h' : Holding done sources') :
    sources = sources' := by
  obtain ⟨modules, aliases, bundles⟩ := sources
  obtain ⟨modules', aliases', bundles'⟩ := sources'
  have hmodules : modules = modules' := Std.ExtTreeMap.ext_getElem? fun name =>
    Option.ext fun source => (h.modules name source).trans (h'.modules name source).symm
  have haliases : aliases = aliases' := Std.ExtTreeMap.ext_getElem? fun name =>
    Option.ext fun target => (h.aliases name target).trans (h'.aliases name target).symm
  have hbundles : bundles = bundles' := Std.ExtTreeMap.ext_getElem? fun root =>
    Option.ext fun bundle => (h.bundles root bundle).trans (h'.bundles root bundle).symm
  rw [hmodules, haliases, hbundles]

/-- What a successful insertion writes. -/
def write (sources : Sources B) : Insertion B → Sources B
  | .host module => { sources with modules := sources.modules.insert module.name (.host module) }
  | .native module =>
      { sources with
        aliases := sources.aliases.insertMany
          (module.aliases.map fun added => (added, module.name))
        modules := sources.modules.insert module.name (.native module) }
  | .bundle added =>
      { sources with
        bundles := sources.bundles.insertMany (added.roots.map fun root => (root, added)) }

theorem exec_insert_ok_iff {insertion : Insertion B} :
    exec insertion.insert sources = (.ok (), sources') ↔
      ((∀ name ∈ insertion.names, sources.claim name = .ok ()) ∧
        ∀ bundle ∈ insertion.bundle?, ∀ root ∈ bundle.roots,
          sources.checkRoot bundle root = .ok ()) ∧ sources' = sources.write insertion := by
  cases insertion with
  | host module =>
      rw [Insertion.insert, exec_insertHost_eq_ok_iff]
      exact and_congr_left' (by simp [Insertion.names, Insertion.bundle?])
  | native module =>
      rw [Insertion.insert, exec_insertNative_eq_ok_iff]
      exact and_congr_left' (by simp [Insertion.names, Insertion.bundle?])
  | bundle added =>
      rw [Insertion.insert, exec_insertBundle_eq_ok_iff, checkBundle_eq_ok_iff]
      exact and_congr_left' (by simp [Insertion.names, Insertion.bundle?])

theorem getElem?_modules_write (insertion : Insertion B) (name : Name) :
    (sources.write insertion).modules[name]? =
      (insertion.module? name).or sources.modules[name]? := by
  cases insertion with
  | host module =>
      rw [write, Tables.getElem?_insert, Insertion.module?]
      split <;> rfl
  | native module =>
      rw [write, Tables.getElem?_insert, Insertion.module?]
      split <;> rfl
  | bundle added => rfl

theorem getElem?_aliases_write (insertion : Insertion B) (name : Name) :
    (sources.write insertion).aliases[name]? =
      (insertion.alias? name).or sources.aliases[name]? := by
  cases insertion with
  | host module => rfl
  | native module =>
      rw [write, Tables.getElem?_insertMany_map, Insertion.alias?]
      by_cases hmem : name ∈ module.aliases <;> simp [hmem]
  | bundle added => rfl

theorem getElem?_bundles_write (insertion : Insertion B) (root : Name) :
    (sources.write insertion).bundles[root]? =
      (insertion.owner? root).or sources.bundles[root]? := by
  cases insertion with
  | host module => rfl
  | native module => rfl
  | bundle added =>
      rw [write, Tables.getElem?_insertMany_map, Insertion.owner?, Insertion.bundle?]
      by_cases hmem : root ∈ added.roots <;> simp [Option.filter_some, hmem]

/-- **What an insertion asks.** It goes through exactly when it agrees with all that is there. -/
theorem Holding.insert_ok_iff (h : Holding done sources) (insertion : Insertion.Stored B store) :
    (exec insertion.1.insert sources).1 = .ok () ↔
      ∀ earlier ∈ done, earlier.1.Agrees insertion.1 := by
  have hok : (exec insertion.1.insert sources).1 = .ok () ↔
      (∀ name ∈ insertion.1.names, sources.claim name = .ok ()) ∧
        ∀ bundle ∈ insertion.1.bundle?, ∀ root ∈ bundle.roots,
          sources.checkRoot bundle root = .ok () := by
    constructor
    · intro hok
      exact (exec_insert_ok_iff.mp (Prod.ext hok rfl)).1
    · intro hchecks
      rw [exec_insert_ok_iff.mpr ⟨hchecks, rfl⟩]
  rw [hok]
  constructor
  · intro ⟨hnames, hbundle⟩ earlier hmem
    refine ⟨fun name hname hsame => ?_, fun name hname hroot => ?_, fun name hname => ?_,
      fun root hroot hshared => ?_⟩
    · exact (h.claim_iff.mp (hnames name hsame) earlier hmem).1 hname
    · obtain ⟨bundle, hadded, hroot⟩ := Insertion.bundle_of_mem_roots hroot
      exact ((h.checkRoot_iff hroot).mp (hbundle bundle hadded _ hroot) earlier hmem).1 name hname rfl
    · exact (h.claim_iff.mp (hnames name hname) earlier hmem).2
    · obtain ⟨bundle, hadded, hshared⟩ := Insertion.bundle_of_mem_roots hshared
      rw [((h.checkRoot_iff hshared).mp (hbundle bundle hadded root hshared) earlier hmem).2 hroot,
        hadded, Option.map_some]
  · intro hall
    refine ⟨fun name hname => h.claim_iff.mpr fun earlier hmem => ⟨fun hsame => ?_, ?_⟩,
      fun bundle hadded root hroot => (h.checkRoot_iff hroot).mpr fun earlier hmem =>
        ⟨fun name hname heq => ?_, fun hshared => ?_⟩⟩
    · exact (hall earlier hmem).names name hsame hname
    · exact (hall earlier hmem).roots_first name hname
    · exact (hall earlier hmem).roots_second name hname
        (heq ▸ Insertion.mem_roots_of_bundle hadded hroot)
    · rw [(hall earlier hmem).owner root hshared (Insertion.mem_roots_of_bundle hadded hroot),
        hadded, Option.map_some]

theorem or_eq_some_iff_of_agree {α : Type} {first second : Option α}
    (h : ∀ a b, first = some a → second = some b → a = b) (a : α) :
    first.or second = some a ↔ first = some a ∨ second = some a := by
  cases first with
  | none => simp
  | some b =>
      rw [Option.some_or, Option.some.injEq, iff_self_or]
      exact fun hsecond => h b a rfl hsecond

theorem Holding.write (h : Holding done sources) (insertion : Insertion.Stored B store)
    (hrun : exec insertion.1.insert sources = (.ok (), sources')) :
    Holding (Insert.insert insertion done) sources' := by
  have hagrees := (h.insert_ok_iff insertion).mp (congrArg Prod.fst hrun)
  have hwf := h.wellFormed.insert insertion.1 hrun
  obtain ⟨-, rfl⟩ := exec_insert_ok_iff.mp hrun
  refine ⟨hwf, fun name source => ?_, fun name target => ?_, fun root bundle => ?_⟩
  · rw [getElem?_modules_write, or_eq_some_iff_of_agree, h.modules, Set.exists_mem_insert]
    intro source source' hadded hheld
    obtain ⟨earlier, hmem, hearlier⟩ := (h.modules name source').mp hheld
    exact absurd (Insertion.mem_names_iff.mpr (Or.inl (by rw [hadded, Option.isSome_some])))
      ((hagrees earlier hmem).names name
        (Insertion.mem_names_iff.mpr (Or.inl (by rw [hearlier, Option.isSome_some]))))
  · rw [getElem?_aliases_write, or_eq_some_iff_of_agree, h.aliases, Set.exists_mem_insert]
    intro target target' hadded hheld
    obtain ⟨earlier, hmem, hearlier⟩ := (h.aliases name target').mp hheld
    exact absurd (Insertion.mem_names_iff.mpr (Or.inr (by rw [hadded, Option.isSome_some])))
      ((hagrees earlier hmem).names name
        (Insertion.mem_names_iff.mpr (Or.inr (by rw [hearlier, Option.isSome_some]))))
  · rw [getElem?_bundles_write, or_eq_some_iff_of_agree, h.bundles, Set.exists_mem_insert]
    intro bundle owner hadded hheld
    obtain ⟨earlier, hmem, hearlier⟩ := (h.bundles root owner).mp hheld
    have hid := (hagrees earlier hmem).owner root
      (Insertion.mem_roots_iff.mpr (by rw [hearlier, Option.isSome_some]))
      (Insertion.mem_roots_iff.mpr (by rw [hadded, Option.isSome_some]))
    have hbundle := (Option.filter_eq_some_iff.mp hadded).1
    have howner := (Option.filter_eq_some_iff.mp hearlier).1
    rw [hbundle, howner, Option.map_some, Option.map_some, Option.some.injEq] at hid
    exact BundleStore.eq_of_id_eq (insertion.2 bundle hbundle) (earlier.2 owner howner) hid.symm

theorem insertions (B : Backend) (store : BundleStore) :
    Insertions (fun insertion : Insertion.Stored B store => insertion.1.insert)
      (fun first second => first.1.Agrees second.1) Holding where
  ok_iff h := h.insert_ok_iff
  holds h insertion hrun := h.write insertion hrun
  unique h h' := h.unique h'

end Sources

/-! ### Builders -/

namespace CatalogCall

def insertions : CatalogCall B P store → List (Insertion.Stored B store)
  | .bind library => library.modules.map fun module => .host module.1
  | .bindNative library => library.modules.map .native
  | .bundle added => [.bundle added]
  | .deny _ => []

def denials : CatalogCall B P store → List Name
  | .deny name => [name]
  | _ => []

def hostInitializers : CatalogCall B P store → List (Initializer B P)
  | .bind library => library.modules.filterMap Prod.snd ++ library.initializers
  | _ => []

def nativeInitializers : CatalogCall B P store → List (Initializer B P)
  | .bindNative library => library.initializers
  | _ => []

end CatalogCall

namespace LibraryCatalog

variable {supplied supplied' : LibraryCatalog B P}

/-- The table and the denied names after these insertions and denials. -/
def supply (supplied : LibraryCatalog B P) (sources : Sources B) (calls : List (CatalogCall B P store)) :
    LibraryCatalog B P where
  catalog := ⟨sources, (calls.flatMap CatalogCall.denials).foldl .insert supplied.catalog.denied⟩
  hostInitializers := supplied.hostInitializers ++ calls.flatMap CatalogCall.hostInitializers
  nativeInitializers := supplied.nativeInitializers ++ calls.flatMap CatalogCall.nativeInitializers

def insert (insertion : Insertion.Stored B store) : Fallible (Sources B) Error Unit :=
  insertion.1.insert

theorem call_eq (supplied : LibraryCatalog B P) (call : CatalogCall B P store) :
    supplied.call call = match exec (call.insertions.forM insert) supplied.catalog.sources with
      | (.ok (), sources) => .ok (supplied.supply sources [call])
      | (.error error, _) => .error error := by
  cases call with
  | bind library =>
      have hforM : (CatalogCall.bind library : CatalogCall B P store).insertions.forM insert =
          (library.modules.map Prod.fst).forM Sources.insertHost := by
        simp only [CatalogCall.insertions, List.forM_eq_forM, List.forM_map]
        rfl
      rw [hforM]
      simp only [LibraryCatalog.call, host, Catalog.host, Catalog.extend]
      rcases exec ((library.modules.map Prod.fst).forM Sources.insertHost) supplied.catalog.sources
        with ⟨error | _, sources⟩
      · rfl
      · simp [supply, CatalogCall.denials, CatalogCall.hostInitializers,
          CatalogCall.nativeInitializers, bind, Except.bind, pure, Except.pure]
  | bindNative library =>
      have hforM : (CatalogCall.bindNative library : CatalogCall B P store).insertions.forM insert =
          library.modules.forM Sources.insertNative := by
        simp only [CatalogCall.insertions, List.forM_eq_forM, List.forM_map]
        rfl
      rw [hforM]
      simp only [LibraryCatalog.call, native, Catalog.native, Catalog.extend]
      rcases exec (library.modules.forM Sources.insertNative) supplied.catalog.sources
        with ⟨error | _, sources⟩
      · rfl
      · simp [supply, CatalogCall.denials, CatalogCall.hostInitializers,
          CatalogCall.nativeInitializers, bind, Except.bind, pure, Except.pure]
  | bundle added =>
      have hforM : (CatalogCall.bundle (P := P) added).insertions.forM insert =
          Sources.insertBundle (B := B) added.1 := by
        simp only [CatalogCall.insertions, List.forM_eq_forM, List.forM_cons, List.forM_nil]
        exact bind_pure _
      rw [hforM]
      simp only [LibraryCatalog.call, bundle, Catalog.bundle, Catalog.extend]
      rcases exec (Sources.insertBundle added.1) supplied.catalog.sources with ⟨error | _, sources⟩
      · rfl
      · simp [supply, CatalogCall.denials, CatalogCall.hostInitializers,
          CatalogCall.nativeInitializers, bind, Except.bind, pure, Except.pure]
  | deny name =>
      simp [LibraryCatalog.call, deny, Catalog.deny, supply, CatalogCall.insertions,
        CatalogCall.denials, CatalogCall.hostInitializers, CatalogCall.nativeInitializers]

theorem supply_supply (supplied : LibraryCatalog B P) (first second : Sources B)
    (call : CatalogCall B P store) (calls : List (CatalogCall B P store)) :
    (supplied.supply first [call]).supply second calls = supplied.supply second (call :: calls) := by
  simp [supply, List.foldl_append, List.append_assoc]

/-- A builder's catalog after some calls: it keeps the first error. -/
def calls (supplied : Except Error (LibraryCatalog B P)) (calls : List (CatalogCall B P store)) :
    Except Error (LibraryCatalog B P) :=
  calls.foldl (fun supplied call => supplied.bind fun supplied => supplied.call call) supplied

theorem calls_error (error : Error) (calls' : List (CatalogCall B P store)) :
    calls (.error error : Except Error (LibraryCatalog B P)) calls' = .error error := by
  induction calls' with
  | nil => rfl
  | cons call calls' ih => exact ih

/-- **One table.** The libraries and bundles of all calls are one list of insertions. -/
theorem calls_eq_ok_iff {calls' : List (CatalogCall B P store)} :
    calls (.ok supplied) calls' = .ok supplied' ↔ ∃ sources,
      exec ((calls'.flatMap CatalogCall.insertions).forM insert) supplied.catalog.sources =
        (.ok (), sources) ∧ supplied' = supplied.supply sources calls' := by
  induction calls' generalizing supplied with
  | nil =>
      have hsupply : supplied.supply supplied.catalog.sources ([] : List (CatalogCall B P store)) =
          supplied := by simp [supply]
      constructor
      · intro h
        exact ⟨_, rfl, (Except.ok.inj h).symm.trans hsupply.symm⟩
      · rintro ⟨sources, hrun, rfl⟩
        obtain rfl : supplied.catalog.sources = sources := congrArg Prod.snd hrun
        rw [hsupply]
        rfl
  | cons call calls' ih =>
      show calls (supplied.call call) calls' = _ ↔ _
      rw [call_eq, List.flatMap_cons, List.forM_eq_forM, List.forM_append, exec_bind,
        ← List.forM_eq_forM]
      rcases exec (call.insertions.forM insert) supplied.catalog.sources with ⟨error | _, sources⟩
      · rw [calls_error]
        exact iff_of_false nofun fun ⟨_, hrun, _⟩ => nomatch hrun
      · simp only [ih, supply_supply]
        rfl

end LibraryCatalog

/-- The calls that reach the catalog of a runtime. -/
def RuntimeBuilderCall.catalogCalls (calls : List (RuntimeBuilderCall B P store)) :
    List (CatalogCall B P store) :=
  calls.filterMap fun call =>
    match call with
    | .catalog call => some call
    | _ => none

def GuestBuilderCall.catalogCalls (calls : List (GuestBuilderCall B P store)) :
    List (CatalogCall B P store) :=
  calls.filterMap fun call =>
    match call with
    | .catalog call => some call
    | _ => none

theorem RuntimeBuilder.catalog_foldl (builder : RuntimeBuilder B P)
    (calls : List (RuntimeBuilderCall B P store)) : (calls.foldl RuntimeBuilder.call builder).catalog =
      LibraryCatalog.calls builder.catalog (RuntimeBuilderCall.catalogCalls calls) := by
  induction calls generalizing builder with
  | nil => rfl
  | cons call calls ih =>
      rw [List.foldl_cons, ih]
      cases call <;> rfl

theorem GuestBuilder.catalog_foldl (builder : GuestBuilder B P)
    (calls : List (GuestBuilderCall B P store)) : (calls.foldl GuestBuilder.call builder).catalog =
      LibraryCatalog.calls builder.catalog (GuestBuilderCall.catalogCalls calls) := by
  induction calls generalizing builder with
  | nil => rfl
  | cons call calls ih =>
      rw [List.foldl_cons, ih]
      cases call <;> rfl

theorem GuestBuilder.runtime_foldl (builder : GuestBuilder B P)
    (calls : List (GuestBuilderCall B P store)) :
    (calls.foldl GuestBuilder.call builder).runtime = builder.runtime := by
  induction calls generalizing builder with
  | nil => rfl
  | cons call calls ih =>
      rw [List.foldl_cons, ih]
      cases call <;> rfl

/-! ### Mounts -/

theorem GuestBindings.exec_forM_mount_ok_iff {bindings bindings' : GuestBindings B}
    {mounts : List store.Handle} :
    exec (mounts.forM fun bundle => mount bundle.1) bindings = (.ok (), bindings') ↔
      (∀ bundle ∈ mounts, bindings.runtime.sources.checkBundle bundle.1 = .ok () ∧
        bindings.guest.sources.checkBundle bundle.1 = .ok ()) ∧
      ∃ mounted, exec ((mounts.map Insertion.Stored.bundle).forM LibraryCatalog.insert)
          bindings.mounted = (.ok (), mounted) ∧ bindings' = { bindings with mounted } := by
  induction mounts generalizing bindings with
  | nil =>
      constructor
      · intro hrun
        obtain rfl : bindings = bindings' := congrArg Prod.snd hrun
        exact ⟨nofun, bindings.mounted, rfl, rfl⟩
      · rintro ⟨-, mounted, hrun, rfl⟩
        obtain rfl : bindings.mounted = mounted := congrArg Prod.snd hrun
        rfl
  | cons bundle mounts ih =>
      simp only [List.forM_eq_forM, List.map_cons, List.forM_cons, List.forall_mem_cons] at ih ⊢
      constructor
      · intro hrun
        obtain ⟨_, _, hmount, hrest⟩ := exec_bind_ok.mp hrun
        obtain ⟨hruntime, hguest, mounted, hinsert, rfl⟩ := exec_mount_eq_ok_iff.mp hmount
        obtain ⟨hchecks, mounted', hmounts, rfl⟩ := ih.mp hrest
        exact ⟨⟨⟨hruntime, hguest⟩, hchecks⟩, mounted',
          exec_bind_ok.mpr ⟨(), mounted, hinsert, hmounts⟩, rfl⟩
      · rintro ⟨⟨⟨hruntime, hguest⟩, hchecks⟩, mounted', hrun, rfl⟩
        obtain ⟨_, mounted, hinsert, hrest⟩ := exec_bind_ok.mp hrun
        exact exec_bind_ok.mpr ⟨(), { bindings with mounted },
          exec_mount_eq_ok_iff.mpr ⟨hruntime, hguest, mounted, hinsert, rfl⟩,
          ih.mpr ⟨hchecks, mounted', hrest, rfl⟩⟩

/-! ### The whole -/

theorem DeniedNames.mem_foldl_insert (denied : DeniedNames) (added : List Name) (name : Name) :
    name ∈ (added.foldl DeniedNames.insert denied).names ↔ name ∈ denied.names ∨ name ∈ added := by
  induction added generalizing denied with
  | nil => simp
  | cons first added ih =>
      rw [List.foldl_cons, ih, DeniedNames.insert, Std.ExtTreeSet.mem_insert,
        Std.compare_eq_iff_eq, List.mem_cons, eq_comm (a := first)]
      tauto

theorem DeniedNames.foldl_perm (denied : DeniedNames) {added added' : List Name}
    (h : added.Perm added') :
    added.foldl DeniedNames.insert denied = added'.foldl DeniedNames.insert denied := by
  have hnames : (added.foldl DeniedNames.insert denied).names =
      (added'.foldl DeniedNames.insert denied).names := Std.ExtTreeSet.ext_mem fun name => by
    rw [mem_foldl_insert, mem_foldl_insert, h.mem_iff]
  exact congrArg DeniedNames.mk hnames

/-- Calls that bring the same insertions and the same denials, in whatever order and however they are
grouped in libraries. -/
structure SameSupplies (calls calls' : List (CatalogCall B P store)) : Prop where
  insertions : (calls.flatMap CatalogCall.insertions).Perm (calls'.flatMap CatalogCall.insertions)
  denials : (calls.flatMap CatalogCall.denials).Perm (calls'.flatMap CatalogCall.denials)

def PairwiseAgree (insertions : List (Insertion.Stored B store)) : Prop :=
  insertions.Pairwise fun first second => first.1.Agrees second.1

/-- What a catalog holds that was put together by calls. -/
theorem LibraryCatalog.calls_new {calls' : List (CatalogCall B P store)}
    {supplied : LibraryCatalog B P} (h : calls (.ok new) calls' = .ok supplied) :
    PairwiseAgree (calls'.flatMap CatalogCall.insertions) ∧
      Sources.Holding {insertion | insertion ∈ calls'.flatMap CatalogCall.insertions}
        supplied.catalog.sources := by
  obtain ⟨sources, hrun, rfl⟩ := calls_eq_ok_iff.mp h
  have hholding := (Sources.insertions B store).holds_forM Sources.holding_new hrun
  rw [Set.empty_union] at hholding
  exact ⟨(((Sources.insertions B store).forM_ok_iff Sources.holding_new).mp
    (congrArg Prod.fst hrun)).2, hholding⟩

theorem LibraryCatalog.calls_new_of_pairwiseAgree {calls' : List (CatalogCall B P store)}
    (h : PairwiseAgree (calls'.flatMap CatalogCall.insertions)) :
    ∃ supplied : LibraryCatalog B P, calls (.ok new) calls' = .ok supplied :=
  have hok := ((Sources.insertions B store).forM_ok_iff Sources.holding_new).mpr ⟨by simp, h⟩
  ⟨_, calls_eq_ok_iff.mpr ⟨_, Prod.ext hok rfl, rfl⟩⟩

/-- The calls determine the catalog by what they supply. -/
theorem LibraryCatalog.calls_of_same {calls' calls'' : List (CatalogCall B P store)}
    {supplied : LibraryCatalog B P} (hsame : SameSupplies calls' calls'')
    (h : calls (.ok new) calls' = .ok supplied) :
    ∃ supplied' : LibraryCatalog B P, calls (.ok new) calls'' = .ok supplied' ∧
      supplied'.catalog = supplied.catalog := by
  obtain ⟨sources, hrun, rfl⟩ := calls_eq_ok_iff.mp h
  have hrun' := (Sources.insertions B store).forM_perm (fun h => h.symm) Sources.holding_new
    hsame.insertions hrun
  refine ⟨_, calls_eq_ok_iff.mpr ⟨sources, hrun', rfl⟩, ?_⟩
  simp only [supply, DeniedNames.foldl_perm _ hsame.denials]

theorem assemble_eq_ok_iff {config : P.Config} {calls : List (RuntimeBuilderCall B P store)}
    {guestCalls : List (GuestBuilderCall B P store)} {mounts : List store.Handle}
    {bindings : GuestBindings B} :
    assemble config calls guestCalls mounts = .ok bindings ↔ ∃ runtime supplied,
      LibraryCatalog.calls (.ok .new) (RuntimeBuilderCall.catalogCalls calls) =
        .ok (runtime : LibraryCatalog B P) ∧
      LibraryCatalog.calls (.ok .new) (GuestBuilderCall.catalogCalls guestCalls) =
        .ok (supplied : LibraryCatalog B P) ∧
      exec (mounts.forM fun bundle => GuestBindings.mount bundle.1)
        (.new runtime.catalog supplied.catalog) = (.ok (), bindings) := by
  simp only [assemble, RuntimeBuilder.catalog_foldl, GuestBuilder.catalog_foldl]
  constructor
  · intro h
    obtain ⟨runtime, hruntime, h⟩ := Results.bind_eq_ok.mp h
    obtain ⟨supplied, hsupplied, h⟩ := Results.bind_eq_ok.mp h
    obtain ⟨⟨⟩, hok, hbindings⟩ := Results.map_eq_ok.mp h
    exact ⟨runtime, supplied, hruntime, hsupplied, Prod.ext hok hbindings⟩
  · rintro ⟨runtime, supplied, hruntime, hsupplied, hrun⟩
    refine Results.bind_eq_ok.mpr ⟨runtime, hruntime, ?_⟩
    refine Results.bind_eq_ok.mpr ⟨supplied, hsupplied, ?_⟩
    exact Results.map_eq_ok.mpr ⟨(), congrArg Prod.fst hrun, congrArg Prod.snd hrun⟩

/-- **Building.** The initializers run in the order of the calls that gave them, the runtime's before
the guest's and host ones before native ones, and they find a guest that resolves names in what the
calls supplied. -/
theorem build_ok {engines : Engines P} {config : P.Config} {calls : List (RuntimeBuilderCall B P store)}
    {guestCalls : List (GuestBuilderCall B P store)} {runtime : Runtime B P} {built : BoundGuest B P}
    (hruntime : (calls.foldl RuntimeBuilder.call (.new config)).build engines = .ok runtime)
    (hguest : (guestCalls.foldl GuestBuilder.call (.new runtime)).build engines = .ok built) :
    ∃ bindings guest, assemble config calls guestCalls ([] : List store.Handle) = .ok bindings ∧
      exec (((RuntimeBuilderCall.catalogCalls calls).flatMap CatalogCall.hostInitializers ++
          (GuestBuilderCall.catalogCalls guestCalls).flatMap CatalogCall.hostInitializers ++
          ((RuntimeBuilderCall.catalogCalls calls).flatMap CatalogCall.nativeInitializers ++
            (GuestBuilderCall.catalogCalls guestCalls).flatMap CatalogCall.nativeInitializers)).forM id)
        ⟨bindings, guest⟩ = (.ok (), built) := by
  unfold RuntimeBuilder.build at hruntime
  unfold GuestBuilder.build at hguest
  rw [RuntimeBuilder.catalog_foldl] at hruntime
  rw [GuestBuilder.catalog_foldl] at hguest
  obtain ⟨supplied, hcalls, hruntime⟩ := Results.bind_eq_ok.mp hruntime
  obtain ⟨-, -, hruntime⟩ := Results.bind_eq_ok.mp hruntime
  obtain ⟨-, -, hruntime⟩ := Results.bind_eq_ok.mp hruntime
  obtain rfl := Results.pure_eq_ok.mp hruntime
  obtain ⟨suppliedGuest, hguestCalls, hguest⟩ := Results.bind_eq_ok.mp hguest
  obtain ⟨guest, -, hguest⟩ := Results.bind_eq_ok.mp hguest
  obtain ⟨-, -, hguest⟩ := Results.bind_eq_ok.mp hguest
  obtain ⟨⟨⟩, hok, hbuilt⟩ := Results.map_eq_ok.mp hguest
  obtain ⟨sources, -, rfl⟩ := LibraryCatalog.calls_eq_ok_iff.mp hcalls
  obtain ⟨sources', -, rfl⟩ := LibraryCatalog.calls_eq_ok_iff.mp hguestCalls
  rw [GuestBuilder.runtime_foldl] at hok hbuilt
  exact ⟨_, guest, assemble_eq_ok_iff.mpr ⟨_, _, hcalls, hguestCalls, rfl⟩, Prod.ext hok hbuilt⟩

/-- The check of a mount against a catalog that was put together by calls. -/
theorem Sources.Holding.checkBundle_iff {done : Set (Insertion.Stored B store)}
    {sources : Sources B} (h : sources.Holding done) (bundle : store.Handle) :
    sources.checkBundle bundle.1 = .ok () ↔
      ∀ earlier ∈ done, earlier.1.Agrees (Insertion.Stored.bundle bundle).1 := by
  rw [← h.insert_ok_iff (.bundle bundle)]
  show _ ↔ (exec (insertBundle bundle.1) sources).1 = .ok ()
  constructor
  · intro hcheck
    rw [exec_insertBundle_eq_ok_iff.mpr ⟨hcheck, rfl⟩]
  · intro hok
    exact (exec_insertBundle_eq_ok_iff.mp (Prod.ext hok rfl)).1

/-- **In any order.** A runtime and a guest can be put together from libraries and bundles, and bundles
mounted on the guest, exactly when the insertions into each catalog agree with each other, and the
mounted bundles with them and with each other. Other calls that bring the same libraries, bundles and
denials, in whatever order and grouping, then end in the same bindings: every name stands for the same
module and is denied alike. -/
theorem assemble_any_order (config : P.Config) (calls : List (RuntimeBuilderCall B P store))
    (guestCalls : List (GuestBuilderCall B P store)) (mounts : List store.Handle) :
    let runtime := (RuntimeBuilderCall.catalogCalls calls).flatMap CatalogCall.insertions
    let guest := (GuestBuilderCall.catalogCalls guestCalls).flatMap CatalogCall.insertions
    let mounted := mounts.map Insertion.Stored.bundle
    ((∃ bindings, assemble config calls guestCalls mounts = .ok bindings) ↔
      PairwiseAgree runtime ∧ PairwiseAgree guest ∧ PairwiseAgree mounted ∧
        ∀ bundle ∈ mounted, ∀ insertion ∈ runtime ++ guest, insertion.1.Agrees bundle.1) ∧
    ∀ (config' : P.Config) (calls' : List (RuntimeBuilderCall B P store))
      (guestCalls' : List (GuestBuilderCall B P store)) (mounts' : List store.Handle),
      SameSupplies (RuntimeBuilderCall.catalogCalls calls) (RuntimeBuilderCall.catalogCalls calls') →
      SameSupplies (GuestBuilderCall.catalogCalls guestCalls)
        (GuestBuilderCall.catalogCalls guestCalls') →
      mounts.Perm mounts' →
      ∀ bindings, assemble config calls guestCalls mounts = .ok bindings →
        assemble config' calls' guestCalls' mounts' = .ok bindings := by
  intro runtime guest mounted
  refine ⟨⟨?_, ?_⟩, ?_⟩
  · rintro ⟨bindings, h⟩
    obtain ⟨runtimeCatalog, supplied, hruntime, hguest, hrun⟩ := assemble_eq_ok_iff.mp h
    obtain ⟨hchecks, sources, hmounts, -⟩ := GuestBindings.exec_forM_mount_ok_iff.mp hrun
    obtain ⟨hcompatible, hholding⟩ := LibraryCatalog.calls_new hruntime
    obtain ⟨hcompatible', hholding'⟩ := LibraryCatalog.calls_new hguest
    refine ⟨hcompatible, hcompatible', ?_, ?_⟩
    · exact (((Sources.insertions B store).forM_ok_iff Sources.holding_new).mp
        (congrArg Prod.fst hmounts)).2
    · intro bundle hbundle insertion hinsertion
      obtain ⟨handle, hhandle, rfl⟩ := List.mem_map.mp hbundle
      rcases List.mem_append.mp hinsertion with hmem | hmem
      · exact (hholding.checkBundle_iff handle).mp (hchecks handle hhandle).1 insertion hmem
      · exact (hholding'.checkBundle_iff handle).mp (hchecks handle hhandle).2 insertion hmem
  · rintro ⟨hruntime, hguest, hmounted, hagrees⟩
    obtain ⟨runtimeCatalog, hruntime⟩ := LibraryCatalog.calls_new_of_pairwiseAgree (P := P) hruntime
    obtain ⟨supplied, hguest⟩ := LibraryCatalog.calls_new_of_pairwiseAgree (P := P) hguest
    have hmounts := ((Sources.insertions B store).forM_ok_iff Sources.holding_new).mpr
      ⟨by simp, hmounted⟩
    refine ⟨_, assemble_eq_ok_iff.mpr ⟨runtimeCatalog, supplied, hruntime, hguest,
      GuestBindings.exec_forM_mount_ok_iff.mpr ⟨fun handle hhandle => ⟨?_, ?_⟩,
        _, Prod.ext hmounts rfl, rfl⟩⟩⟩
    · exact ((LibraryCatalog.calls_new hruntime).2.checkBundle_iff handle).mpr fun earlier hmem =>
        hagrees _ (List.mem_map_of_mem hhandle) earlier (List.mem_append_left _ hmem)
    · exact ((LibraryCatalog.calls_new hguest).2.checkBundle_iff handle).mpr fun earlier hmem =>
        hagrees _ (List.mem_map_of_mem hhandle) earlier (List.mem_append_right _ hmem)
  · intro config' calls' guestCalls' mounts' hruntime hguest hmounts bindings h
    obtain ⟨runtimeCatalog, supplied, hcalls, hguestCalls, hrun⟩ := assemble_eq_ok_iff.mp h
    obtain ⟨runtimeCatalog', hcalls', hsame⟩ := LibraryCatalog.calls_of_same hruntime hcalls
    obtain ⟨supplied', hguestCalls', hsame'⟩ := LibraryCatalog.calls_of_same hguest hguestCalls
    obtain ⟨hchecks, sources, hinserts, rfl⟩ := GuestBindings.exec_forM_mount_ok_iff.mp hrun
    refine assemble_eq_ok_iff.mpr ⟨runtimeCatalog', supplied', hcalls', hguestCalls', ?_⟩
    rw [hsame, hsame']
    exact GuestBindings.exec_forM_mount_ok_iff.mpr
      ⟨fun handle hhandle => hchecks handle (hmounts.mem_iff.mpr hhandle), sources,
        (Sources.insertions B store).forM_perm (fun h => h.symm) Sources.holding_new
          (hmounts.map _) hinserts, rfl⟩

/-- Two libraries and a denial, given the one way round and the other. -/
theorem assemble_any_order_swapped :
    let B : Backend := ⟨Unit, Unit⟩
    let P : EngineTypes := ⟨Unit, Unit⟩
    let files : HostLibrary B P := ⟨[(⟨"fs".toList, ()⟩, none)], []⟩
    let paths : NativeLibrary B P := ⟨[.alias (.new "path".toList ()) "node:path".toList], []⟩
    let calls : List (RuntimeBuilderCall B P .empty) :=
      [.catalog (.bind files), .timeout 5, .catalog (.deny "net".toList),
        .catalog (.bindNative paths)]
    ∃ bindings, assemble () calls [] [] = .ok bindings ∧
      assemble () calls.reverse ([] : List (GuestBuilderCall B P .empty)) [] = .ok bindings := by
  intro B P files paths calls
  have hany := assemble_any_order () calls [] []
  have hagrees : PairwiseAgree
      ((RuntimeBuilderCall.catalogCalls calls).flatMap CatalogCall.insertions) := by
    refine List.pairwise_pair.mpr ⟨?_, nofun, nofun, nofun⟩
    show ∀ name ∈ ["fs".toList], name ∉ ["path".toList, "node:path".toList]
    decide
  obtain ⟨bindings, h⟩ := hany.1.mpr ⟨hagrees, .nil, .nil, nofun⟩
  refine ⟨bindings, h, hany.2 () calls.reverse [] [] ⟨?_, ?_⟩ ⟨.refl _, .refl _⟩ (.refl _) bindings h⟩
  · exact .swap _ _ _
  · exact .refl _

end GuestJs
