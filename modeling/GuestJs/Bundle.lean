import GuestJs.Library.Segments
import Mathlib.Data.List.Nodup
import Std.Data.ExtTreeMap
import Std.Data.ExtTreeSet

/-!
# Module names and bundles

A name is a Rust string, kept as its characters. A bundle is a map from names to module texts (and
of paths to data), with an identity drawn from a global counter when it is built: clones share the
identity, two builds never do.
-/

namespace GuestJs

abbrev Name := List Char

namespace ModuleName

def root (name : Name) : Name := (name.splitOn '/').headD name

def isWithin (name ancestor : Name) : Bool :=
  (name.dropPrefix? ancestor).any fun rest => rest.isEmpty || rest.head? == some '/'

def scriptExtensions : List Name := [".js".toList, ".mjs".toList, ".ts".toList, ".mts".toList]

def fromPath (path : Name) : Option Name :=
  (scriptExtensions.findSome? fun extension => path.dropSuffix? extension).filter fun name =>
    !name.isEmpty && name.getLast? != some '/'

theorem root_eq_first (name : Name) : root name = Segments.first '/' name := rfl

theorem isWithin_iff {name ancestor : Name} :
    isWithin name ancestor = true ↔ Segments.Within '/' ancestor name :=
  Segments.dropPrefix?_any_iff

/-- At a single segment the two tests the catalog makes, by root and by prefix, agree. -/
theorem isWithin_root_iff {name other : Name} :
    isWithin name (root other) = true ↔ root name = root other := by
  rw [isWithin_iff, root_eq_first,
    Segments.within_iff_first_eq (Segments.sep_not_mem_first other), root_eq_first]

theorem root_root (name : Name) : root (root name) = root name := by
  rw [root_eq_first, root_eq_first, Segments.first_of_not_mem (Segments.sep_not_mem_first name)]

theorem root_append_index (name : Name) : root (name ++ "/index".toList) = root name :=
  Segments.first_append_sep name "index".toList

end ModuleName

abbrev BundleId := Nat

structure Bundle where
  id : BundleId
  modules : Std.ExtTreeMap Name String
  data : Std.ExtTreeMap Name (List UInt8)

namespace Bundle

def names (bundle : Bundle) : List Name := bundle.modules.keys

def roots (bundle : Bundle) : List Name :=
  (Std.ExtTreeSet.ofList (bundle.names.map ModuleName.root)).toList

def root (bundle : Bundle) : Option Name :=
  match bundle.roots with
  | [root] => some root
  | _ => none

def contains (bundle : Bundle) (name : Name) : Bool := bundle.modules.contains name

theorem mem_roots {bundle : Bundle} {root : Name} :
    root ∈ bundle.roots ↔ ∃ name, bundle.contains name = true ∧ ModuleName.root name = root := by
  simp [roots, names, contains, Std.ExtTreeSet.mem_ofList]

theorem root_of_mem_roots {bundle : Bundle} {root : Name} (h : root ∈ bundle.roots) :
    ModuleName.root root = root := by
  obtain ⟨name, -, rfl⟩ := mem_roots.mp h
  exact ModuleName.root_root name

end Bundle

structure BundleStore where
  next : BundleId
  bundles : List Bundle
  fresh : ∀ bundle ∈ bundles, bundle.id < next
  distinct : (bundles.map Bundle.id).Nodup

namespace BundleStore

def empty : BundleStore where
  next := 1
  bundles := []
  fresh := by simp
  distinct := by simp

/-- `Bundle::new`: the next identity, over the maps the builder collected. -/
def build (store : BundleStore) (modules : Std.ExtTreeMap Name String)
    (data : Std.ExtTreeMap Name (List UInt8)) : BundleStore where
  next := store.next + 1
  bundles := ⟨store.next, modules, data⟩ :: store.bundles
  fresh := by
    intro bundle hmem
    rcases List.mem_cons.mp hmem with rfl | hmem
    · exact Nat.lt_succ_self _
    · exact (store.fresh bundle hmem).trans (Nat.lt_succ_self _)
  distinct := by
    refine List.nodup_cons.mpr ⟨?_, store.distinct⟩
    rintro hmem
    obtain ⟨bundle, hbundle, hid⟩ := List.mem_map.mp hmem
    exact (store.fresh bundle hbundle).ne hid

/-- A bundle that has been built, or a clone of it. -/
abbrev Handle (store : BundleStore) : Type := { bundle : Bundle // bundle ∈ store.bundles }

theorem eq_of_id_eq {store : BundleStore} {first second : Bundle} (hfirst : first ∈ store.bundles)
    (hsecond : second ∈ store.bundles) (hid : first.id = second.id) : first = second :=
  List.inj_on_of_nodup_map store.distinct hfirst hsecond hid

end BundleStore

end GuestJs
