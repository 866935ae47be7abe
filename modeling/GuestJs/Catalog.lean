import GuestJs.Bundle
import GuestJs.Errors
import GuestJs.Library.Fallible

/-!
# The catalog of modules

A table of sources maps names to modules in three ways: a host or native module under its name, a
native module's aliases to that name, and a bundle under the root of each of its modules. An
insertion checks every name it brings against all three before it writes any of them.
-/

namespace GuestJs

open Fallible

/-- What a backend's modules are made of: the members a host module declares, and the backend's own
native modules. -/
structure Backend where
  Members : Type
  Native : Type

structure ModuleDeclaration (B : Backend) where
  name : Name
  members : B.Members

/-- A native module. Its aliases are distinct and none is its own name: `alias` drops the rest. -/
structure NativeModule (B : Backend) where
  name : Name
  aliases : List Name
  native : B.Native
  nodup : aliases.Nodup
  name_notMem : name ∉ aliases

namespace NativeModule

variable {B : Backend}

def new (name : Name) (native : B.Native) : NativeModule B where
  name := name
  aliases := []
  native := native
  nodup := List.nodup_nil
  name_notMem := List.not_mem_nil

def «alias» (module : NativeModule B) (added : Name) : NativeModule B :=
  if h : added ≠ module.name ∧ added ∉ module.aliases then
    { module with
      aliases := module.aliases ++ [added]
      nodup := by
        rw [List.nodup_append_comm]
        exact List.nodup_cons.mpr ⟨h.2, module.nodup⟩
      name_notMem := by
        rw [List.mem_append, List.mem_singleton, not_or]
        exact ⟨module.name_notMem, h.1.symm⟩ }
  else module

end NativeModule

inductive ModuleSource (B : Backend) where
  | host (module : ModuleDeclaration B)
  | native (module : NativeModule B)
  | bundle (bundle : Bundle)

def ModuleSource.isHost {B : Backend} : ModuleSource B → Bool
  | .bundle _ => false
  | .host _ | .native _ => true

structure DeniedNames where
  names : Std.ExtTreeSet Name

namespace DeniedNames

def new : DeniedNames := ⟨∅⟩

def insert (denied : DeniedNames) (name : Name) : DeniedNames := ⟨denied.names.insert name⟩

def denies (denied : DeniedNames) (name : Name) : Bool :=
  denied.names.toList.any fun deniedName => ModuleName.isWithin name deniedName

end DeniedNames

structure Sources (B : Backend) where
  modules : Std.ExtTreeMap Name (ModuleSource B)
  aliases : Std.ExtTreeMap Name Name
  bundles : Std.ExtTreeMap Name Bundle

namespace Sources

variable {B : Backend}

def new : Sources B := ⟨∅, ∅, ∅⟩

def claim (sources : Sources B) (name : Name) : Except Error Unit :=
  match sources.modules.contains name || sources.aliases.contains name
      || sources.bundles.contains (ModuleName.root name) with
  | true => .error (.importing (String.ofList name) "the name is already in use")
  | false => .ok ()

/-- The bundle a name resolves in: the owner of its root, when it has a module of that name. -/
def bundle (sources : Sources B) (name : Name) : Option Bundle :=
  sources.bundles[ModuleName.root name]?.filter fun bundle => bundle.contains name

def insertHost (module : ModuleDeclaration B) : Fallible (Sources B) Error Unit := do
  check fun sources => sources.claim module.name
  modify fun sources =>
    { sources with modules := sources.modules.insert module.name (.host module) }

def insertNative (module : NativeModule B) : Fallible (Sources B) Error Unit := do
  check fun sources => sources.claim module.name
  module.aliases.forM fun added => check fun sources => sources.claim added
  modify fun sources =>
    { sources with
      aliases := sources.aliases.insertMany (module.aliases.map fun added => (added, module.name)) }
  modify fun sources =>
    { sources with modules := sources.modules.insert module.name (.native module) }

def checkRoot (sources : Sources B) (bundle : Bundle) (root : Name) : Except Error Unit :=
  match sources.bundles[root]? with
  | some owner =>
      if owner.id = bundle.id then .ok ()
      else .error (.importing (String.ofList root) "a different bundle already owns this root")
  | none =>
      if (sources.modules.keys ++ sources.aliases.keys).any fun name =>
          ModuleName.isWithin name root then
        .error (.importing (String.ofList root) "the root is already in use")
      else .ok ()

def checkBundle (sources : Sources B) (bundle : Bundle) : Except Error Unit :=
  bundle.roots.forM fun root => sources.checkRoot bundle root

def insertBundle (bundle : Bundle) : Fallible (Sources B) Error Unit := do
  check fun sources => sources.checkBundle bundle
  modify fun sources =>
    { sources with
      bundles := sources.bundles.insertMany (bundle.roots.map fun root => (root, bundle)) }

def «alias» (sources : Sources B) (name : Name) : Option Name := sources.aliases[name]?

def canonical (sources : Sources B) (name : Name) : Option Name :=
  match sources.modules.contains name || (sources.bundle name).isSome with
  | true => some name
  | false => sources.alias name

def find (sources : Sources B) (name : Name) : Option (ModuleSource B) :=
  sources.modules[name]?.or ((sources.bundle name).map .bundle)

end Sources

inductive Insertion (B : Backend) where
  | host (module : ModuleDeclaration B)
  | native (module : NativeModule B)
  | bundle (bundle : Bundle)

namespace Insertion

variable {B : Backend}

def insert : Insertion B → Fallible (Sources B) Error Unit
  | .host declaration => Sources.insertHost declaration
  | .native module => Sources.insertNative module
  | .bundle added => Sources.insertBundle added

end Insertion

/-- The table after some insertions, each of which may fail: a failed one leaves what it wrote. -/
def Sources.insertAll {B : Backend} (sources : Sources B) (insertions : List (Insertion B)) :
    Sources B :=
  insertions.foldl (fun sources insertion => (exec insertion.insert sources).2) sources

/-- A module catalog, as far as resolution reads it: initializers only run. -/
structure Catalog (B : Backend) where
  sources : Sources B
  denied : DeniedNames

namespace Catalog

variable {B : Backend}

def new : Catalog B := ⟨.new, .new⟩

/-- A method that consumes the catalog: a failure drops it with everything inserted so far. -/
def extend (catalog : Catalog B) (insertion : Fallible (Sources B) Error Unit) :
    Except Error (Catalog B) :=
  match exec insertion catalog.sources with
  | (.ok (), sources) => .ok { catalog with sources }
  | (.error error, _) => .error error

def host (catalog : Catalog B) (library : List (ModuleDeclaration B)) : Except Error (Catalog B) :=
  catalog.extend (library.forM Sources.insertHost)

def native (catalog : Catalog B) (library : List (NativeModule B)) : Except Error (Catalog B) :=
  catalog.extend (library.forM Sources.insertNative)

def bundle (catalog : Catalog B) (bundle : Bundle) : Except Error (Catalog B) :=
  catalog.extend (Sources.insertBundle bundle)

def deny (catalog : Catalog B) (name : Name) : Catalog B :=
  { catalog with denied := catalog.denied.insert name }

inductive Built (store : BundleStore) : Catalog B → Prop where
  | new : Built store new
  | host {catalog extended : Catalog B} (library : List (ModuleDeclaration B)) :
      Built store catalog → catalog.host library = .ok extended → Built store extended
  | native {catalog extended : Catalog B} (library : List (NativeModule B)) :
      Built store catalog → catalog.native library = .ok extended → Built store extended
  | bundle {catalog extended : Catalog B} (bundle : store.Handle) :
      Built store catalog → catalog.bundle bundle.1 = .ok extended → Built store extended
  | deny {catalog : Catalog B} (name : Name) :
      Built store catalog → Built store (catalog.deny name)

end Catalog

end GuestJs
