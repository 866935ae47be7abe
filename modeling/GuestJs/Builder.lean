import GuestJs.Imports
import GuestJs.Policy

/-!
# Builders

A runtime and a guest are put together by methods that consume the builder and give it back. What goes
wrong in the catalog is kept inside until the end: the first error stays, and what is inserted after
it is not looked at. Initializers run when the guest is built.
-/

namespace GuestJs

open Fallible

/-- What a builder deals with besides modules: the configurations of the engine, and the guests it
makes. -/
structure EngineTypes where
  Config : Type
  Guest : Type

/-- A guest with what it resolves names in. -/
structure BoundGuest (B : Backend) (P : EngineTypes) where
  bindings : GuestBindings B
  guest : P.Guest

/-- Code of the host that is run in a guest when that is built. It may mount bundles. -/
abbrev Initializer (B : Backend) (P : EngineTypes) := Fallible (BoundGuest B P) Error Unit

variable {B : Backend} {P : EngineTypes}

/-- The modules of a library with their own initializers, and the library's initializers. -/
structure HostLibrary (B : Backend) (P : EngineTypes) where
  modules : List (ModuleDeclaration B × Option (Initializer B P))
  initializers : List (Initializer B P)

structure NativeLibrary (B : Backend) (P : EngineTypes) where
  modules : List (NativeModule B)
  initializers : List (Initializer B P)

namespace HostLibrary

def new : HostLibrary B P := ⟨[], []⟩

def extend (library added : HostLibrary B P) : HostLibrary B P :=
  ⟨library.modules ++ added.modules, library.initializers ++ added.initializers⟩

end HostLibrary

namespace NativeLibrary

def new : NativeLibrary B P := ⟨[], []⟩

def extend (library added : NativeLibrary B P) : NativeLibrary B P :=
  ⟨library.modules ++ added.modules, library.initializers ++ added.initializers⟩

end NativeLibrary

/-- A catalog with the initializers of its libraries. -/
structure LibraryCatalog (B : Backend) (P : EngineTypes) where
  catalog : Catalog B
  hostInitializers : List (Initializer B P)
  nativeInitializers : List (Initializer B P)

namespace LibraryCatalog

def new : LibraryCatalog B P := ⟨.new, [], []⟩

/-- The initializers of the modules come before those of the library. -/
def host (supplied : LibraryCatalog B P) (library : HostLibrary B P) :
    Except Error (LibraryCatalog B P) := do
  let catalog ← supplied.catalog.host (library.modules.map Prod.fst)
  pure { supplied with
    catalog
    hostInitializers := supplied.hostInitializers ++
      (library.modules.filterMap Prod.snd ++ library.initializers) }

def native (supplied : LibraryCatalog B P) (library : NativeLibrary B P) :
    Except Error (LibraryCatalog B P) := do
  let catalog ← supplied.catalog.native library.modules
  pure { supplied with
    catalog, nativeInitializers := supplied.nativeInitializers ++ library.initializers }

def bundle (supplied : LibraryCatalog B P) (bundle : Bundle) :
    Except Error (LibraryCatalog B P) := do
  let catalog ← supplied.catalog.bundle bundle
  pure { supplied with catalog }

def deny (supplied : LibraryCatalog B P) (name : Name) : LibraryCatalog B P :=
  { supplied with catalog := supplied.catalog.deny name }

end LibraryCatalog

/-- The calls that both builders have and that reach the catalog. -/
inductive CatalogCall (B : Backend) (P : EngineTypes) (store : BundleStore) where
  | bind (library : HostLibrary B P)
  | bindNative (library : NativeLibrary B P)
  | bundle (bundle : store.Handle)
  | deny (name : Name)

variable {store : BundleStore}

def LibraryCatalog.call (supplied : LibraryCatalog B P) :
    CatalogCall B P store → Except Error (LibraryCatalog B P)
  | .bind library => supplied.host library
  | .bindNative library => supplied.native library
  | .bundle bundle => supplied.bundle bundle.1
  | .deny name => .ok (supplied.deny name)

/-! ### Runtimes -/

inductive RuntimeBuilderCall (B : Backend) (P : EngineTypes) (store : BundleStore) where
  | config (config : P.Config)
  | catalog (call : CatalogCall B P store)
  | policy (policy : ExecutionPolicy)
  | timeout (timeout : Duration)
  | cancellation (signal : CancelSignal)

structure RuntimeBuilder (B : Backend) (P : EngineTypes) where
  config : P.Config
  policy : ExecutionPolicy
  catalog : Except Error (LibraryCatalog B P)

structure Runtime (B : Backend) (P : EngineTypes) where
  config : P.Config
  policy : ExecutionPolicy
  catalog : LibraryCatalog B P

/-- What the engine answers when a runtime or a guest is made, and when a guest is entered. -/
structure Engines (P : EngineTypes) where
  engine : P.Config → Except Error Unit
  install : P.Config → Except Error Unit
  newGuest : P.Config → ExecutionPolicy → Except Error P.Guest
  enter : P.Guest → Except Error Unit

namespace RuntimeBuilder

def new (config : P.Config) : RuntimeBuilder B P := ⟨config, .new, .ok .new⟩

def call (builder : RuntimeBuilder B P) : RuntimeBuilderCall B P store → RuntimeBuilder B P
  | .config config => { builder with config }
  | .catalog call =>
      { builder with catalog := builder.catalog.bind fun supplied => supplied.call call }
  | .policy policy => { builder with policy }
  | .timeout timeout => { builder with policy := { builder.policy with timeout := some timeout } }
  | .cancellation signal =>
      { builder with policy := { builder.policy with cancellation := some signal } }

def build (engines : Engines P) (builder : RuntimeBuilder B P) : Except Error (Runtime B P) := do
  let catalog ← builder.catalog
  engines.engine builder.config
  engines.install builder.config
  pure ⟨builder.config, builder.policy, catalog⟩

end RuntimeBuilder

/-! ### Guests -/

inductive GuestBuilderCall (B : Backend) (P : EngineTypes) (store : BundleStore) where
  | catalog (call : CatalogCall B P store)
  | policy (policy : ExecutionPolicy)
  | timeout (timeout : Duration)

structure GuestBuilder (B : Backend) (P : EngineTypes) where
  runtime : Runtime B P
  policy : ExecutionPolicy
  catalog : Except Error (LibraryCatalog B P)

namespace GuestBuilder

def new (runtime : Runtime B P) : GuestBuilder B P := ⟨runtime, runtime.policy, .ok .new⟩

def call (builder : GuestBuilder B P) : GuestBuilderCall B P store → GuestBuilder B P
  | .catalog call =>
      { builder with catalog := builder.catalog.bind fun supplied => supplied.call call }
  | .policy policy => { builder with policy }
  | .timeout timeout => { builder with policy := { builder.policy with timeout := some timeout } }

/-- The runtime's before the guest's, and host initializers before native ones. -/
def initializers (runtime guest : LibraryCatalog B P) : List (Initializer B P) :=
  runtime.hostInitializers ++ guest.hostInitializers ++
    (runtime.nativeInitializers ++ guest.nativeInitializers)

def build (engines : Engines P) (builder : GuestBuilder B P) : Except Error (BoundGuest B P) := do
  let supplied ← builder.catalog
  let guest ← engines.newGuest builder.runtime.config builder.policy
  engines.enter guest
  let bindings := GuestBindings.new builder.runtime.catalog.catalog supplied.catalog
  let (result, built) :=
    exec ((initializers builder.runtime.catalog supplied).forM id) ⟨bindings, guest⟩
  result.map fun _ => built

end GuestBuilder

/-- What a guest resolves names in when its runtime and itself are given these calls and these bundles
are then mounted on it. -/
def assemble (config : P.Config) (calls : List (RuntimeBuilderCall B P store))
    (guestCalls : List (GuestBuilderCall B P store)) (mounts : List store.Handle) :
    Except Error (GuestBindings B) := do
  let builder := calls.foldl RuntimeBuilder.call (.new config)
  let runtime ← builder.catalog
  let guest := guestCalls.foldl GuestBuilder.call (.new ⟨builder.config, builder.policy, runtime⟩)
  let supplied ← guest.catalog
  let (result, bindings) := exec (mounts.forM fun bundle => GuestBindings.mount bundle.1)
    (.new runtime.catalog supplied.catalog)
  result.map fun _ => bindings

end GuestJs
