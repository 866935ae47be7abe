import GuestJs.Host.ClassDeclaration
import GuestJs.Library.Merged
import GuestJs.QuickJs.Classes
import GuestJs.QuickJs.Values

/-!
# Namespaces

Properties declared under keys, and what installing them asks of the guest. A declaration is anything
that can be realised under a name: a function, a value of the host, a class, an exception or another
namespace. Realising one works in the session of the guest and may run code of the guest's.
-/

namespace GuestJs.Declarations

open QuickJs (Engine Op newString wellKnown newObject define)
open QuickJs.BackendCallables (newFunction)

variable {E : Engine}

/-- `Declaration<B>`: what `realise` does with the state of the module and a name. -/
abbrev Declaration (E : Engine) := HostState → String → Op E Value

abbrev Requirement := HostState → Except Error Unit

/-- A function of the host by the item it calls, with what calling it requires of the state. -/
structure FunctionDeclaration where
  body : String
  requirements : List Requirement

def FunctionDeclaration.realise (function : FunctionDeclaration) : Declaration E :=
  fun state name => do
    function.requirements.forM fun requirement => Process.check fun _ => requirement state
    newFunction name 0

inductive PropertyDeclaration (E : Engine) where
  | value (declaration : Declaration E) (writable enumerable configurable : Bool)
  | accessor (get set : Option FunctionDeclaration) (enumerable configurable : Bool)

namespace PropertyDeclaration

def ofValue (declaration : Declaration E) : PropertyDeclaration E :=
  .value declaration true false true

def constant (declaration : Declaration E) : PropertyDeclaration E :=
  .value declaration false false false

def getter (get : FunctionDeclaration) : PropertyDeclaration E :=
  .accessor (some get) none false true

def setter (set : FunctionDeclaration) : PropertyDeclaration E :=
  .accessor none (some set) false true

def merge : PropertyDeclaration E → PropertyDeclaration E → PropertyDeclaration E
  | .accessor get set _ _, .accessor laterGet laterSet enumerable configurable =>
      .accessor (laterGet.or get) (laterSet.or set) enumerable configurable
  | _, later => later

def realiseAccessor (state : HostState) (accessor : Option FunctionDeclaration) (name : String) :
    Op E (Option Value) :=
  match accessor with
  | some accessor => some <$> accessor.realise state name
  | none => pure none

def realise (state : HostState) (key : PropertyKey) : PropertyDeclaration E → Op E Property
  | .value declaration writable enumerable configurable => do
      let value ← declaration state key.functionName
      pure (.value value writable enumerable configurable)
  | .accessor get set enumerable configurable => do
      let get ← realiseAccessor state get ("get " ++ key.functionName)
      let set ← realiseAccessor state set ("set " ++ key.functionName)
      pure (.accessor get set enumerable configurable)

end PropertyDeclaration

def keyToGuest : PropertyKey → Op E Value
  | .name name => newString name
  | .symbol symbol => wellKnown symbol

structure NamespaceDeclaration (E : Engine) where
  properties : List (PropertyKey × PropertyDeclaration E)

namespace NamespaceDeclaration

def new : NamespaceDeclaration E := ⟨[]⟩

def property (ns : NamespaceDeclaration E) (key : PropertyKey) (property : PropertyDeclaration E) :
    NamespaceDeclaration E :=
  ⟨Merged.upsert PropertyDeclaration.merge key property ns.properties⟩

def value (ns : NamespaceDeclaration E) (key : PropertyKey) (declaration : Declaration E) :
    NamespaceDeclaration E :=
  ns.property key (.ofValue declaration)

def constant (ns : NamespaceDeclaration E) (key : PropertyKey) (declaration : Declaration E) :
    NamespaceDeclaration E :=
  ns.property key (.constant declaration)

def function (ns : NamespaceDeclaration E) (key : PropertyKey) (function : FunctionDeclaration) :
    NamespaceDeclaration E :=
  ns.property key (.ofValue function.realise)

def getter (ns : NamespaceDeclaration E) (key : PropertyKey) (get : FunctionDeclaration) :
    NamespaceDeclaration E :=
  ns.property key (.getter get)

def setter (ns : NamespaceDeclaration E) (key : PropertyKey) (set : FunctionDeclaration) :
    NamespaceDeclaration E :=
  ns.property key (.setter set)

/-- A key and its property, realised for an installation. -/
def realiseEntry (state : HostState) (entry : PropertyKey × PropertyDeclaration E) :
    Op E (Value × Property) := do
  let key ← keyToGuest entry.1
  let property ← entry.2.realise state entry.1
  pure (key, property)

def install (ns : NamespaceDeclaration E) (state : HostState) (target : Value) : Op E Unit := do
  let realised ← ns.properties.mapM (realiseEntry state)
  realised.forM fun (key, property) => define target key property

def realise (ns : NamespaceDeclaration E) : Declaration E := fun state name => do
  let object ← newObject
  define object (← wellKnown .toStringTag) (.value (← newString name) false false true)
  ns.install state object
  pure object

def namespace_ (ns : NamespaceDeclaration E) (key : PropertyKey) (nested : NamespaceDeclaration E) :
    NamespaceDeclaration E :=
  ns.property key (.ofValue nested.realise)

/-- A namespace as a sequence of declarations leaves it. -/
def declared (declarations : List (PropertyKey × PropertyDeclaration E)) : NamespaceDeclaration E :=
  declarations.foldl (fun ns declaration => ns.property declaration.1 declaration.2) new

end NamespaceDeclaration

/-! ### The declarations of a class -/

/-- What a property of a class declares, by what its functions and the values it names are. -/
def PropertyDeclaration.ofClass (function : GuestJs.FunctionDeclaration → FunctionDeclaration)
    (item : String → Declaration E) : GuestJs.PropertyDeclaration → PropertyDeclaration E
  | .value (.function body) writable enumerable configurable =>
      .value (function body).realise writable enumerable configurable
  | .value (.value name) writable enumerable configurable =>
      .value (item name) writable enumerable configurable
  | .accessor get set enumerable configurable =>
      .accessor (get.map function) (set.map function) enumerable configurable

def NamespaceDeclaration.ofClass (function : GuestJs.FunctionDeclaration → FunctionDeclaration)
    (item : String → Declaration E) (ns : GuestJs.NamespaceDeclaration) : NamespaceDeclaration E :=
  ⟨ns.properties.map (Prod.map id (PropertyDeclaration.ofClass function item))⟩

end GuestJs.Declarations
