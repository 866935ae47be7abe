import GuestJs.Backend
import GuestJs.Library.Fallible

/-!
# Class declarations

What a host declares of a class, and what realising the declaration puts on the two objects of the
class. The objects a realisation creates are named by what they are: the prototype, the
constructor, and the functions by the name and the body they are created with. So no value that
the host converts is one of them.
-/

namespace GuestJs

inductive PropertyKey where
  | name (name : String)
  | symbol (symbol : WellKnown)
  deriving DecidableEq

def PropertyKey.functionName : PropertyKey → String
  | .name text => text
  | .symbol .iterator => "[Symbol.iterator]"
  | .symbol .asyncIterator => "[Symbol.asyncIterator]"
  | .symbol .toPrimitive => "[Symbol.toPrimitive]"
  | .symbol .toStringTag => "[Symbol.toStringTag]"
  | .symbol .hasInstance => "[Symbol.hasInstance]"

/-- A function of the host by the item it calls. `asynchronous` bodies register their future and
return a promise. -/
structure FunctionDeclaration where
  body : String
  asynchronous : Bool
  deriving DecidableEq

inductive Declaration where
  | function (function : FunctionDeclaration)
  | value (item : String)
  deriving DecidableEq

inductive PropertyDeclaration where
  | value (declaration : Declaration) (writable enumerable configurable : Bool)
  | accessor (get set : Option FunctionDeclaration) (enumerable configurable : Bool)
  deriving DecidableEq

namespace PropertyDeclaration

def ofValue (declaration : Declaration) : PropertyDeclaration := .value declaration true false true

def constant (declaration : Declaration) : PropertyDeclaration :=
  .value declaration false false false

def getter (get : FunctionDeclaration) : PropertyDeclaration := .accessor (some get) none false true

def setter (set : FunctionDeclaration) : PropertyDeclaration := .accessor none (some set) false true

def merge : PropertyDeclaration → PropertyDeclaration → PropertyDeclaration
  | .accessor get set _ _, .accessor laterGet laterSet enumerable configurable =>
      .accessor (laterGet.or get) (laterSet.or set) enumerable configurable
  | _, later => later

end PropertyDeclaration

structure NamespaceDeclaration where
  properties : List (PropertyKey × PropertyDeclaration)

namespace NamespaceDeclaration

def new : NamespaceDeclaration := ⟨[]⟩

/-- The entry of a key is merged with a later one, and a new key comes last. -/
def insert (key : PropertyKey) (property : PropertyDeclaration) :
    List (PropertyKey × PropertyDeclaration) → List (PropertyKey × PropertyDeclaration)
  | [] => [(key, property)]
  | (existing, declared) :: rest =>
      if existing = key then (existing, declared.merge property) :: rest
      else (existing, declared) :: insert key property rest

def property (ns : NamespaceDeclaration) (key : PropertyKey) (property : PropertyDeclaration) :
    NamespaceDeclaration :=
  ⟨insert key property ns.properties⟩

def constant (ns : NamespaceDeclaration) (key : PropertyKey) (item : String) :
    NamespaceDeclaration :=
  ns.property key (.constant (.value item))

def function (ns : NamespaceDeclaration) (key : PropertyKey) (body : String) :
    NamespaceDeclaration :=
  ns.property key (.ofValue (.function ⟨body, false⟩))

def functionAsync (ns : NamespaceDeclaration) (key : PropertyKey) (body : String) :
    NamespaceDeclaration :=
  ns.property key (.ofValue (.function ⟨body, true⟩))

def getter (ns : NamespaceDeclaration) (key : PropertyKey) (body : String) :
    NamespaceDeclaration :=
  ns.property key (.getter ⟨body, false⟩)

def setter (ns : NamespaceDeclaration) (key : PropertyKey) (body : String) :
    NamespaceDeclaration :=
  ns.property key (.setter ⟨body, false⟩)

end NamespaceDeclaration

/-! ### The guest -/

inductive ClassObject where
  | prototype
  | constructor
  deriving DecidableEq

inductive ClassValue where
  | converted (value : Value)
  | function (name : String) (declaration : FunctionDeclaration)
  | object (object : ClassObject)
  deriving DecidableEq

inductive ClassProperty where
  | value (value : ClassValue) (writable enumerable configurable : Bool)
  | accessor (get set : Option ClassValue) (enumerable configurable : Bool)
  deriving DecidableEq

namespace ClassProperty

def enumerable : ClassProperty → Bool
  | .value _ _ enumerable _ => enumerable
  | .accessor _ _ enumerable _ => enumerable

def configurable : ClassProperty → Bool
  | .value _ _ _ configurable => configurable
  | .accessor _ _ _ configurable => configurable

/-- Whether a definition that gives every field of a property may replace a present one. -/
def replaceable (current property : ClassProperty) : Bool :=
  current.configurable ||
    (!property.configurable && property.enumerable == current.enumerable &&
      match current, property with
      | .value held writable _ _, .value held' writable' _ _ =>
          writable || (!writable' && held == held')
      | .accessor get set _ _, .accessor get' set' _ _ => get == get' && set == set'
      | _, _ => false)

end ClassProperty

/-- The own properties of an object. -/
abbrev Properties := PropertyKey → Option ClassProperty

/-- The calls into the engine that realising a class makes. -/
inductive EngineCall where
  | newObject
  | newConstructor (name : String)
  | key (target : ClassObject) (key : PropertyKey)
  | newFunction (target : ClassObject) (name : String)
  | define (target : ClassObject) (key : PropertyKey)
  | link (target : ClassObject)

/-- A guest in which a class is realised: which calls fail whatever they are asked, as with no
memory left or while a slice is lent, what converting the host's values gives, and the error of a
definition that the present property rules out. -/
structure Realiser where
  fault : EngineCall → Option Error
  convert : String → Except Error Value
  refusal : Error

namespace Realiser

variable (guest : Realiser)

def attempt (call : EngineCall) : Except Error Unit :=
  match guest.fault call with
  | some error => .error error
  | none => .ok ()

/-- `B::define`, as a complete definition is validated. -/
def define (call : EngineCall) (target : Properties) (key : PropertyKey)
    (property : ClassProperty) : Except Error Properties := do
  guest.attempt call
  if (target key).all (·.replaceable property) then
    pure (fun other => if other = key then some property else target other)
  else throw guest.refusal

end Realiser

def Declaration.realise (guest : Realiser) (target : ClassObject) (name : String) :
    Declaration → Except Error ClassValue
  | .function declaration => do
      guest.attempt (.newFunction target name)
      pure (.function name declaration)
  | .value item => (guest.convert item).map .converted

def PropertyDeclaration.realiseAccessor (guest : Realiser) (target : ClassObject)
    (accessor : Option FunctionDeclaration) (name : String) : Except Error (Option ClassValue) :=
  match accessor with
  | none => .ok none
  | some accessor => ((Declaration.function accessor).realise guest target name).map some

def PropertyDeclaration.realise (guest : Realiser) (target : ClassObject) (key : PropertyKey) :
    PropertyDeclaration → Except Error ClassProperty
  | .value declaration writable enumerable configurable => do
      let value ← declaration.realise guest target key.functionName
      pure (.value value writable enumerable configurable)
  | .accessor get set enumerable configurable => do
      let get ← realiseAccessor guest target get ("get " ++ key.functionName)
      let set ← realiseAccessor guest target set ("set " ++ key.functionName)
      pure (.accessor get set enumerable configurable)

def NamespaceDeclaration.realiseEntry (guest : Realiser) (target : ClassObject)
    (entry : PropertyKey × PropertyDeclaration) : Except Error (PropertyKey × ClassProperty) := do
  guest.attempt (.key target entry.1)
  let property ← entry.2.realise guest target entry.1
  pure (entry.1, property)

/-- All properties are realised before the first is defined. -/
def NamespaceDeclaration.install (ns : NamespaceDeclaration) (guest : Realiser)
    (target : ClassObject) (object : Properties) : Except Error Properties := do
  let realised ← ns.properties.mapM (realiseEntry guest target)
  realised.foldlM (fun object entry => guest.define (.define target entry.1) object entry.1 entry.2)
    object

/-! ### Classes -/

/-- The one state value a module has, by its type. -/
abbrev HostState := Option String

/-- The check of a `ModuleState` requirement. -/
def HostState.check (state : HostState) (required : String) : Except Error Unit :=
  if state = some required then .ok ()
  else .error (.unexpected ("host state does not contain " ++ required) none)

structure ClassDeclaration where
  name : String
  constructor : Option FunctionDeclaration
  prototype : NamespaceDeclaration
  statics : NamespaceDeclaration
  requirements : List String

/-- The two objects of a realised class with their own properties. -/
structure ClassObjects where
  prototype : Properties
  constructor : Properties

namespace ClassObjects

/-- `RealisedClass::link`. -/
def link (guest : Realiser) (constructor prototype : Properties) : Except Error ClassObjects := do
  let constructor ← guest.define (.link .constructor) constructor (.name "prototype")
    (.value (.object .prototype) false false false)
  let prototype ← guest.define (.link .prototype) prototype (.name "constructor")
    (.value (.object .constructor) true false true)
  pure ⟨prototype, constructor⟩

end ClassObjects

/-- The own properties of a function that has just been created. -/
def Properties.ofFunction (name : String) : Properties
  | .name "name" => some (.value (.converted (.string name)) false false true)
  | .name "length" => some (.value (.converted (.number (.finite 0))) false false true)
  | _ => none

namespace ClassDeclaration

def new (name : String) : ClassDeclaration := ⟨name, none, .new, .new, []⟩

def require (declaration : ClassDeclaration) (state : String) : ClassDeclaration :=
  { declaration with requirements := declaration.requirements ++ [state] }

def construct (declaration : ClassDeclaration) (body : String) : ClassDeclaration :=
  { declaration with constructor := some ⟨body, false⟩ }

def method (declaration : ClassDeclaration) (key : PropertyKey) (body : String) :
    ClassDeclaration :=
  { declaration with prototype := declaration.prototype.function key body }

def methodAsync (declaration : ClassDeclaration) (key : PropertyKey) (body : String) :
    ClassDeclaration :=
  { declaration with prototype := declaration.prototype.functionAsync key body }

def getter (declaration : ClassDeclaration) (key : PropertyKey) (body : String) :
    ClassDeclaration :=
  { declaration with prototype := declaration.prototype.getter key body }

def setter (declaration : ClassDeclaration) (key : PropertyKey) (body : String) :
    ClassDeclaration :=
  { declaration with prototype := declaration.prototype.setter key body }

def withStatics (declaration : ClassDeclaration) (statics : NamespaceDeclaration) :
    ClassDeclaration :=
  { declaration with statics := statics }

/-- What realises the class when the guest has not realised one for the type before. -/
def build (declaration : ClassDeclaration) (guest : Realiser) : Except Error ClassObjects := do
  guest.attempt .newObject
  let prototype ← declaration.prototype.install guest .prototype fun _ => none
  guest.attempt (.newConstructor declaration.name)
  let constructor ← declaration.statics.install guest .constructor (.ofFunction declaration.name)
  ClassObjects.link guest constructor prototype

def realised (declaration : ClassDeclaration) (guest : Realiser) (state : HostState)
    (cached : Option ClassObjects) : Except Error ClassObjects := do
  declaration.requirements.forM state.check
  match cached with
  | some realised => pure realised
  | none => declaration.build guest

end ClassDeclaration

end GuestJs
