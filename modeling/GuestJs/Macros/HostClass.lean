import GuestJs.Host.ClassDeclaration

/-!
# The host class macro

From an impl block to a class declaration: the members with their roles and keys, what the macro
rejects, and the declaration it emits. An impl is given as the macro has parsed it. The errors of
the parser and of resolving the backend only make fewer impls acceptable; an error is its message.
-/

namespace GuestJs

abbrev MacroError := String

inductive RenameRule where
  | lowercase
  | uppercase
  | pascalCase
  | camelCase
  | snakeCase
  | screamingSnakeCase
  | kebabCase
  | screamingKebabCase
  deriving DecidableEq

/-- What the rules make of an identifier: the case conversions of the standard library and of a
crate. -/
abbrev Casing := RenameRule → String → String

def Naming.member (apply : Casing) (ident : String) (name : Option String)
    (renameAll : Option RenameRule) : String :=
  name.getD (match renameAll with
    | some rule => apply rule ident
    | none => ident)

inductive MemberKey where
  | name (name : String)
  | symbol (symbol : WellKnown)
  deriving DecidableEq

namespace MemberKey

def new (apply : Casing) (ident : String) (name symbol : Option String)
    (rename : Option RenameRule) : Except MacroError MemberKey :=
  if name.isSome && symbol.isSome then .error "name and symbol cannot be combined"
  else match symbol with
    | none => .ok (.name (Naming.member apply ident name rename))
    | some "iterator" => .ok (.symbol .iterator)
    | some "asyncIterator" => .ok (.symbol .asyncIterator)
    | some "toPrimitive" => .ok (.symbol .toPrimitive)
    | some "toStringTag" => .ok (.symbol .toStringTag)
    | some "hasInstance" => .ok (.symbol .hasInstance)
    | some _ => .error "unknown JavaScript well-known symbol"

def render : MemberKey → PropertyKey
  | .name text => .name text
  | .symbol wellKnown => .symbol wellKnown

end MemberKey

inductive Registration where
  | data
  | get
  | set
  deriving DecidableEq

structure MemberRegistry where
  keys : List (MemberKey × Registration)

namespace MemberRegistry

def new : MemberRegistry := ⟨[]⟩

def insert (registry : MemberRegistry) (key : MemberKey) (role : Registration) :
    Except MacroError MemberRegistry :=
  if registry.keys.any fun (existing, previous) =>
      existing == key && (previous == role || previous == .data || role == .data) then
    .error "duplicate guest member registration"
  else .ok ⟨registry.keys ++ [(key, role)]⟩

end MemberRegistry

/-! ### Signatures -/

inductive ParameterRole where
  | value
  | borrow
  | borrowMut
  | rest
  | enter
  | this
  | thisRef
  | context
  | state (type : String)
  deriving DecidableEq

namespace ParameterRole

def isThis : ParameterRole → Bool
  | .this | .thisRef => true
  | _ => false

def stateType : ParameterRole → Option String
  | .state type => some type
  | _ => none

def consumesArgument : ParameterRole → Bool
  | .value | .borrow | .borrowMut | .rest => true
  | _ => false

def borrowsContextOrArgument : ParameterRole → Bool
  | .borrow | .borrowMut | .enter | .context | .thisRef => true
  | _ => false

end ParameterRole

inductive ReceiverSyntax where
  | none
  | shared
  | exclusive
  | other
  deriving DecidableEq

inductive Output where
  | omitted
  | unit
  | written
  deriving DecidableEq

/-- A signature as far as the macro looks at it. `foreign` is unsafe, of a foreign ABI or variadic,
`generic` has type or const parameters, and `hookArgument` says that the first argument is a mutable
reference without an attribute. -/
structure Signature where
  ident : String
  receiver : ReceiverSyntax
  parameters : List ParameterRole
  asynchronous : Bool
  foreign : Bool
  generic : Bool
  output : Output
  hookArgument : Bool

structure Callable where
  ident : String
  hasReceiver : Bool
  parameters : List ParameterRole
  asynchronous : Bool

namespace Callable

/-- No parameter after `rest` consumes an argument. -/
def restLast : List ParameterRole → Bool
  | [] => true
  | parameter :: rest =>
      (parameter != .rest || !rest.any (·.consumesArgument)) && restLast rest

def new (signature : Signature) : Except MacroError Callable :=
  if signature.foreign then
    .error "unsafe, foreign-ABI, and variadic host callables are unsupported"
  else if signature.generic then
    .error "host callables cannot declare type or const parameters"
  else if signature.output = .omitted then
    .error "a host callable requires a written return type"
  else if signature.receiver = .other then
    .error "a host receiver requires &self or &mut self"
  else if !restLast signature.parameters then
    .error "rest must be the last positional parameter"
  else .ok ⟨signature.ident, signature.receiver != .none, signature.parameters,
    signature.asynchronous⟩

def stateTypes (callable : Callable) : List String :=
  callable.parameters.filterMap ParameterRole.stateType

def require (condition : Bool) (message : MacroError) : Except MacroError Unit :=
  if condition then .ok () else .error message

def validateAsync (callable : Callable) (module : Bool) : Except MacroError Unit :=
  require (!(callable.asynchronous && ((!module && callable.hasReceiver) ||
      callable.parameters.any (·.borrowsContextOrArgument))))
    ("async host functions require owned arguments and no borrowed class receiver, context, " ++
      "entry, or this")

def validateConstructor (callable : Callable) : Except MacroError Unit :=
  require (!(callable.hasReceiver || callable.asynchronous))
    "a constructor must be synchronous and have no receiver"

def validateInstance (callable : Callable) : Except MacroError Unit :=
  require (callable.hasReceiver || callable.parameters.any (·.isThis))
    "an instance member requires a payload receiver or explicit this"

def validateGetter (callable : Callable) : Except MacroError Unit := do
  callable.validateInstance
  require (!(callable.asynchronous || callable.parameters.any (·.consumesArgument)))
    "a getter must be synchronous and consume no positional values"

def validateSetter (callable : Callable) : Except MacroError Unit := do
  callable.validateInstance
  require (!(callable.asynchronous || callable.parameters.countP (·.consumesArgument) != 1 ||
      callable.parameters.count .value != 1))
    "a setter must be synchronous and take one ordinary positional value"

def validateStatic (callable : Callable) : Except MacroError Unit :=
  require (!callable.hasReceiver) "a static member cannot have a payload receiver"

end Callable

/-! ### Members -/

inductive ClassRole where
  | constructor
  | method
  | asyncMethod
  | get
  | set
  | staticMethod
  | statics
  | constant
  deriving DecidableEq

/-- The helper attribute of an item: the roles it names, in the order of the source's table, and
its key. -/
structure ClassItemOptions where
  roles : List ClassRole
  name : Option String
  symbol : Option String

namespace ClassItemOptions

def role (options : ClassItemOptions) : Except MacroError ClassRole :=
  match options.roles with
  | [role] => .ok role
  | _ => .error "a class member requires exactly one guestjs role"

def key (options : ClassItemOptions) (apply : Casing) (ident : String)
    (rename : Option RenameRule) : Except MacroError MemberKey :=
  MemberKey.new apply ident options.name options.symbol rename

end ClassItemOptions

/-- An item of the impl with its helper attribute, if it has one that is not empty. -/
inductive ImplItem where
  | method (helpers : Option ClassItemOptions) (signature : Signature)
  | const (helpers : Option ClassItemOptions) (ident : String)

inductive ClassMember where
  | callable (role : ClassRole) (callable : Callable) (key : MemberKey)
  | hook (ident : String)
  | constant (ident : String) (key : MemberKey)

namespace ClassMember

def stateTypes : ClassMember → List String
  | .callable _ item _ => item.stateTypes
  | _ => []

def isStatic : ClassMember → Bool
  | .hook _ | .constant _ _ | .callable .staticMethod _ _ => true
  | _ => false

/-- What the code of a hook does to the namespace of the statics. -/
abbrev Hooks := String → NamespaceDeclaration → NamespaceDeclaration

/-- The statement the macro emits for a member: it changes the declaration or the namespace of the
statics. -/
def render (hooks : Hooks) :
    ClassMember → ClassDeclaration × NamespaceDeclaration → ClassDeclaration × NamespaceDeclaration
  | .hook ident, (declaration, ns) => (declaration, hooks ident ns)
  | .constant ident key, (declaration, ns) => (declaration, ns.constant key.render ident)
  | .callable role item key, (declaration, ns) =>
      match role with
      | .constructor => (declaration.construct item.ident, ns)
      | .staticMethod =>
          (declaration,
            if item.asynchronous then ns.functionAsync key.render item.ident
            else ns.function key.render item.ident)
      | .method => (declaration.method key.render item.ident, ns)
      | .asyncMethod => (declaration.methodAsync key.render item.ident, ns)
      | .get => (declaration.getter key.render item.ident, ns)
      | .set => (declaration.setter key.render item.ident, ns)
      | .statics | .constant => (declaration, ns)

end ClassMember

def NamespaceHook.new (signature : Signature) : Except MacroError ClassMember :=
  if signature.receiver ≠ .none || signature.asynchronous || signature.foreign ||
      signature.parameters.length ≠ 1 || signature.generic then
    .error "statics requires one mutable namespace argument and no receiver"
  else if signature.output = .written then .error "statics must return ()"
  else if !signature.hookArgument then
    .error "statics takes &mut NamespaceDeclaration<B> without injection"
  else .ok (.hook signature.ident)

structure ClassOptions where
  name : Option String
  renameAll : Option RenameRule

structure ItemImpl where
  target : String
  items : List ImplItem

structure HostClassDefinition where
  name : String
  members : List ClassMember
  requirements : List String

/-- What the loop over the items has collected. -/
structure Collected where
  members : List ClassMember
  prototype : MemberRegistry
  statics : MemberRegistry
  constructor : Bool

namespace HostClassDefinition

def registration : ClassRole → Registration
  | .get => .get
  | .set => .set
  | _ => .data

def validate (role : ClassRole) (callable : Callable) (constructor : Bool) :
    Except MacroError Unit :=
  match role with
  | .constructor => do
      callable.validateConstructor
      Callable.require (!constructor) "only one constructor is permitted"
  | .get => callable.validateGetter
  | .set => callable.validateSetter
  | .staticMethod => callable.validateStatic
  | .method | .asyncMethod => do
      callable.validateInstance
      Callable.require (!callable.asynchronous)
        "instance members use a synchronous function or future factory"
  | .statics | .constant => .ok ()

def collectCallable (collected : Collected) (role : ClassRole) (callable : Callable)
    (key : MemberKey) : Except MacroError Collected :=
  let members := collected.members ++ [.callable role callable key]
  match role with
  | .constructor => .ok { collected with members, constructor := true }
  | .staticMethod => do
      let statics ← collected.statics.insert key .data
      pure { collected with members, statics }
  | _ => do
      let prototype ← collected.prototype.insert key (registration role)
      pure { collected with members, prototype }

def collect (apply : Casing) (rename : Option RenameRule) (collected : Collected) :
    ImplItem → Except MacroError Collected
  | .method none _ | .const none _ => .ok collected
  | .method (some options) signature => do
      match ← options.role with
      | .statics =>
          let hook ← NamespaceHook.new signature
          pure { collected with members := collected.members ++ [hook] }
      | .constant => throw "constant requires an associated const"
      | role =>
          let key ← options.key apply signature.ident rename
          let callable ← Callable.new signature
          callable.validateAsync false
          validate role callable collected.constructor
          collectCallable collected role callable key
  | .const (some options) ident => do
      if (← options.role) ≠ .constant then throw "an exported const requires the constant role"
      let key ← options.key apply ident rename
      let statics ← collected.statics.insert key .data
      pure { collected with members := collected.members ++ [.constant ident key], statics }

/-- `StateRequirements::extend`, member by member. -/
def requirementsOf (members : List ClassMember) : List String :=
  (members.flatMap ClassMember.stateTypes).foldl
    (fun types type => if type ∈ types then types else types ++ [type]) []

def new (apply : Casing) (options : ClassOptions) (item : ItemImpl) :
    Except MacroError HostClassDefinition := do
  let collected ← item.items.foldlM (collect apply options.renameAll) ⟨[], .new, .new, false⟩
  pure ⟨Naming.member apply item.target options.name none, collected.members,
    requirementsOf collected.members⟩

/-- The declaration that the emitted code builds: the prototype's members first, then the statics,
each in the order of the impl. -/
def declaration (definition : HostClassDefinition) (hooks : ClassMember.Hooks) :
    ClassDeclaration :=
  let required := definition.requirements.foldl ClassDeclaration.require (.new definition.name)
  let members := definition.members.filter (!·.isStatic) ++ definition.members.filter (·.isStatic)
  let (declaration, ns) := members.foldl (fun built member => member.render hooks built)
    (required, .new)
  if definition.members.any (·.isStatic) then declaration.withStatics ns else declaration

end HostClassDefinition

end GuestJs
