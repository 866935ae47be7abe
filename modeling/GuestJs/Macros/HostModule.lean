import GuestJs.Macros.Callback

/-!
# The host module macro

From an impl block to a module declaration: the exports with their roles and names, what the macro
rejects, and what the state of the module has to be. Types stand under their resolved names, so that
`Self` is the target of the impl.
-/

namespace GuestJs

inductive ModuleRole where
  | function
  | asyncFunction
  | constant
  | «namespace»
  | state
  | init
  | build
  deriving DecidableEq

/-- The helper attribute of an item: the roles it names, in the order of the source's table. -/
structure ModuleItemOptions where
  roles : List ModuleRole
  default : Bool
  name : Option String

def ModuleItemOptions.resolve (options : ModuleItemOptions) (apply : Casing) (ident : String)
    (rename : Option RenameRule) : Except MacroError (ModuleRole × String) :=
  match options.roles with
  | [role] =>
      if options.default && (role == .state || role == .init || role == .build) then
        .error "only an export can be the default export"
      else if options.default && options.name.isSome then
        .error "a default export cannot have a guest-visible name"
      else .ok (role,
        if options.default then "default" else Naming.member apply ident options.name rename)
  | _ => .error "a module member requires exactly one guestjs role"

inductive ModuleReceiver where
  | none
  | shared
  deriving DecidableEq

namespace ModuleReceiver

def new : ReceiverSyntax → Except MacroError ModuleReceiver
  | .none => .ok .none
  | .shared => .ok .shared
  | .exclusive | .other => .error "a module receiver requires &self"

def requiresState : ModuleReceiver → Bool
  | .shared => true
  | .none => false

/-- The receiver is the state of the module. -/
def expression (self : String) : ModuleReceiver → Option Expression
  | .none => .none
  | .shared => some (.state self)

end ModuleReceiver

namespace Callable

def validateNamespaceFactory (callable : Callable) : Except MacroError Unit :=
  require (!(callable.hasReceiver || callable.asynchronous || !callable.parameters.isEmpty))
    "a namespace factory must be synchronous and take no arguments"

def validateFactory (callable : Callable) (role : String) : Except MacroError Unit :=
  require (!(callable.hasReceiver || callable.asynchronous ||
      callable.parameters.any (· != .enter)))
    (role ++ " must be synchronous and accept only injected entry parameters")

def validateBuildHook (callable : Callable) : Except MacroError Unit :=
  require (!(callable.hasReceiver || callable.asynchronous || callable.parameters != [.value]))
    "a build hook must be synchronous and take only the module declaration"

/-- `module_callback`: the arguments of an asynchronous function and then its receiver are evaluated
before the future is made. `borrowed` is the payload that a borrowed parameter refers to. -/
def moduleExpressions (callable : Callable) (self : String) (receiver : ModuleReceiver)
    (borrowed : Nat → Option PayloadType) : List Expression :=
  let parameters : List Parameter :=
    callable.parameters.mapIdx fun index role => ⟨role, borrowed index⟩
  let arguments := parameters.map Parameter.expression
  if callable.asynchronous then arguments ++ (receiver.expression self).toList
  else (receiver.expression self).toList ++ arguments

/-- `class_callback` of a callable that the class macro has parsed. -/
def classExpressions (callable : Callable) (self : PayloadType) (receiver : Receiver)
    (borrowed : Nat → Option PayloadType) : List Expression :=
  ClassCallback.expressions ⟨self, receiver, callable.parameters.mapIdx fun index role =>
    ⟨role, borrowed index⟩, callable.asynchronous⟩

end Callable

inductive ModuleMember where
  | function (callable : Callable) (receiver : ModuleReceiver) (asynchronous : Bool) (name : String)
  | «namespace» (callable : Callable) (name : String)
  | constant (ident : String) (name : String)

namespace ModuleMember

def name : ModuleMember → String
  | .function _ _ _ name | .namespace _ name | .constant _ name => name

def shared : ModuleMember → Bool
  | .function _ receiver _ _ => receiver.requiresState
  | _ => false

/-- The types of the state parameters, and the target of the impl for a receiver. -/
def requirements (self : String) : ModuleMember → List String
  | .function callable receiver _ _ =>
      callable.stateTypes ++ if receiver.requiresState then [self] else []
  | _ => []

end ModuleMember

inductive ModuleItem where
  | method (helpers : Option ModuleItemOptions) (signature : Signature)
  | const (helpers : Option ModuleItemOptions) (ident : String)

/-- Classes and exceptions are given by their types. -/
structure ModuleOptions where
  name : Option String
  renameAll : Option RenameRule
  classes : List String
  exceptions : List String

structure ModuleImpl where
  target : String
  items : List ModuleItem

structure HostModuleDefinition where
  name : String
  self : String
  members : List ModuleMember
  factory : Option Callable
  initializer : Option Callable
  build : Option Callable
  shared : Bool
  requirements : List String
  classes : List String
  exceptions : List String

namespace HostModuleDefinition

/-- What the loop over the items has collected. -/
structure Collected where
  members : List ModuleMember
  factory : Option Callable
  initializer : Option Callable
  build : Option Callable

def collectMethod (collected : Collected) (role : ModuleRole) (callable : Callable)
    (receiver : ModuleReceiver) (name : String) : Except MacroError Collected :=
  match role with
  | .state => do
      callable.validateFactory "a state factory"
      Callable.require collected.factory.isNone "only one state factory is permitted"
      pure { collected with factory := some callable }
  | .init => do
      callable.validateFactory "an init hook"
      Callable.require collected.initializer.isNone "only one init hook is permitted"
      pure { collected with initializer := some callable }
  | .build => do
      callable.validateBuildHook
      Callable.require collected.build.isNone "only one build hook is permitted"
      pure { collected with build := some callable }
  | .namespace => do
      callable.validateNamespaceFactory
      pure { collected with members := collected.members ++ [.namespace callable name] }
  | .function | .asyncFunction => do
      Callable.require (!(role == .asyncFunction && callable.asynchronous))
        "async_function marks a synchronous future factory"
      let asynchronous := callable.asynchronous || role == .asyncFunction
      pure { collected with
        members := collected.members ++ [.function callable receiver asynchronous name] }
  | .constant => throw "constant requires an associated const"

def collect (apply : Casing) (rename : Option RenameRule) (collected : Collected) :
    ModuleItem → Except MacroError Collected
  | .method none _ | .const none _ => .ok collected
  | .method (some options) signature => do
      let (role, name) ← options.resolve apply signature.ident rename
      let receiver ← ModuleReceiver.new signature.receiver
      let callable ← Callable.new signature
      callable.validateAsync true
      collectMethod collected role callable receiver name
  | .const (some options) ident => do
      let (role, name) ← options.resolve apply ident rename
      Callable.require (role == .constant) "an exported const requires the constant role"
      pure { collected with members := collected.members ++ [.constant ident name] }

/-- `StateRequirements::extend`, member by member. -/
def requirementsOf (self : String) (members : List ModuleMember) : List String :=
  (members.flatMap (ModuleMember.requirements self)).foldl
    (fun types type => if type ∈ types then types else types ++ [type]) []

def new (apply : Casing) (options : ModuleOptions) (item : ModuleImpl) :
    Except MacroError HostModuleDefinition := do
  let collected ← item.items.foldlM (collect apply options.renameAll) ⟨[], none, none, none⟩
  Callable.require (collected.members.map ModuleMember.name).Nodup "duplicate module export"
  pure {
    name := Naming.member apply item.target options.name none
    self := item.target
    members := collected.members
    factory := collected.factory
    initializer := collected.initializer
    build := collected.build
    shared := collected.members.any ModuleMember.shared
    requirements := requirementsOf item.target collected.members
    classes := options.classes
    exceptions := options.exceptions }

end HostModuleDefinition

end GuestJs
