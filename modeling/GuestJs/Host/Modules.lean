import GuestJs.Host.Calls
import GuestJs.Macros.HostModule

/-!
# Modules and classes being realised

The exports of a host module are realised one after the other with the state of the module, which its
requirements have been checked against. A class among them is realised with that state too, unless
the guest has it already, and converting a constant can run code of the host that loads other modules
and realises other classes. What has been created stays when a realisation fails, and a class that is
realised inside a realisation of its own type is replaced by the outer one when that succeeds.
-/

namespace GuestJs

open Transition

/-- What an item of a declaration is realised as. Of what is not emitted by a macro, constants,
exceptions and the properties of a namespace, only the result matters. -/
inductive RealisedItem where
  | function (expressions : List Expression)
  | hostClass (type : String)
  | other
  deriving DecidableEq

/-- What the paths in the impls of a crate stand for. -/
structure Scope where
  /-- The type of the state that a factory of an impl makes. -/
  factory : (self ident : String) → String
  /-- The payload that a borrowed parameter of an item refers to. -/
  borrowed : (self ident : String) → Nat → Option PayloadType
  receiver : (self ident : String) → Receiver
  payload : String → PayloadType
  exceptionName : String → String
  definition : String → HostClassDefinition
  accepted : ∀ type, ∃ apply options item,
    HostClassDefinition.new apply options item = .ok (definition type)

/-- A module declaration, as far as its exports go. -/
structure HostModule where
  name : String
  requirements : List String
  members : List (String × RealisedItem)
  state : HostState

namespace ModuleMember

def item (scope : Scope) (self : String) : ModuleMember → RealisedItem
  | .function callable receiver _ _ =>
      .function (callable.moduleExpressions self receiver (scope.borrowed self callable.ident))
  | .namespace _ _ | .constant _ _ => .other

end ModuleMember

namespace HostModuleDefinition

/-- The state that the emitted declaration makes, where making it succeeds: that of the factory, or
the default of the target where a receiver is shared. -/
def state (definition : HostModuleDefinition) (scope : Scope) : HostState :=
  match definition.factory with
  | some factory => some (scope.factory definition.self factory.ident)
  | none => if definition.shared then some definition.self else none

/-- The declaration that the emitted code makes of an impl without a build hook. -/
def declaration (definition : HostModuleDefinition) (scope : Scope) : HostModule where
  name := definition.name
  requirements := definition.requirements
  members := definition.members.map (fun member => (member.name, member.item scope definition.self)) ++
    definition.exceptions.map (fun type => (scope.exceptionName type, .other)) ++
    definition.classes.map (fun type => ((scope.definition type).name, .hostClass type))
  state := definition.state scope

end HostModuleDefinition

namespace Scope

def classItem (scope : Scope) (type : String) : ClassMember → RealisedItem
  | .callable _ callable _ => .function (callable.classExpressions (scope.payload type)
      (scope.receiver type callable.ident) (scope.borrowed type callable.ident))
  | .hook _ | .constant _ _ => .other

/-- The functions of a class: those of the prototype, the constructor, and the static ones. -/
def classItems (scope : Scope) (type : String) : List RealisedItem :=
  let members := (scope.definition type).members
  let isConstructor : ClassMember → Bool
    | .callable .constructor _ _ => true
    | _ => false
  (members.filter (fun member => !member.isStatic && !isConstructor member) ++
    members.filter isConstructor ++ members.filter (·.isStatic)).map (scope.classItem type)

end Scope

/-- A module whose impl the macro accepts, without a build hook. -/
abbrev AcceptedModule : Type :=
  { definition : HostModuleDefinition // definition.build = none ∧
    ∃ apply options item, HostModuleDefinition.new apply options item = .ok definition }

/-- A function that an emitted callback is called by, with the state it has captured. -/
structure HostFunction where
  expressions : List Expression
  state : HostState

/-- What an item has become in the guest: one of its functions, or one of the class objects made in it,
each by its place among them. -/
inductive Exported where
  | function (index : Nat)
  | hostClass (index : Nat)
  | other
  deriving DecidableEq

/-- A class object: the type it has been realised for, and the state that its members have. -/
structure HostClassObject where
  type : String
  state : HostState

/-- A module whose exports, or a class whose members are being realised. `member` says that a module
is waiting for the class. -/
inductive Realising where
  | module (definition : AcceptedModule)
  | hostClass (type : String) (member : Bool)

structure RealisationFrame where
  subject : Realising
  state : HostState
  items : List RealisedItem
  exported : List Exported

structure LoadedModule where
  definition : AcceptedModule
  exports : List (String × Exported)

/-- A guest: the class objects made in it and the one it keeps for each type, the emitted functions in
it, what is being realised, the innermost first, and the exports of the modules that were realised. -/
structure HostModules where
  classes : String → Option Nat
  objects : List HostClassObject
  functions : List HostFunction
  frames : List RealisationFrame
  loaded : List LoadedModule

namespace HostModules

def init : HostModules := ⟨fun _ => none, [], [], [], []⟩

inductive Event where
  /-- A module is asked for its exports. Making its state can fail. -/
  | exports (definition : AcceptedModule) (made : Bool)
  /-- A class is realised for itself: without a state by `HostClass::class`, in a namespace with that of
  the module. -/
  | realise (type : String) (state : HostState)
  /-- The next item is realised, or that fails. -/
  | item (accepted : Bool)
  | finish

/-- The innermost realisation fails, and with it the module that waits for it. -/
def abandon : List RealisationFrame → List RealisationFrame
  | ⟨.hostClass _ true, _, _, _⟩ :: frames => frames.tail
  | _ :: frames => frames
  | [] => []

def RealisationFrame.export (frame : RealisationFrame) (exported : Exported) : RealisationFrame :=
  { frame with exported := frame.exported ++ [exported] }

def push (s : HostModules) (subject : Realising) (state : HostState) (items : List RealisedItem) :
    HostModules :=
  { s with frames := ⟨subject, state, items, []⟩ :: s.frames }

/-- A class object has been made, and the guest keeps it for its type. `get_or_realise` does not ask a
second time whether the guest has one. -/
def insert (s : HostModules) (object : HostClassObject) : HostModules :=
  { s with
    classes := Function.update s.classes object.type (some s.objects.length)
    objects := s.objects ++ [object] }

/-- `ClassDeclaration::realised` up to the point where the class is looked up. -/
def checkClass (scope : Scope) (type : String) (state : HostState) : Except Error Unit :=
  (scope.definition type).requirements.forM state.check

def realiseItem (scope : Scope) (s : HostModules) (frame : RealisationFrame)
    (frames : List RealisationFrame) : RealisedItem → HostModules
  | .function expressions =>
      { s with
        functions := s.functions ++ [⟨expressions, frame.state⟩]
        frames := RealisationFrame.export frame (.function s.functions.length) :: frames }
  | .other => { s with frames := RealisationFrame.export frame .other :: frames }
  | .hostClass type =>
      match checkClass scope type frame.state, s.classes type with
      | .error _, _ => { s with frames := abandon s.frames }
      | .ok (), some index =>
          { s with frames := RealisationFrame.export frame (.hostClass index) :: frames }
      | .ok (), none => s.push (.hostClass type true) frame.state (scope.classItems type)

def step (scope : Scope) (s : HostModules) : Event → Option HostModules
  | .exports definition made =>
      let declaration := definition.1.declaration scope
      if !made then some s
      else match declaration.requirements.forM declaration.state.check with
        | .error _ => some s
        | .ok () => some (s.push (.module definition) declaration.state
            (declaration.members.map Prod.snd))
  | .realise type state =>
      match checkClass scope type state, s.classes type with
      | .ok (), none => some (s.push (.hostClass type false) state (scope.classItems type))
      | _, _ => some s
  | .item accepted =>
      match s.frames with
      | [] => none
      | frame :: frames =>
          match frame.items[frame.exported.length]? with
          | none => none
          | some item =>
              if accepted then some (s.realiseItem scope frame frames item)
              else some { s with frames := abandon s.frames }
  | .finish =>
      match s.frames with
      | [] => none
      | frame :: frames =>
          if frame.exported.length < frame.items.length then none
          else match frame.subject with
            | .module definition =>
                let names := (definition.1.declaration scope).members.map Prod.fst
                some { s with
                  frames
                  loaded := s.loaded ++ [⟨definition, names.zip frame.exported⟩] }
            | .hostClass type member =>
                let exported := Exported.hostClass s.objects.length
                let waiting := frames.head?.map fun frame => RealisationFrame.export frame exported
                some { s.insert ⟨type, frame.state⟩ with
                  frames := if member then waiting.toList ++ frames.tail else frames }

def machine (scope : Scope) : Machine HostModules Event := ⟨step scope⟩

end HostModules

end GuestJs
