import GuestJs.QuickJs.Modules
import Mathlib.Logic.Function.Basic

/-!
# Native modules

The engine calls the host back twice for a module of the host's: once it is made, for the names it
exports, and when it is evaluated, for their values. Both callbacks of a synthetic module find the
exports in the slot of the session. Either can fail, and so can the engine before, between and after
them, with the slot still filled.
-/

namespace GuestJs.QuickJs

variable {E : Engine} {α : Type}

/-- What the namespace of a module has under each name. -/
abbrev Bindings := String → Option Value

/-- What has been evaluated keeps its bindings. -/
def KeepsExposed {Heap : Type} (exposed : Heap → ModuleId → Option Bindings) (h h' : Heap) : Prop :=
  ∀ module bindings, exposed h module = some bindings → exposed h' module = some bindings

/-- The engine's side of a native module: what it is asked for while the module is made, none of
which runs code of the guest, and what can be seen of it. A module is under construction from
`newModule` on, and has a namespace to import from once it is evaluated. -/
structure NativeModules (E : Engine) where
  newModule : String → E.Heap → Except Fault ModuleId × E.Heap
  declareExport : ModuleId → String → E.Heap → Except Fault Unit × E.Heap
  resolve : ModuleId → E.Heap → Except Fault Unit × E.Heap
  /-- The evaluation, as far as the callback. -/
  start : ModuleId → E.Heap → Except Fault Unit × E.Heap
  /-- What a callback fails with, as an exception. -/
  raise : Fault → E.Heap → Value × E.Heap
  /-- The evaluation, after a callback that has thrown. -/
  reject : ModuleId → Value → E.Heap → Except Fault (Value × Value) × E.Heap
  building : E.Heap → ModuleId → Bindings → Prop
  exposed : E.Heap → ModuleId → Option Bindings
  newModule_building : ∀ name h, KeepsExposed exposed h (newModule name h).2 ∧
    ∀ module, (newModule name h).1 = .ok module →
      exposed h module = none ∧ building (newModule name h).2 module fun _ => none
  declareExport_building : ∀ module name h bindings, building h module bindings →
    KeepsExposed exposed h (declareExport module name h).2 ∧
      ((declareExport module name h).1 = .ok () →
        building (declareExport module name h).2 module
          (Function.update bindings name (some .undefined)))
  resolve_building : ∀ module h bindings, building h module bindings →
    KeepsExposed exposed h (resolve module h).2 ∧
      ((resolve module h).1 = .ok () → building (resolve module h).2 module bindings)
  start_building : ∀ module h bindings, building h module bindings →
    KeepsExposed exposed h (start module h).2 ∧
      ((start module h).1 = .ok () → building (start module h).2 module bindings)
  /-- An export that cannot be set is left as it is. -/
  export_building : ∀ module name value h bindings, building h module bindings →
    ∃ result h' bindings', E.primitive (.export module name value) h = .done result h' ∧
      KeepsExposed exposed h h' ∧ building h' module bindings' ∧
      (result = .ok () → bindings' = Function.update bindings name (some value))
  evaluate_building : ∀ module h bindings, building h module bindings →
    ∃ result h', E.primitive (.evaluate module) h = .done result h' ∧ KeepsExposed exposed h h' ∧
      ∀ evaluated, result = .ok evaluated → exposed h' module = some bindings
  raise_building : ∀ fault h, KeepsExposed exposed h (raise fault h).2 ∧
    ∀ module bindings, building h module bindings → building (raise fault h).2 module bindings
  reject_building : ∀ module thrown h bindings, building h module bindings →
    KeepsExposed exposed h (reject module thrown h).2
  /-- A callback that has thrown is seen in the promise of the evaluation. -/
  reject_rejected : ∀ module thrown h entry promise state h',
    (reject module thrown h).1 = .ok (entry, promise) →
      E.primitive (.promiseResult promise) (reject module thrown h).2 = .done (.ok state) h' →
        ∃ reason, state = .rejected reason
  exposed_read : ∀ {α : Type} (p : Primitive α) h, p.isRead = true →
    (E.primitive p h).Guarantees (KeepsExposed exposed) (fun h _ h' => KeepsExposed exposed h h') h

/-- A request that runs no code of the guest's. -/
def perform (f : E.Heap → Except Fault α × E.Heap) : Raw E α := fun session =>
  .done (f session.heap).1 { session with heap := (f session.heap).2 }

/-- `Synthetic::declare`: the names of the exports, which stay in the slot. -/
def Synthetic.declare (N : NativeModules E) (module : ModuleId) : Raw E Unit := do
  let session ← get
  match session.pendingExports with
  | none => throw (.other "quickjs library created a unknown error")
  | some exports => exports.forM fun (name, _) => perform (N.declareExport module name)

namespace NativeModules

variable (N : NativeModules E)

def raised (fault : Fault) : Raw E Value := perform fun heap => (N.raise fault heap).map .ok id

/-- `NativeModule::init`: a new module, with what `declare` says it exports. -/
def init (declare : ModuleId → Raw E Unit) (name : String) : Raw E ModuleId := do
  let module ← perform (N.newModule name)
  (declare module).handle fun fault => do throw (.exception (← N.raised fault))
  perform (N.resolve module)
  pure module

def declareNative (declare : ModuleId → Raw E Unit) (name : String) : Op E ModuleId := capture do
  N.init declare (← cString name)

/-- `Module::eval` of a native module: the namespace, and the promise of the evaluation. -/
def eval (evaluate : ModuleId → Raw E Unit) (module : ModuleId) : Raw E (Value × Value) := do
  perform (N.start module)
  match ← Process.attempt (evaluate module) with
  | .ok () => request (.evaluate module)
  | .error fault => do
      let thrown ← N.raised fault
      perform (N.reject module thrown)

/-- Making a synthetic module and evaluating it, callback by callback. -/
def requests : ModuleRequests E where
  declareNative := N.declareNative (Synthetic.declare N)
  eval := N.eval Synthetic.evaluate

def instantiate (name : String) : Op E ModuleId := BackendModules.instantiate N.requests name

def synthetic (borrowed : Bool) (name : String) (exports : List (String × Value)) :
    Op E ModuleId :=
  BackendModules.synthetic N.requests borrowed name exports

end NativeModules

end GuestJs.QuickJs
