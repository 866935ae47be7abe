import GuestJs.QuickJs.Exceptions

/-!
# Modules

A synthetic module gets its exports through a slot of the session: they are put there before it is
declared, taken when it is evaluated, and dropped when either fails.
-/

namespace GuestJs.QuickJs

variable {E : Engine}

def cString (name : String) : Raw E String :=
  match name.toList.idxOf? '\x00' with
  | none => pure name
  | some position => throw (.other (
      "String contained internal null bytes: nul byte found in provided data at position: " ++
        toString position))

def firstDuplicate : List String → List String → Option String
  | _, [] => none
  | seen, name :: names =>
      if name ∈ seen then some name else firstDuplicate (name :: seen) names

/-- `Synthetic::evaluate`: the exports are taken out of the slot and handed to the module. -/
def Synthetic.evaluate (module : ModuleId) : Raw E Unit := do
  let session ← get
  match session.pendingExports with
  | none => throw (.other "quickjs library created a unknown error")
  | some exports => do
      set { session with pendingExports := none }
      exports.forM fun (name, value) => request (.export module name value)

/-- The engine's side of a module that exports what is in the slot: it is made under a name, and
evaluated. -/
structure ModuleRequests (E : Engine) where
  declareNative : String → Op E ModuleId
  eval : ModuleId → Raw E (Value × Value)

/-- Making a module and evaluating it as one request each. -/
def ModuleRequests.whole (exports : List (String × Value)) : ModuleRequests E where
  declareNative name := capture (request (.declareNative name (exports.map Prod.fst)))
  eval module := do
    Synthetic.evaluate module
    request (.evaluate module)

namespace BackendModules

def eval (source name : String) : Op E Value := do
  settled
  capture (request (.eval source name))

def declare (name source : String) : Op E ModuleId := capture (request (.declare name source))

/-- The user data of a runtime cannot be replaced while any of it is borrowed. -/
def storeUserdata (borrowed : Bool) (exports : List (String × Value)) : Op E Unit :=
  match borrowed with
  | true => throw (.engine "runtime userdata is borrowed")
  | false => modify fun session => { session with pendingExports := some exports }

/-- The part of `synthetic` that empties the slot when it fails. -/
def instantiate (requests : ModuleRequests E) (name : String) : Op E ModuleId := do
  let module ← requests.declareNative name
  capture do
    let (_, promise) ← requests.eval module
    match ← request (.promiseResult promise) with
    | .rejected reason => throw (.exception reason)
    | .pending | .fulfilled _ => pure module

def synthetic (requests : ModuleRequests E) (borrowed : Bool) (name : String)
    (exports : List (String × Value)) : Op E ModuleId := do
  capture (exports.forM fun (name, _) => discard (cString name))
  match firstDuplicate [] (exports.map Prod.fst) with
  | some duplicate => capture do
      throw (.exception (← create .syntaxError s!"duplicate exported name '{duplicate}'"))
  | none => do
      storeUserdata borrowed exports
      (instantiate requests name).handle fun error => do
        modify fun session => { session with pendingExports := none }
        throw error

def evaluate (module : ModuleId) : Op E (Value × Value) := do
  settled
  capture (request (.evaluate module))

def import_ (name : String) : Op E (Value × Value) := do
  settled
  let session ← get
  set { session with nextImport := session.nextImport + 1 }
  match ← capture (request (.jsonText name)) with
  | none => throw (.engine "a module name has no JSON form")
  | some text => do
      let source := "\nimport * as namespace from " ++ text ++ ";\n\nexport \x7b namespace \x7d;\n"
      let module ← declare ("/import/" ++ toString session.nextImport) source
      let (entry, evaluation) ← evaluate module
      match entry with
      | .object _ => do
          let namespace_ ← capture (request (.get entry (.string "namespace")))
          pure (namespace_, evaluation)
      | _ => throw (.engine "a module namespace is not an object")

/-- The dispatcher is code of the host's, and does not run here. -/
def install : Op E Unit := do
  let session ← get
  match session.depth with
  | 0 => pure ()
  | _ + 1 => throw (.unsupported "a module dispatcher cannot be installed inside an entry")

end BackendModules

end GuestJs.QuickJs
