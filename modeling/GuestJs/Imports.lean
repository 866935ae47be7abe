import GuestJs.Catalog

/-!
# Resolution in a guest

A guest resolves a name in three layers: the bundles mounted on it, its own catalog, and the catalog
of its runtime. A name that no layer knows is tried again as a directory, at its `index`.
-/

namespace GuestJs

open Fallible

structure GuestBindings (B : Backend) where
  runtime : Catalog B
  guest : Catalog B
  mounted : Sources B

namespace GuestBindings

variable {B : Backend}

def new (runtime guest : Catalog B) : GuestBindings B := ⟨runtime, guest, .new⟩

def first {α : Type} (bindings : GuestBindings B) (find : Sources B → Option α) : Option α :=
  ((find bindings.mounted).or (find bindings.guest.sources)).or (find bindings.runtime.sources)

def source (bindings : GuestBindings B) (name : Name) : Option (ModuleSource B) :=
  bindings.first fun sources => sources.find name

def isDenied (bindings : GuestBindings B) (name : Name) : Bool :=
  bindings.guest.denied.denies name || bindings.runtime.denied.denies name

/-- The canonical name of the first candidate some layer knows, before denials. -/
def candidate (bindings : GuestBindings B) (name : Name) : Option Name :=
  [name, name ++ "/index".toList].findSome? fun candidate =>
    bindings.first fun sources => sources.canonical candidate

def locate (bindings : GuestBindings B) (name : Name) : Except Error Name :=
  match bindings.candidate name with
  | none =>
      .error (.importing (String.ofList name) "no module of that name is bound to this guest")
  | some located =>
      match bindings.isDenied name || bindings.isDenied located with
      | true => .error (.importing (String.ofList name) "the name is denied to this guest")
      | false => .ok located

def isHostModule (bindings : GuestBindings B) (name : Name) : Bool :=
  match bindings.locate name with
  | .ok located => (bindings.source located).any ModuleSource.isHost
  | .error _ => false

def onMounted {α : Type} (operation : Fallible (Sources B) Error α) :
    Fallible (GuestBindings B) Error α :=
  zoom mounted (fun sources bindings => { bindings with mounted := sources }) operation

def mount (bundle : Bundle) : Fallible (GuestBindings B) Error Unit := do
  check fun bindings => bindings.runtime.sources.checkBundle bundle
  check fun bindings => bindings.guest.sources.checkBundle bundle
  onMounted (Sources.insertBundle bundle)

def mountAll (bindings : GuestBindings B) (bundles : List Bundle) : GuestBindings B :=
  bundles.foldl (fun bindings bundle => (exec (mount bundle) bindings).2) bindings

end GuestBindings

end GuestJs
