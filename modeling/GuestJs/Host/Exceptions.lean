import GuestJs.Host.RealisedClasses
import GuestJs.Library.Transition
import GuestJs.QuickJs.Classes
import GuestJs.QuickJs.Crossings
import GuestJs.QuickJs.Values

/-!
# Exceptions of the host

An exception type of the host is a class in a guest, below one of the engine's own error classes. The
host throws instances of it, and knows an error that comes back by the names of the constructors on its
prototypes.
-/

namespace GuestJs

/-- A constructor on the prototypes of the value has the name. -/
def GuestException.matches (exception : GuestException) (name : String) : Bool :=
  exception.prototypes.any (· == name)

structure HostException where
  name : String
  base : GuestErrorKind

def HostException.caught (exception : HostException) : Error → Bool
  | .guest thrown => thrown.matches exception.name
  | _ => false

open QuickJs

variable {E : Engine}

def Owned.detach (value : Value) : Op E Owned :=
  Process.check fun session => .ok ⟨value, session.context⟩

def Owned.attach (owned : Owned) : Op E Value :=
  Process.check fun session => owned.restore session.context

/-- `RealisedClass::link`, in the session of the guest. -/
def RealisedClass.link (constructor prototype : Value) : Op E RealisedClass := do
  define constructor (← newString "prototype") (.value prototype false false false)
  define prototype (← newString "constructor") (.value constructor true false true)
  let detached ← Owned.detach prototype
  pure ⟨← Owned.detach constructor, detached⟩

namespace HostException

variable (exception : HostException)

/-- What `ExceptionDeclaration::realised` realises, when the guest does not have the class. The body of
the constructor does not run here. -/
def build : Op E RealisedClass := do
  let prototype ← newObject
  let base ← prototypeOf (← BackendExceptions.newError exception.base "")
  setPrototype prototype base
  let key ← newString "name"
  define prototype key (.value (← newString exception.name) true false true)
  RealisedClass.link (← BackendClasses.newConstructor exception.name 1) prototype

def realised : Option RealisedClass → Op E RealisedClass
  | some realised => pure realised
  | none => exception.build

def instantiate (prototype : Value) (message : String) : Op E Value := do
  let error ← BackendExceptions.newError exception.base message
  setPrototype error prototype
  pure error

/-- `HostException::throw`, with the class the guest has before and after. -/
def throw (cached : Option RealisedClass) (message : String) :
    Op E (Error × Option RealisedClass) := do
  match ← Process.attempt (exception.realised cached) with
  | .error error => pure (error, cached)
  | .ok realised => do
      let made ← Process.attempt do
        exception.instantiate (← realised.prototype.attach) message
      match made with
      | .ok error => pure (← BackendExceptions.throw error, some realised)
      | .error error => pure (error, some realised)

end HostException

/-- A guest with the class of an exception type, and the errors the host has got that are of it: those
it threw itself, those the guest threw out of an entry, and what became of either when the host let
them pass through the guest once more. -/
structure HostExceptions (E : Engine) where
  session : Session E
  realised : Option RealisedClass
  errors : List Error

namespace HostExceptions

inductive Event (E : Engine) where
  | throw (message : String)
  /-- The guest throws an object that nothing in it catches, and the entry reads it. -/
  | capture (thrown : ObjectId)
  | cross (error : Error) (before : Session E → Session E)
  | guest (session : Session E)

variable (exception : HostException) (environment : Environment E)

def step (s : HostExceptions E) : Event E → Option (HostExceptions E)
  | .throw message =>
      match (exception.throw s.realised message s.session).resolve environment with
      | (.ok (error, realised), session) => some ⟨session, realised, s.errors ++ [error]⟩
      | (.error _, _) => none
  | .capture thrown =>
      match (BackendExceptions.throw (.object thrown) s.session).resolve environment with
      | (.ok error, session) => some ⟨session, s.realised, s.errors ++ [error]⟩
      | (.error _, _) => none
  | .cross error before =>
      let crossed := Crossing.run environment ⟨s.session.context, before⟩ error s.session
      some ⟨crossed.2, s.realised, s.errors ++ [crossed.1]⟩
  | .guest session => some { s with session }

def machine : Transition.Machine (HostExceptions E) (Event E) := ⟨step exception environment⟩

end HostExceptions

end GuestJs
