import GuestJs.QuickJs.Session

/-!
# Exceptions made by the host

An error of the host is thrown in a guest as a new error of an intrinsic class, or as the value that
was thrown in the first place where that belongs to the same context.
-/

namespace GuestJs

def Owned.restore (owned : Owned) (context : ContextId) : Except Error Value :=
  if owned.context = context then .ok owned.value else .error .foreignContext

namespace QuickJs

variable {E : Engine}

/-- `Create::create`: an error of the engine's own class, whatever became of the globals. -/
def create (kind : GuestErrorKind) (message : String) : Raw E Value := do
  let error ← request (.newError kind "")
  request (.defineText error "message" message)
  pure error

/-- `Raise::exception`: what a guest catches for an error of the host. Only an interruption is made
so that it cannot be caught. -/
def Raise.exception (error : Error) : Raw E Value := do
  let session ← get
  match error with
  | .guest exception =>
      match exception.value.restore session.context with
      | .ok value => pure value
      | .error _ => do
          let object ← create .error exception.message
          request (.defineText object "name" exception.name)
          match exception.stack with
          | some stack => request (.defineText object "stack" stack)
          | none => pure ()
          pure object
  | error => do
      let object ← create error.guestKind error.toString
      match error.isInterrupted with
      | true => request (.setUncatchable object)
      | false => pure ()
      pure object

namespace BackendExceptions

def throw (value : Value) : Op E Error := Thrown.intoError value

def newException (error : Error) : Op E Value := capture (Raise.exception error)

def newError (kind : GuestErrorKind) (message : String) : Op E Value := capture (create kind message)

end BackendExceptions

end QuickJs

end GuestJs
