import GuestJs.Library.Halting
import GuestJs.QuickJs.Session

/-!
# Captures

`Thrown::exception` follows the prototypes of what was thrown for as long as it is answered another
one. A proxy answers as it likes, and every answer and every name read on the way can run code of the
guest's; nothing counts the rounds.
-/

namespace GuestJs.QuickJs

variable {E : Engine} {α : Type}

namespace Thrown

/-- What is read of a value before its prototypes. -/
structure Description where
  name : String
  message : String
  stack : Option String

def Description.exception (description : Description) (value : Owned)
    (prototypes : List String) : GuestException :=
  ⟨description.name, description.message, description.stack, prototypes, value⟩

/-- The part of `Thrown::exception` before the walk. -/
def describe (thrown : Value) : Op E Description := do
  let session ← get
  match E.isUncatchable session.heap thrown with
  | true => throw .interrupted
  | false => do
      let isError := E.isError thrown
      let name ← name thrown isError
      let message ← message thrown isError
      let stack ← stack thrown isError
      pure ⟨name, message, stack⟩

/-- The prototype an object answers, and the name of its constructor. -/
def nextPrototype (object : Value) : Op E (Option (Value × Option String)) := do
  match ← settle (request (.getPrototype object)) with
  | some (.object id) => do
      let name ← settle (constructorName (.object id))
      pure (some (.object id, name))
  | _ => pure none

/-- The variables of the loop. -/
structure Walk (E : Engine) where
  prototypes : List String
  current : Value
  session : Session E

/-- One round of the loop. -/
def Walk.round (environment : Environment E) (walk : Walk E) :
    Walk E ⊕ Except Error (List String) × Session E :=
  match walk.current with
  | .object id =>
      match (nextPrototype (.object id) walk.session).resolve environment with
      | (.ok (some (prototype, name)), session) =>
          .inl ⟨walk.prototypes ++ name.toList, prototype, session⟩
      | (.ok none, session) => .inr (.ok walk.prototypes, session)
      | (.error error, session) => .inr (.error error, session)
  | _ => .inr (.ok walk.prototypes, walk.session)

/-- `Thrown::exception`, where it ends within so many rounds of the loop. -/
def exceptionWithin (environment : Environment E) (rounds : Nat) (thrown : Value)
    (session : Session E) : Option (Except Error GuestException × Session E) :=
  match (describe thrown session).resolve environment with
  | (.error error, session') => some (.error error, session')
  | (.ok description, session') =>
      (Loop.run (Walk.round environment) rounds ⟨[], thrown, session'⟩).map fun (result, last) =>
        (result.map (description.exception ⟨thrown, session.context⟩), last)

/-- The capture ends. -/
def Captured (environment : Environment E) (thrown : Value) (session : Session E) : Prop :=
  ∃ rounds, (exceptionWithin environment rounds thrown session).isSome = true

/-- What `Thrown::into_error` makes of a capture that has ended. -/
def toError : Except Error GuestException → Error
  | .ok exception => .guest exception
  | .error error => error

end Thrown

/-- `Capture::capture`, where reading what was thrown ends within so many rounds of the loop. -/
def captureWithin (environment : Environment E) (rounds : Nat) (raw : Raw E α) (session : Session E) :
    Option (Except Error α × Session E) :=
  match (raw session).resolve environment with
  | (.ok a, session') => some (.ok a, session')
  | (.error (.exception thrown), session') =>
      (Thrown.exceptionWithin environment rounds thrown session').map fun (result, last) =>
        (.error (Thrown.toError result), last)
  | (.error fault, session') => some (.error fault.convert, session')

end GuestJs.QuickJs
