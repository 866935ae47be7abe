import GuestJs.QuickJs.Session

/-!
# Promises and jobs

Making a promise and looking at one run nothing. Jobs run only where the engine is not entered.
-/

namespace GuestJs.QuickJs

variable {E : Engine} {α : Type}

def asPromise (value : Value) : Raw E Value :=
  match kindOf E value with
  | .promise => pure value
  | _ => mistyped value "promise"

/-- `Capture::convert`: the failure as an error, an exception left where it is. -/
def convert (raw : Raw E α) : Op E α := raw.handle fun fault => throw fault.convert

/-- An operation in one more entry of the engine, which it leaves however it ends. -/
def entered (operation : Op E α) : Op E α := fun session =>
  (operation { session with depth := session.depth + 1 }).andThen fun result session =>
    .done result { session with depth := session.depth - 1 }

namespace BackendPromises

def newPromise : Op E (Value × Value × Value) := capture (request .newPromise)

def resolve (value : Value) : Op E Value := do
  settled
  match kindOf E value with
  | .promise => pure value
  | _ => capture do
      let (promise, resolve, _) ← request .newPromise
      let _ ← request (.call resolve .undefined [value])
      pure promise

def state (promise : Value) : Op E PromiseState := do
  let promise ← capture (asPromise promise)
  convert (request (.promiseResult promise))

def pollJobs : Op E Bool := do
  let session ← get
  match session.depth with
  | 0 => entered (capture (request .executeJob))
  | _ + 1 => pure false

end BackendPromises

end GuestJs.QuickJs
