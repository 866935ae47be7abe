import GuestJs.QuickJs.Captures
import GuestJs.QuickJs.Nesting

/-!
# Errors on their way through guests

A function of the host that fails throws its error in the guest that called it; where no handler of
that guest's takes it, the host gets an error again when the entry of the guest is left. An error can
pass guest after guest in this way.
-/

namespace GuestJs.QuickJs

/-- The next guest an error passes, and what has happened by then. -/
structure Crossing (E : Engine) where
  context : ContextId
  before : Session E → Session E

variable {E : Engine}

/-- What the guest is left with when it is entered next. -/
def Crossing.entered (crossing : Crossing E) (session : Session E) : Session E :=
  { crossing.before session with context := crossing.context }

/-- The error is thrown in the guest, and the entry of the guest captures it, where reading what was
thrown ends within so many rounds. -/
def Crossing.runWithin (environment : Environment E) (rounds : Nat) (crossing : Crossing E)
    (error : Error) (session : Session E) : Option (Error × Session E) :=
  (captureWithin environment rounds (raise error : Raw E Empty) (crossing.entered session)).map fun
    | (.error error, session) => (error, session)

/-- What becomes of an error that passes guests one after the other, if each comes to the end of
reading what was thrown in it. -/
inductive Through (environment : Environment E) :
    List (Crossing E) → Error → Session E → Error → Session E → Prop
  | done {error : Error} {session : Session E} : Through environment [] error session error session
  | cross {crossing : Crossing E} {crossings : List (Crossing E)} {error passed arrived : Error}
      {session between last : Session E} {rounds : Nat}
      (hcross : crossing.runWithin environment rounds error session = some (passed, between))
      (hrest : Through environment crossings passed between arrived last) :
      Through environment (crossing :: crossings) error session arrived last

/-- A crossing of a guest in which reading stops where the walk of the engine does. -/
def Crossing.run (environment : Environment E) (crossing : Crossing E) (error : Error)
    (session : Session E) : Error × Session E :=
  match ((capture (raise error) : Op E Empty) (crossing.entered session)).resolve environment with
  | (.error error, session) => (error, session)

end GuestJs.QuickJs
