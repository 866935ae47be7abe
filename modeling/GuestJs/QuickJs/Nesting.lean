import GuestJs.Activity
import GuestJs.QuickJs.Exceptions

/-!
# Calls back and forth

Code of a guest calls a function of the host, which enters the same guest again and calls more of its
code. On the way out an exception becomes an error of the host's at each entry, and the error becomes
an exception again in the code that called the host.
-/

namespace GuestJs.QuickJs

/-- `Raise::raise`: an error of the host as an exception of the guest. -/
def raise {E : Engine} {α : Type} (error : Error) : Raw E α := do
  throw (.exception (← Raise.exception error))

/-- The entries of the guest that code of the host is in when it calls code of the guest: the times at
which they return, from the inside out. A function of the host is entered by its own `reenter`. -/
structure Entries where
  inner : List Clock
  outer : Clock

namespace Nesting

variable {E : Engine} {α : Type}

/-- `GuestState::activate`, which returns at a given time. -/
def activated (activity : GuestActivity) (op : Op E α) (clock : Clock) : Op E α :=
  op.handle fun error => throw (activity.named clock error)

/-- A call of the guest's code, made in some entries, whose errors are all passed on. -/
def passedOn (activity : GuestActivity) (entries : Entries) (code : Raw E α) : Op E α :=
  activated activity (entries.inner.foldl (activated activity) (capture code)) entries.outer

/-- A function of the host, as `new_function` makes it. -/
def hostFunction (body : Op E α) : Raw E α := body.handle raise

/-- Code of the guest that calls a function of the host. What it does with an exception it can catch is
its own business: a handler, a `finally` or a reaction of a promise, or nothing. -/
def guestCode (react : Value → Raw E α) (callee : Raw E α) : Raw E α :=
  callee.handle fun fault => do
    let session ← get
    match fault with
    | .exception thrown =>
        match E.isUncatchable session.heap thrown with
        | true => throw fault
        | false => react thrown
    | fault => throw fault

/-- The code that the outermost entry calls: the calls of host functions that are under way, the
innermost first, each in the entries of its body. -/
def nest (activity : GuestActivity) : List (Entries × (Value → Raw E α)) → Raw E α → Raw E α
  | [], code => code
  | (entries, react) :: calls, code =>
      nest activity calls (guestCode react (hostFunction (passedOn activity entries code)))

def interrupted (activity : GuestActivity) (thrown : Value)
    (calls : List (Entries × (Value → Raw E α))) (outermost : Entries) : Op E α :=
  passedOn activity outermost (nest activity calls (throw (.exception thrown)))

end Nesting

end GuestJs.QuickJs
