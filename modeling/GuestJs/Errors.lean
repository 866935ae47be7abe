import Mathlib.Data.Rat.Init

/-!
# Values and errors

The guest values the host handles, and the one error type every operation returns. Texts are the
source's own: a failure is told apart by its constructor, but a host error that is raised in a guest
is seen there through its class and its text, so both are part of the model.
-/

namespace GuestJs

abbrev ObjectId := Nat

abbrev ContextId := Nat

/-- A JavaScript number: a double is a rational, a signed zero aside, or one of the non-finite
values. -/
inductive Number where
  | finite (q : Rat)
  | negativeZero
  | infinity (negative : Bool)
  | nan
  deriving DecidableEq

inductive Value where
  | undefined
  | null
  | boolean (b : Bool)
  | number (n : Number)
  | bigint (n : Int)
  | string (s : String)
  | symbol (id : Nat)
  | object (id : ObjectId)
  deriving DecidableEq

structure Owned where
  value : Value
  context : ContextId
  deriving DecidableEq

inductive BorrowKind where
  | shared
  | exclusive
  deriving DecidableEq

def BorrowKind.toString : BorrowKind → String
  | .shared => "shared"
  | .exclusive => "exclusive"

inductive GuestErrorKind where
  | error
  | typeError
  | rangeError
  | referenceError
  | syntaxError
  deriving DecidableEq

structure GuestException where
  name : String
  message : String
  stack : Option String
  prototypes : List String
  value : Owned
  deriving DecidableEq

inductive Error where
  | unexpected (message : String) (source : Option String)
  | guest (exception : GuestException)
  | conversion (expected found : String)
  | foreignContext
  | borrow (kind : BorrowKind) (typeName : String)
  | unsupported (message : String)
  | interrupted
  | timeout
  | cancelled
  | closed
  | engine (message : String)
  | importing (name message : String)
  | bundle (message : String)
  | host (source : String)
  deriving DecidableEq

namespace GuestException

def toString (exception : GuestException) : String :=
  match exception.name.isEmpty, exception.message.isEmpty with
  | _, true => exception.name
  | true, false => exception.message
  | false, false => exception.name ++ ": " ++ exception.message

end GuestException

namespace Error

def toString : Error → String
  | .unexpected message _ => "unexpected error: " ++ message
  | .guest exception => exception.toString
  | .conversion expected found => "expected " ++ expected ++ ", found " ++ found
  | .foreignContext => "a value was used outside the guest it belongs to"
  | .borrow kind typeName => typeName ++ " is already borrowed (" ++ kind.toString ++ ")"
  | .unsupported message => message
  | .interrupted => "execution was interrupted"
  | .timeout => "execution timed out"
  | .cancelled => "execution was cancelled"
  | .closed => "the guest is closed"
  | .engine message => message
  | .importing name message => "cannot import " ++ name ++ ": " ++ message
  | .bundle message => "invalid bundle: " ++ message
  | .host source => source

def isInterrupted : Error → Bool
  | .interrupted => true
  | _ => false

def guestKind : Error → GuestErrorKind
  | .conversion _ _ | .foreignContext | .borrow _ _ | .unsupported _ => .typeError
  | .importing _ _ => .referenceError
  | .unexpected _ _ | .guest _ | .interrupted | .timeout | .cancelled | .closed | .engine _
  | .bundle _ | .host _ => .error

@[simp]
theorem isInterrupted_iff {error : Error} : error.isInterrupted = true ↔ error = .interrupted := by
  cases error <;> simp [isInterrupted]

end Error

end GuestJs
