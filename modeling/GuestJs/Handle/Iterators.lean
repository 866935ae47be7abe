import GuestJs.Handle.Readers
import GuestJs.Marshal.Primitives
import GuestJs.Proof.Borrowing
import GuestJs.QuickJs.Exceptions
import GuestJs.QuickJs.Promises

/-!
# Iterators of a guest

The handles a host pulls the items of a guest's iterator through, and closes it by. Each call of the
host enters the guest at a moment of its own: what has become of the session since the last one is up
to the guest and to the rest of the host.
-/

namespace GuestJs

open QuickJs Marshal

def Kind.isObject : Kind → Bool
  | .undefined | .null | .boolean | .number | .bigint | .string | .symbol => false
  | .array | .function | .promise | .arrayBuffer | .typedArray | .dataView | .set | .object => true

variable {E : Engine} {α β : Type}

/-- What an entry finds: the error it is refused with, where the guest is closed or its policy has a
timeout or a signal that is due, the session, and the functions of the guest. -/
structure Moment (E : Engine) where
  refusal : Option Error
  session : Session E
  environment : Environment E

namespace Moment

/-- `Handle::with_enter` -/
def enter (moment : Moment E) (op : Op E α) : Except Error α × Session E :=
  match moment.refusal with
  | some error => (.error error, moment.session)
  | none => (op moment.session).resolve moment.environment

def after (moment : Moment E) (session : Session E) : Moment E := { moment with session }

theorem after_after (moment : Moment E) (session session' : Session E) :
    (moment.after session).after session' = moment.after session' := rfl

theorem enter_bind (moment : Moment E) (p : Op E α) (next : α → Op E β) :
    moment.enter (p >>= next) =
      match moment.enter p with
      | (.ok a, session) => (moment.after session).enter (next a)
      | (.error error, session) => (.error error, session) := by
  unfold enter after
  cases moment.refusal with
  | some error => rfl
  | none =>
      dsimp only
      rw [Process.bind_apply, Resumption.resolve_andThen]
      rcases (p moment.session).resolve moment.environment with ⟨error | a, session⟩
      · rfl
      · simp only

theorem entered_of_enter {moment : Moment E} {op : Op E α} {a : α} {session : Session E}
    (h : moment.enter op = (.ok a, session)) : moment.refusal = none := by
  cases hrefusal : moment.refusal with
  | some error => simp [Moment.enter, hrefusal] at h
  | none => rfl

end Moment

/-- `FromGuest` for `IterItem<T>`, with the conversion of the item. -/
def iterItemFromGuest (item : Value → Op E α) (result : Value) : Op E (Option α) :=
  match (kindOf E result).isObject with
  | true => do
      match ← QuickJs.step result with
      | some value => some <$> item value
      | none => pure none
  | false => throw ((Expected.of ["iter item"]).mismatch (kindOf E result))

namespace Iterators

structure Iter where
  iterator : Value
  done : Bool

/-- `Result::transpose` -/
def transpose : PullOutcome α → Option (Except Error α)
  | .ok (some item) => some (.ok item)
  | .ok none => none
  | .error error => some (.error error)

namespace Iter

def new (iterator : Value) : Iter := ⟨iterator, false⟩

def next (item : Value → Op E α) (iter : Iter) (moment : Moment E) :
    Option (Except Error α) × Iter :=
  match iter.done with
  | true => (none, iter)
  | false =>
      let step : PullOutcome α :=
        (moment.enter do iterItemFromGuest item (← QuickJs.next iter.iterator)).1
      (transpose step, { iter with done := !step.isItem })

def close (iter : Iter) (moment : Moment E) : Except Error Unit :=
  match iter.done with
  | true => .ok ()
  | false => (moment.enter (discard (QuickJs.close iter.iterator))).1

end Iter

/-- One poll of a future: the moment, the error that is due by the policy, and what a step of the event
loop comes to where the promise is pending. -/
structure Look (E : Engine) where
  moment : Moment E
  due : Option Error
  progress : Except Error Unit

namespace Look

def after (look : Look E) (session : Session E) : Look E :=
  { look with moment := look.moment.after session }

/-- The poll of the future of a promise, and the conversion of what it is fulfilled with: nothing is
given while it is pending. -/
def settled (item : Value → Op E α) (promise : Value) (look : Look E) : Option (PullOutcome α) :=
  match look.due with
  | some error => some (.error error)
  | none =>
      match look.moment.enter (BackendPromises.state promise) with
      | (.error error, _) => some (.error error)
      | (.ok .pending, _) =>
          match look.progress with
          | .ok () => none
          | .error error => some (.error error)
      | (.ok (.rejected reason), session) =>
          match ((look.moment.after session).enter (BackendExceptions.throw reason)).1 with
          | .ok error | .error error => some (.error error)
      | (.ok (.fulfilled value), session) =>
          some ((look.moment.after session).enter (iterItemFromGuest item value)).1

end Look

/-- The pending future is known by the promise it awaits. -/
structure AsyncIter where
  iterator : Value
  pending : Option Value
  done : Bool

namespace AsyncIter

def new (iterator : Value) : AsyncIter := ⟨iterator, none, false⟩

/-- `Awaitable::from_guest` -/
def awaitable (result : Value) : Op E Value := do
  let promise ← BackendPromises.resolve result
  match kindOf E promise with
  | .promise => pure promise
  | kind => throw ((Expected.of ["promise"]).mismatch kind)

/-- The poll of the pending future. -/
def poll (item : Value → Op E α) (iter : AsyncIter) (promise : Value) (look : Look E) :
    Option (PullOutcome α) × AsyncIter :=
  match look.settled item promise with
  | none => (none, { iter with pending := some promise })
  | some step => (some step, { iter with pending := none, done := !step.isItem })

/-- A poll of a future of `next`, new or taken up again: both go on from what the handle keeps. The
future of a new promise enters once more, at once, to resolve it. -/
def next (item : Value → Op E α) (iter : AsyncIter) (look : Look E) :
    Option (PullOutcome α) × AsyncIter :=
  match iter.done, iter.pending with
  | true, _ => (some (.ok none), iter)
  | false, some promise => iter.poll item promise look
  | false, none =>
      match look.moment.enter do awaitable (← QuickJs.next iter.iterator) with
      | (.error error, _) => (some (.error error), { iter with done := true })
      | (.ok promise, session) =>
          match (look.moment.after session).enter (BackendPromises.resolve promise) with
          | (.error error, _) => (some (.error error), { iter with done := true })
          | (.ok promise, session) => iter.poll item promise (look.after session)

/-- `close` up to its await: the promise of what the guest's method has given. -/
def close (iter : AsyncIter) (moment : Moment E) : Except Error (Option Value) :=
  match iter.done with
  | true => .ok none
  | false => (moment.enter do
      some <$> BackendPromises.resolve (← QuickJs.close iter.iterator)).1

end AsyncIter

end Iterators

end GuestJs
