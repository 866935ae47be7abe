import GuestJs.Errors
import GuestJs.Library.Transition

/-!
# Writers

A writer drives a guest's writable stream as a sink. It awaits one promise at a time, that of the
last `write` or `close` it has called, and its phase says which of the two, or why there is none.
`write` and `close` of the host are polls of the four operations of a sink in turn.
-/

namespace GuestJs

open Transition

/-- What a poll of a future gives: nothing while it is pending. -/
abbrev Poll (α : Type) := Option (Except Error α)

inductive Settlement where
  | unsettled
  | fulfilled
  | rejected
  deriving DecidableEq

/-- How a call of a guest's method ends: it fails before the method has run, or because of what the
method did, or gives a promise, which may be settled already. -/
inductive MethodAnswer where
  | refused (error : Error)
  | threw (error : Error)
  | promised (settlement : Settlement)

inductive WriterPhase where
  | opened
  | writing
  | closing
  | closed
  | failed
  | released
  deriving DecidableEq

/-- The phase after the pending future has given its result. -/
def WriterPhase.resolved : WriterPhase → Except Error Unit → WriterPhase
  | _, .error _ => .failed
  | .writing, .ok () => .opened
  | .closing, .ok () => .closed
  | phase, .ok () => phase

/-- The pending future awaits the promise of the call of its number. -/
structure WriterState where
  phase : WriterPhase
  pending : Option Nat

namespace WriterState

def new : WriterState := ⟨.opened, none⟩

def begin (phase : WriterPhase) (future : Nat) : WriterState := ⟨phase, some future⟩

def reset (phase : WriterPhase) : WriterState := ⟨phase, none⟩

def poll (state : WriterState) (answer : Poll Unit) : Poll Unit × WriterState :=
  match state.pending, answer with
  | none, _ => (some (.ok ()), state)
  | some _, none => (none, state)
  | some _, some result => (some result, reset (state.phase.resolved result))

end WriterState

inductive SinkMethod (C : Type) where
  | write (chunk : C)
  | close

/-- A method of the guest that has run, and the promise it gave unless it threw. -/
structure SinkCall (C : Type) where
  method : SinkMethod C
  promise : Option Settlement

/-- A writer, with the calls the guest's methods have got and the chunks `start_send` has accepted.
While `aborting`, a future of `abort` borrows the writer. -/
structure Writer (C : Type) where
  state : WriterState
  calls : List (SinkCall C)
  accepted : List C
  aborting : Bool
  aborted : Bool

namespace Writer

variable {C : Type}

def new : Writer C := ⟨.new, [], [], false, false⟩

def notOpen : Error := .unexpected "writer is not open" none

/-- A future ends well only when its promise is fulfilled: it may also fail in the host. -/
def permits (writer : Writer C) : Poll Unit → Bool
  | some (.ok ()) =>
      match writer.state.pending with
      | some call => (writer.calls[call]?.bind SinkCall.promise) = some .fulfilled
      | none => true
  | _ => true

def poll (writer : Writer C) (answer : Poll Unit) : Option (Poll Unit × Writer C) :=
  if writer.permits answer then
    some ((writer.state.poll answer).1, { writer with state := (writer.state.poll answer).2 })
  else none

/-- `write` and `close` are called alike. -/
def call (writer : Writer C) (method : SinkMethod C) (phase : WriterPhase) :
    MethodAnswer → Except Error Unit × Writer C
  | .promised settlement =>
      (.ok (), { writer with
        state := .begin phase writer.calls.length
        calls := writer.calls ++ [⟨method, some settlement⟩] })
  | .threw error =>
      (.error error, { writer with
        state := .reset .failed
        calls := writer.calls ++ [⟨method, none⟩] })
  | .refused error => (.error error, { writer with state := .reset .failed })

def pollReady (writer : Writer C) (answer : Poll Unit) : Option (Poll Unit × Writer C) :=
  match writer.state.phase with
  | .opened => some (some (.ok ()), writer)
  | .writing => writer.poll answer
  | _ => some (some (.error notOpen), writer)

def startSend (writer : Writer C) (chunk : C) (answer : MethodAnswer) :
    Except Error Unit × Writer C :=
  if writer.state.phase ≠ .opened then (.error (.unexpected "writer is not ready" none), writer)
  else
    match writer.call (.write chunk) .writing answer with
    | (.ok (), writer) => (.ok (), { writer with accepted := writer.accepted ++ [chunk] })
    | (.error error, writer) => (.error error, writer)

def pollFlush (writer : Writer C) (answer : Poll Unit) : Option (Poll Unit × Writer C) :=
  match writer.state.phase with
  | .writing | .closing => writer.poll answer
  | .failed | .released => some (some (.error notOpen), writer)
  | _ => some (some (.ok ()), writer)

def callClose (writer : Writer C) (answer : MethodAnswer) (closing : Poll Unit) :
    Option (Poll Unit × Writer C) :=
  match writer.call .close .closing answer with
  | (.ok (), writer) => writer.poll closing
  | (.error error, writer) => some (some (.error error), writer)

/-- `answer` is that of the future that is pending, and `closing` that of the promise of `close`. -/
def pollClose (writer : Writer C) (answer : Poll Unit) (close : MethodAnswer)
    (closing : Poll Unit) : Option (Poll Unit × Writer C) :=
  match writer.state.phase with
  | .closed => some (some (.ok ()), writer)
  | .failed | .released => some (some (.error notOpen), writer)
  | .closing => writer.poll answer
  | .writing =>
      match writer.poll answer with
      | some (some (.ok ()), writer) => writer.callClose close closing
      | result => result
  | .opened => writer.callClose close closing

def releaseLock (writer : Writer C) : Except Error Unit → Writer C
  | .ok () => { writer with state := .reset .released }
  | .error _ => writer

/-- `abort` up to its await. -/
def abort (writer : Writer C) : Except Error Unit → Writer C
  | .ok () => { writer with state := .reset .failed, aborting := true, aborted := true }
  | .error _ => writer

/-- `abort` from its await on. -/
def resumeAbort (writer : Writer C) : Poll Unit → Writer C
  | some (.ok ()) => { writer with state := .reset .closed, aborting := false }
  | some (.error _) => { writer with aborting := false }
  | none => writer

/-- The guest settles a promise that is not settled yet. -/
def settle (writer : Writer C) (call : Nat) (settlement : Settlement) : Option (Writer C) :=
  match writer.calls[call]? with
  | some ⟨method, some .unsettled⟩ =>
      some { writer with calls := writer.calls.set call ⟨method, some settlement⟩ }
  | _ => none

/-- An operation of the host, with the answers of the guest to it, or a step of the guest's own. -/
inductive Event (C : Type) where
  | pollReady (answer : Poll Unit)
  | startSend (chunk : C) (answer : MethodAnswer)
  | pollFlush (answer : Poll Unit)
  | pollClose (answer : Poll Unit) (close : MethodAnswer) (closing : Poll Unit)
  | releaseLock (answer : Except Error Unit)
  | abort (answer : Except Error Unit)
  | resumeAbort (answer : Poll Unit)
  | dropAbort
  | settle (call : Nat) (settlement : Settlement)

/-- A writer that a future of `abort` borrows has no other operation. -/
def step (writer : Writer C) : Event C → Option (Writer C)
  | .settle call settlement => writer.settle call settlement
  | .resumeAbort answer => if writer.aborting then some (writer.resumeAbort answer) else none
  | .dropAbort => if writer.aborting then some { writer with aborting := false } else none
  | .pollReady answer =>
      if writer.aborting then none else (writer.pollReady answer).map Prod.snd
  | .startSend chunk answer =>
      if writer.aborting then none else some (writer.startSend chunk answer).2
  | .pollFlush answer =>
      if writer.aborting then none else (writer.pollFlush answer).map Prod.snd
  | .pollClose answer close closing =>
      if writer.aborting then none else (writer.pollClose answer close closing).map Prod.snd
  | .releaseLock answer => if writer.aborting then none else some (writer.releaseLock answer)
  | .abort answer => if writer.aborting then none else some (writer.abort answer)

def machine (C : Type) : Machine (Writer C) (Event C) := ⟨step⟩

end Writer

end GuestJs
