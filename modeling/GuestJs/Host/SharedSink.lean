import GuestJs.Handle.Writer

/-!
# Shared sinks

The sink behind a guest's writable stream. `send` and `close` give futures that take the sink in
turns: a `send` polls it until it is ready, hands the item over in the same poll, and polls the
flush until that is done. While the code of the inner sink runs, the cell it is in stays borrowed.
-/

namespace GuestJs

open Transition

/-- What a future does next with the inner sink. -/
inductive SinkStage (T : Type) where
  | ready (item : T)
  | start (item : T)
  | flush
  | close

def SinkStage.isStart {T : Type} : SinkStage T → Bool
  | start _ => true
  | _ => false

/-- A future of `send` or `close`. While it is `running`, the code of the inner sink runs inside it. -/
inductive SinkFuture (T : Type) where
  | suspended (stage : SinkStage T)
  | running (stage : SinkStage T)
  | finished (result : Except Error Unit)
  | dropped

def SinkFuture.isDone {T : Type} : SinkFuture T → Bool
  | finished _ | dropped => true
  | _ => false

/-- A call of the inner sink that has returned. -/
structure InnerCall (T : Type) where
  future : Nat
  stage : SinkStage T
  answer : Poll Unit

/-- The cell of a shared sink with the futures made so far, what they were made for (the item of a
`send`, nothing for a `close`), and the calls of the inner sink. While it is `aborting`, the
destructor of the inner sink runs. -/
structure SharedSink (T : Type) where
  typeName : String
  sink : Bool
  borrowed : Bool
  aborting : Bool
  requests : List (Option T)
  futures : List (SinkFuture T)
  calls : List (InnerCall T)

namespace SharedSink

variable {T : Type}

def new (typeName : String) : SharedSink T := ⟨typeName, true, false, false, [], [], []⟩

def inUse (s : SharedSink T) : Error := .borrow .exclusive s.typeName

def aborted : Error := .unexpected "sink was aborted" none

def setFuture (s : SharedSink T) (future : Nat) (state : SinkFuture T) : SharedSink T :=
  { s with futures := s.futures.set future state }

/-- `borrow`, and the call of the inner sink when there is one. -/
def enter (s : SharedSink T) (future : Nat) (stage : SinkStage T) : SharedSink T :=
  if s.borrowed then s.setFuture future (.finished (.error s.inUse))
  else if s.sink then { s.setFuture future (.running stage) with borrowed := true }
  else s.setFuture future (.finished (.error aborted))

/-- The inner sink returns, and the future goes on to where it is suspended or calls again. -/
def receive (s : SharedSink T) (future : Nat) (stage : SinkStage T) (answer : Poll Unit) :
    Option (SharedSink T) :=
  let s := { s with borrowed := false, calls := s.calls ++ [InnerCall.mk future stage answer] }
  match stage, answer with
  | .ready item, some (.ok ()) => some (s.enter future (.start item))
  | .start _, some (.ok ()) => some (s.enter future .flush)
  | .start _, none => none
  | stage, none => some (s.setFuture future (.suspended stage))
  | _, some result => some (s.setFuture future (.finished result))

/-- `answer` is the return from a call of the inner sink and `released` that from its destructor. In
both, anything but a second poll of the same future may happen before. -/
inductive Event (T : Type) where
  | send (item : T)
  | close
  | poll (future : Nat)
  | answer (future : Nat) (answer : Poll Unit)
  | abort
  | released
  | drop (future : Nat)

def spawn (s : SharedSink T) (request : Option T) (stage : SinkStage T) : SharedSink T :=
  { s with
    requests := s.requests ++ [request]
    futures := s.futures ++ [.suspended stage] }

def step (s : SharedSink T) : Event T → Option (SharedSink T)
  | .send item => some (s.spawn (some item) (.ready item))
  | .close => some (s.spawn none .close)
  | .poll future =>
      match s.futures[future]? with
      | some (.suspended stage) => some (s.enter future stage)
      | _ => none
  | .answer future answer =>
      match s.futures[future]? with
      | some (.running stage) => s.receive future stage answer
      | _ => none
  -- An abort while the inner sink is borrowed is an error and changes nothing.
  | .abort =>
      some (if s.borrowed then s
        else { s with sink := false, borrowed := s.sink, aborting := s.sink })
  | .released => if s.aborting then some { s with borrowed := false, aborting := false } else none
  | .drop future =>
      match s.futures[future]? with
      | some (.suspended _) => some (s.setFuture future .dropped)
      | some (.finished _) => some s
      | _ => none

def machine (T : Type) : Machine (SharedSink T) (Event T) := ⟨step⟩

end SharedSink

end GuestJs
