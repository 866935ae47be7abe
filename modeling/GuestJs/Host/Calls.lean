import GuestJs.Library.Transition
import GuestJs.Macros.Callback
import GuestJs.QuickJs.Classes

/-!
# Calls of host functions, one inside the other

A host function borrows the payloads of its receiver and its parameters while its callback runs, and
the guest code that it calls can call host functions on the same instances. A guard lives as long as
the call that has taken it, however that ends.
-/

namespace GuestJs

open QuickJs Transition

variable {E : Engine}

/-- A guard of a borrowed payload. -/
structure Guard where
  object : ObjectId
  kind : BorrowKind
  deriving DecidableEq

/-- The state of the cell when one of its guards is dropped. -/
def QuickJs.PayloadCell.release (cell : PayloadCell) : PayloadCell :=
  match cell.borrowed with
  | some (.shared (count + 2)) => { cell with borrowed := some (.shared (count + 1)) }
  | _ => { cell with borrowed := none }

def Guard.drop (guard : Guard) (session : Session E) : Session E :=
  let cell := (session.payloads guard.object).map PayloadCell.release
  { session with payloads := Function.update session.payloads guard.object cell }

/-- What an argument is made of. -/
inductive Argument where
  | one (value : Value)
  | many (values : List Value)
  | injected
  deriving DecidableEq

namespace Expression

/-- The values that the expression takes. -/
def take (expression : Expression) (args : Args) : Argument × Args :=
  match expression with
  | .thisPayload _ _ | .this => (.one args.this, args)
  | .next | .nextPayload _ _ | .nextBorrow _ => (.one args.advance.1, args.advance.2)
  | .rest => (.many args.remaining.1, args.remaining.2)
  | .enter | .context | .state _ => (.injected, args)

def borrows : Expression → Option (BorrowKind × PayloadType)
  | .thisPayload kind type | .nextPayload kind type => some (kind, type)
  | _ => none

/-- A conversion can run code of the guest's. -/
def converts : Expression → Bool
  | .next | .nextBorrow _ | .rest | .this => true
  | _ => false

/-- The guard that the expression takes of a payload, when it gives the argument. -/
def guard (expression : Expression) (argument : Argument) : Option Guard :=
  match expression.borrows, argument with
  | some (kind, _), .one (.object object) => some ⟨object, kind⟩
  | _, _ => none

/-- The expressions that run nothing: payloads are borrowed, and the state is looked up. -/
def evaluate (expression : Expression) (args : Args) (state : HostState) : Op E Unit :=
  match expression.borrows, (expression.take args).1, expression with
  | some (kind, type), .one value, _ => BackendClasses.borrow kind value type
  | _, _, .state type => Process.check fun _ => state.check type
  | _, _, _ => pure ()

end Expression

/-- A call of a callback: the expressions it evaluates, and how far it is. The arguments are in the
order of the expressions, the last guard comes first. -/
structure HostCall where
  expressions : List Expression
  state : HostState
  args : Args
  arguments : List Argument
  guards : List Guard

namespace HostCall

def new (expressions : List Expression) (state : HostState) (args : Args) : HostCall :=
  ⟨expressions, state, args, [], []⟩

/-- The expression that comes next. After the last one the body runs. -/
def next (call : HostCall) : Option Expression := call.expressions[call.arguments.length]?

def isOpen (call : HostCall) : Bool := call.next.all Expression.converts

def take (call : HostCall) (expression : Expression) : HostCall :=
  { call with
    args := (expression.take call.args).2
    arguments := call.arguments ++ [(expression.take call.args).1]
    guards := (expression.guard (expression.take call.args).1).toList ++ call.guards }

end HostCall

/-- A session and the calls of host functions under way in it, the innermost first. -/
structure HostCalls (E : Engine) where
  session : Session E
  calls : List HostCall

namespace HostCalls

def init (session : Session E) : HostCalls E := ⟨session, []⟩

inductive Event (E : Engine) where
  /-- The guest calls a host function, by the expressions of its callback. -/
  | call (callback : List Expression) (state : HostState) (this : Value) (values : List Value)
      (newTarget : Option Value)
  /-- The host borrows a payload for the length of a closure: `borrow_as_with` and its mutable form. -/
  | borrowWith (kind : BorrowKind) (type : PayloadType) (value : Value)
  | evaluate
  /-- The conversion of an argument ends. -/
  | converted (accepted : Bool)
  /-- The body ends, with a result or an error. -/
  | finish
  | guest (heap : E.Heap)
  | instantiate (object : ObjectId) (type : PayloadType)
  /-- An instance that nothing refers to any more is collected. -/
  | collect (object : ObjectId)

/-- Code runs that can call host functions: outside of calls, in a conversion or in a body. -/
def isOpen (s : HostCalls E) : Bool := s.calls.head?.all HostCall.isOpen

def guards (s : HostCalls E) : List Guard := s.calls.flatMap HostCall.guards

/-- A call is left: its guards are dropped, the last one first. -/
def leave (session : Session E) (call : HostCall) (calls : List HostCall) : HostCalls E :=
  ⟨call.guards.foldl (fun session guard => guard.drop session) session, calls⟩

def enter (s : HostCalls E) (expressions : List Expression) (state : HostState) (args : Args) :
    HostCalls E :=
  { s with calls := .new expressions state args :: s.calls }

def setPayload (s : HostCalls E) (object : ObjectId) (cell : Option PayloadCell) : HostCalls E :=
  { s with session := { s.session with payloads := Function.update s.session.payloads object cell } }

def evaluate (s : HostCalls E) (call : HostCall) (calls : List HostCall) (expression : Expression) :
    Option (HostCalls E) :=
  match expression.evaluate call.args call.state s.session with
  | .done (.ok ()) session => some ⟨session, call.take expression :: calls⟩
  | .done (.error _) session => some (leave session call calls)
  | .call _ _ _ => none

def step (s : HostCalls E) : Event E → Option (HostCalls E)
  | .call callback state this values newTarget =>
      if s.isOpen then some (s.enter callback state (.new this values newTarget)) else none
  | .borrowWith kind type value =>
      if s.isOpen then some (s.enter [.thisPayload kind type] none (.new value [] none)) else none
  | .evaluate =>
      match s.calls with
      | [] => none
      | call :: calls =>
          match call.next with
          | some expression =>
              if expression.converts then none else s.evaluate call calls expression
          | none => none
  | .converted accepted =>
      match s.calls with
      | [] => none
      | call :: calls =>
          match call.next with
          | some expression =>
              if !expression.converts then none
              else if accepted then some { s with calls := call.take expression :: calls }
              else some (leave s.session call calls)
          | none => none
  | .finish =>
      match s.calls with
      | [] => none
      | call :: calls =>
          match call.next with
          | some _ => none
          | none => some (leave s.session call calls)
  | .guest heap => if s.isOpen then some { s with session := { s.session with heap } } else none
  | .instantiate object type =>
      if s.isOpen ∧ s.session.payloads object = none then some (s.setPayload object (some ⟨type, none⟩))
      else none
  | .collect object =>
      if s.guards.all (·.object != object) then some (s.setPayload object none) else none

def machine (E : Engine) : Machine (HostCalls E) (Event E) := ⟨step⟩

/-- How the guards of the calls hold a payload. -/
def kinds (guards : List Guard) (object : ObjectId) : List BorrowKind :=
  guards.filterMap fun guard => if guard.object = object then some guard.kind else none

end HostCalls

end GuestJs
