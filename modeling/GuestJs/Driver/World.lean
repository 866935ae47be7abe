import GuestJs.Driver.HostFutures
import Mathlib.Logic.Function.Basic

/-!
# Guests on one runtime

The guests of a runtime share its engine: the queue of jobs, the count of entries under way and the
table of loans. Code of the host and code of the guests call each other, so what is running at a
moment is a stack.
-/

namespace GuestJs.Driver

abbrev TaskId := Nat

/-- The task a waker schedules, or something that is no task awaiting a promise. -/
inductive Waker where
  | task (task : TaskId)
  | other
  deriving DecidableEq

inductive PromiseState where
  | pending
  | fulfilled (value : Value)
  | rejected (reason : Value)
  deriving DecidableEq

/-- A future of the host: whether it has completed since it was polled, and the waker of that
poll. -/
structure FutureState where
  ready : Bool
  waker : Option Waker

structure PromiseFuture where
  guest : GuestId
  promise : PromiseId
  armed : Option ArmedPolicy

/-- What a guest answers for at a moment: the promise that is awaited, the errors of its policy that
are due, its closure and its loans. -/
structure Account where
  state : PromiseState
  due : List Error
  closed : Bool
  lent : Bool

/-- The result of a promise future, and what its guest answered for when it was ready. -/
structure Completion where
  result : Except Error Value
  account : Account

inductive Phase where
  | fresh
  | polling
  | pending
  | done (completion : Completion)

structure Task where
  future : PromiseFuture
  phase : Phase
  scheduled : Bool

/-- Who takes a step of a guest's event loop: the host itself, or the future of a task. -/
inductive Caller where
  | host (guest : GuestId)
  | task (task : TaskId) (future : PromiseFuture)

namespace Caller

def guest : Caller → GuestId
  | .host guest => guest
  | .task _ future => future.guest

def waker : Caller → Waker
  | .host _ => .other
  | .task id _ => .task id

end Caller

/-- What is running, or waits for what it called to return. -/
inductive Frame where
  /-- Code of the host in `Guest::enter`. -/
  | enter (guest : GuestId)
  /-- Code of the host in `Guest::activate`. -/
  | activate (guest : GuestId)
  /-- A function of the host that code of the guest called. -/
  | callback (guest : GuestId)
  /-- Code of the guest that the host called. -/
  | code (guest : GuestId)
  /-- A host future being polled, and those of the round that are still to be. -/
  | poll (caller : Caller) (current : InFlight) (rest : List InFlight)
  /-- An outcome being converted, and those of the batch that are still to be. -/
  | publish (caller : Caller) (current : Settled) (rest : List Settled)
  /-- A resolver being called, with what is left of the batch. -/
  | call (caller : Caller) (rest : List Settled)
  /-- A step about to poll the queue of jobs. -/
  | jobs (caller : Caller) (published : Bool)
  /-- A job that a step took off the queue, where code of `origin` had put it. -/
  | job (caller : Caller) (published : Bool) (origin : GuestId)
  | reason (task : TaskId) (future : PromiseFuture)

namespace Frame

def executing : Frame → Option GuestId
  | .code guest => some guest
  | .call caller _ => some caller.guest
  | .job _ _ origin => some origin
  | .reason _ future => some future.guest
  | .enter _ | .activate _ | .callback _ | .poll _ _ _ | .publish _ _ _ | .jobs _ _ => none

def activated : Frame → Option GuestId
  | .enter guest | .activate guest | .callback guest => some guest
  | .publish caller _ _ | .call caller _ | .job caller _ _ => some caller.guest
  | .reason _ future => some future.guest
  | .code _ | .poll _ _ _ | .jobs _ _ => none

def isHost : Frame → Bool
  | .enter _ | .activate _ | .callback _ | .poll _ _ _ => true
  | .publish _ current _ => current.outcome.result.isOk
  | .code _ | .call _ _ | .jobs _ _ | .job _ _ _ | .reason _ _ => false

end Frame

structure World where
  clock : Clock
  guests : GuestId → Guest
  depth : Nat
  /-- The queue of the engine, by the guests whose code put the jobs there. -/
  jobs : List GuestId
  /-- The guests whose memory the live loans of the engine are of. -/
  loans : List GuestId
  promises : PromiseId → PromiseState
  futures : FutureId → FutureState
  tasks : TaskId → Option Task
  stack : List Frame

namespace World

def init (clock : Clock) (policies : GuestId → ExecutionPolicy) : World where
  clock
  guests := fun guest => .new (policies guest)
  depth := 0
  jobs := []
  loans := []
  promises := fun _ => .pending
  futures := fun _ => ⟨false, none⟩
  tasks := fun _ => none
  stack := []

def executing (w : World) : Option GuestId := w.stack.head?.bind Frame.executing

/-- The guests whose `Enter` the running code of the host can use: those of the closures it is in. A
callback and the conversion of a result were made before, and have only their own. -/
def enters : List Frame → List GuestId
  | .enter guest :: below => guest :: enters below
  | .activate _ :: below => enters below
  | .callback guest :: _ => [guest]
  | .publish caller _ _ :: _ => [caller.guest]
  | _ => []

def isHost (w : World) : Bool := w.stack.head?.all Frame.isHost

def canUse (w : World) (guest : GuestId) : Bool := w.isHost && (enters w.stack).contains guest

/-- Code of the guest runs, or code of the host that can call it. -/
def runs (w : World) (guest : GuestId) : Bool :=
  w.executing == some guest || w.canUse guest

def setActivity (w : World) (guest : GuestId) (activity : GuestActivity) : World :=
  { w with guests := Function.update w.guests guest { w.guests guest with activity } }

def setHostFutures (w : World) (guest : GuestId) (hostFutures : PendingHostFutures) : World :=
  { w with guests := Function.update w.guests guest { w.guests guest with hostFutures } }

def modifyTask (w : World) (task : TaskId) (f : Task → Task) : World :=
  { w with tasks := Function.update w.tasks task ((w.tasks task).map f) }

def push (w : World) (frame : Frame) : World := { w with stack := frame :: w.stack }

/-- `GuestState::activate`, until what it is called with returns. -/
def activate (w : World) (guest : GuestId) : Except Error World :=
  ((w.guests guest).activity.begin w.clock).map (w.setActivity guest)

def finish (w : World) (guest : GuestId) : World :=
  w.setActivity guest (w.guests guest).activity.finish

/-- `GuestState::reenter` with a token of the guest's own context. -/
def reenter (w : World) (guest : GuestId) : Except Error World :=
  match (w.guests guest).closed with
  | true => .error .closed
  | false => w.activate guest

def enter (w : World) (guest : GuestId) : Except Error World :=
  (w.reenter guest).map fun w => { w with depth := w.depth + 1 }

def leave (w : World) (guest : GuestId) : World :=
  { w.finish guest with depth := w.depth - 1 }

def named (w : World) (guest : GuestId) (error : Error) : Error :=
  (w.guests guest).activity.named w.clock error

def schedule (w : World) (task : TaskId) : World :=
  w.modifyTask task fun task => { task with scheduled := true }

def wake (w : World) : Waker → World
  | .task task => w.schedule task
  | .other => w

/-- What the guest of a promise future answers for now. -/
def account (w : World) (future : PromiseFuture) : Account where
  state := w.promises future.promise
  due := [future.armed, (w.guests future.guest).activity.armed,
    some ((w.guests future.guest).activity.policy.arm w.clock)].filterMap
      fun armed => armed.bind fun armed => armed.dueError w.clock
  closed := (w.guests future.guest).closed
  lent := w.loans.contains future.guest

def complete (w : World) (task : TaskId) (future : PromiseFuture) (result : Except Error Value) :
    World :=
  w.modifyTask task fun task => { task with phase := .done ⟨result, w.account future⟩ }

def park (w : World) (task : TaskId) : World :=
  w.modifyTask task fun task => { task with phase := .pending }

section fields

variable (w : World) (guest other : GuestId)

/-- What an update of a guest does not change is the same for every guest. -/
theorem field_update {β : Type*} (field : Guest → β) {state : Guest}
    (h : field state = field (w.guests guest)) :
    field (Function.update w.guests guest state other) = field (w.guests other) := by
  by_cases heq : other = guest
  · subst heq
    rw [Function.update_self, h]
  · rw [Function.update_of_ne heq]

theorem guests_setHostFutures (hostFutures : PendingHostFutures) :
    (w.setHostFutures guest hostFutures).guests other =
      if other = guest then { w.guests other with hostFutures } else w.guests other := by
  by_cases heq : other = guest
  · subst heq
    simp [setHostFutures]
  · simp [setHostFutures, heq]

theorem activity_setActivity (activity : GuestActivity) :
    ((w.setActivity guest activity).guests other).activity =
      if other = guest then activity else (w.guests other).activity := by
  by_cases heq : other = guest
  · subst heq
    simp [setActivity]
  · simp [setActivity, heq]

theorem hostFutures_setActivity (activity : GuestActivity) :
    ((w.setActivity guest activity).guests other).hostFutures = (w.guests other).hostFutures :=
  w.field_update guest other Guest.hostFutures rfl

theorem registered_setActivity (activity : GuestActivity) :
    ((w.setActivity guest activity).guests other).registered = (w.guests other).registered :=
  w.field_update guest other Guest.registered rfl

theorem handed_setActivity (activity : GuestActivity) :
    ((w.setActivity guest activity).guests other).handed = (w.guests other).handed :=
  w.field_update guest other Guest.handed rfl

theorem activity_setHostFutures (hostFutures : PendingHostFutures) :
    ((w.setHostFutures guest hostFutures).guests other).activity = (w.guests other).activity :=
  w.field_update guest other Guest.activity rfl

theorem registered_setHostFutures (hostFutures : PendingHostFutures) :
    ((w.setHostFutures guest hostFutures).guests other).registered = (w.guests other).registered :=
  w.field_update guest other Guest.registered rfl

theorem handed_setHostFutures (hostFutures : PendingHostFutures) :
    ((w.setHostFutures guest hostFutures).guests other).handed = (w.guests other).handed :=
  w.field_update guest other Guest.handed rfl

end fields

variable {w w' : World} {guest : GuestId}

theorem activate_eq_ok (h : w.activate guest = .ok w') :
    ∃ activity, (w.guests guest).activity.begin w.clock = .ok activity ∧
      w' = w.setActivity guest activity := by
  unfold activate at h
  cases hbegin : (w.guests guest).activity.begin w.clock with
  | error error =>
      rw [hbegin] at h
      exact nomatch h
  | ok activity =>
      rw [hbegin] at h
      exact ⟨activity, rfl, (Except.ok.inj h).symm⟩

theorem activate_eq_error {error : Error} (h : w.activate guest = .error error) :
    ((w.guests guest).activity.policy.arm w.clock).dueError w.clock = some error := by
  unfold activate at h
  cases hbegin : (w.guests guest).activity.begin w.clock with
  | error found =>
      rw [hbegin] at h
      obtain rfl := Except.error.inj h
      exact GuestActivity.begin_eq_error hbegin
  | ok activity =>
      rw [hbegin] at h
      exact nomatch h

theorem reenter_eq_ok (h : w.reenter guest = .ok w') :
    (w.guests guest).closed = false ∧
      ∃ activity, (w.guests guest).activity.begin w.clock = .ok activity ∧
        w' = w.setActivity guest activity := by
  unfold reenter at h
  cases hclosed : (w.guests guest).closed with
  | true =>
      rw [hclosed] at h
      exact nomatch h
  | false =>
      rw [hclosed] at h
      exact ⟨rfl, activate_eq_ok h⟩

theorem enter_eq_ok (h : w.enter guest = .ok w') :
    (w.guests guest).closed = false ∧
      ∃ activity, (w.guests guest).activity.begin w.clock = .ok activity ∧
        w' = { w.setActivity guest activity with depth := w.depth + 1 } := by
  unfold enter at h
  cases hreenter : w.reenter guest with
  | error error =>
      rw [hreenter] at h
      exact nomatch h
  | ok active =>
      rw [hreenter] at h
      obtain ⟨hopen, activity, hbegin, rfl⟩ := reenter_eq_ok hreenter
      exact ⟨hopen, activity, hbegin, (Except.ok.inj h).symm⟩

theorem stack_enter (h : w.enter guest = .ok w') : w'.stack = w.stack := by
  obtain ⟨-, activity, -, rfl⟩ := enter_eq_ok h
  rfl

theorem enter_eq_error {error : Error} (h : w.enter guest = .error error) :
    (error = .closed ∧ (w.guests guest).closed = true) ∨
      ((w.guests guest).activity.policy.arm w.clock).dueError w.clock = some error := by
  unfold enter reenter at h
  cases hclosed : (w.guests guest).closed with
  | true =>
      rw [hclosed] at h
      obtain rfl := Except.error.inj h
      exact Or.inl ⟨rfl, rfl⟩
  | false =>
      rw [hclosed] at h
      dsimp only at h
      cases hactivate : w.activate guest with
      | error found =>
          rw [hactivate] at h
          obtain rfl := Except.error.inj h
          exact Or.inr (activate_eq_error hactivate)
      | ok active =>
          rw [hactivate] at h
          exact nomatch h

end World

end GuestJs.Driver
