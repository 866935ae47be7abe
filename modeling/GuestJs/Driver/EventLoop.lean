import GuestJs.Driver.World
import GuestJs.Library.Transition

/-!
# The event loop

A step of a guest's event loop polls the host futures of the guest, publishes those that have
settled, and runs at most one job of the engine. A task that awaits a promise takes such steps until
the promise is settled. Every call out of these functions, into a future, a conversion, a resolver
or a job, is a frame, and whatever it does happens before the event that answers it.
-/

namespace GuestJs.Driver

inductive Progress where
  | ready
  | waiting
  | idle
  deriving DecidableEq

/-- What an exception that stopped a job, or that a promise was rejected with, is read as. -/
inductive Captured where
  | exception (thrown : GuestException)
  | interrupted

def Captured.intoError : Captured → Error
  | .exception thrown => .guest thrown
  | .interrupted => .interrupted

namespace World

def deliver (w : World) (caller : Caller) (result : Except Error Progress) : World :=
  match caller, result with
  | .host _, _ => w
  | .task id _, .ok .ready => (w.park id).schedule id
  | .task id _, .ok .waiting | .task id _, .ok .idle => w.park id
  | .task id future, .error error => w.complete id future (.error error)

def finishStep (w : World) (caller : Caller) (result : Except Error Progress)
    (below : List Frame) : World :=
  { w.deliver caller result with stack := below }

/-- The next outcome of a batch, or the queue of jobs after the last. -/
def publishNext (w : World) (caller : Caller) (below : List Frame) : List Settled → World
  | [] => { w.leave caller.guest with stack := .jobs caller true :: below }
  | settled :: rest => { w with stack := .publish caller settled rest :: below }

/-- A step once all futures are polled: what has settled is taken and published, under an entry of
the guest. -/
def publish (w : World) (caller : Caller) (below : List Frame) : World :=
  match (w.guests caller.guest).hostFutures.hasSettled with
  | false => { w with stack := .jobs caller false :: below }
  | true =>
      match w.enter caller.guest with
      | .error error => w.finishStep caller (.error error) below
      | .ok entered =>
          let hostFutures := (entered.guests caller.guest).hostFutures
          (entered.setHostFutures caller.guest { hostFutures with settled := [] }).publishNext caller
            below hostFutures.settled

def pollNext (w : World) (caller : Caller) (below : List Frame) : List InFlight → World
  | [] => w.publish caller below
  | entry :: rest =>
      { w with
        futures := Function.update w.futures entry.future
          { w.futures entry.future with waker := some caller.waker }
        stack := .poll caller entry rest :: below }

/-- `EventLoop::step`, until it first calls out. -/
def stepEventLoop (w : World) (caller : Caller) (below : List Frame) : World :=
  let hostFutures := (w.guests caller.guest).hostFutures
  (w.setHostFutures caller.guest { hostFutures with inFlight := [] }).pollNext caller below
    hostFutures.inFlight

def polled (w : World) (caller : Caller) (current : InFlight) (rest : List InFlight)
    (below : List Frame) (result : Option (Except Error Unit)) : World :=
  let hostFutures := (w.guests caller.guest).hostFutures.polled current result
  (w.setHostFutures caller.guest hostFutures).pollNext caller below rest

/-- A step that returns from an activation of its own, made by an entry. -/
def finishEntered (w : World) (caller : Caller) (result : Except Error Progress)
    (below : List Frame) : World :=
  (w.finishStep caller result below).leave caller.guest

def progress (w : World) (guest : GuestId) (published : Bool) : Progress :=
  match published, (w.guests guest).hostFutures.isEmpty with
  | true, _ => .ready
  | false, true => .idle
  | false, false => .waiting

/-- `Engine::poll_jobs` under an activation of the guest, until the job it runs returns. -/
def pollJobs (w : World) (caller : Caller) (published : Bool) (below : List Frame) : World :=
  match w.activate caller.guest with
  | .error error => w.finishStep caller (.error error) below
  | .ok active =>
      match active.depth, active.jobs with
      | 0, origin :: jobs =>
          { active with depth := 1, jobs, stack := .job caller published origin :: below }
      | _, _ =>
          let progress := active.progress caller.guest published
          (active.finishStep caller (.ok progress) below).finish caller.guest

/-- `PromiseFuture::settled`, and the step that follows where the promise is pending. -/
def settled (w : World) (task : TaskId) (future : PromiseFuture) : World :=
  match w.enter future.guest with
  | .error error => w.complete task future (.error error)
  | .ok entered =>
      match entered.promises future.promise with
      | .pending =>
          (entered.leave future.guest).stepEventLoop (.task task future) w.stack
      | .fulfilled value => (entered.complete task future (.ok value)).leave future.guest
      | .rejected _ => entered.push (.reason task future)

/-- `PromiseFuture::poll`, until it first calls out. -/
def pollPromise (w : World) (task : TaskId) (future : PromiseFuture) : World :=
  let armed := future.armed.getD ((w.guests future.guest).activity.policy.arm w.clock)
  let future := { future with armed := some armed }
  let w := w.modifyTask task fun _ => ⟨future, .polling, false⟩
  match armed.dueError w.clock with
  | some error => w.complete task future (.error error)
  | none => w.settled task future

/-- What a step that polls the queue of jobs returns at once: nothing, where it runs a job. -/
def queueResult (w : World) (caller : Caller) (published : Bool) :
    Option (Except Error Progress) :=
  match w.activate caller.guest with
  | .error error => some (.error error)
  | .ok active =>
      match active.depth, active.jobs with
      | 0, _ :: _ => none
      | _, _ => some (.ok (active.progress caller.guest published))

/-- A poll of `EventLoop::run_until_idle`, with the answer of the step it takes. -/
def runUntilIdle (w : World) (armed : ArmedPolicy) (step : Except Error Progress) :
    Option (Except Error Unit) :=
  match armed.dueError w.clock, step with
  | some error, _ | none, .error error => some (.error error)
  | none, .ok .idle => some (.ok ())
  | none, .ok .ready | none, .ok .waiting => none

variable (w : World)

@[simp]
theorem guests_deliver (caller : Caller) (result : Except Error Progress) :
    (w.deliver caller result).guests = w.guests := by
  unfold deliver
  split <;> rfl

@[simp]
theorem guests_finishStep (caller : Caller) (result : Except Error Progress) (below : List Frame) :
    (w.finishStep caller result below).guests = w.guests :=
  w.guests_deliver caller result

/-- **Publishing.** Nothing has settled, or the guest refuses to be entered, or the whole batch is
taken under an entry. -/
theorem publish_cases (caller : Caller) (below : List Frame) :
    ((w.guests caller.guest).hostFutures.settled = [] ∧
        w.publish caller below = { w with stack := .jobs caller false :: below }) ∨
      (∃ error, w.enter caller.guest = .error error ∧
        w.publish caller below = w.finishStep caller (.error error) below) ∨
      ∃ entered, w.enter caller.guest = .ok entered ∧
        w.publish caller below =
          (entered.setHostFutures caller.guest
            { (entered.guests caller.guest).hostFutures with settled := [] }).publishNext caller
            below (entered.guests caller.guest).hostFutures.settled := by
  unfold publish
  cases hsettled : (w.guests caller.guest).hostFutures.hasSettled with
  | false => exact Or.inl ⟨by simpa [PendingHostFutures.hasSettled] using hsettled, rfl⟩
  | true =>
      cases henter : w.enter caller.guest with
      | error error => exact Or.inr (Or.inl ⟨error, rfl, rfl⟩)
      | ok entered => exact Or.inr (Or.inr ⟨entered, rfl, rfl⟩)

/-- **The queue of jobs.** The guest's policy is due, or the head of the queue is run, or there is
nothing to run, or no way to run it inside an entry. -/
theorem pollJobs_cases (caller : Caller) (published : Bool) (below : List Frame) :
    (∃ error, w.activate caller.guest = .error error ∧
        w.pollJobs caller published below = w.finishStep caller (.error error) below) ∨
      (∃ active origin jobs, w.activate caller.guest = .ok active ∧ w.depth = 0 ∧
        w.jobs = origin :: jobs ∧
        w.pollJobs caller published below =
          { active with depth := 1, jobs, stack := .job caller published origin :: below }) ∨
      ∃ active, w.activate caller.guest = .ok active ∧ (w.depth ≠ 0 ∨ w.jobs = []) ∧
        w.pollJobs caller published below =
          (active.finishStep caller (.ok (active.progress caller.guest published)) below).finish
            caller.guest := by
  unfold pollJobs
  cases hactivate : w.activate caller.guest with
  | error error => exact Or.inl ⟨error, rfl, rfl⟩
  | ok active =>
      right
      have hdepth : active.depth = w.depth := by
        obtain ⟨activity, -, rfl⟩ := activate_eq_ok hactivate
        rfl
      have hjobs : active.jobs = w.jobs := by
        obtain ⟨activity, -, rfl⟩ := activate_eq_ok hactivate
        rfl
      dsimp only
      rw [hdepth, hjobs]
      cases hqueue : w.jobs with
      | nil => exact Or.inr ⟨active, rfl, Or.inr rfl, by split <;> first | rfl | contradiction⟩
      | cons origin jobs =>
          by_cases hzero : w.depth = 0
          · rw [hzero]
            exact Or.inl ⟨active, origin, jobs, rfl, rfl, rfl, rfl⟩
          · refine Or.inr ⟨active, rfl, Or.inl hzero, ?_⟩
            split
            next hdepth _ => exact absurd hdepth hzero
            next => rfl

theorem settled_cases (task : TaskId) (future : PromiseFuture) :
    (∃ error, w.enter future.guest = .error error ∧
        w.settled task future = w.complete task future (.error error)) ∨
      ∃ entered, w.enter future.guest = .ok entered ∧
        ((w.promises future.promise = .pending ∧
            w.settled task future =
              (entered.leave future.guest).stepEventLoop (.task task future) w.stack) ∨
          (∃ value, w.promises future.promise = .fulfilled value ∧
            w.settled task future = (entered.complete task future (.ok value)).leave future.guest) ∨
          ∃ reason, w.promises future.promise = .rejected reason ∧
            w.settled task future = entered.push (.reason task future)) := by
  unfold settled
  cases henter : w.enter future.guest with
  | error error => exact Or.inl ⟨error, rfl, rfl⟩
  | ok entered =>
      have hpromises : entered.promises = w.promises := by
        obtain ⟨-, activity, -, rfl⟩ := enter_eq_ok henter
        rfl
      refine Or.inr ⟨entered, rfl, ?_⟩
      dsimp only
      rw [hpromises]
      cases w.promises future.promise with
      | pending => exact Or.inl ⟨rfl, rfl⟩
      | fulfilled value => exact Or.inr (Or.inl ⟨value, rfl, rfl⟩)
      | rejected reason => exact Or.inr (Or.inr ⟨reason, rfl, rfl⟩)

theorem pollPromise_cases (task : TaskId) (future : PromiseFuture) :
    ∃ armed : ArmedPolicy, let polled : PromiseFuture := { future with armed := some armed }
      let polling := w.modifyTask task fun _ => ⟨polled, .polling, false⟩
      (∃ error, armed.dueError w.clock = some error ∧
          w.pollPromise task future = polling.complete task polled (.error error)) ∨
        w.pollPromise task future = polling.settled task polled := by
  refine ⟨future.armed.getD ((w.guests future.guest).activity.policy.arm w.clock), ?_⟩
  dsimp only
  unfold pollPromise
  dsimp only
  split
  next error hdue => exact Or.inl ⟨error, hdue, rfl⟩
  next => exact Or.inr rfl

end World

end GuestJs.Driver
