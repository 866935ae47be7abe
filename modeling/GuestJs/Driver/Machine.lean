import GuestJs.Driver.EventLoop

/-!
# Runs of a runtime

Any number of guests and tasks, in any order: code of the host enters guests, calls them, registers
futures on them, steps their event loops and awaits their promises; code of the guests calls the
host back, queues jobs and settles promises; and between any two of these, time passes, signals
change their answers and futures complete.
-/

namespace GuestJs.Driver

inductive Event where
  | tick (now : Instant)
  | signal (signal : CancelSignal) (answer : Bool)
  /-- A host future completes, and wakes the waker of its last poll. -/
  | complete (future : FutureId)
  | close (guest : GuestId)
  | enter (guest : GuestId)
  | activate (guest : GuestId)
  /-- Code of a guest calls a function of the host. -/
  | callback (guest : GuestId)
  /-- A function of the host, or the closure of an entry, returns. -/
  | leave
  /-- The host calls code of a guest. -/
  | call (guest : GuestId)
  /-- Code of a guest that the host called returns. -/
  | return
  | enqueue (guest : GuestId)
  | settle (promise : PromiseId) (result : Except Value Value)
  | lend (guest : GuestId)
  | release (guest : GuestId)
  | register (guest : GuestId) (future : FutureId) (promise : PromiseId)
  | step (guest : GuestId)
  | pending
  | ready (result : Except Error Unit)
  /-- A result has been converted, and the outcome's resolver is called. -/
  | hand (converted : Except Error Unit)
  /-- The exception for an outcome is not made, or its resolver is not attached. -/
  | refuse (error : Error)
  | answered (result : Except Error Unit)
  | pollJobs
  | jobDone
  | jobFailed (captured : Captured)
  | spawn (task : TaskId) (guest : GuestId) (promise : PromiseId)
  | poll (task : TaskId)
  | drop (task : TaskId)
  | reason (captured : Captured)

namespace World

def leaveTop (w : World) : Option World :=
  match w.stack with
  | .enter guest :: below => some { w.leave guest with stack := below }
  | .activate guest :: below | .callback guest :: below =>
      some { w.finish guest with stack := below }
  | _ => none

def returnTop (w : World) : Option World :=
  match w.stack with
  | .code _ :: below => some { w with stack := below }
  | _ => none

def close (w : World) (guest : GuestId) : World :=
  { w with guests := Function.update w.guests guest { w.guests guest with closed := true } }

def enqueue (w : World) (guest : GuestId) : World := { w with jobs := w.jobs ++ [guest] }

def settle (w : World) (promise : PromiseId) (result : Except Value Value) : World :=
  { w with
    promises := Function.update w.promises promise <|
      match result with
      | .ok value => .fulfilled value
      | .error reason => .rejected reason }

/-- `PendingHostFutures::register`, with the promise that is made for the future. -/
def register (w : World) (guest : GuestId) (future : FutureId) (promise : PromiseId) : World :=
  let entry : InFlight := ⟨.resolve promise, .reject promise, future⟩
  let state := w.guests guest
  { w with
    guests := Function.update w.guests guest
      { state with
        hostFutures := state.hostFutures.push entry
        registered := entry :: state.registered } }

/-- A future that has been registered before is not registered again, and a promise made for one is
new. -/
def canRegister (w : World) (guest : GuestId) (future : FutureId) (promise : PromiseId) : Bool :=
  w.canUse guest && promise.guest == guest &&
    (w.guests guest).registered.all fun entry =>
      entry.future != future && entry.resolve != .resolve promise

def pendingTop (w : World) : Option World :=
  match w.stack with
  | .poll caller current rest :: below =>
      if (w.futures current.future).ready then none
      else some (w.polled caller current rest below none)
  | _ => none

def readyTop (w : World) (result : Except Error Unit) : Option World :=
  match w.stack with
  | .poll caller current rest :: below =>
      some <| { w with
        futures := Function.update w.futures current.future
          { w.futures current.future with ready := false } }.polled
        caller current rest below (some result)
  | _ => none

def hand (w : World) (guest : GuestId) (handed : Handed) : World :=
  let state := w.guests guest
  { w with
    guests := Function.update w.guests guest { state with handed := handed :: state.handed } }

def handTop (w : World) (converted : Except Error Unit) : Option World :=
  match w.stack with
  | .publish caller current rest :: below =>
      some { w.hand caller.guest ⟨current.entry, current.resolver converted⟩ with
        stack := .call caller rest :: below }
  | _ => none

def publishFailed (w : World) (caller : Caller) (error : Error) (below : List Frame) : World :=
  w.finishEntered caller (.error (w.named caller.guest error)) below

def refuseTop (w : World) (error : Error) : Option World :=
  match w.stack with
  | .publish caller _ _ :: below => some (w.publishFailed caller error below)
  | _ => none

def answeredTop (w : World) (result : Except Error Unit) : Option World :=
  match w.stack with
  | .call caller rest :: below =>
      match result with
      | .ok _ => some (w.publishNext caller below rest)
      | .error error => some (w.publishFailed caller error below)
  | _ => none

def pollJobsTop (w : World) : Option World :=
  match w.stack with
  | .jobs caller published :: below => some (w.pollJobs caller published below)
  | _ => none

def jobTop (w : World) (failed : Option Captured) : Option World :=
  match w.stack with
  | .job caller _ _ :: below =>
      match failed with
      | none => some (w.finishEntered caller (.ok .ready) below)
      | some captured =>
          let error := w.named caller.guest captured.intoError
          some (w.finishEntered caller (.error error) below)
  | _ => none

def spawn (w : World) (task : TaskId) (guest : GuestId) (promise : PromiseId) : World :=
  { w with
    tasks := Function.update w.tasks task (some ⟨⟨guest, promise, none⟩, .fresh, true⟩) }

def pollTask (w : World) (task : TaskId) : Option World :=
  match w.tasks task with
  | some ⟨future, .fresh, _⟩ | some ⟨future, .pending, _⟩ => some (w.pollPromise task future)
  | _ => none

def dropTask (w : World) (task : TaskId) : Option World :=
  match w.tasks task with
  | some ⟨_, .fresh, _⟩ | some ⟨_, .pending, _⟩ | some ⟨_, .done _, _⟩ =>
      some { w with tasks := Function.update w.tasks task none }
  | _ => none

/-- The exception for a rejected promise keeps the reason it was rejected with. -/
def reasonTop (w : World) (captured : Captured) : Option World :=
  match w.stack with
  | .reason task future :: below =>
      match captured with
      | .interrupted =>
          let error := w.named future.guest .interrupted
          some { (w.complete task future (.error error)).leave future.guest with stack := below }
      | .exception thrown =>
          if w.promises future.promise = .rejected thrown.value.value then
            some { (w.complete task future (.error (.guest thrown))).leave future.guest with
              stack := below }
          else none
  | _ => none

def entered (w : Except Error World) (frame : Frame) : Option World :=
  w.toOption.map fun w => w.push frame

def step (w : World) : Event → Option World
  | .tick now => if w.clock.now ≤ now then some { w with clock := { w.clock with now } } else none
  | .signal signal answer =>
      let cancelled := Function.update w.clock.cancelled signal answer
      some { w with clock := { w.clock with cancelled } }
  | .complete future =>
      let state := w.futures future
      let ready := { w with futures := Function.update w.futures future { state with ready := true } }
      some (state.waker.elim ready ready.wake)
  | .close guest => if w.isHost then some (w.close guest) else none
  | .enter guest => if w.isHost then entered (w.enter guest) (.enter guest) else none
  | .activate guest => if w.isHost then entered (w.activate guest) (.activate guest) else none
  | .callback guest =>
      if w.executing = some guest then entered (w.reenter guest) (.callback guest) else none
  | .leave => w.leaveTop
  | .call guest => if w.canUse guest then some (w.push (.code guest)) else none
  | .return => w.returnTop
  | .enqueue guest => if w.runs guest then some (w.enqueue guest) else none
  | .settle promise result =>
      if w.runs promise.guest ∧ w.promises promise = .pending then some (w.settle promise result)
      else none
  | .lend guest =>
      if w.canUse guest then some { w with loans := guest :: w.loans } else none
  | .release guest =>
      if w.isHost then some { w with loans := w.loans.erase guest } else none
  | .register guest future promise =>
      if w.canRegister guest future promise then some (w.register guest future promise) else none
  | .step guest => if w.isHost then some (w.stepEventLoop (.host guest) w.stack) else none
  | .pending => w.pendingTop
  | .ready result => w.readyTop result
  | .hand converted => w.handTop converted
  | .refuse error => w.refuseTop error
  | .answered result => w.answeredTop result
  | .pollJobs => w.pollJobsTop
  | .jobDone => w.jobTop none
  | .jobFailed captured => w.jobTop (some captured)
  | .spawn task guest promise =>
      if w.canUse guest ∧ promise.guest = guest ∧ w.tasks task = none then
        some (w.spawn task guest promise)
      else none
  | .poll task => if w.isHost then w.pollTask task else none
  | .drop task => if w.isHost then w.dropTask task else none
  | .reason captured => w.reasonTop captured

def machine : Transition.Machine World Event := ⟨step⟩

variable {w w' : World}

theorem entered_eq_some {result : Except Error World} {frame : Frame}
    (h : entered result frame = some w') : ∃ active, result = .ok active ∧ w' = active.push frame := by
  cases result with
  | error error => exact nomatch h
  | ok active => exact ⟨active, rfl, (Option.some.inj h).symm⟩

theorem leaveTop_eq_some (h : w.leaveTop = some w') :
    ∃ frame guest below, w.stack = frame :: below ∧
      (frame = .enter guest ∨ frame = .activate guest ∨ frame = .callback guest) ∧
      (w' = { w.leave guest with stack := below } ∨ w' = { w.finish guest with stack := below }) := by
  unfold leaveTop at h
  split at h
  next guest below hstack =>
    exact ⟨_, guest, below, hstack, Or.inl rfl, Or.inl (Option.some.inj h).symm⟩
  next guest below hstack =>
    exact ⟨_, guest, below, hstack, Or.inr (Or.inl rfl), Or.inr (Option.some.inj h).symm⟩
  next guest below hstack =>
    exact ⟨_, guest, below, hstack, Or.inr (Or.inr rfl), Or.inr (Option.some.inj h).symm⟩
  next => exact nomatch h

theorem returnTop_eq_some (h : w.returnTop = some w') :
    ∃ guest below, w.stack = .code guest :: below ∧ w' = { w with stack := below } := by
  unfold returnTop at h
  split at h
  next guest below hstack => exact ⟨guest, below, hstack, (Option.some.inj h).symm⟩
  next => exact nomatch h

theorem pendingTop_eq_some (h : w.pendingTop = some w') :
    ∃ caller current rest below, w.stack = .poll caller current rest :: below ∧
      (w.futures current.future).ready = false ∧
      w' = w.polled caller current rest below none := by
  unfold pendingTop at h
  split at h
  next caller current rest below hstack =>
    obtain ⟨hready, heq⟩ := Option.ite_none_left_eq_some.mp h
    exact ⟨caller, current, rest, below, hstack, by simpa using hready,
      (Option.some.inj heq).symm⟩
  next => exact nomatch h

theorem readyTop_eq_some {result : Except Error Unit} (h : w.readyTop result = some w') :
    ∃ caller current rest below, w.stack = .poll caller current rest :: below ∧
      w' = { w with
        futures := Function.update w.futures current.future
          { w.futures current.future with ready := false } }.polled
        caller current rest below (some result) := by
  unfold readyTop at h
  split at h
  next caller current rest below hstack =>
    exact ⟨caller, current, rest, below, hstack, (Option.some.inj h).symm⟩
  next => exact nomatch h

theorem handTop_eq_some {converted : Except Error Unit} (h : w.handTop converted = some w') :
    ∃ caller current rest below, w.stack = .publish caller current rest :: below ∧
      w' = { w.hand caller.guest ⟨current.entry, current.resolver converted⟩ with
        stack := .call caller rest :: below } := by
  unfold handTop at h
  split at h
  next caller current rest below hstack =>
    exact ⟨caller, current, rest, below, hstack, (Option.some.inj h).symm⟩
  next => exact nomatch h

theorem refuseTop_eq_some {error : Error} (h : w.refuseTop error = some w') :
    ∃ caller current rest below, w.stack = .publish caller current rest :: below ∧
      w' = w.publishFailed caller error below := by
  unfold refuseTop at h
  split at h
  next caller current rest below hstack =>
    exact ⟨caller, current, rest, below, hstack, (Option.some.inj h).symm⟩
  next => exact nomatch h

theorem answeredTop_eq_some {result : Except Error Unit} (h : w.answeredTop result = some w') :
    ∃ caller rest below, w.stack = .call caller rest :: below ∧
      ((result = .ok () ∧ w' = w.publishNext caller below rest) ∨
        ∃ error, result = .error error ∧ w' = w.publishFailed caller error below) := by
  unfold answeredTop at h
  split at h
  next caller rest below hstack =>
    refine ⟨caller, rest, below, hstack, ?_⟩
    cases result with
    | ok _ => exact Or.inl ⟨rfl, (Option.some.inj h).symm⟩
    | error error => exact Or.inr ⟨error, rfl, (Option.some.inj h).symm⟩
  next => exact nomatch h

theorem pollJobsTop_eq_some (h : w.pollJobsTop = some w') :
    ∃ caller published below, w.stack = .jobs caller published :: below ∧
      w' = w.pollJobs caller published below := by
  unfold pollJobsTop at h
  split at h
  next caller published below hstack =>
    exact ⟨caller, published, below, hstack, (Option.some.inj h).symm⟩
  next => exact nomatch h

theorem jobTop_eq_some {failed : Option Captured} (h : w.jobTop failed = some w') :
    ∃ caller published origin below, w.stack = .job caller published origin :: below ∧
      w' = w.finishEntered caller
        (failed.elim (.ok .ready) fun captured =>
          .error (w.named caller.guest captured.intoError)) below := by
  unfold jobTop at h
  split at h
  next caller published origin below hstack =>
    refine ⟨caller, published, origin, below, hstack, ?_⟩
    cases failed with
    | none => exact (Option.some.inj h).symm
    | some captured => exact (Option.some.inj h).symm
  next => exact nomatch h

theorem pollTask_eq_some {task : TaskId} (h : w.pollTask task = some w') :
    ∃ state, w.tasks task = some state ∧ (state.phase = .fresh ∨ state.phase = .pending) ∧
      w' = w.pollPromise task state.future := by
  unfold pollTask at h
  split at h
  next future _ htask => exact ⟨_, htask, Or.inl rfl, (Option.some.inj h).symm⟩
  next future _ htask => exact ⟨_, htask, Or.inr rfl, (Option.some.inj h).symm⟩
  next => exact nomatch h

theorem dropTask_eq_some {task : TaskId} (h : w.dropTask task = some w') :
    w' = { w with tasks := Function.update w.tasks task none } := by
  unfold dropTask at h
  split at h
  next => exact (Option.some.inj h).symm
  next => exact (Option.some.inj h).symm
  next => exact (Option.some.inj h).symm
  next => exact nomatch h

theorem reasonTop_eq_some {captured : Captured} (h : w.reasonTop captured = some w') :
    ∃ task future below error, w.stack = .reason task future :: below ∧
      w' = { (w.complete task future (.error error)).leave future.guest with stack := below } ∧
      ((captured = .interrupted ∧ error = w.named future.guest .interrupted) ∨
        ∃ thrown, captured = .exception thrown ∧ error = .guest thrown ∧
          w.promises future.promise = .rejected thrown.value.value) := by
  unfold reasonTop at h
  split at h
  next task future below hstack =>
    cases captured with
    | interrupted =>
        exact ⟨task, future, below, _, hstack, (Option.some.inj h).symm, Or.inl ⟨rfl, rfl⟩⟩
    | exception thrown =>
        obtain ⟨hstate, heq⟩ := Option.ite_none_right_eq_some.mp h
        exact ⟨task, future, below, _, hstack, (Option.some.inj heq).symm,
          Or.inr ⟨thrown, rfl, rfl, hstate⟩⟩
  next => exact nomatch h

def setReady (w : World) (future : FutureId) (ready : Bool) : World :=
  { w with futures := Function.update w.futures future { w.futures future with ready } }

/-- All that an event can lead to. -/
inductive Happens (w : World) : Event → World → Prop where
  | tick {now : Instant} (hnow : w.clock.now ≤ now) :
      Happens w (.tick now) { w with clock := { w.clock with now } }
  | signal (signal : CancelSignal) (answer : Bool) :
      Happens w (.signal signal answer)
        { w with
          clock := { w.clock with cancelled := Function.update w.clock.cancelled signal answer } }
  | complete {future : FutureId}
      (hwaker : (w.futures future).waker = none ∨ (w.futures future).waker = some .other) :
      Happens w (.complete future) (w.setReady future true)
  | wake {future : FutureId} {task : TaskId}
      (hwaker : (w.futures future).waker = some (.task task)) :
      Happens w (.complete future) ((w.setReady future true).schedule task)
  | close {guest : GuestId} (hhost : w.isHost = true) : Happens w (.close guest) (w.close guest)
  | enter {guest : GuestId} {activity : GuestActivity} (hhost : w.isHost = true)
      (hopen : (w.guests guest).closed = false)
      (hbegin : (w.guests guest).activity.begin w.clock = .ok activity) :
      Happens w (.enter guest)
        { w.setActivity guest activity with
          depth := w.depth + 1, stack := .enter guest :: w.stack }
  | activate {guest : GuestId} {activity : GuestActivity} (hhost : w.isHost = true)
      (hbegin : (w.guests guest).activity.begin w.clock = .ok activity) :
      Happens w (.activate guest) ((w.setActivity guest activity).push (.activate guest))
  | callback {guest : GuestId} {activity : GuestActivity} (hcode : w.executing = some guest)
      (hopen : (w.guests guest).closed = false)
      (hbegin : (w.guests guest).activity.begin w.clock = .ok activity) :
      Happens w (.callback guest) ((w.setActivity guest activity).push (.callback guest))
  | leave {frame : Frame} {guest : GuestId} {below : List Frame} (hstack : w.stack = frame :: below)
      (hframe : frame = .enter guest ∨ frame = .activate guest ∨ frame = .callback guest)
      (depth : Nat) : Happens w .leave { w.finish guest with depth, stack := below }
  | call {guest : GuestId} (hhost : w.isHost = true) (hcan : guest ∈ enters w.stack) :
      Happens w (.call guest) (w.push (.code guest))
  | «return» {guest : GuestId} {below : List Frame} (hstack : w.stack = .code guest :: below) :
      Happens w .return { w with stack := below }
  | enqueue {guest : GuestId} (hruns : w.runs guest = true) :
      Happens w (.enqueue guest) (w.enqueue guest)
  | settle {promise : PromiseId} (result : Except Value Value) (hruns : w.runs promise.guest = true)
      (hpending : w.promises promise = .pending) :
      Happens w (.settle promise result) (w.settle promise result)
  | lend {guest : GuestId} (hcan : w.canUse guest = true) :
      Happens w (.lend guest) { w with loans := guest :: w.loans }
  | release {guest : GuestId} (hhost : w.isHost = true) :
      Happens w (.release guest) { w with loans := w.loans.erase guest }
  | register {guest : GuestId} {future : FutureId} {promise : PromiseId}
      (hnew : w.canRegister guest future promise = true) :
      Happens w (.register guest future promise) (w.register guest future promise)
  | step {guest : GuestId} (hhost : w.isHost = true) :
      Happens w (.step guest) (w.stepEventLoop (.host guest) w.stack)
  | pending {caller : Caller} {current : InFlight} {rest : List InFlight} {below : List Frame}
      (hstack : w.stack = .poll caller current rest :: below)
      (hready : (w.futures current.future).ready = false) :
      Happens w .pending (w.polled caller current rest below none)
  | ready {caller : Caller} {current : InFlight} {rest : List InFlight} {below : List Frame}
      (hstack : w.stack = .poll caller current rest :: below) (result : Except Error Unit) :
      Happens w (.ready result)
        ((w.setReady current.future false).polled caller current rest below (some result))
  | hand {caller : Caller} {current : Settled} {rest : List Settled} {below : List Frame}
      (hstack : w.stack = .publish caller current rest :: below) (converted : Except Error Unit) :
      Happens w (.hand converted)
        { w.hand caller.guest ⟨current.entry, current.resolver converted⟩ with
          stack := .call caller rest :: below }
  | refuse {caller : Caller} {current : Settled} {rest : List Settled} {below : List Frame}
      (hstack : w.stack = .publish caller current rest :: below) (error : Error) :
      Happens w (.refuse error) (w.publishFailed caller error below)
  | answered {caller : Caller} {rest : List Settled} {below : List Frame}
      (hstack : w.stack = .call caller rest :: below) :
      Happens w (.answered (.ok ())) (w.publishNext caller below rest)
  | failed {caller : Caller} {rest : List Settled} {below : List Frame}
      (hstack : w.stack = .call caller rest :: below) (error : Error) :
      Happens w (.answered (.error error)) (w.publishFailed caller error below)
  | pollJobs {caller : Caller} {published : Bool} {below : List Frame}
      (hstack : w.stack = .jobs caller published :: below) :
      Happens w .pollJobs (w.pollJobs caller published below)
  | jobDone {caller : Caller} {published : Bool} {origin : GuestId} {below : List Frame}
      (hstack : w.stack = .job caller published origin :: below) :
      Happens w .jobDone (w.finishEntered caller (.ok .ready) below)
  | jobFailed {caller : Caller} {published : Bool} {origin : GuestId} {below : List Frame}
      (hstack : w.stack = .job caller published origin :: below) (captured : Captured) :
      Happens w (.jobFailed captured)
        (w.finishEntered caller (.error (w.named caller.guest captured.intoError)) below)
  | spawn {task : TaskId} {guest : GuestId} {promise : PromiseId} (hcan : w.canUse guest = true)
      (hguest : promise.guest = guest) (hnew : w.tasks task = none) :
      Happens w (.spawn task guest promise) (w.spawn task guest promise)
  | poll {task : TaskId} {state : Task} (hhost : w.isHost = true)
      (htask : w.tasks task = some state) (hphase : state.phase = .fresh ∨ state.phase = .pending) :
      Happens w (.poll task) (w.pollPromise task state.future)
  | drop {task : TaskId} (hhost : w.isHost = true) :
      Happens w (.drop task) { w with tasks := Function.update w.tasks task none }
  | reason {task : TaskId} {future : PromiseFuture} {below : List Frame} {captured : Captured}
      {error : Error} (hstack : w.stack = .reason task future :: below)
      (hcaptured : (captured = .interrupted ∧ error = w.named future.guest .interrupted) ∨
        ∃ thrown, captured = .exception thrown ∧ error = .guest thrown ∧
          w.promises future.promise = .rejected thrown.value.value) :
      Happens w (.reason captured)
        { (w.complete task future (.error error)).leave future.guest with stack := below }

/-- **What a step does.** -/
theorem happens {event : Event} (h : w.step event = some w') : w.Happens event w' := by
  cases event with
  | tick now =>
      obtain ⟨hnow, heq⟩ := Option.ite_none_right_eq_some.mp h
      obtain rfl := Option.some.inj heq
      exact .tick hnow
  | signal signal answer =>
      obtain rfl := Option.some.inj h
      exact .signal signal answer
  | complete future =>
      have heq : w' = (w.futures future).waker.elim (w.setReady future true)
          (w.setReady future true).wake := (Option.some.inj h).symm
      cases hwaker : (w.futures future).waker with
      | none =>
          rw [heq, hwaker]
          exact .complete (Or.inl hwaker)
      | some waker =>
          rw [heq, hwaker]
          cases waker with
          | other => exact .complete (Or.inr hwaker)
          | task task => exact .wake hwaker
  | close guest =>
      obtain ⟨hhost, heq⟩ := Option.ite_none_right_eq_some.mp h
      obtain rfl := Option.some.inj heq
      exact .close hhost
  | enter guest =>
      obtain ⟨hhost, heq⟩ := Option.ite_none_right_eq_some.mp h
      obtain ⟨entered, henter, rfl⟩ := entered_eq_some heq
      obtain ⟨hopen, activity, hbegin, rfl⟩ := enter_eq_ok henter
      exact .enter hhost hopen hbegin
  | activate guest =>
      obtain ⟨hhost, heq⟩ := Option.ite_none_right_eq_some.mp h
      obtain ⟨active, hactivate, rfl⟩ := entered_eq_some heq
      obtain ⟨activity, hbegin, rfl⟩ := activate_eq_ok hactivate
      exact .activate hhost hbegin
  | callback guest =>
      obtain ⟨hcode, heq⟩ := Option.ite_none_right_eq_some.mp h
      obtain ⟨active, hreenter, rfl⟩ := entered_eq_some heq
      obtain ⟨hopen, activity, hbegin, rfl⟩ := reenter_eq_ok hreenter
      exact .callback hcode hopen hbegin
  | leave =>
      obtain ⟨frame, guest, below, hstack, hframe, rfl | rfl⟩ := leaveTop_eq_some h
      · exact .leave hstack hframe _
      · exact .leave hstack hframe w.depth
  | call guest =>
      obtain ⟨hcan, heq⟩ := Option.ite_none_right_eq_some.mp h
      obtain rfl := Option.some.inj heq
      obtain ⟨hhost, hmem⟩ := Bool.and_eq_true_iff.mp hcan
      exact .call hhost (by simpa using hmem)
  | «return» =>
      obtain ⟨guest, below, hstack, rfl⟩ := returnTop_eq_some h
      exact .return hstack
  | enqueue guest =>
      obtain ⟨hruns, heq⟩ := Option.ite_none_right_eq_some.mp h
      obtain rfl := Option.some.inj heq
      exact .enqueue hruns
  | settle promise result =>
      obtain ⟨⟨hruns, hpending⟩, heq⟩ := Option.ite_none_right_eq_some.mp h
      obtain rfl := Option.some.inj heq
      exact .settle result hruns hpending
  | lend guest =>
      obtain ⟨hcan, heq⟩ := Option.ite_none_right_eq_some.mp h
      obtain rfl := Option.some.inj heq
      exact .lend hcan
  | release guest =>
      obtain ⟨hhost, heq⟩ := Option.ite_none_right_eq_some.mp h
      obtain rfl := Option.some.inj heq
      exact .release hhost
  | register guest future promise =>
      obtain ⟨hnew, heq⟩ := Option.ite_none_right_eq_some.mp h
      obtain rfl := Option.some.inj heq
      exact .register hnew
  | step guest =>
      obtain ⟨hhost, heq⟩ := Option.ite_none_right_eq_some.mp h
      obtain rfl := Option.some.inj heq
      exact .step hhost
  | pending =>
      obtain ⟨caller, current, rest, below, hstack, hready, rfl⟩ := pendingTop_eq_some h
      exact .pending hstack hready
  | ready result =>
      obtain ⟨caller, current, rest, below, hstack, rfl⟩ := readyTop_eq_some h
      exact .ready hstack result
  | hand converted =>
      obtain ⟨caller, current, rest, below, hstack, rfl⟩ := handTop_eq_some h
      exact .hand hstack converted
  | refuse error =>
      obtain ⟨caller, current, rest, below, hstack, rfl⟩ := refuseTop_eq_some h
      exact .refuse hstack error
  | answered result =>
      obtain ⟨caller, rest, below, hstack, ⟨rfl, rfl⟩ | ⟨error, rfl, rfl⟩⟩ := answeredTop_eq_some h
      · exact .answered hstack
      · exact .failed hstack error
  | pollJobs =>
      obtain ⟨caller, published, below, hstack, rfl⟩ := pollJobsTop_eq_some h
      exact .pollJobs hstack
  | jobDone =>
      have htop : w.jobTop none = some w' := h
      obtain ⟨caller, published, origin, below, hstack, rfl⟩ := jobTop_eq_some htop
      exact .jobDone hstack
  | jobFailed captured =>
      have htop : w.jobTop (some captured) = some w' := h
      obtain ⟨caller, published, origin, below, hstack, rfl⟩ := jobTop_eq_some htop
      exact .jobFailed hstack captured
  | spawn task guest promise =>
      obtain ⟨⟨hcan, hguest, hnew⟩, heq⟩ := Option.ite_none_right_eq_some.mp h
      obtain rfl := Option.some.inj heq
      exact .spawn hcan hguest hnew
  | poll task =>
      obtain ⟨hhost, heq⟩ := Option.ite_none_right_eq_some.mp h
      obtain ⟨state, htask, hphase, rfl⟩ := pollTask_eq_some heq
      exact .poll hhost htask hphase
  | drop task =>
      obtain ⟨hhost, heq⟩ := Option.ite_none_right_eq_some.mp h
      obtain rfl := dropTask_eq_some heq
      exact .drop hhost
  | reason captured =>
      obtain ⟨task, future, below, error, hstack, rfl, hcaptured⟩ := reasonTop_eq_some h
      exact .reason hstack hcaptured

end World

end GuestJs.Driver
