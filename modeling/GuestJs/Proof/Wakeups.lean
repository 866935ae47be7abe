import GuestJs.Proof.TaskSteps

/-!
# Wake-ups of awaiters

A task that awaits a promise is polled again when its own step made progress, or when a host future
completes that it was the last to poll. A promise can settle in neither way: in the step of another
task of the same guest, or in an entry of the host's.
-/

namespace GuestJs.Driver

namespace World

/-- Nothing runs, no task that awaits a promise is scheduled, and no host future in flight has completed
since it was polled. -/
structure Quiescent (w : World) : Prop where
  stack : w.stack = []
  tasks : ∀ task state, w.tasks task = some state →
    state.phase = .fresh ∨ state.phase = .pending → state.scheduled = false
  futures : ∀ guest, ∀ entry ∈ (w.guests guest).hostFutures.inFlight,
    (w.futures entry.future).ready = false

/-- A quiescent state has no awaited promise that is settled while its future is pending. -/
def NoLostWakeup (w : World) : Prop :=
  w.Quiescent → ∀ task state, w.tasks task = some state → state.phase = .pending →
    w.promises state.future.promise = .pending

/-- A task whose future is pending is scheduled, or its promise is pending. -/
def Awake (w : World) : Prop :=
  ∀ task state, w.tasks task = some state → state.phase = .pending →
    state.scheduled = true ∨ w.promises state.future.promise = .pending

/-- A promise settles while every task whose future of it is pending is scheduled, and a step that
published nothing and finds no job to run leaves the promise pending it was taken for. -/
def WakesAwaiters (w : World) (event : Event) : Prop :=
  match event, w.stack with
  | .settle promise _, _ =>
      ∀ task state, w.tasks task = some state → state.phase = .pending →
        state.future.promise = promise → state.scheduled = true
  | .pollJobs, .jobs (.task task future) false :: _ =>
      (w.activate future.guest).isOk = true → w.depth ≠ 0 ∨ w.jobs = [] →
        ∀ state, w.tasks task = some state → w.promises state.future.promise = .pending
  | _, _ => True

variable {w w' : World} {event : Event}

theorem Awake.noLostWakeup (h : w.Awake) : w.NoLostWakeup := by
  intro hquiescent task state htask hphase
  rcases h task state htask hphase with hscheduled | hpending
  · rw [hquiescent.tasks task state htask (Or.inr hphase)] at hscheduled
    exact nomatch hscheduled
  · exact hpending

section promises

variable {caller : Caller} {below : List Frame} {guest : GuestId}

theorem promises_deliver (w : World) (caller : Caller) (result : Except Error Progress) :
    (w.deliver caller result).promises = w.promises := by
  unfold deliver
  split <;> rfl

theorem promises_activate (h : w.activate guest = .ok w') : w'.promises = w.promises := by
  obtain ⟨activity, -, rfl⟩ := activate_eq_ok h
  rfl

theorem promises_enter (h : w.enter guest = .ok w') : w'.promises = w.promises := by
  obtain ⟨-, activity, -, rfl⟩ := enter_eq_ok h
  rfl

theorem promises_publishNext (w : World) (caller : Caller) (below : List Frame)
    (batch : List Settled) : (w.publishNext caller below batch).promises = w.promises := by
  cases batch <;> rfl

theorem promises_publish (w : World) (caller : Caller) (below : List Frame) :
    (w.publish caller below).promises = w.promises := by
  rcases w.publish_cases caller below with ⟨-, heq⟩ | ⟨error, -, heq⟩ | ⟨entered, henter, heq⟩
  · rw [heq]
  · rw [heq]
    exact promises_deliver w caller (.error error)
  · have hpromises : entered.promises = w.promises := promises_enter henter
    rw [heq, promises_publishNext]
    exact hpromises

theorem promises_pollNext (w : World) (caller : Caller) (below : List Frame)
    (round : List InFlight) : (w.pollNext caller below round).promises = w.promises := by
  cases round with
  | nil => exact promises_publish w caller below
  | cons entry rest => rfl

theorem promises_stepEventLoop (w : World) (caller : Caller) (below : List Frame) :
    (w.stepEventLoop caller below).promises = w.promises :=
  promises_pollNext _ caller below _

theorem promises_pollJobs (w : World) (caller : Caller) (published : Bool) (below : List Frame) :
    (w.pollJobs caller published below).promises = w.promises := by
  rcases w.pollJobs_cases caller published below with ⟨error, -, heq⟩ |
    ⟨active, origin, jobs, hactivate, -, -, heq⟩ | ⟨active, hactivate, -, heq⟩
  · rw [heq]
    exact promises_deliver w caller (.error error)
  · have hpromises : active.promises = w.promises := promises_activate hactivate
    rw [heq]
    exact hpromises
  · rw [heq]
    exact (promises_deliver active caller _).trans (promises_activate hactivate)

theorem promises_settled (w : World) (task : TaskId) (future : PromiseFuture) :
    (w.settled task future).promises = w.promises := by
  rcases w.settled_cases task future with ⟨error, -, heq⟩ | ⟨entered, henter, hsettled⟩
  · rw [heq]
    rfl
  · have hpromises : entered.promises = w.promises := promises_enter henter
    rcases hsettled with ⟨-, heq⟩ | ⟨value, -, heq⟩ | ⟨reason, -, heq⟩
    · rw [heq, promises_stepEventLoop]
      exact hpromises
    · rw [heq]
      exact hpromises
    · rw [heq]
      exact hpromises

theorem promises_pollPromise (w : World) (task : TaskId) (future : PromiseFuture) :
    (w.pollPromise task future).promises = w.promises := by
  obtain ⟨armed, ⟨error, -, heq⟩ | heq⟩ := w.pollPromise_cases task future
  · rw [heq]
    rfl
  · rw [heq]
    exact promises_settled _ task _

end promises

/-- **Promises settle once, and by themselves.** -/
theorem promises_step (hstep : w.step event = some w') :
    w'.promises = w.promises ∨
      ∃ promise result, event = .settle promise result ∧ w' = w.settle promise result := by
  cases happens hstep with
  | @settle promise result => exact Or.inr ⟨promise, result, rfl, rfl⟩
  | tick | signal | complete | wake | close | enter | activate | callback | leave | call | «return»
  | enqueue | lend | release | register | hand | spawn | drop | reason => exact Or.inl rfl
  | @step guest => exact Or.inl (promises_stepEventLoop w (.host guest) w.stack)
  | @pending caller current rest below =>
      exact Or.inl (promises_pollNext _ caller below rest)
  | @ready caller current rest below =>
      exact Or.inl (promises_pollNext _ caller below rest)
  | refuse => exact Or.inl (promises_deliver w _ _)
  | @answered caller rest below => exact Or.inl (promises_publishNext w caller below rest)
  | failed => exact Or.inl (promises_deliver w _ _)
  | @pollJobs caller published below => exact Or.inl (promises_pollJobs w caller published below)
  | jobDone => exact Or.inl (promises_deliver w _ _)
  | jobFailed => exact Or.inl (promises_deliver w _ _)
  | @poll task state => exact Or.inl (promises_pollPromise w task state.future)

/-- **One step.** A task whose future is pending stays scheduled, or its promise stays pending. -/
theorem awake_step (h : w.Awake) (hwakes : w.WakesAwaiters event) (hstep : w.step event = some w') :
    w'.Awake := by
  intro task state htask hphase
  rcases promises_step hstep with hpromises | ⟨promise, result, rfl, rfl⟩
  · rw [hpromises]
    cases taskStep hstep htask with
    | same hbefore => exact h task _ hbefore hphase
    | woken hbefore => exact Or.inl rfl
    | spawned future => exact nomatch hphase
    | polling future => exact nomatch hphase
    | ready hbefore => exact Or.inl rfl
    | parked hbefore hevent hstack hactive hnone =>
        unfold WakesAwaiters at hwakes
        rw [hevent, hstack] at hwakes
        have hpending := hwakes hactive hnone _ hbefore
        exact Or.inr hpending
    | completed hdone hown => exact nomatch hdone.symm.trans hphase
    | failed hreported hdone => exact nomatch hdone.symm.trans hphase
  · by_cases hpromise : state.future.promise = promise
    · exact Or.inl (hwakes task state htask hphase hpromise)
    · refine (h task state htask hphase).imp_right fun hpending => ?_
      exact (Function.update_of_ne hpromise _ w.promises).trans hpending

/-- **No wake-up is lost.** In a run of any guests and tasks in which a promise settles only while
every task whose future of it is pending is scheduled, and no step leaves a task waiting for a promise
that settled while the step was taken, no quiescent state has a settled promise whose future is
pending. -/
theorem throughout_noLostWakeup (clock : Clock) (policies : GuestId → ExecutionPolicy)
    {events : List Event} (h : machine.Along WakesAwaiters (init clock policies) events) :
    machine.Throughout NoLostWakeup (init clock policies) events := by
  have hawake : machine.Throughout Awake (init clock policies) events :=
    Transition.Machine.throughout_of_along
      (fun _ _ _ hawake hwakes hstep => awake_step hawake hwakes hstep)
      (fun _ _ htask _ => nomatch htask) h
  exact hawake.mono fun _ => Awake.noLostWakeup

theorem throughout_noLostWakeup_alone :
    machine.Throughout NoLostWakeup (init ⟨0, fun _ => false⟩ fun _ => .new)
      [.enter 1, .register 1 0 ⟨1, 0⟩, .spawn 7 1 ⟨1, 0⟩, .leave, .poll 7, .pending, .pollJobs,
        .complete 0, .poll 7, .ready (.ok ()), .hand (.ok ()), .settle ⟨1, 0⟩ (.ok .null),
        .answered (.ok ()), .pollJobs, .poll 7] := by
  apply throughout_noLostWakeup
  refine .cons rfl trivial <| .cons rfl trivial <| .cons rfl trivial <| .cons rfl trivial <|
    .cons rfl trivial <| .cons rfl trivial <| .cons rfl (fun _ _ state htask => ?_) <|
    .cons rfl trivial <| .cons rfl trivial <| .cons rfl trivial <| .cons rfl trivial <|
    .cons rfl (fun task state htask hphase _ => ?_) <| .cons rfl trivial <| .cons rfl trivial <|
    .cons rfl trivial trivial
  · obtain rfl := Option.some.inj htask
    rfl
  · by_cases h7 : task = 7
    · subst h7
      obtain rfl := Option.some.inj htask
      exact nomatch hphase
    · have hnone : none = some state := by
        refine Eq.trans (Eq.symm ?_) htask
        repeat first | rfl | refine (Function.update_of_ne h7 _ _).trans ?_
      exact nomatch hnone

/-- Two tasks await promises of one guest. The host future of the first one's promise wakes the second,
whose step publishes the outcome. -/
def sleeperRun : List Event :=
  [.enter 1, .register 1 0 ⟨1, 0⟩, .spawn 7 1 ⟨1, 0⟩, .spawn 8 1 ⟨1, 1⟩, .leave, .poll 7, .pending,
    .pollJobs, .poll 8, .pending, .pollJobs, .complete 0, .poll 8, .ready (.ok ()), .hand (.ok ()),
    .settle ⟨1, 0⟩ (.ok .null), .answered (.ok ()), .pollJobs, .poll 8, .pollJobs]

theorem not_throughout_noLostWakeup_sleeperRun :
    ¬ machine.Throughout NoLostWakeup (init ⟨0, fun _ => false⟩ fun _ => .new) sleeperRun := by
  intro hwoken
  have hrun : ∃ w first second,
      machine.run (init ⟨0, fun _ => false⟩ fun _ => .new) sleeperRun = some w ∧ w.stack = [] ∧
        w.tasks 7 = some first ∧ w.tasks 8 = some second ∧
        (∀ task, task ≠ 7 → task ≠ 8 → w.tasks task = none) ∧
        (w.guests 1).hostFutures.inFlight = [] ∧
        (∀ guest, guest ≠ 1 → w.guests guest = .new .new) ∧
        first.scheduled = false ∧ second.scheduled = false ∧ first.phase = .pending ∧
        w.promises first.future.promise = .fulfilled .null := by
    refine ⟨_, _, _, rfl, rfl, rfl, rfl, fun task h7 h8 => ?_, rfl, fun guest h1 => ?_, rfl, rfl, rfl,
      rfl⟩
    · repeat first
        | rfl
        | refine (Function.update_of_ne h7 _ _).trans ?_
        | refine (Function.update_of_ne h8 _ _).trans ?_
    · repeat first | rfl | refine (Function.update_of_ne h1 _ _).trans ?_
  obtain ⟨w, first, second, hend, hstack, hfirst, hsecond, hnone, hflight, hothers, hfirstIdle,
    hsecondIdle, hphase, hsettled⟩ := hrun
  have hquiescent : w.Quiescent := by
    refine ⟨hstack, fun task state htask _ => ?_, fun guest entry hentry => ?_⟩
    · by_cases h7 : task = 7
      · subst h7
        obtain rfl := Option.some.inj (hfirst.symm.trans htask)
        exact hfirstIdle
      · by_cases h8 : task = 8
        · subst h8
          obtain rfl := Option.some.inj (hsecond.symm.trans htask)
          exact hsecondIdle
        · rw [hnone task h7 h8] at htask
          exact nomatch htask
    · by_cases h1 : guest = 1
      · subst h1
        rw [hflight] at hentry
        exact nomatch hentry
      · rw [hothers guest h1] at hentry
        exact nomatch hentry
  have hpending := hwoken.last hend hquiescent 7 first hfirst hphase
  rw [hsettled] at hpending
  exact nomatch hpending

end World

end GuestJs.Driver
