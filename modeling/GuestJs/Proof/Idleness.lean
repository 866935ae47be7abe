import GuestJs.Proof.Outcomes

/-!
# Idle means idle

A step is idle when the cells of its guest are empty and the engine ran no job. Both can be so for
another reason: a round that is being polled is out of its cell, as is a batch that is being
published, and the engine runs no job inside an entry. The frames of the stack below the step are
these reasons.
-/

namespace GuestJs.Driver

namespace Frame

/-- The engine counts the frame among the entries under way. -/
def isEntry : Frame → Bool
  | .enter _ | .publish _ _ _ | .call _ _ | .job _ _ _ | .reason _ _ => true
  | .activate _ | .callback _ | .code _ | .poll _ _ _ | .jobs _ _ => false

/-- A step of the guest's event loop that has taken what it polls or publishes, and is not done. -/
def isBusy (guest : GuestId) : Frame → Bool
  | .poll caller _ _ | .publish caller _ _ => caller.guest == guest
  | .call caller rest => caller.guest == guest && !rest.isEmpty
  | .enter _ | .activate _ | .callback _ | .code _ | .jobs _ _ | .job _ _ _ | .reason _ _ => false

theorem isBusy_iff (guest : GuestId) (frame : Frame) :
    frame.isBusy guest = true ↔ frame.held guest ≠ [] := by
  cases frame with
  | poll caller current rest =>
      by_cases howner : caller.guest = guest <;>
        simp [isBusy, held, inFlight, waiting, owed, howner]
  | publish caller current rest =>
      by_cases howner : caller.guest = guest <;>
        simp [isBusy, held, inFlight, waiting, owed, howner]
  | call caller rest =>
      by_cases howner : caller.guest = guest <;>
        simp [isBusy, held, inFlight, waiting, owed, howner]
  | enter | activate | callback | code | jobs | job | reason =>
      simp [isBusy, held, inFlight, waiting]

end Frame

namespace World

/-- The entries the engine counts are those on the stack. -/
def Counted (depth : Nat) (stack : List Frame) : Prop := depth = stack.countP Frame.isEntry

/-- A step that returns, having polled the queue. -/
def queueReturn (w : World) : Event → Option (Caller × Except Error Progress)
  | .pollJobs =>
      match w.stack with
      | .jobs caller published :: _ =>
          (w.queueResult caller published).map fun result => (caller, result)
      | _ => none
  | _ => none

/-- `Idle`, and the success of `run_until_idle` it stands for, is returned only where the guest has
no host future in flight, no outcome that waits, and the engine no job. -/
def IdleMeansIdle (w : World) (event : Event) : Prop :=
  ∀ caller result, w.queueReturn event = some (caller, result) →
    (result = .ok .idle ∨ ∃ armed, w.runUntilIdle armed result = some (.ok ())) →
      w.inFlight caller.guest = [] ∧ w.waiting caller.guest = [] ∧ w.jobs = []

/-- A step that finds its cells empty polls a queue with jobs outside any entry, and an empty queue
outside any other step of its guest that is under way. -/
def PollsOutermost (w : World) (event : Event) : Prop :=
  match event, w.stack with
  | .pollJobs, .jobs caller false :: below =>
      (w.activate caller.guest).isOk = true → (w.guests caller.guest).hostFutures.isEmpty = true →
        (w.jobs ≠ [] → ∀ frame ∈ below, frame.isEntry = false) ∧
          (w.jobs = [] → ∀ frame ∈ below, frame.isBusy caller.guest = false)
  | _, _ => True

variable {w w' : World} {guest : GuestId} {frame frame' : Frame} {below stack : List Frame}
  {depth : Nat}

theorem runUntilIdle_eq_ok {armed : ArmedPolicy} {step : Except Error Progress}
    (h : w.runUntilIdle armed step = some (.ok ())) : step = .ok .idle := by
  unfold runUntilIdle at h
  split at h
  · exact nomatch h
  · exact nomatch h
  · rfl
  · exact nomatch h
  · exact nomatch h

theorem held_eq_nil_iff : w.inFlight guest = [] ∧ w.waiting guest = [] ↔
    (w.guests guest).hostFutures.isEmpty = true ∧
      ∀ frame ∈ w.stack, frame.isBusy guest = false := by
  have hframe : ∀ frame : Frame, frame.isBusy guest = false ↔
      frame.inFlight guest = [] ∧ frame.waiting guest = [] := by
    intro frame
    rw [← Bool.not_eq_true, Frame.isBusy_iff, not_not, Frame.held, List.append_eq_nil_iff]
  simp only [hframe, inFlight, waiting, PendingHostFutures.isEmpty, List.append_eq_nil_iff,
    List.flatMap_eq_nil_iff, List.map_eq_nil_iff, Bool.and_eq_true, List.isEmpty_iff]
  constructor
  · rintro ⟨⟨hinFlight, hpolled⟩, hsettled, hpublished⟩
    exact ⟨⟨hinFlight, hsettled⟩, fun frame hmem => ⟨hpolled frame hmem, hpublished frame hmem⟩⟩
  · rintro ⟨⟨hinFlight, hsettled⟩, hstack⟩
    exact ⟨⟨hinFlight, fun frame hmem => (hstack frame hmem).1⟩, hsettled,
      fun frame hmem => (hstack frame hmem).2⟩

theorem queueResult_eq_idle {caller : Caller} {published : Bool} :
    w.queueResult caller published = some (.ok .idle) ↔
      (w.activate caller.guest).isOk = true ∧ (w.depth ≠ 0 ∨ w.jobs = []) ∧ published = false ∧
        (w.guests caller.guest).hostFutures.isEmpty = true := by
  unfold queueResult
  cases hactivate : w.activate caller.guest with
  | error error => simp [Except.isOk, Except.toBool]
  | ok active =>
      obtain ⟨activity, -, rfl⟩ := activate_eq_ok hactivate
      have hfutures := w.hostFutures_setActivity caller.guest caller.guest activity
      have hprogress : ((w.setActivity caller.guest activity).progress caller.guest published = .idle) ↔
          published = false ∧ (w.guests caller.guest).hostFutures.isEmpty = true := by
        unfold progress
        rw [hfutures]
        cases published <;> cases (w.guests caller.guest).hostFutures.isEmpty <;> simp
      dsimp only
      split
      next origin jobs hdepth hjobs =>
        have hdepth : w.depth = 0 := hdepth
        have hjobs : w.jobs = origin :: jobs := hjobs
        simp [hdepth, hjobs]
      next hnone =>
        have hidle : w.depth ≠ 0 ∨ w.jobs = [] := by
          cases hjobs : w.jobs with
          | nil => exact Or.inr rfl
          | cons origin jobs => exact Or.inl fun hdepth => hnone origin jobs hdepth hjobs
        simp [hidle, hprogress, Except.isOk, Except.toBool]

theorem depth_finishStep (w : World) (caller : Caller) (result : Except Error Progress)
    (below : List Frame) : (w.finishStep caller result below).depth = w.depth := by
  unfold finishStep deliver
  split <;> rfl

namespace Counted

theorem above (h : Counted depth below) (hentry : frame.isEntry = false) :
    Counted depth (frame :: below) := by
  unfold Counted at h ⊢
  rw [List.countP_cons_of_neg (by simp [hentry]), h]

theorem tail (h : Counted depth (frame :: below)) (hentry : frame.isEntry = false) :
    Counted depth below := by
  unfold Counted at h ⊢
  rwa [List.countP_cons_of_neg (by simp [hentry])] at h

theorem enter (h : Counted depth below) (hentry : frame.isEntry = true) :
    Counted (depth + 1) (frame :: below) := by
  unfold Counted at h ⊢
  rw [List.countP_cons_of_pos hentry, h]

theorem leave (h : Counted depth (frame :: below)) (hentry : frame.isEntry = true) :
    Counted (depth - 1) below := by
  unfold Counted at h ⊢
  rw [List.countP_cons_of_pos hentry] at h
  omega

theorem exchange (h : Counted depth (frame :: below)) (hentry : frame.isEntry = frame'.isEntry) :
    Counted depth (frame' :: below) := by
  unfold Counted at h ⊢
  rw [h, List.countP_cons, List.countP_cons, hentry]

theorem finishStep (h : Counted w.depth below) (caller : Caller) (result : Except Error Progress) :
    Counted (w.finishStep caller result below).depth (w.finishStep caller result below).stack := by
  rw [depth_finishStep]
  exact h

theorem publishNext {caller : Caller} (h : Counted w.depth (frame :: below))
    (hentry : frame.isEntry = true) (batch : List Settled) :
    Counted (w.publishNext caller below batch).depth (w.publishNext caller below batch).stack := by
  cases batch with
  | nil => exact (h.leave hentry).above rfl
  | cons settled rest => exact h.exchange hentry

theorem publish (h : Counted w.depth below) (caller : Caller) :
    Counted (w.publish caller below).depth (w.publish caller below).stack := by
  rcases w.publish_cases caller below with ⟨-, heq⟩ | ⟨error, -, heq⟩ | ⟨entered, henter, heq⟩
  · rw [heq]
    exact h.above rfl
  · rw [heq]
    exact h.finishStep caller (.error error)
  · rw [heq]
    obtain ⟨-, activity, -, rfl⟩ := enter_eq_ok henter
    have hentered : Counted (w.depth + 1) (.enter caller.guest :: below) := h.enter rfl
    exact hentered.publishNext rfl _

theorem pollNext (h : Counted w.depth below) (caller : Caller) (round : List InFlight) :
    Counted (w.pollNext caller below round).depth (w.pollNext caller below round).stack := by
  cases round with
  | nil => exact h.publish caller
  | cons entry rest => exact h.above rfl

theorem stepEventLoop (h : Counted w.depth below) (caller : Caller) :
    Counted (w.stepEventLoop caller below).depth (w.stepEventLoop caller below).stack :=
  pollNext (w := w.setHostFutures caller.guest _) h caller _

theorem polled (h : Counted w.depth below) (caller : Caller) (current : InFlight)
    (rest : List InFlight) (result : Option (Except Error Unit)) :
    Counted (w.polled caller current rest below result).depth
      (w.polled caller current rest below result).stack :=
  pollNext (w := w.setHostFutures caller.guest _) h caller _

theorem finishEntered {caller : Caller} (h : Counted w.depth (frame :: below))
    (hentry : frame.isEntry = true) (result : Except Error Progress) :
    Counted (w.finishEntered caller result below).depth
      (w.finishEntered caller result below).stack := by
  show Counted ((w.finishStep caller result below).depth - 1) below
  rw [depth_finishStep]
  exact h.leave hentry

theorem pollJobs {caller : Caller} (h : Counted w.depth below) (published : Bool) :
    Counted (w.pollJobs caller published below).depth
      (w.pollJobs caller published below).stack := by
  rcases w.pollJobs_cases caller published below with ⟨error, -, heq⟩ |
    ⟨active, origin, jobs, -, hdepth, -, heq⟩ | ⟨active, hactivate, -, heq⟩
  · rw [heq]
    exact h.finishStep caller (.error error)
  · rw [heq]
    rw [hdepth] at h
    have hjob : Counted (0 + 1) (.job caller published origin :: below) := h.enter rfl
    exact hjob
  · rw [heq]
    obtain ⟨activity, -, rfl⟩ := activate_eq_ok hactivate
    have hactive : Counted (w.setActivity caller.guest activity).depth below := h
    exact hactive.finishStep caller _

theorem settled (h : Counted w.depth w.stack) (task : TaskId) (future : PromiseFuture) :
    Counted (w.settled task future).depth (w.settled task future).stack := by
  rcases w.settled_cases task future with ⟨error, -, heq⟩ | ⟨entered, henter, hsettled⟩
  · rw [heq]
    exact h
  · have hleft : Counted (entered.leave future.guest).depth w.stack := by
      obtain ⟨-, activity, -, rfl⟩ := enter_eq_ok henter
      exact h
    rcases hsettled with ⟨-, heq⟩ | ⟨value, -, heq⟩ | ⟨reason, -, heq⟩
    · rw [heq]
      exact hleft.stepEventLoop _
    · rw [heq]
      show Counted (entered.leave future.guest).depth entered.stack
      rw [stack_enter henter]
      exact hleft
    · rw [heq]
      obtain ⟨-, activity, -, rfl⟩ := enter_eq_ok henter
      have hreason : Counted (w.depth + 1) (.reason task future :: w.stack) := h.enter rfl
      exact hreason

theorem pollPromise (h : Counted w.depth w.stack) (task : TaskId) (future : PromiseFuture) :
    Counted (w.pollPromise task future).depth (w.pollPromise task future).stack := by
  obtain ⟨armed, ⟨error, -, heq⟩ | heq⟩ := w.pollPromise_cases task future
  · rw [heq]
    exact h
  · rw [heq]
    have hpolling : Counted (w.modifyTask task fun _ =>
        ⟨{ future with armed := some armed }, .polling, false⟩).depth w.stack := h
    exact hpolling.settled _ _

theorem leaveTop (h : Counted w.depth w.stack) (hleave : w.leaveTop = some w') :
    Counted w'.depth w'.stack := by
  unfold World.leaveTop at hleave
  split at hleave
  next guest below hstack =>
    obtain rfl := Option.some.inj hleave
    rw [hstack] at h
    exact h.leave rfl
  next guest below hstack =>
    obtain rfl := Option.some.inj hleave
    rw [hstack] at h
    exact h.tail rfl
  next guest below hstack =>
    obtain rfl := Option.some.inj hleave
    rw [hstack] at h
    exact h.tail rfl
  next => exact nomatch hleave

end Counted

theorem counted_step {event : Event} (h : Counted w.depth w.stack)
    (hstep : w.step event = some w') : Counted w'.depth w'.stack := by
  cases happens hstep with
  | tick | signal | complete | wake | close | enqueue | settle | lend | release | register | spawn
  | drop => exact h
  | enter => exact h.enter rfl
  | activate | callback | call => exact h.above rfl
  | leave => exact h.leaveTop hstep
  | «return» hstack =>
      rw [hstack] at h
      exact h.tail rfl
  | @step guest => exact h.stepEventLoop (.host guest)
  | @pending caller current rest below hstack =>
      rw [hstack] at h
      exact (h.tail rfl).polled caller current rest none
  | @ready caller current rest below hstack result =>
      rw [hstack] at h
      have hbelow : Counted (w.setReady current.future false).depth below := h.tail rfl
      exact hbelow.polled caller current rest (some result)
  | hand hstack =>
      rw [hstack] at h
      exact h.exchange rfl
  | refuse hstack =>
      rw [hstack] at h
      exact h.finishEntered rfl _
  | @answered caller rest below hstack =>
      rw [hstack] at h
      exact h.publishNext rfl rest
  | failed hstack =>
      rw [hstack] at h
      exact h.finishEntered rfl _
  | @pollJobs caller published below hstack =>
      rw [hstack] at h
      exact (h.tail rfl).pollJobs published
  | jobDone hstack =>
      rw [hstack] at h
      exact h.finishEntered rfl _
  | jobFailed hstack =>
      rw [hstack] at h
      exact h.finishEntered rfl _
  | @poll task state => exact h.pollPromise task state.future
  | reason hstack =>
      rw [hstack] at h
      exact h.leave rfl

theorem queueReturn_of_stack {caller : Caller} {published : Bool}
    (hstack : w.stack = .jobs caller published :: below) : w.queueReturn .pollJobs =
      (w.queueResult caller published).map fun result => (caller, result) := by
  unfold queueReturn
  rw [hstack]

theorem Counted.depth_eq_zero_iff (h : Counted w.depth (frame :: below))
    (hentry : frame.isEntry = false) :
    w.depth = 0 ↔ ∀ frame ∈ below, frame.isEntry = false := by
  have hbelow : w.depth = below.countP Frame.isEntry := h.tail hentry
  rw [hbelow, List.countP_eq_zero]
  simp only [Bool.not_eq_true]

theorem idleMeansIdle_of_stack {caller : Caller} {published : Bool}
    (hstack : w.stack = .jobs caller published :: below) : IdleMeansIdle w .pollJobs ↔
      (w.queueResult caller published = some (.ok .idle) →
        (w.inFlight caller.guest = [] ∧ w.waiting caller.guest = []) ∧ w.jobs = []) := by
  have hreturn := queueReturn_of_stack hstack
  constructor
  · intro hmeans hresult
    have hidle : w.queueReturn .pollJobs = some (caller, .ok .idle) := by
      rw [hreturn, hresult, Option.map_some]
    obtain ⟨hinFlight, hwaiting, hjobs⟩ := hmeans caller (.ok .idle) hidle (Or.inl rfl)
    exact ⟨⟨hinFlight, hwaiting⟩, hjobs⟩
  · intro hmeans other result hother hcase
    rw [hreturn, Option.map_eq_some_iff] at hother
    obtain ⟨returned, hresult, heq⟩ := hother
    obtain ⟨rfl, rfl⟩ := Prod.mk.inj heq
    have hidle : returned = .ok .idle := by
      rcases hcase with hidle | ⟨armed, huntil⟩
      · exact hidle
      · exact runUntilIdle_eq_ok huntil
    rw [hidle] at hresult
    obtain ⟨⟨hinFlight, hwaiting⟩, hjobs⟩ := hmeans hresult
    exact ⟨hinFlight, hwaiting, hjobs⟩

/-- **One step.** What can be missed is what the frames below hold, and a queue that an entry below
keeps from being run. -/
theorem idleMeansIdle_iff {event : Event} (hcounted : Counted w.depth w.stack)
    (hstep : w.step event = some w') : IdleMeansIdle w event ↔ PollsOutermost w event := by
  cases happens hstep with
  | @pollJobs caller published below hstack =>
      rw [idleMeansIdle_of_stack hstack, queueResult_eq_idle, held_eq_nil_iff]
      unfold PollsOutermost
      rw [hstack] at hcounted ⊢
      cases published with
      | true => simp
      | false =>
          show _ ↔ ((w.activate caller.guest).isOk = true → _ → (w.jobs ≠ [] → _) ∧ (w.jobs = [] → _))
          rw [← hcounted.depth_eq_zero_iff rfl, List.forall_mem_cons]
          constructor
          · intro hmeans hactive hempty
            constructor
            · intro hjobs
              by_contra hdepth
              obtain ⟨-, hqueue⟩ := hmeans ⟨hactive, Or.inl hdepth, rfl, hempty⟩
              exact hjobs hqueue
            · intro hjobs
              obtain ⟨⟨-, -, hbusy⟩, -⟩ := hmeans ⟨hactive, Or.inr hjobs, rfl, hempty⟩
              exact hbusy
          · rintro houtermost ⟨hactive, hnone, -, hempty⟩
            obtain ⟨hqueue, hbusy⟩ := houtermost hactive hempty
            have hjobs : w.jobs = [] := by
              by_contra hjobs
              exact (hnone.resolve_right hjobs) (hqueue hjobs)
            exact ⟨⟨hempty, rfl, hbusy hjobs⟩, hjobs⟩
  | _ => exact iff_of_true (fun _ _ hreturn => nomatch hreturn) trivial

theorem counted_init (clock : Clock) (policies : GuestId → ExecutionPolicy) :
    Counted (init clock policies).depth (init clock policies).stack := rfl

/-- **Idle means idle.** In every run of any guests, nested in any way, each step that returns `Idle`
leaves its guest nothing to poll or to publish and the engine nothing to run, exactly when each step
that finds its cells empty polls a queue with jobs outside other entries, and an empty one outside the
rounds and the batches of its own guest. -/
theorem along_idleMeansIdle_iff (clock : Clock) (policies : GuestId → ExecutionPolicy)
    (events : List Event) : machine.Along IdleMeansIdle (init clock policies) events ↔
      machine.Along PollsOutermost (init clock policies) events :=
  Transition.Machine.along_congr (I := fun w => Counted w.depth w.stack)
    (fun _ _ _ h hstep => counted_step h hstep) (fun _ _ _ h hstep => idleMeansIdle_iff h hstep)
    (counted_init clock policies)

/-- The host future that is being polled takes a step of the guest it is in flight on. -/
def nestedRun : List Event := [.enter 1, .register 1 0 ⟨1, 0⟩, .leave, .step 1, .step 1]

theorem not_along_idleMeansIdle_nestedRun :
    ¬ machine.Along IdleMeansIdle (init ⟨0, fun _ => false⟩ fun _ => .new)
      (nestedRun ++ [.pollJobs]) := by
  intro hidle
  have hrun : ∃ w w', machine.run (init ⟨0, fun _ => false⟩ fun _ => .new) nestedRun = some w ∧
      machine.step w .pollJobs = some w' ∧ w.queueReturn .pollJobs = some (.host 1, .ok .idle) ∧
      (w.inFlight 1).length = 1 := ⟨_, _, rfl, rfl, rfl, rfl⟩
  obtain ⟨w, w', hrun, hstep, hreturn, hlength⟩ := hrun
  obtain ⟨hnone, -, -⟩ := hidle.at_step hrun hstep (.host 1) (.ok .idle) hreturn (Or.inl rfl)
  have hinFlight : w.inFlight 1 = [] := hnone
  rw [hinFlight] at hlength
  exact nomatch hlength

end World

end GuestJs.Driver
