import GuestJs.Driver.Machine

/-!
# What a step does to a task

A task changes when it is polled, woken or dropped, and when the step its future is taking returns:
with progress it is to be polled again or parked, with an error it is done. Errors come from the
guest the future belongs to, unless publishing, a job or the reading of a reason failed.
-/

namespace GuestJs.Driver

/-- A promise's own outcome, or an error its guest answers for. -/
def Completion.IsOwn (completion : Completion) : Prop :=
  match completion.result with
  | .ok value => completion.account.state = .fulfilled value
  | .error (.guest thrown) => completion.account.state = .rejected thrown.value.value
  | .error .closed => completion.account.closed = true
  | .error (.borrow _ _) => completion.account.lent = true
  | .error error => error ∈ completion.account.due

namespace World

/-- The error with which an event ends the step of a promise future, or the reading of its reason,
before the guest names it. -/
def reported (w : World) (event : Event) : Option (PromiseFuture × Error) :=
  match event, w.stack with
  | .jobFailed captured, .job (.task _ future) _ _ :: _ => some (future, captured.intoError)
  | .refuse error, .publish (.task _ future) _ _ :: _ => some (future, error)
  | .answered (.error error), .call (.task _ future) _ :: _ => some (future, error)
  | .reason .interrupted, .reason _ future :: _ => some (future, .interrupted)
  | _, _ => none

/-- An interruption while the guest's policy is due, or a borrow refused while memory of the guest is
on loan. -/
def OwnError (w : World) (guest : GuestId) (error : Error) : Prop :=
  (error = .interrupted ∧ (w.guests guest).activity.isDue w.clock = true) ∨
    ∃ kind name, error = .borrow kind name ∧ guest ∈ w.loans

/-- What a task can have become in a step. -/
inductive TaskStep (w : World) (event : Event) (task : TaskId) : Task → Prop where
  | same {state : Task} (h : w.tasks task = some state) : TaskStep w event task state
  | woken {state : Task} (h : w.tasks task = some state) :
      TaskStep w event task { state with scheduled := true }
  | spawned (future : PromiseFuture) : TaskStep w event task ⟨future, .fresh, true⟩
  | polling (future : PromiseFuture) : TaskStep w event task ⟨future, .polling, false⟩
  | ready {state : Task} (h : w.tasks task = some state) :
      TaskStep w event task { state with phase := .pending, scheduled := true }
  /-- A step that published nothing found no job to run. -/
  | parked {state : Task} {future : PromiseFuture} {below : List Frame}
      (h : w.tasks task = some state) (hevent : event = .pollJobs)
      (hstack : w.stack = .jobs (.task task future) false :: below)
      (hactive : (w.activate future.guest).isOk = true) (hnone : w.depth ≠ 0 ∨ w.jobs = []) :
      TaskStep w event task { state with phase := .pending }
  | completed {state : Task} {completion : Completion} (hphase : state.phase = .done completion)
      (hown : completion.IsOwn) : TaskStep w event task state
  | failed {state : Task} {future : PromiseFuture} {error : Error}
      (hreported : w.reported event = some (future, error))
      (hphase : state.phase =
        .done ⟨.error (w.named future.guest error), w.account future⟩) :
      TaskStep w event task state

variable {w w' : World} {event : Event} {task : TaskId} {state : Task} {future : PromiseFuture}

theorem tasks_modifyTask {other : TaskId} {f : Task → Task}
    (h : (w.modifyTask other f).tasks task = some state) :
    (task ≠ other ∧ w.tasks task = some state) ∨
      task = other ∧ ∃ before, w.tasks task = some before ∧ state = f before := by
  unfold modifyTask at h
  dsimp only at h
  by_cases heq : task = other
  · subst heq
    rw [Function.update_self] at h
    obtain ⟨before, hbefore, rfl⟩ := Option.map_eq_some_iff.mp h
    exact Or.inr ⟨rfl, before, hbefore, rfl⟩
  · rw [Function.update_of_ne heq] at h
    exact Or.inl ⟨heq, h⟩

theorem isOwn_of_dueError {armed : ArmedPolicy} {error : Error}
    (hdue : armed.dueError w.clock = some error)
    (hmem : some armed ∈ [future.armed, (w.guests future.guest).activity.armed,
      some ((w.guests future.guest).activity.policy.arm w.clock)]) :
    (Completion.mk (.error error) (w.account future)).IsOwn := by
  have haccount : error ∈ (w.account future).due :=
    List.mem_filterMap.mpr ⟨some armed, hmem, hdue⟩
  rcases ArmedPolicy.eq_of_dueError_eq_some hdue with rfl | rfl
  · exact haccount
  · exact haccount

theorem isOwn_of_enter_eq_error {error : Error} (h : w.enter future.guest = .error error) :
    (Completion.mk (.error error) (w.account future)).IsOwn := by
  rcases enter_eq_error h with ⟨rfl, hclosed⟩ | hdue
  · exact hclosed
  · exact isOwn_of_dueError hdue (by simp)

theorem isOwn_of_activate_eq_error {error : Error} (h : w.activate future.guest = .error error) :
    (Completion.mk (.error error) (w.account future)).IsOwn :=
  isOwn_of_dueError (activate_eq_error h) (by simp)

theorem isOwn_of_ownError {error : Error} (h : w.OwnError future.guest error) :
    (Completion.mk (.error (w.named future.guest error)) (w.account future)).IsOwn := by
  rcases h with ⟨rfl, hdue⟩ | ⟨kind, name, rfl, hloan⟩
  · rcases (w.guests future.guest).activity.named_interrupted w.clock with ⟨-, hnot⟩ | hnamed
    · rw [hdue] at hnot
      exact nomatch hnot
    · obtain ⟨armed, harmed, herror⟩ := Option.bind_eq_some_iff.mp hnamed
      exact isOwn_of_dueError herror (by simp [harmed])
  · show w.loans.contains future.guest = true
    simpa using hloan

theorem tasks_deliver {caller : Caller} {result : Except Error Progress}
    (h : (w.deliver caller result).tasks task = some state) :
    w.tasks task = some state ∨ ∃ future before, caller = .task task future ∧
      w.tasks task = some before ∧
      ((result = .ok .ready ∧ state = { before with phase := .pending, scheduled := true }) ∨
        ((result = .ok .waiting ∨ result = .ok .idle) ∧ state = { before with phase := .pending }) ∨
        ∃ error, result = .error error ∧
          state = { before with phase := .done ⟨.error error, w.account future⟩ }) := by
  cases caller with
  | host guest => exact Or.inl h
  | task id future =>
      cases result with
      | error error =>
          rcases tasks_modifyTask h with ⟨-, hsame⟩ | ⟨rfl, before, hbefore, rfl⟩
          · exact Or.inl hsame
          · exact Or.inr ⟨future, before, rfl, hbefore, Or.inr (Or.inr ⟨error, rfl, rfl⟩)⟩
      | ok progress =>
          cases progress with
          | ready =>
              rcases tasks_modifyTask h with ⟨hne, hparked⟩ | ⟨rfl, parked, hparked, rfl⟩
              · rcases tasks_modifyTask hparked with ⟨-, hsame⟩ | ⟨heq, -⟩
                · exact Or.inl hsame
                · exact absurd heq hne
              · rcases tasks_modifyTask hparked with ⟨hne, -⟩ | ⟨-, before, hbefore, rfl⟩
                · exact absurd rfl hne
                · exact Or.inr ⟨future, before, rfl, hbefore, Or.inl ⟨rfl, rfl⟩⟩
          | waiting =>
              rcases tasks_modifyTask h with ⟨-, hsame⟩ | ⟨rfl, before, hbefore, rfl⟩
              · exact Or.inl hsame
              · exact Or.inr ⟨future, before, rfl, hbefore, Or.inr (Or.inl ⟨Or.inl rfl, rfl⟩)⟩
          | idle =>
              rcases tasks_modifyTask h with ⟨-, hsame⟩ | ⟨rfl, before, hbefore, rfl⟩
              · exact Or.inl hsame
              · exact Or.inr ⟨future, before, rfl, hbefore, Or.inr (Or.inl ⟨Or.inr rfl, rfl⟩)⟩

/-- The task is as it was, or done with a result of its own. -/
def Settles (w : World) (task : TaskId) (state : Task) : Prop :=
  w.tasks task = some state ∨ ∃ completion, state.phase = .done completion ∧ completion.IsOwn

theorem settles_finishStep {caller : Caller} {error : Error} {below : List Frame}
    (hrefused : w.enter caller.guest = .error error ∨ w.activate caller.guest = .error error)
    (h : (w.finishStep caller (.error error) below).tasks task = some state) :
    w.Settles task state := by
  rcases tasks_deliver h with hsame | ⟨future, before, rfl, -, hresult⟩
  · exact Or.inl hsame
  · rcases hresult with ⟨hok, -⟩ | ⟨hok | hok, -⟩ | ⟨found, herror, rfl⟩
    · exact nomatch hok
    · exact nomatch hok
    · exact nomatch hok
    · obtain rfl := Except.error.inj herror
      refine Or.inr ⟨_, rfl, ?_⟩
      rcases hrefused with henter | hactivate
      · exact isOwn_of_enter_eq_error henter
      · exact isOwn_of_activate_eq_error hactivate

theorem tasks_enter {guest : GuestId} (h : w.enter guest = .ok w') : w'.tasks = w.tasks := by
  obtain ⟨-, activity, -, rfl⟩ := enter_eq_ok h
  rfl

theorem tasks_publishNext (w : World) (caller : Caller) (below : List Frame)
    (batch : List Settled) : (w.publishNext caller below batch).tasks = w.tasks := by
  cases batch <;> rfl

theorem settles_publish {caller : Caller} {below : List Frame}
    (h : (w.publish caller below).tasks task = some state) : w.Settles task state := by
  rcases w.publish_cases caller below with ⟨-, heq⟩ | ⟨error, henter, heq⟩ | ⟨entered, henter, heq⟩
  · rw [heq] at h
    exact Or.inl h
  · rw [heq] at h
    exact settles_finishStep (Or.inl henter) h
  · rw [heq, tasks_publishNext] at h
    have htasks : entered.tasks task = some state := h
    rw [tasks_enter henter] at htasks
    exact Or.inl htasks

theorem settles_pollNext {caller : Caller} {below : List Frame} {round : List InFlight}
    (h : (w.pollNext caller below round).tasks task = some state) : w.Settles task state := by
  cases round with
  | nil => exact settles_publish h
  | cons entry rest => exact Or.inl h

theorem settles_stepEventLoop {caller : Caller} {below : List Frame}
    (h : (w.stepEventLoop caller below).tasks task = some state) : w.Settles task state := by
  have hround : World.Settles (w.setHostFutures caller.guest _) task state := settles_pollNext h
  exact hround

theorem settles_polled {caller : Caller} {current : InFlight} {rest : List InFlight}
    {below : List Frame} {result : Option (Except Error Unit)}
    (h : (w.polled caller current rest below result).tasks task = some state) :
    w.Settles task state := by
  have hround : World.Settles (w.setHostFutures caller.guest _) task state := settles_pollNext h
  exact hround

theorem settles_complete {other : TaskId} {result : Except Error Value}
    (hown : (Completion.mk result (w.account future)).IsOwn)
    (h : (w.complete other future result).tasks task = some state) : w.Settles task state := by
  rcases tasks_modifyTask h with ⟨-, hsame⟩ | ⟨-, before, -, rfl⟩
  · exact Or.inl hsame
  · exact Or.inr ⟨_, rfl, hown⟩

theorem settles_settled {other : TaskId}
    (h : (w.settled other future).tasks task = some state) : w.Settles task state := by
  rcases w.settled_cases other future with ⟨error, henter, heq⟩ | ⟨entered, henter, hsettled⟩
  · rw [heq] at h
    exact settles_complete (isOwn_of_enter_eq_error henter) h
  · have hback : entered.Settles task state → w.Settles task state := by
      unfold Settles
      rw [tasks_enter henter]
      exact id
    rcases hsettled with ⟨-, heq⟩ | ⟨value, hvalue, heq⟩ | ⟨reason, -, heq⟩
    · rw [heq] at h
      have hleft : World.Settles (entered.leave future.guest) task state := settles_stepEventLoop h
      exact hback hleft
    · rw [heq] at h
      have hpromises : entered.promises = w.promises := by
        obtain ⟨-, activity, -, rfl⟩ := enter_eq_ok henter
        rfl
      refine hback (settles_complete (w := entered) ?_ h)
      show entered.promises future.promise = .fulfilled value
      rw [hpromises, hvalue]
    · rw [heq] at h
      exact hback (Or.inl h)

theorem settles_pollPromise {other : TaskId}
    (h : (w.pollPromise other future).tasks task = some state) :
    w.Settles task state ∨ ∃ future, state = ⟨future, .polling, false⟩ := by
  obtain ⟨armed, hpoll⟩ := w.pollPromise_cases other future
  let polled : PromiseFuture := { future with armed := some armed }
  let polling := w.modifyTask other fun _ => ⟨polled, .polling, false⟩
  have hpolling : polling.Settles task state := by
    rcases hpoll with ⟨error, hdue, heq⟩ | heq
    · rw [heq] at h
      exact settles_complete (isOwn_of_dueError (w := polling) hdue (by simp)) h
    · rw [heq] at h
      exact settles_settled h
  rcases hpolling with hsame | hdone
  · rcases tasks_modifyTask hsame with ⟨-, hbefore⟩ | ⟨-, before, -, rfl⟩
    · exact Or.inl (Or.inl hbefore)
    · exact Or.inr ⟨polled, rfl⟩
  · exact Or.inl (Or.inr hdone)

theorem Settles.step (h : w.Settles task state) : TaskStep w event task state := by
  rcases h with hsame | ⟨completion, hphase, hown⟩
  · exact .same hsame
  · exact .completed hphase hown

theorem taskStep_finishEntered {caller : Caller} {error : Error} {below : List Frame}
    (hreported : ∀ task future, caller = .task task future →
      w.reported event = some (future, error))
    (h : (w.finishEntered caller (.error (w.named caller.guest error)) below).tasks task =
      some state) : TaskStep w event task state := by
  rcases tasks_deliver h with hsame | ⟨future, before, rfl, -, hresult⟩
  · exact .same hsame
  · rcases hresult with ⟨hok, -⟩ | ⟨hok | hok, -⟩ | ⟨found, herror, rfl⟩
    · exact nomatch hok
    · exact nomatch hok
    · exact nomatch hok
    · obtain rfl := Except.error.inj herror
      exact .failed (hreported task future rfl) rfl

theorem taskStep_pollJobs {caller : Caller} {published : Bool} {below : List Frame}
    (hevent : event = .pollJobs) (hstack : w.stack = .jobs caller published :: below)
    (h : (w.pollJobs caller published below).tasks task = some state) :
    TaskStep w event task state := by
  rcases w.pollJobs_cases caller published below with ⟨error, hactivate, heq⟩ |
    ⟨active, origin, jobs, hactivate, -, -, heq⟩ | ⟨active, hactivate, hnone, heq⟩
  · rw [heq] at h
    exact (settles_finishStep (Or.inr hactivate) h).step
  · rw [heq] at h
    obtain ⟨activity, -, rfl⟩ := activate_eq_ok hactivate
    exact .same h
  · rw [heq] at h
    have hok : (w.activate caller.guest).isOk = true := by
      rw [hactivate]
      rfl
    obtain ⟨activity, -, rfl⟩ := activate_eq_ok hactivate
    rcases tasks_deliver h with hsame | ⟨future, before, rfl, hbefore, hresult⟩
    · exact .same hsame
    · rcases hresult with ⟨-, rfl⟩ | ⟨hresult, rfl⟩ | ⟨error, herror, -⟩
      · exact .ready hbefore
      · cases published with
        | false => exact .parked hbefore hevent hstack hok hnone
        | true =>
            rcases hresult with hresult | hresult
            · exact nomatch hresult
            · exact nomatch hresult
      · exact nomatch herror

/-- **What a step does to a task.** -/
theorem taskStep (hstep : w.step event = some w') (h : w'.tasks task = some state) :
    TaskStep w event task state := by
  cases happens hstep with
  | tick | signal | complete | close | enter | activate | callback | leave | call | «return»
  | enqueue | settle | lend | release | register | hand => exact .same h
  | @wake future other =>
      rcases tasks_modifyTask h with ⟨-, hsame⟩ | ⟨rfl, before, hbefore, rfl⟩
      · exact .same hsame
      · exact .woken hbefore
  | step => exact (settles_stepEventLoop h).step
  | pending => exact (settles_polled h).step
  | @ready caller current rest below hstack result =>
      have hpolled : World.Settles (w.setReady current.future false) task state := settles_polled h
      exact Settles.step (w := w) hpolled
  | refuse hstack =>
      refine taskStep_finishEntered (fun task future hcaller => ?_) h
      unfold reported
      rw [hstack, hcaller]
  | answered =>
      rw [tasks_publishNext] at h
      exact .same h
  | failed hstack =>
      refine taskStep_finishEntered (fun task future hcaller => ?_) h
      unfold reported
      rw [hstack, hcaller]
  | pollJobs hstack => exact taskStep_pollJobs rfl hstack h
  | jobDone =>
      rcases tasks_deliver h with hsame | ⟨future, before, rfl, hbefore, hresult⟩
      · exact .same hsame
      · rcases hresult with ⟨-, rfl⟩ | ⟨hresult | hresult, -⟩ | ⟨error, hresult, -⟩
        · exact .ready hbefore
        · exact nomatch hresult
        · exact nomatch hresult
        · exact nomatch hresult
  | jobFailed hstack =>
      refine taskStep_finishEntered (fun task future hcaller => ?_) h
      unfold reported
      rw [hstack, hcaller]
  | @spawn other =>
      by_cases hother : task = other
      · subst hother
        have hspawned : some _ = some state := (Function.update_self task _ w.tasks).symm.trans h
        obtain rfl := Option.some.inj hspawned
        exact .spawned _
      · exact .same ((Function.update_of_ne hother _ w.tasks).symm.trans h)
  | poll =>
      rcases settles_pollPromise h with hsettles | ⟨future, rfl⟩
      · exact hsettles.step
      · exact .polling future
  | @drop other =>
      by_cases hother : task = other
      · subst hother
        have hdropped : none = some state := (Function.update_self task _ w.tasks).symm.trans h
        exact nomatch hdropped
      · exact .same ((Function.update_of_ne hother _ w.tasks).symm.trans h)
  | reason hstack hcaptured =>
      rcases tasks_modifyTask h with ⟨-, hsame⟩ | ⟨-, before, -, rfl⟩
      · exact .same hsame
      · rcases hcaptured with ⟨rfl, rfl⟩ | ⟨thrown, rfl, rfl, hrejected⟩
        · refine .failed ?_ rfl
          unfold reported
          rw [hstack]
        · exact .completed rfl hrejected

end World

end GuestJs.Driver
