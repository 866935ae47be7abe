import GuestJs.Driver.Machine

/-!
# Code runs under its own policy

A policy can stop code only while it is armed, and it is armed while the guest has an activation
under way. The activations of a guest are frames of the stack, so code is under its guest's policy
where such a frame lies at it or below it. Everything the host calls is; a job is taken off the
queue of the engine by whoever steps next.
-/

namespace GuestJs.Driver

namespace World

def activations (guest : GuestId) (stack : List Frame) : Nat :=
  (stack.filterMap Frame.activated).count guest

/-- Code on the stack has an activation of its guest at its own frame or below. -/
def Backed : List Frame → Prop
  | [] => True
  | frame :: below =>
      Backed below ∧
        ∀ guest, frame.executing = some guest → 0 < activations guest (frame :: below)

/-- The depth of a guest counts its activations on the stack, and code on the stack is backed. -/
structure Sound (guests : GuestId → Guest) (stack : List Frame) : Prop where
  balanced : ∀ guest, (guests guest).activity.depth = activations guest stack
  backed : Backed stack

/-- Whenever code of a guest runs, the guest is active and its policy is armed. -/
def Armed (w : World) : Prop :=
  ∀ guest, w.executing = some guest →
    0 < (w.guests guest).activity.depth ∧ (w.guests guest).activity.armed.isSome = true

/-- The job a step is about to take off the queue is one of the stepping guest's, or of a guest that
is active itself. -/
def RunsArmedJob (w : World) (event : Event) : Prop :=
  match event, w.stack, w.jobs with
  | .pollJobs, .jobs caller _ :: _, origin :: _ =>
      w.depth = 0 → (w.activate caller.guest).isOk = true →
        origin = caller.guest ∨ 0 < (w.guests origin).activity.depth
  | _, _, _ => True

variable {w w' : World} {guests guests' : GuestId → Guest} {guest : GuestId} {frame frame' : Frame}
  {below stack : List Frame}

theorem activations_cons (guest : GuestId) (frame : Frame) (below : List Frame) :
    activations guest (frame :: below) =
      activations guest below + if frame.activated = some guest then 1 else 0 := by
  unfold activations
  cases hactivated : frame.activated with
  | none => simp [hactivated]
  | some other => simp [hactivated, List.count_cons]

theorem Backed.cons (h : Backed below)
    (hframe : ∀ guest, frame.executing = some guest → frame.activated = some guest) :
    Backed (frame :: below) := by
  refine ⟨h, fun guest hexecuting => ?_⟩
  rw [activations_cons, if_pos (hframe guest hexecuting)]
  omega

/-- An `Enter` that can be used was made by an activation that is still under way. -/
theorem activations_pos_of_mem_enters {stack : List Frame} (h : guest ∈ enters stack) :
    0 < activations guest stack := by
  induction stack with
  | nil => exact nomatch h
  | cons frame below ih =>
      rw [activations_cons]
      cases frame with
      | enter other =>
          rcases List.mem_cons.mp h with rfl | hmem
          · simp [Frame.activated]
          · have hbelow := ih hmem
            omega
      | activate other =>
          have hbelow := ih h
          omega
      | callback other =>
          obtain rfl := List.mem_singleton.mp h
          simp [Frame.activated]
      | publish other current rest =>
          obtain rfl := List.mem_singleton.mp h
          simp [Frame.activated]
      | code | poll | call | jobs | job | reason => exact nomatch h

namespace Sound

theorem congr (h : Sound guests stack)
    (hactivity : ∀ guest, (guests' guest).activity = (guests guest).activity) :
    Sound guests' stack :=
  ⟨fun guest => by rw [hactivity, h.balanced], h.backed⟩

theorem above (h : Sound guests below) (hactivated : frame.activated = none)
    (hexecuting : ∀ guest, frame.executing = some guest → 0 < activations guest below) :
    Sound guests (frame :: below) := by
  have hsame : ∀ guest, activations guest (frame :: below) = activations guest below := by
    intro guest
    rw [activations_cons, hactivated, if_neg (by simp), Nat.add_zero]
  refine ⟨fun guest => ?_, h.backed, fun guest heq => ?_⟩
  · rw [hsame, h.balanced]
  · rw [hsame]
    exact hexecuting guest heq

theorem inert (h : Sound guests below) (hactivated : frame.activated = none)
    (hexecuting : frame.executing = none) : Sound guests (frame :: below) := by
  refine h.above hactivated fun guest heq => ?_
  rw [hexecuting] at heq
  exact nomatch heq

theorem tail (h : Sound guests (frame :: below)) (hactivated : frame.activated = none) :
    Sound guests below := by
  refine ⟨fun guest => ?_, h.backed.1⟩
  rw [h.balanced, activations_cons, hactivated, if_neg (by simp), Nat.add_zero]

theorem exchange (h : Sound guests (frame :: below)) (hactivated : frame'.activated = frame.activated)
    (hexecuting : ∀ guest, frame'.executing = some guest → frame'.activated = some guest) :
    Sound guests (frame' :: below) := by
  refine ⟨fun guest => ?_, h.backed.1.cons hexecuting⟩
  rw [h.balanced, activations_cons, activations_cons, hactivated]

/-- A frame that begins an activation: what runs in it is its guest's, or a guest's that is active
already. -/
theorem «begin» {activity : GuestActivity} (h : Sound w.guests below)
    (hbegin : (w.guests guest).activity.begin w.clock = .ok activity)
    (hactivated : frame.activated = some guest)
    (hexecuting : ∀ other, frame.executing = some other →
      other = guest ∨ 0 < (w.guests other).activity.depth) :
    Sound (w.setActivity guest activity).guests (frame :: below) := by
  obtain ⟨hdepth, -⟩ := GuestActivity.begin_eq_ok hbegin
  refine ⟨fun other => ?_, h.backed, fun other heq => ?_⟩
  · rw [activity_setActivity, activations_cons, hactivated, ← h.balanced]
    by_cases hother : other = guest
    · rw [if_pos hother, hdepth, if_pos (by rw [hother]), hother]
    · have hne : ¬ some guest = some other := fun heq => hother (Option.some.inj heq).symm
      rw [if_neg hother, if_neg hne, Nat.add_zero]
  · rw [activations_cons, hactivated]
    rcases hexecuting other heq with rfl | hactive
    · rw [if_pos rfl]
      omega
    · rw [h.balanced] at hactive
      omega

theorem enter (h : Sound w.guests below) (henter : w.enter guest = .ok w')
    (hactivated : frame.activated = some guest)
    (hexecuting : ∀ other, frame.executing = some other → other = guest) :
    Sound w'.guests (frame :: below) := by
  obtain ⟨-, activity, hbegin, rfl⟩ := enter_eq_ok henter
  have hentered : Sound (w.setActivity guest activity).guests (frame :: below) :=
    h.begin hbegin hactivated fun other heq => Or.inl (hexecuting other heq)
  exact hentered

theorem finish (h : Sound w.guests (frame :: below)) (hactivated : frame.activated = some guest) :
    Sound (w.finish guest).guests below := by
  refine ⟨fun other => ?_, h.backed.1⟩
  have hbalanced := h.balanced other
  rw [activations_cons, hactivated] at hbalanced
  unfold World.finish
  rw [activity_setActivity]
  by_cases hother : other = guest
  · subst hother
    rw [if_pos rfl] at hbalanced
    rw [if_pos rfl, GuestActivity.depth_finish]
    omega
  · have hne : ¬ some guest = some other := fun heq => hother (Option.some.inj heq).symm
    rw [if_neg hne, Nat.add_zero] at hbalanced
    rw [if_neg hother, hbalanced]

theorem finishStep (h : Sound w.guests below) (caller : Caller) (result : Except Error Progress) :
    Sound (w.finishStep caller result below).guests (w.finishStep caller result below).stack := by
  rw [guests_finishStep]
  exact h

theorem finishStep_finish {caller : Caller} (h : Sound w.guests (frame :: below))
    (hactivated : frame.activated = some guest) (result : Except Error Progress) :
    Sound ((w.finishStep caller result below).finish guest).guests below := by
  have hguests : ((w.finishStep caller result below).finish guest).guests =
      (w.finish guest).guests := by
    unfold World.finish World.setActivity
    rw [guests_finishStep]
  rw [hguests]
  exact h.finish hactivated

theorem setHostFutures (h : Sound w.guests stack) (guest : GuestId)
    (hostFutures : PendingHostFutures) :
    Sound (w.setHostFutures guest hostFutures).guests stack :=
  h.congr fun other => activity_setHostFutures w guest other hostFutures

theorem publishNext {caller : Caller} (h : Sound w.guests (frame :: below))
    (hactivated : frame.activated = some caller.guest) (batch : List Settled) :
    Sound (w.publishNext caller below batch).guests (w.publishNext caller below batch).stack := by
  cases batch with
  | nil => exact (h.finish hactivated).inert rfl rfl
  | cons settled rest => exact h.exchange hactivated.symm fun _ heq => nomatch heq

theorem publish (h : Sound w.guests below) (caller : Caller) :
    Sound (w.publish caller below).guests (w.publish caller below).stack := by
  rcases w.publish_cases caller below with ⟨-, heq⟩ | ⟨error, -, heq⟩ | ⟨entered, henter, heq⟩
  · rw [heq]
    exact h.inert rfl rfl
  · rw [heq]
    exact h.finishStep caller (.error error)
  · rw [heq]
    have hentered : Sound entered.guests (.enter caller.guest :: below) :=
      h.enter henter rfl fun _ heq => nomatch heq
    exact publishNext (hentered.setHostFutures caller.guest _) rfl _

theorem pollNext (h : Sound w.guests below) (caller : Caller) (round : List InFlight) :
    Sound (w.pollNext caller below round).guests (w.pollNext caller below round).stack := by
  cases round with
  | nil => exact h.publish caller
  | cons entry rest => exact h.inert rfl rfl

theorem stepEventLoop (h : Sound w.guests below) (caller : Caller) :
    Sound (w.stepEventLoop caller below).guests (w.stepEventLoop caller below).stack :=
  pollNext (h.setHostFutures caller.guest _) caller _

theorem polled (h : Sound w.guests below) (caller : Caller) (current : InFlight)
    (rest : List InFlight) (result : Option (Except Error Unit)) :
    Sound (w.polled caller current rest below result).guests
      (w.polled caller current rest below result).stack :=
  pollNext (h.setHostFutures caller.guest _) caller _

theorem finishEntered {caller : Caller} (h : Sound w.guests (frame :: below))
    (hactivated : frame.activated = some caller.guest) (result : Except Error Progress) :
    Sound (w.finishEntered caller result below).guests (w.finishEntered caller result below).stack :=
  h.finishStep_finish hactivated result

theorem pollJobs {caller : Caller} (h : Sound w.guests below) (published : Bool)
    (hjob : ∀ origin jobs, w.jobs = origin :: jobs → w.depth = 0 →
      (w.activate caller.guest).isOk = true →
        origin = caller.guest ∨ 0 < (w.guests origin).activity.depth) :
    Sound (w.pollJobs caller published below).guests (w.pollJobs caller published below).stack := by
  rcases w.pollJobs_cases caller published below with ⟨error, -, heq⟩ |
    ⟨active, origin, jobs, hactivate, hdepth, hqueue, heq⟩ | ⟨active, hactivate, -, heq⟩
  · rw [heq]
    exact h.finishStep caller (.error error)
  · rw [heq]
    obtain ⟨activity, hbegin, rfl⟩ := activate_eq_ok hactivate
    have hactive : Sound (w.setActivity caller.guest activity).guests
        (.job caller published origin :: below) := by
      refine h.begin hbegin rfl fun other heq => ?_
      obtain rfl := Option.some.inj heq
      exact hjob origin jobs hqueue hdepth (by rw [hactivate]; rfl)
    exact hactive
  · rw [heq]
    obtain ⟨activity, hbegin, rfl⟩ := activate_eq_ok hactivate
    have hactive : Sound (w.setActivity caller.guest activity).guests
        (.activate caller.guest :: below) :=
      h.begin hbegin rfl fun _ heq => nomatch heq
    exact hactive.finishStep_finish rfl _

theorem settled (h : Sound w.guests w.stack) (task : TaskId) (future : PromiseFuture) :
    Sound (w.settled task future).guests (w.settled task future).stack := by
  rcases w.settled_cases task future with ⟨error, -, heq⟩ | ⟨entered, henter, hsettled⟩
  · rw [heq]
    exact h
  · have hentered : Sound entered.guests (.reason task future :: w.stack) :=
      h.enter henter rfl fun other heq => (Option.some.inj heq).symm
    have hleft : Sound (entered.leave future.guest).guests w.stack := hentered.finish rfl
    rcases hsettled with ⟨-, heq⟩ | ⟨value, -, heq⟩ | ⟨reason, -, heq⟩
    · rw [heq]
      exact hleft.stepEventLoop _
    · rw [heq]
      show Sound (entered.leave future.guest).guests entered.stack
      rw [stack_enter henter]
      exact hleft
    · rw [heq]
      show Sound entered.guests (.reason task future :: entered.stack)
      rw [stack_enter henter]
      exact hentered

theorem pollPromise (h : Sound w.guests w.stack) (task : TaskId) (future : PromiseFuture) :
    Sound (w.pollPromise task future).guests (w.pollPromise task future).stack := by
  obtain ⟨armed, ⟨error, -, heq⟩ | heq⟩ := w.pollPromise_cases task future
  · rw [heq]
    exact h
  · rw [heq]
    have hpolling : Sound (w.modifyTask task fun _ =>
        ⟨{ future with armed := some armed }, .polling, false⟩).guests w.stack := h
    exact hpolling.settled _ _

theorem entered {activity : GuestActivity} (h : Sound w.guests w.stack)
    (hbegin : (w.guests guest).activity.begin w.clock = .ok activity)
    (hactivated : frame.activated = some guest) (hexecuting : frame.executing = none) :
    Sound (w.setActivity guest activity).guests (frame :: w.stack) := by
  refine h.begin hbegin hactivated fun other heq => ?_
  rw [hexecuting] at heq
  exact nomatch heq

end Sound

/-- **One step.** Whatever happens, activations and code stay in step, unless a job is run for a guest
that is not active. -/
theorem sound_step {event : Event} (h : Sound w.guests w.stack) (hjob : RunsArmedJob w event)
    (hstep : w.step event = some w') : Sound w'.guests w'.stack := by
  cases happens hstep with
  | tick | signal | complete | wake | enqueue | settle | lend | release | spawn | drop => exact h
  | @close guest =>
      exact h.congr fun other => w.field_update guest other Guest.activity rfl
  | @register guest =>
      exact h.congr fun other => w.field_update guest other Guest.activity rfl
  | enter _ _ hbegin => exact h.entered hbegin rfl rfl
  | activate _ hbegin => exact h.entered hbegin rfl rfl
  | callback _ _ hbegin => exact h.entered hbegin rfl rfl
  | @leave frame guest below hstack hframe =>
      rw [hstack] at h
      have hactivated : frame.activated = some guest := by
        rcases hframe with rfl | rfl | rfl <;> rfl
      exact h.finish hactivated
  | call _ hcan =>
      refine h.above rfl fun other heq => ?_
      obtain rfl := Option.some.inj heq
      exact activations_pos_of_mem_enters hcan
  | «return» hstack =>
      rw [hstack] at h
      exact h.tail rfl
  | @step guest => exact h.stepEventLoop (.host guest)
  | @pending caller current rest below hstack =>
      rw [hstack] at h
      exact (h.tail rfl).polled caller current rest none
  | @ready caller current rest below hstack result =>
      rw [hstack] at h
      have hbelow : Sound (w.setReady current.future false).guests below := h.tail rfl
      exact hbelow.polled caller current rest (some result)
  | @hand caller current rest below hstack converted =>
      rw [hstack] at h
      have hcall : Sound w.guests (.call caller rest :: below) := h.exchange rfl fun _ heq => heq
      exact hcall.congr fun other => w.field_update caller.guest other Guest.activity rfl
  | refuse hstack =>
      rw [hstack] at h
      exact h.finishEntered rfl _
  | @answered caller rest below hstack =>
      rw [hstack] at h
      exact h.publishNext rfl rest
  | failed hstack =>
      rw [hstack] at h
      exact h.finishEntered rfl _
  | @pollJobs caller published below hstack =>
      rw [hstack] at h
      refine (h.tail rfl).pollJobs published fun origin jobs hqueue hdepth hactive => ?_
      unfold RunsArmedJob at hjob
      rw [hstack, hqueue] at hjob
      exact hjob hdepth hactive
  | jobDone hstack =>
      rw [hstack] at h
      exact h.finishEntered rfl _
  | jobFailed hstack =>
      rw [hstack] at h
      exact h.finishEntered rfl _
  | @poll task state => exact h.pollPromise task state.future
  | reason hstack =>
      rw [hstack] at h
      exact h.finish rfl

theorem Sound.armed (h : Sound w.guests w.stack) : w.Armed := by
  intro guest hexecuting
  have hpos : 0 < (w.guests guest).activity.depth := by
    cases hstack : w.stack with
    | nil =>
        unfold executing at hexecuting
        rw [hstack] at hexecuting
        exact nomatch hexecuting
    | cons frame below =>
        unfold executing at hexecuting
        rw [hstack] at h hexecuting
        rw [h.balanced]
        exact h.backed.2 guest hexecuting
  exact ⟨hpos, GuestActivity.armed_of_depth_pos hpos⟩

/-- A job that runs under its guest's policy shows that the guest was active, unless it was the one
to step. -/
theorem runsArmedJob_of_armed {event : Event} (hstep : w.step event = some w') (h : w'.Armed) :
    RunsArmedJob w event := by
  cases happens hstep with
  | @pollJobs caller published below hstack =>
      unfold RunsArmedJob
      rw [hstack]
      cases hqueue : w.jobs with
      | nil => trivial
      | cons origin jobs =>
          intro hdepth hactive
          rcases w.pollJobs_cases caller published below with ⟨error, hactivate, -⟩ |
            ⟨active, head, rest, hactivate, -, hjobs, heq⟩ | ⟨active, -, hnone, -⟩
          · rw [hactivate] at hactive
            exact nomatch hactive
          · rw [heq] at h
            obtain ⟨rfl, rfl⟩ := List.cons.inj (hqueue.symm.trans hjobs)
            obtain ⟨activity, -, rfl⟩ := activate_eq_ok hactivate
            have hdeep := (h origin rfl).1
            by_cases hown : origin = caller.guest
            · exact Or.inl hown
            · rw [activity_setActivity, if_neg hown] at hdeep
              exact Or.inr hdeep
          · rw [hdepth, hqueue] at hnone
            simp at hnone
  | _ => trivial

theorem sound_init (clock : Clock) (policies : GuestId → ExecutionPolicy) :
    Sound (init clock policies).guests (init clock policies).stack :=
  ⟨fun _ => rfl, trivial⟩

/-- **Code runs under its own armed policy.** In every run of any guests, code of a guest only ever
runs while that guest is active and its policy armed exactly when every job a step takes off the
queue is one of the stepping guest's or of a guest that is active itself. -/
theorem throughout_armed_iff (clock : Clock) (policies : GuestId → ExecutionPolicy)
    (events : List Event) :
    machine.Throughout Armed (init clock policies) events ↔
      machine.Along RunsArmedJob (init clock policies) events :=
  Transition.Machine.throughout_iff_along_of_kept (I := fun w => Sound w.guests w.stack)
    (fun _ _ _ h hcond hstep => sound_step h hcond hstep)
    (fun _ _ _ _ hstep harmed => runsArmedJob_of_armed hstep harmed)
    (fun _ h => h.armed) (sound_init clock policies)

/-- A guest with a timeout queues a job and returns, and the step of another guest runs it. -/
def foreignRun : List Event :=
  [.enter 1, .call 1, .enqueue 1, .return, .leave, .step 2, .pollJobs]

theorem not_throughout_armed_foreignRun :
    ¬ machine.Throughout Armed (init ⟨0, fun _ => false⟩ fun _ => ⟨some 50000000, none⟩)
      foreignRun := by
  intro harmed
  have hrun : ∃ w, machine.run (init ⟨0, fun _ => false⟩ fun _ => ⟨some 50000000, none⟩) foreignRun =
      some w ∧ w.executing = some 1 ∧ (w.guests 1).activity.depth = 0 := ⟨_, rfl, rfl, rfl⟩
  obtain ⟨w, hend, hexecuting, hdepth⟩ := hrun
  have hpos := (harmed.last hend 1 hexecuting).1
  omega

end World

end GuestJs.Driver
