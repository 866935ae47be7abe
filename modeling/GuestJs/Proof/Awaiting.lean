import GuestJs.Proof.TaskSteps

/-!
# What an awaited promise gives

The future of a promise ends with the promise's own outcome or with an error of the promise's own
guest, as far as it looks for itself. What the step it takes runs into is another matter: a job is
the engine's, whoever queued it, and the error of a job that fails is the error of the step.
-/

namespace GuestJs.Driver

namespace World

/-- Every promise future that is done ended with its promise's outcome or an error its guest answers
for. -/
def OwnCompletions (w : World) : Prop :=
  ∀ task state completion, w.tasks task = some state → state.phase = .done completion →
    completion.IsOwn

/-- The step of a promise future fails at most where its guest's policy interrupts it, or where memory
of its guest is on loan. -/
def ReportsOwn (w : World) (event : Event) : Prop :=
  ∀ future error, w.reported event = some (future, error) → w.OwnError future.guest error

variable {w w' : World} {event : Event}

/-- **One step.** Futures end with what is their own, unless a step fails for another reason. -/
theorem ownCompletions_step (h : w.OwnCompletions) (hreports : w.ReportsOwn event)
    (hstep : w.step event = some w') : w'.OwnCompletions := by
  intro task state completion htask hphase
  cases taskStep hstep htask with
  | same hbefore => exact h task _ completion hbefore hphase
  | woken hbefore => exact h task _ completion hbefore hphase
  | spawned future => exact nomatch hphase
  | polling future => exact nomatch hphase
  | ready hbefore => exact nomatch hphase
  | parked hbefore => exact nomatch hphase
  | completed hdone hown =>
      obtain rfl := Phase.done.inj (hdone.symm.trans hphase)
      exact hown
  | failed hreported hdone =>
      obtain rfl := Phase.done.inj (hdone.symm.trans hphase)
      exact isOwn_of_ownError (hreports _ _ hreported)

/-- **An awaited promise gives its own outcome.** In a run of any guests, any tasks and any jobs in
which steps fail only for the awaiting guest's own policy or loans, every promise future ends with the
fulfilment or the rejection of its promise, or with an error of its guest's policy, closure or
loans. -/
theorem throughout_ownCompletions (clock : Clock) (policies : GuestId → ExecutionPolicy)
    {events : List Event} (h : machine.Along ReportsOwn (init clock policies) events) :
    machine.Throughout OwnCompletions (init clock policies) events :=
  Transition.Machine.throughout_of_along
    (fun _ _ _ hown hreports hstep => ownCompletions_step hown hreports hstep)
    (fun _ _ _ htask => nomatch htask) h

theorem throughout_ownCompletions_timeout :
    machine.Throughout OwnCompletions (init ⟨0, fun _ => false⟩ fun _ => ⟨some 50, none⟩)
      [.enter 1, .spawn 7 1 ⟨1, 0⟩, .call 1, .enqueue 1, .return, .leave, .poll 7, .pollJobs,
        .tick 50, .jobFailed .interrupted] := by
  have quiet : ∀ {w : World} {event : Event}, w.reported event = none → w.ReportsOwn event := by
    intro w event hnone future error hreported
    rw [hnone] at hreported
    exact nomatch hreported
  apply throughout_ownCompletions
  refine .cons rfl (quiet rfl) <| .cons rfl (quiet rfl) <| .cons rfl (quiet rfl) <|
    .cons rfl (quiet rfl) <| .cons rfl (quiet rfl) <| .cons rfl (quiet rfl) <|
    .cons rfl (quiet rfl) <| .cons rfl (quiet rfl) <| .cons rfl (quiet rfl) <|
    .cons rfl (fun future error hreported => ?_) trivial
  obtain ⟨rfl, rfl⟩ := Prod.mk.inj (Option.some.inj hreported)
  exact Or.inl ⟨rfl, rfl⟩

/-- A job of another guest throws while a task awaits a promise that is pending. -/
def strangerRun : List Event :=
  [.enter 2, .call 2, .enqueue 2, .return, .leave, .enter 1, .spawn 7 1 ⟨1, 0⟩, .leave, .poll 7,
    .pollJobs, .jobFailed (.exception ⟨"Error", "stranger", none, [], ⟨.string "stranger", 2⟩⟩)]

theorem not_throughout_ownCompletions_strangerRun :
    ¬ machine.Throughout OwnCompletions (init ⟨0, fun _ => false⟩ fun _ => .new) strangerRun := by
  intro hown
  have hrun : ∃ w state completion,
      machine.run (init ⟨0, fun _ => false⟩ fun _ => .new) strangerRun = some w ∧
        w.tasks 7 = some state ∧ state.phase = .done completion ∧
        completion.result = .error
          (.guest ⟨"Error", "stranger", none, [], ⟨.string "stranger", 2⟩⟩) ∧
        completion.account.state = .pending := ⟨_, _, _, rfl, rfl, rfl, rfl, rfl⟩
  obtain ⟨w, state, completion, hend, htask, hphase, hresult, hpending⟩ := hrun
  have hrejected := hown.last hend 7 state completion htask hphase
  unfold Completion.IsOwn at hrejected
  rw [hresult, hpending] at hrejected
  exact nomatch hrejected

end World

end GuestJs.Driver
