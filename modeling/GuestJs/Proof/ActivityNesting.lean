import GuestJs.Guest.Activations

/-!
# Activations nest

The depth counts the activations under way, and the armed policy is the one the outermost of them has
armed: nothing inside it arms another, and its own end disarms it.
-/

namespace GuestJs.Activations

open Fallible

namespace Cells

theorem exec_begin (cells : Cells) (arming checking : Clock) :
    exec (begin arming checking) cells =
      if 0 < cells.depth then (.ok ⟨⟩, { cells with depth := cells.depth + 1 })
      else match (cells.policy.arm arming).dueError checking with
        | some error => (.error error, cells)
        | none => (.ok ⟨⟩, { cells with
            depth := cells.depth + 1
            armed := some (cells.policy.arm arming) }) := by
  rw [begin, exec_bind, exec_get]
  by_cases hactive : 0 < cells.depth
  · simp [isActive, hactive]
  · cases hdue : (cells.policy.arm arming).dueError checking with
    | some error => simp [isActive, hactive, exec_bind, hdue]
    | none => simp [isActive, hactive, exec_bind, hdue]

theorem dueError_isSome (cells : Cells) (clock : Clock) :
    (cells.dueError clock).isSome = cells.isDue clock := by
  unfold dueError isDue
  cases cells.armed with
  | none => rfl
  | some armed => exact armed.dueError_isSome clock

end Cells

/-! ### Beginning -/

/-- A begin either counts one more activation, which arms the policy if it is the outermost, or is
refused and leaves the guest as it was. -/
theorem begin_cases (entry : Entry) (arming checking : Clock) (guest : GuestState) :
    (∃ error, exec (GuestState.begin entry arming checking) guest = (.error error, guest)) ∨
      exec (GuestState.begin entry arming checking) guest =
        (.ok ⟨⟩, { guest with activity := { guest.activity with
          depth := guest.activity.depth + 1
          armed := if 0 < guest.activity.depth then guest.activity.armed
            else some (guest.activity.policy.arm arming) } }) := by
  rw [GuestState.begin, exec_bind, exec_check]
  cases guest.admission entry with
  | error error => exact Or.inl ⟨error, rfl⟩
  | ok _ =>
      dsimp only
      rw [exec_zoom, Cells.exec_begin]
      by_cases hactive : 0 < guest.activity.depth
      · right
        rw [if_pos hactive, if_pos hactive]
      · rw [if_neg hactive, if_neg hactive]
        cases (guest.activity.policy.arm arming).dueError checking with
        | some error => exact Or.inl ⟨error, rfl⟩
        | none => exact Or.inr rfl

/-! ### The invariant -/

/-- The guest is under its own policy, counts what is under way, and has armed the policy when the
outermost activation began. -/
structure Nested {R : Type} (policy : ExecutionPolicy) (s : State R) : Prop where
  policy_eq : s.guest.activity.policy = policy
  depth_eq : s.guest.activity.depth = s.live.length
  armed_eq : s.guest.activity.armed = s.live.getLast?.map policy.arm

variable {R : Type} {policy : ExecutionPolicy} {s s' : State R}

theorem Nested.start (policy : ExecutionPolicy) (clock : Clock) :
    Nested policy (start policy clock : State R) := ⟨rfl, rfl, rfl⟩

/-- What a call comes to: its closure runs, or it is refused. -/
theorem step_call {entry : Entry} {checking : Clock}
    (h : step s (.call entry checking) = some s') :
    (s' = { s with clock := checking, live := s.clock :: s.live, guest.activity :=
        { s.guest.activity with
          depth := s.guest.activity.depth + 1
          armed := if 0 < s.guest.activity.depth then s.guest.activity.armed
            else some (s.guest.activity.policy.arm s.clock) } }) ∨
      ∃ error, s' = { s with clock := checking, returned := .error error :: s.returned } := by
  rw [step] at h
  split at h
  · rcases begin_cases entry s.clock checking s.guest with ⟨error, hrefused⟩ | hbegun
    · rw [hrefused] at h
      exact Or.inr ⟨error, (Option.some.inj h).symm⟩
    · rw [hbegun] at h
      exact Or.inl (Option.some.inj h).symm
  · cases h

/-- What the end of a closure comes to. -/
theorem step_finish {result : Except Error R} (h : step s (.finish result) = some s') :
    ∃ clock live activity, s.live = clock :: live ∧ s.guest.activity.finish = some activity ∧
      s' = { s with
        guest := { s.guest with activity }
        live
        returned := s.guest.outcome s.clock result :: s.returned } := by
  rw [step] at h
  cases hlive : s.live with
  | nil =>
      rw [hlive] at h
      cases h
  | cons clock live =>
      rw [hlive] at h
      obtain ⟨activity, hfinish, rfl⟩ := Option.map_eq_some_iff.mp h
      exact ⟨clock, live, activity, rfl, hfinish, rfl⟩

theorem Nested.finish (h : Nested policy s) {clock : Clock} {live : List Clock}
    (hlive : s.live = clock :: live) :
    s.guest.activity.finish = some { s.guest.activity with
      depth := live.length
      armed := live.getLast?.map policy.arm } := by
  have hdepth : s.guest.activity.depth = live.length + 1 := by
    rw [h.depth_eq, hlive, List.length_cons]
  rw [Cells.finish, hdepth]
  cases live with
  | nil => rfl
  | cons next live =>
      have harmed : s.guest.activity.armed = (next :: live).getLast?.map policy.arm := by
        rw [h.armed_eq, hlive, List.getLast?_cons_cons]
      simp only [List.length_cons, Nat.succ_ne_zero, ↓reduceIte, harmed]

theorem Nested.step (h : Nested policy s) (event : Event R)
    (hstep : step s event = some s') : Nested policy s' := by
  cases event with
  | elapse clock =>
      rw [Activations.step] at hstep
      split at hstep
      · obtain rfl := Option.some.inj hstep
        exact ⟨h.policy_eq, h.depth_eq, h.armed_eq⟩
      · cases hstep
  | call entry checking =>
      rcases step_call hstep with rfl | ⟨error, rfl⟩
      · refine ⟨h.policy_eq, by rw [h.depth_eq, List.length_cons], ?_⟩
        dsimp only
        rw [h.depth_eq, h.armed_eq, h.policy_eq]
        cases s.live with
        | nil => rfl
        | cons clock live => simp [List.getLast?_cons_cons]
      · exact ⟨h.policy_eq, h.depth_eq, h.armed_eq⟩
  | finish result =>
      obtain ⟨clock, live, activity, hlive, hfinish, rfl⟩ := step_finish hstep
      rw [h.finish hlive] at hfinish
      obtain rfl := Option.some.inj hfinish
      exact ⟨h.policy_eq, rfl, rfl⟩
  | close =>
      obtain rfl := Option.some.inj hstep
      exact ⟨h.policy_eq, h.depth_eq, h.armed_eq⟩

/-! ### What a caller gets -/

theorem outcome_of_ne {guest : GuestState} {clock : Clock} {result : Except Error R}
    (h : result ≠ .error .interrupted) : guest.outcome clock result = result := by
  rw [GuestState.outcome]
  exact h

/-- An interruption keeps its name unless the policy the outermost activation armed is due. -/
theorem Nested.outcome_interrupted (h : Nested policy s) :
    (s.guest.outcome s.clock (.error .interrupted : Except Error R) = .error .interrupted ∧
        s.guest.activity.isDue s.clock = false) ∨
      ∃ outermost error, s.live.getLast? = some outermost ∧
        (policy.arm outermost).dueError s.clock = some error ∧
        (error = .timeout ∨ error = .cancelled) ∧
        s.guest.outcome s.clock (.error .interrupted : Except Error R) = .error error := by
  cases hdue : s.guest.activity.dueError s.clock with
  | none =>
      refine Or.inl ⟨?_, ?_⟩
      · rw [GuestState.outcome, hdue]
        rfl
      · rw [← Cells.dueError_isSome, hdue, Option.isSome_none]
  | some error =>
      have harmed := hdue
      rw [Cells.dueError, h.armed_eq] at harmed
      obtain ⟨armed, hlive, herror⟩ := Option.bind_eq_some_iff.mp harmed
      obtain ⟨outermost, hlast, rfl⟩ := Option.map_eq_some_iff.mp hlive
      refine Or.inr ⟨outermost, error, hlast, herror, ArmedPolicy.eq_of_dueError_eq_some herror, ?_⟩
      rw [GuestState.outcome, hdue]
      rfl

theorem Nested.not_due (h : Nested policy s) (hdepth : s.guest.activity.depth = 0) (clock : Clock) :
    s.guest.activity.isDue clock = false ∧ s.guest.activity.dueError clock = none := by
  have hlive : s.live = [] := List.length_eq_zero_iff.mp (h.depth_eq.symm.trans hdepth)
  have harmed : s.guest.activity.armed = none := by rw [h.armed_eq, hlive]; rfl
  rw [Cells.isDue, Cells.dueError, harmed]
  exact ⟨rfl, rfl⟩

theorem Nested.armed_iff (h : Nested policy s) :
    s.guest.activity.armed.isSome = true ↔ 0 < s.guest.activity.depth := by
  rw [h.armed_eq, h.depth_eq, Option.isSome_map]
  cases s.live with
  | nil => simp
  | cons clock live => simp [List.getLast?_cons]

/-- **Activations nest.** After any sequence of calls, ends and passing time: the policy is armed
exactly while the depth is positive, the depth counts what is under way and can be taken back for
each of them, and what is armed is what the outermost has armed. A call that is refused changes
nothing; nothing is due of an inactive guest; and an interruption is given another name only if the
guest's own policy is due, and then that one. -/
theorem activations_nest {policy : ExecutionPolicy} {clock : Clock} {events : List (Event R)}
    {s : State R} (h : machine.run (start policy clock) events = some s) :
    (s.guest.activity.armed.isSome = true ↔ 0 < s.guest.activity.depth) ∧
    s.guest.activity.depth = s.live.length ∧
    (s.live ≠ [] → s.guest.activity.finish.isSome = true) ∧
    s.guest.activity.armed = s.live.getLast?.map policy.arm ∧
    (s.guest.activity.depth = 0 → ∀ clock,
      s.guest.activity.isDue clock = false ∧ s.guest.activity.dueError clock = none) ∧
    (∀ entry checking s', step s (.call entry checking) = some s' →
      (s'.live = s.clock :: s.live ∧ s'.returned = s.returned) ∨
        s'.guest = s.guest ∧ s'.live = s.live ∧
          ∃ error, s'.returned = .error error :: s.returned) ∧
    ∀ result s', step s (.finish result) = some s' → ∃ outcome,
      s'.returned = outcome :: s.returned ∧
      (result ≠ .error .interrupted → outcome = result) ∧
      (result = .error .interrupted →
        (outcome = .error .interrupted ∧ s.guest.activity.isDue s.clock = false) ∨
          ∃ outermost error, s.live.getLast? = some outermost ∧
            (policy.arm outermost).dueError s.clock = some error ∧
            (error = .timeout ∨ error = .cancelled) ∧ outcome = .error error) := by
  have hnested : Nested policy s :=
    Transition.Machine.run_invariant (fun _ event _ hinv => hinv.step event) (.start policy clock) h
  refine ⟨hnested.armed_iff, hnested.depth_eq, ?_, hnested.armed_eq, hnested.not_due, ?_, ?_⟩
  · intro hlive
    obtain ⟨began, live, heq⟩ := List.exists_cons_of_ne_nil hlive
    rw [hnested.finish heq]
    rfl
  · intro entry checking s' hstep
    rcases step_call hstep with rfl | ⟨error, rfl⟩
    · exact Or.inl ⟨rfl, rfl⟩
    · exact Or.inr ⟨rfl, rfl, error, rfl⟩
  · intro result s' hstep
    obtain ⟨began, live, activity, -, -, rfl⟩ := step_finish hstep
    refine ⟨s.guest.outcome s.clock result, rfl, outcome_of_ne, ?_⟩
    rintro rfl
    exact hnested.outcome_interrupted

/-- Two nested activations, of which the inner one is interrupted after the deadline of the outer. -/
theorem activations_nest_timeout :
    let quiet : Instant → Clock := fun now => ⟨now, fun _ => false⟩
    ∃ s : State Nat,
      machine.run (start ⟨some 10, none⟩ (quiet 0)) [.call .enter (quiet 1), .elapse (quiet 5),
        .call (.reenter true) (quiet 6), .elapse (quiet 12)] = some s ∧
      s.live = [quiet 5, quiet 0] ∧ s.guest.activity.depth = s.live.length ∧
      s.guest.outcome s.clock (.error .interrupted : Except Error Nat) = .error .timeout := by
  intro quiet
  have hrun : machine.run (start ⟨some 10, none⟩ (quiet 0) : State Nat)
      [.call .enter (quiet 1), .elapse (quiet 5), .call (.reenter true) (quiet 6),
        .elapse (quiet 12)] = some _ := rfl
  exact ⟨_, hrun, rfl, (activations_nest hrun).2.1, rfl⟩

/-! ### The invariant by construction -/

/-- The cells of an activity that carries its invariant. -/
def cellsOf (activity : GuestActivity) : Cells := ⟨activity.policy, activity.depth, activity.armed⟩

theorem begin_cellsOf (activity : GuestActivity) (clock : Clock) :
    exec (Cells.begin clock clock) (cellsOf activity) =
      match activity.begin clock with
      | .ok begun => (.ok ⟨⟩, cellsOf begun)
      | .error error => (.error error, cellsOf activity) := by
  have hdepth : (cellsOf activity).depth = activity.depth := rfl
  have hpolicy : (cellsOf activity).policy = activity.policy := rfl
  rw [Cells.exec_begin, GuestActivity.begin, hdepth, hpolicy]
  by_cases hactive : 0 < activity.depth
  · have his : activity.isActive = true := decide_eq_true hactive
    rw [if_pos hactive, dif_pos his]
    rfl
  · have hnot : ¬ activity.isActive = true := by simpa [GuestActivity.isActive] using hactive
    rw [if_neg hactive, dif_neg hnot]
    cases (activity.policy.arm clock).dueError clock <;> rfl

theorem finish_cellsOf (activity : GuestActivity) (h : 0 < activity.depth) :
    (cellsOf activity).finish = some (cellsOf activity.finish) := by
  obtain ⟨depth, hdepth⟩ := Nat.exists_eq_succ_of_ne_zero (Nat.ne_of_gt h)
  have hcells : (cellsOf activity).depth = depth + 1 := hdepth
  rw [Cells.finish, hcells, GuestActivity.finish]
  by_cases hlast : activity.depth - 1 = 0
  · obtain rfl : depth = 0 := by omega
    rw [dif_pos hlast]
    rfl
  · have hne : depth ≠ 0 := by omega
    rw [dif_neg hlast]
    simp [cellsOf, hne, hdepth]

theorem dueError_cellsOf (activity : GuestActivity) (clock : Clock) :
    (cellsOf activity).dueError clock = activity.dueError clock := rfl

end GuestJs.Activations
