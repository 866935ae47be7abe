import GuestJs.Policy

/-!
# What a guest is doing

A guest counts the activations that are under way on it. Its policy is armed by the outermost one
and disarmed with it, and an interruption is named by the policy armed then.
-/

namespace GuestJs

/-- The policy is armed exactly while something is under way. -/
structure GuestActivity where
  policy : ExecutionPolicy
  depth : Nat
  armed : Option ArmedPolicy
  armed_iff : armed.isSome = true ↔ 0 < depth

namespace GuestActivity

def new (policy : ExecutionPolicy) : GuestActivity := ⟨policy, 0, none, by simp⟩

def isActive (activity : GuestActivity) : Bool := decide (0 < activity.depth)

/-- One more activation, which `finish` ends again: the outermost one arms the policy. -/
def begin (activity : GuestActivity) (clock : Clock) : Except Error GuestActivity :=
  if hactive : activity.isActive = true then
    .ok { activity with
      depth := activity.depth + 1
      armed_iff := iff_of_true (activity.armed_iff.mpr (of_decide_eq_true hactive)) (by simp) }
  else
    match (activity.policy.arm clock).dueError clock with
    | some error => .error error
    | none =>
        .ok { activity with
          depth := activity.depth + 1
          armed := some (activity.policy.arm clock)
          armed_iff := by simp }

def finish (activity : GuestActivity) : GuestActivity :=
  if hlast : activity.depth - 1 = 0 then
    { activity with depth := 0, armed := none, armed_iff := by simp }
  else
    { activity with
      depth := activity.depth - 1
      armed_iff := iff_of_true (activity.armed_iff.mpr (by omega)) (by omega) }

def isDue (activity : GuestActivity) (clock : Clock) : Bool :=
  activity.armed.any fun armed => armed.isDue clock

def dueError (activity : GuestActivity) (clock : Clock) : Option Error :=
  activity.armed.bind fun armed => armed.dueError clock

/-- An error as the guest's own entry returns it: an interruption under the name of the policy that
is due. -/
def named (activity : GuestActivity) (clock : Clock) : Error → Error
  | .interrupted => (activity.dueError clock).getD .interrupted
  | error => error

variable {activity activity' : GuestActivity} {clock : Clock}

@[simp]
theorem depth_finish (activity : GuestActivity) : activity.finish.depth = activity.depth - 1 := by
  unfold finish
  by_cases hlast : activity.depth - 1 = 0 <;> simp [hlast]

theorem begin_eq_ok (h : activity.begin clock = .ok activity') :
    activity'.depth = activity.depth + 1 ∧ activity'.policy = activity.policy := by
  unfold begin at h
  by_cases hactive : activity.isActive = true
  · rw [dif_pos hactive] at h
    obtain rfl := Except.ok.inj h
    exact ⟨rfl, rfl⟩
  · rw [dif_neg hactive] at h
    cases hdue : (activity.policy.arm clock).dueError clock with
    | some error => simp [hdue] at h
    | none =>
        simp only [hdue, Except.ok.injEq] at h
        obtain rfl := h
        exact ⟨rfl, rfl⟩

theorem begin_eq_error {error : Error} (h : activity.begin clock = .error error) :
    (activity.policy.arm clock).dueError clock = some error := by
  unfold begin at h
  by_cases hactive : activity.isActive = true
  · rw [dif_pos hactive] at h
    exact nomatch h
  · rw [dif_neg hactive] at h
    cases hdue : (activity.policy.arm clock).dueError clock with
    | some found =>
        simp only [hdue, Except.error.injEq] at h
        rw [h]
    | none => simp [hdue] at h

theorem armed_of_depth_pos (h : 0 < activity.depth) : activity.armed.isSome = true :=
  activity.armed_iff.mpr h

/-- An interruption loses its name only where no policy of the guest's is due. -/
theorem named_interrupted (activity : GuestActivity) (clock : Clock) :
    (activity.named clock .interrupted = .interrupted ∧ activity.isDue clock = false) ∨
      activity.dueError clock = some (activity.named clock .interrupted) := by
  unfold named dueError isDue
  cases harmed : activity.armed with
  | none => simp
  | some armed =>
      cases hdue : armed.dueError clock with
      | none =>
          have hnot : armed.isDue clock = false := by
            rw [← armed.dueError_isSome, hdue, Option.isSome_none]
          simp [hdue, hnot]
      | some error => simp [hdue]

end GuestActivity

end GuestJs
