import GuestJs.Errors
import GuestJs.Library.Transition

/-!
# Shared streams

One inner stream behind clones. A call of `next` returns a future at once and leaves in `turn` the
receiver of a one-shot channel, whose sender lives in the future: the future of the call after it
awaits that receiver first, and goes on when the sender is gone, with the future or at its end.
Clones share both cells, so they are not told apart, and a call is named by its number in call
order.
-/

namespace GuestJs

open Transition

/-- What the inner stream gives when a poll of it is ready. -/
abbrev StreamStep (T : Type) := Option (Except Error T)

def StreamStep.isItem {T : Type} : StreamStep T → Bool
  | some (.ok _) => true
  | _ => false

/-- Where the future of a call is. While it is `polling` the code of the inner stream runs inside
it, and while it is `releasing` the destructor of the inner stream does. -/
inductive NextCall (T : Type) where
  | waiting (previous : Option Nat)
  | stepping
  | polling
  | releasing (step : StreamStep T)
  | finished (step : StreamStep T)
  | dropped

namespace NextCall

variable {T : Type}

def result : NextCall T → Option (StreamStep T)
  | releasing step | finished step => some step
  | _ => none

/-- The sender `done` of the call has been dropped. -/
def isDone : NextCall T → Bool
  | finished _ | dropped => true
  | _ => false

end NextCall

/-- The two cells of a shared stream with the futures of the calls made so far, in call order.
`outcomes` is the record of what the inner stream has given, and `panicked` says that the inner
stream was borrowed twice. -/
structure SharedStream (T : Type) where
  stream : Bool
  borrowed : Bool
  turn : Option Nat
  calls : List (NextCall T)
  outcomes : List (StreamStep T)
  closed : Bool
  panicked : Bool

namespace SharedStream

variable {T : Type}

def new : SharedStream T := ⟨true, false, none, [], [], false, false⟩

/-- `answer` and `release` are the return from the inner stream's `poll_next` and from its
destructor, in which anything but a second poll of the same future may happen. -/
inductive Event (T : Type) where
  | next
  | poll (call : Nat)
  | answer (call : Nat) (ready : Option (StreamStep T))
  | release (call : Nat)
  | drop (call : Nat)
  | close

def setCall (s : SharedStream T) (call : Nat) (c : NextCall T) : SharedStream T :=
  { s with calls := s.calls.set call c }

/-- The await of the previous call's receiver returns. -/
def isTurn (s : SharedStream T) : Option Nat → Bool
  | none => true
  | some previous => (s.calls[previous]?.map NextCall.isDone).getD false

def enter (s : SharedStream T) (call : Nat) : SharedStream T :=
  if s.borrowed then { s with panicked := true }
  else if s.stream then { s.setCall call .polling with borrowed := true }
  else s.setCall call (.finished none)

def receive (s : SharedStream T) (call : Nat) (step : StreamStep T) : SharedStream T :=
  let s := { s with borrowed := false, outcomes := s.outcomes ++ [step] }
  if step.isItem then s.setCall call (.finished step)
  else { s.setCall call (.releasing step) with stream := false }

def step (s : SharedStream T) : Event T → Option (SharedStream T)
  | .next =>
      some { s with turn := some s.calls.length, calls := s.calls ++ [.waiting s.turn] }
  | .poll call =>
      match s.calls[call]? with
      | some (.waiting previous) =>
          if s.isTurn previous then some (s.enter call) else some s
      | some .stepping => some (s.enter call)
      | _ => none
  | .answer call ready =>
      match s.calls[call]?, ready with
      | some .polling, none => some { s.setCall call .stepping with borrowed := false }
      | some .polling, some step => some (s.receive call step)
      | _, _ => none
  | .release call =>
      match s.calls[call]? with
      | some (.releasing step) => some (s.setCall call (.finished step))
      | _ => none
  | .drop call =>
      match s.calls[call]? with
      | some (.waiting _) | some .stepping => some (s.setCall call .dropped)
      | some (.finished _) => some s
      | _ => none
  -- A close while the inner stream is borrowed is an error and changes nothing.
  | .close => some (if s.borrowed then s else { s with stream := false, closed := true })

def machine (T : Type) : Machine (SharedStream T) (Event T) := ⟨step⟩

def Finished (s : SharedStream T) (call : Nat) : Prop :=
  ∃ step, s.calls[call]? = some (.finished step)

/-- Every future is polled until it is complete. -/
def Awaited (s : SharedStream T) : Event T → Prop
  | .drop call => s.Finished call
  | _ => True

/-- All that an event can lead to. -/
inductive Happens (s : SharedStream T) : Event T → SharedStream T → Prop where
  | next : Happens s .next
      { s with turn := some s.calls.length, calls := s.calls ++ [.waiting s.turn] }
  | turn {call : Nat} {previous : Option Nat} (hcall : s.calls[call]? = some (.waiting previous))
      (hturn : s.isTurn previous = true) : Happens s (.poll call) (s.enter call)
  | wait {call : Nat} {previous : Option Nat} (hcall : s.calls[call]? = some (.waiting previous)) :
      Happens s (.poll call) s
  | again {call : Nat} (hcall : s.calls[call]? = some .stepping) :
      Happens s (.poll call) (s.enter call)
  | pending {call : Nat} (hcall : s.calls[call]? = some .polling) :
      Happens s (.answer call none) { s.setCall call .stepping with borrowed := false }
  | ready {call : Nat} (step : StreamStep T) (hcall : s.calls[call]? = some .polling) :
      Happens s (.answer call (some step)) (s.receive call step)
  | release {call : Nat} {step : StreamStep T} (hcall : s.calls[call]? = some (.releasing step)) :
      Happens s (.release call) (s.setCall call (.finished step))
  | drop {call : Nat} (hcall : ¬ s.Finished call) : Happens s (.drop call) (s.setCall call .dropped)
  | dropFinished {call : Nat} (hcall : s.Finished call) : Happens s (.drop call) s
  | refuse (hborrowed : s.borrowed = true) : Happens s .close s
  | close (hfree : ¬ s.borrowed = true) :
      Happens s .close { s with stream := false, closed := true }

/-- **What a step does.** -/
theorem happens {s t : SharedStream T} {e : Event T} (h : s.step e = some t) : s.Happens e t := by
  cases e with
  | next => exact Option.some.inj h ▸ .next
  | poll call =>
      simp only [step] at h
      split at h
      next previous hcall =>
        split at h
        next hturn => exact Option.some.inj h ▸ .turn hcall hturn
        next => exact Option.some.inj h ▸ .wait hcall
      next hcall => exact Option.some.inj h ▸ .again hcall
      next => cases h
  | answer call ready =>
      simp only [step] at h
      split at h
      next hcall => exact Option.some.inj h ▸ .pending hcall
      next step hcall => exact Option.some.inj h ▸ .ready step hcall
      next => cases h
  | release call =>
      simp only [step] at h
      split at h
      next step hcall => exact Option.some.inj h ▸ .release hcall
      next => cases h
  | drop call =>
      have hopen : ∀ {c : NextCall T}, s.calls[call]? = some c → c.isDone = false →
          ¬ s.Finished call := by
        rintro c hcall hdone ⟨step, hfinished⟩
        cases hcall.symm.trans hfinished
        cases hdone
      simp only [step] at h
      split at h
      next hcall => exact Option.some.inj h ▸ .drop (hopen hcall rfl)
      next hcall => exact Option.some.inj h ▸ .drop (hopen hcall rfl)
      next hcall => exact Option.some.inj h ▸ .dropFinished ⟨_, hcall⟩
      next => cases h
  | close =>
      simp only [step, Option.some.injEq] at h
      split at h
      next hborrowed => exact h ▸ .refuse hborrowed
      next hfree => exact h ▸ .close hfree

end SharedStream

end GuestJs
