import GuestJs.Handle.Writer
import Mathlib.Data.List.Basic
import Mathlib.Data.List.Induction
import Mathlib.Logic.Relation

/-!
# The writer as a sink

Everything a writer does is made of a few moves: it learns that the promise it awaits is fulfilled,
it gives up, or, when it is open and awaits nothing, it calls the guest. What the moves preserve says
that no call is made before the one before it is fulfilled, and none after the writer has given up.
-/

namespace GuestJs

open Transition

namespace SinkCall

variable {C : Type}

def chunk (call : SinkCall C) : Option C :=
  match call.method with
  | .write chunk => some chunk
  | .close => none

/-- The chunk of a write that has not thrown. -/
def taken (call : SinkCall C) : Option C := call.promise.bind fun _ => call.chunk

end SinkCall

namespace Writer

variable {C : Type} {w w' : Writer C}

def Fulfilled (w : Writer C) (call : Nat) : Prop :=
  (w.calls[call]?.bind SinkCall.promise) = some .fulfilled

/-- No further method of the guest will be called. -/
def Over (w : Writer C) : Prop :=
  w.state.phase ≠ .opened ∧ w.state.phase ≠ .writing

inductive Move (w : Writer C) : Writer C → Prop where
  | settle (call : Nat) (method : SinkMethod C) (settlement : Settlement)
      (hcall : w.calls[call]? = some ⟨method, some .unsettled⟩) :
      Move w { w with calls := w.calls.set call ⟨method, some settlement⟩ }
  | resolve (call : Nat) (hpending : w.state.pending = some call) (hcall : w.Fulfilled call) :
      Move w { w with state := .reset (w.state.phase.resolved (.ok ())) }
  | fail : Move w { w with state := .reset .failed }
  | write (chunk : C) (settlement : Settlement) (hphase : w.state.phase = .opened) :
      Move w { w with
        state := .begin .writing w.calls.length
        calls := w.calls ++ [⟨.write chunk, some settlement⟩]
        accepted := w.accepted ++ [chunk] }
  | close (settlement : Settlement) (hphase : w.state.phase = .opened) :
      Move w { w with
        state := .begin .closing w.calls.length
        calls := w.calls ++ [⟨.close, some settlement⟩] }
  | throw (method : SinkMethod C) (hphase : w.state.phase = .opened) :
      Move w { w with state := .reset .failed, calls := w.calls ++ [⟨method, none⟩] }
  | release : Move w { w with state := .reset .released }
  | abort : Move w { w with state := .reset .failed, aborting := true, aborted := true }
  | aborted (haborting : w.aborting = true) :
      Move w { w with state := .reset .closed, aborting := false }
  | resume : Move w { w with aborting := false }

abbrev Moves : Writer C → Writer C → Prop := Relation.ReflTransGen Move

theorem Move.moves (h : Move w w') : Moves w w' := Relation.ReflTransGen.single h

theorem poll_moves {answer result : Poll Unit} (h : w.poll answer = some (result, w')) :
    Moves w w' ∧ (result = some (.ok ()) → w.state.pending ≠ none →
      w'.state = .reset (w.state.phase.resolved (.ok ()))) := by
  unfold poll at h
  split at h
  next hpermits =>
    obtain ⟨rfl, rfl⟩ := Prod.mk.inj (Option.some.inj h)
    cases hpending : w.state.pending with
    | none =>
        simp only [WriterState.poll, hpending]
        exact ⟨.refl, fun _ hne => absurd rfl hne⟩
    | some call =>
        cases answer with
        | none =>
            simp only [WriterState.poll, hpending]
            exact ⟨.refl, nofun⟩
        | some result =>
            simp only [WriterState.poll, hpending]
            cases result with
            | error error => exact ⟨Move.fail.moves, nofun⟩
            | ok value =>
                simp only [permits, hpending, decide_eq_true_eq] at hpermits
                exact ⟨(Move.resolve call hpending hpermits).moves, fun _ _ => rfl⟩
  next => cases h

/-- A poll that ends well has seen the promise fulfilled. -/
theorem fulfilled_of_poll {answer : Poll Unit} {call : Nat}
    (h : w.poll answer = some (some (.ok ()), w')) (hpending : w.state.pending = some call) :
    w.Fulfilled call := by
  unfold poll at h
  split at h
  next hpermits =>
    have hresult := (Prod.mk.inj (Option.some.inj h)).1
    cases answer with
    | none => simp [WriterState.poll, hpending] at hresult
    | some result =>
        obtain rfl : result = .ok () := by simpa [WriterState.poll, hpending] using hresult
        simp only [permits, hpending, decide_eq_true_eq] at hpermits
        exact hpermits
  next => cases h

theorem pollReady_moves {answer result : Poll Unit} (h : w.pollReady answer = some (result, w')) :
    Moves w w' := by
  unfold pollReady at h
  split at h
  · obtain ⟨-, rfl⟩ := Prod.mk.inj (Option.some.inj h)
    exact .refl
  · exact (poll_moves h).1
  · obtain ⟨-, rfl⟩ := Prod.mk.inj (Option.some.inj h)
    exact .refl

theorem pollFlush_moves {answer result : Poll Unit} (h : w.pollFlush answer = some (result, w')) :
    Moves w w' := by
  unfold pollFlush at h
  split at h
  · exact (poll_moves h).1
  · exact (poll_moves h).1
  all_goals
    obtain ⟨-, rfl⟩ := Prod.mk.inj (Option.some.inj h)
    exact .refl

theorem startSend_moves (chunk : C) (answer : MethodAnswer) :
    Moves w (w.startSend chunk answer).2 := by
  unfold startSend
  split
  next => exact .refl
  next hphase =>
    have hopened : w.state.phase = .opened := not_not.mp hphase
    cases answer with
    | refused error => exact Move.fail.moves
    | threw error => exact (Move.throw (.write chunk) hopened).moves
    | promised settlement => exact (Move.write chunk settlement hopened).moves

theorem callClose_moves {answer : MethodAnswer} {closing result : Poll Unit}
    (hopened : w.state.phase = .opened) (h : w.callClose answer closing = some (result, w')) :
    Moves w w' := by
  unfold callClose at h
  cases answer with
  | refused error =>
      obtain ⟨-, rfl⟩ := Prod.mk.inj (Option.some.inj h)
      exact Move.fail.moves
  | threw error =>
      obtain ⟨-, rfl⟩ := Prod.mk.inj (Option.some.inj h)
      exact (Move.throw .close hopened).moves
  | promised settlement =>
      exact (Move.close settlement hopened).moves.trans (poll_moves h).1

/-- The writer has not given up. -/
def Live (w : Writer C) : Prop :=
  w.state.phase ≠ .failed ∧ w.state.phase ≠ .released ∧
    (w.state.phase = .closed → w.aborted = false)

structure Sound (w : Writer C) : Prop where
  held : w.state.pending ≠ none ↔ w.state.phase = .writing ∨ w.state.phase = .closing
  last : ∀ call, w.state.pending = some call → call + 1 = w.calls.length
  fulfilled : w.Live → ∀ call < w.calls.length, w.state.pending ≠ some call → w.Fulfilled call
  accepted : w.calls.filterMap SinkCall.taken = w.accepted
  threw : ∀ (call : Nat) method, w.calls[call]? = some ⟨method, none⟩ →
    call + 1 = w.calls.length ∧ w.Over
  aborting : w.aborting = true → w.aborted = true

theorem sound_new : Sound (new : Writer C) := by
  refine ⟨?_, ?_, ?_, rfl, ?_, nofun⟩ <;> simp [new, WriterState.new]

theorem Sound.live (h : w.Sound) (hpending : w.state.pending ≠ none) : w.Live := by
  obtain hphase | hphase := h.held.mp hpending
  · simp [Live, hphase]
  · simp [Live, hphase]

theorem Sound.opened (h : w.Sound) (hphase : w.state.phase = .opened) :
    w.state.pending = none ∧ (∀ call < w.calls.length, w.Fulfilled call) ∧
      ∀ (call : Nat) method, w.calls[call]? ≠ some ⟨method, none⟩ := by
  have hnone : w.state.pending = none := by
    by_contra hpending
    obtain hphase' | hphase' := h.held.mp hpending
    · cases hphase.symm.trans hphase'
    · cases hphase.symm.trans hphase'
  refine ⟨hnone, fun call hlt => ?_, fun call method hcall => (h.threw call method hcall).2.1 hphase⟩
  exact h.fulfilled (by simp [Live, hphase]) call hlt (by rw [hnone]; nofun)

theorem getElem?_append_cases {calls : List (SinkCall C)} {added c : SinkCall C} {call : Nat}
    (h : (calls ++ [added])[call]? = some c) :
    calls[call]? = some c ∨ call = calls.length ∧ c = added := by
  by_cases hlt : call < calls.length
  · rw [List.getElem?_append_left hlt] at h
    exact Or.inl h
  · rw [List.getElem?_append_right (Nat.le_of_not_lt hlt), List.getElem?_singleton] at h
    split at h
    next hzero => exact Or.inr ⟨by omega, (Option.some.inj h).symm⟩
    next => cases h

theorem filterMap_set {α β : Type} {f : α → Option β} {as : List α} {a b : α} {i : Nat}
    (ha : as[i]? = some a) (hsame : f b = f a) : (as.set i b).filterMap f = as.filterMap f := by
  have hmap : (as.set i b).map f = as.map f := by
    refine List.ext_getElem? fun j => ?_
    rw [List.getElem?_map, List.getElem?_map, List.getElem?_set]
    by_cases heq : i = j
    · subst j
      rw [if_pos rfl, if_pos (List.getElem?_eq_some_iff.mp ha).1, ha, Option.map_some,
        Option.map_some, hsame]
    · rw [if_neg heq]
  have hfilter : ∀ l : List α, l.filterMap f = (l.map f).filterMap id := fun l => by
    rw [List.filterMap_map, Function.id_comp]
  rw [hfilter, hfilter, hmap]

/-- An open writer has nothing behind it but fulfilled calls, whatever it calls next. -/
theorem Sound.call (h : w.Sound) (hphase : w.state.phase = .opened) {added : SinkCall C}
    (hstate : w'.state.pending = some w.calls.length ∧
        (w'.state.phase = .writing ∨ w'.state.phase = .closing) ∧ added.promise ≠ none ∨
      w'.state = .reset .failed)
    (hcalls : w'.calls = w.calls ++ [added])
    (haccepted : w'.accepted = w.accepted ++ (SinkCall.taken added).toList)
    (haborting : w'.aborting = true → w'.aborted = true) : w'.Sound := by
  obtain ⟨hnone, hfulfilled, hgiven⟩ := h.opened hphase
  have hlength : w'.calls.length = w.calls.length + 1 := by
    rw [hcalls, List.length_append, List.length_singleton]
  refine ⟨?_, ?_, ?_, ?_, ?_, haborting⟩
  · obtain ⟨hpending, hphase', -⟩ | hfailed := hstate
    · exact iff_of_true (by rw [hpending]; nofun) hphase'
    · simp [hfailed, WriterState.reset]
  · intro call hcall
    obtain ⟨hpending, -⟩ | hfailed := hstate
    · rw [hpending] at hcall
      rw [hlength, Option.some.inj hcall]
    · rw [hfailed] at hcall
      cases hcall
  · intro hlive call hlt hne
    obtain ⟨hpending, -⟩ | hfailed := hstate
    · have hold : call < w.calls.length := by
        rw [hpending] at hne
        have hother : call ≠ w.calls.length := fun heq => hne (by rw [heq])
        omega
      have hbefore := hfulfilled call hold
      rw [Fulfilled, hcalls, List.getElem?_append_left hold]
      exact hbefore
    · exact absurd (congrArg WriterState.phase hfailed) hlive.1
  · rw [hcalls, haccepted, List.filterMap_append, h.accepted]
    cases hadded : SinkCall.taken added <;> simp [hadded]
  · intro call method hcall
    rw [hcalls] at hcall
    obtain hold | ⟨rfl, rfl⟩ := getElem?_append_cases hcall
    · exact absurd hold (hgiven call method)
    · obtain ⟨-, -, hpromise⟩ | hfailed := hstate
      · exact absurd rfl hpromise
      · exact ⟨hlength.symm, by simp [Over, hfailed, WriterState.reset]⟩

/-- A writer that gives up awaits nothing. -/
theorem Sound.reset (h : w.Sound) {phase : WriterPhase}
    (hphase : phase = .failed ∨ phase = .released ∨ phase = .closed ∧ w'.aborted = true)
    (hstate : w'.state = .reset phase) (hcalls : w'.calls = w.calls)
    (haccepted : w'.accepted = w.accepted) (haborting : w'.aborting = true → w'.aborted = true) :
    w'.Sound := by
  refine ⟨?_, ?_, ?_, ?_, ?_, haborting⟩
  · rw [hstate]
    obtain rfl | rfl | ⟨rfl, -⟩ := hphase <;> simp [WriterState.reset]
  · intro call hcall
    rw [hstate] at hcall
    cases hcall
  · intro hlive
    have hsame : w'.state.phase = phase := congrArg WriterState.phase hstate
    obtain rfl | rfl | ⟨rfl, haborted⟩ := hphase
    · exact absurd hsame hlive.1
    · exact absurd hsame hlive.2.1
    · rw [hlive.2.2 hsame] at haborted
      cases haborted
  · rw [hcalls, haccepted]
    exact h.accepted
  · intro call method hcall
    rw [hcalls] at hcall ⊢
    refine ⟨(h.threw call method hcall).1, ?_⟩
    rw [Over, hstate]
    obtain rfl | rfl | ⟨rfl, -⟩ := hphase <;> simp [WriterState.reset]

theorem Sound.settle (h : w.Sound) {call : Nat} {method : SinkMethod C} {settlement : Settlement}
    (hcall : w.calls[call]? = some ⟨method, some .unsettled⟩) :
    Sound { w with calls := w.calls.set call ⟨method, some settlement⟩ } := by
  obtain ⟨hlt, hget⟩ := List.getElem?_eq_some_iff.mp hcall
  refine ⟨h.held, fun other hother => ?_, fun hlive other hother hne => ?_, ?_,
    fun other method' hother => ?_, h.aborting⟩
  · rw [List.length_set]
    exact h.last other hother
  · rw [List.length_set] at hother
    have hbefore := h.fulfilled hlive other hother hne
    have hdifferent : call ≠ other := by
      rintro rfl
      simp [Fulfilled, hcall] at hbefore
    rw [Fulfilled, List.getElem?_set_ne hdifferent]
    exact hbefore
  · exact (filterMap_set (b := ⟨method, some settlement⟩) hcall rfl).trans h.accepted
  · have hdifferent : call ≠ other := by
      rintro rfl
      rw [List.getElem?_set_self hlt] at hother
      cases hother
    rw [List.getElem?_set_ne hdifferent] at hother
    rw [List.length_set]
    exact h.threw other method' hother

theorem Sound.resolve (h : w.Sound) {call : Nat} (hpending : w.state.pending = some call)
    (hcall : w.Fulfilled call) :
    Sound { w with state := .reset (w.state.phase.resolved (.ok ())) } := by
  have hne : w.state.pending ≠ none := by rw [hpending]; nofun
  refine ⟨?_, nofun, fun _ other hlt _ => ?_, h.accepted, fun other method hother => ?_, h.aborting⟩
  · obtain hphase | hphase := h.held.mp hne <;>
      simp [hphase, WriterState.reset, WriterPhase.resolved]
  · by_cases heq : other = call
    · exact heq ▸ hcall
    · refine h.fulfilled (h.live hne) other hlt ?_
      rw [hpending]
      exact fun hsame => heq (Option.some.inj hsame).symm
  · have hlast := (h.threw other method hother).1
    have hsame : other = call := by
      have := h.last call hpending
      omega
    simp [Fulfilled, ← hsame, hother] at hcall

theorem Move.sound (hmove : Move w w') (h : w.Sound) : w'.Sound := by
  cases hmove with
  | settle call method settlement hcall => exact h.settle hcall
  | resolve call hpending hcall => exact h.resolve hpending hcall
  | fail => exact h.reset (Or.inl rfl) rfl rfl rfl h.aborting
  | write chunk settlement hphase =>
      exact h.call hphase (Or.inl ⟨rfl, Or.inl rfl, Option.some_ne_none _⟩) rfl rfl h.aborting
  | close settlement hphase =>
      exact h.call hphase (Or.inl ⟨rfl, Or.inr rfl, Option.some_ne_none _⟩) rfl
        (List.append_nil _).symm h.aborting
  | throw method hphase =>
      exact h.call hphase (Or.inr rfl) rfl (List.append_nil _).symm h.aborting
  | release => exact h.reset (Or.inr (Or.inl rfl)) rfl rfl rfl h.aborting
  | abort => exact h.reset (Or.inl rfl) rfl rfl rfl fun _ => rfl
  | aborted haborting =>
      exact h.reset (Or.inr (Or.inr ⟨rfl, h.aborting haborting⟩)) rfl rfl rfl nofun
  | resume => exact ⟨h.held, h.last, h.fulfilled, h.accepted, h.threw, nofun⟩

theorem Moves.sound (hmoves : Moves w w') (h : w.Sound) : w'.Sound := by
  induction hmoves with
  | refl => exact h
  | tail _ hmove ih => exact hmove.sound ih

/-- A writer that has given up makes no more calls, and has given up for good. -/
theorem Move.silent (hmove : Move w w') (h : w.Over) :
    w'.Over ∧ w'.calls.map SinkCall.method = w.calls.map SinkCall.method := by
  obtain ⟨hopened, hwriting⟩ := h
  have hreset : ∀ {phase : WriterPhase}, phase = .failed ∨ phase = .closed ∨ phase = .released →
      phase ≠ .opened ∧ phase ≠ .writing := by
    rintro phase (rfl | rfl | rfl) <;> exact ⟨nofun, nofun⟩
  cases hmove with
  | settle call method settlement hcall =>
      refine ⟨⟨hopened, hwriting⟩, List.ext_getElem? fun other => ?_⟩
      rw [List.getElem?_map, List.getElem?_map, List.getElem?_set]
      by_cases heq : call = other
      · subst other
        rw [if_pos rfl, if_pos (List.getElem?_eq_some_iff.mp hcall).1, hcall]
        rfl
      · rw [if_neg heq]
  | resolve call hpending hcall =>
      refine ⟨?_, rfl⟩
      simp only [Over, WriterState.reset]
      cases hphase : w.state.phase <;> simp_all [WriterPhase.resolved]
  | fail => exact ⟨hreset (Or.inl rfl), rfl⟩
  | write chunk settlement hphase => exact absurd hphase hopened
  | close settlement hphase => exact absurd hphase hopened
  | throw method hphase => exact absurd hphase hopened
  | release => exact ⟨hreset (Or.inr (Or.inr rfl)), rfl⟩
  | abort => exact ⟨hreset (Or.inl rfl), rfl⟩
  | aborted haborting => exact ⟨hreset (Or.inr (Or.inl rfl)), rfl⟩
  | resume => exact ⟨⟨hopened, hwriting⟩, rfl⟩

theorem Moves.silent (hmoves : Moves w w') (h : w.Over) :
    w'.Over ∧ w'.calls.map SinkCall.method = w.calls.map SinkCall.method := by
  induction hmoves with
  | refl => exact ⟨h, rfl⟩
  | tail _ hmove ih =>
      obtain ⟨hover, hcalls⟩ := hmove.silent ih.1
      exact ⟨hover, hcalls.trans ih.2⟩

theorem Sound.pollClose_moves (h : w.Sound) {answer closing result : Poll Unit}
    {close : MethodAnswer} (hrun : w.pollClose answer close closing = some (result, w')) :
    Moves w w' := by
  unfold pollClose at hrun
  split at hrun
  · obtain ⟨-, rfl⟩ := Prod.mk.inj (Option.some.inj hrun)
    exact .refl
  · obtain ⟨-, rfl⟩ := Prod.mk.inj (Option.some.inj hrun)
    exact .refl
  · obtain ⟨-, rfl⟩ := Prod.mk.inj (Option.some.inj hrun)
    exact .refl
  · exact (poll_moves hrun).1
  · next hphase =>
      split at hrun
      · next written hpoll =>
          obtain ⟨hmoves, hstate⟩ := poll_moves hpoll
          have hopened : written.state.phase = .opened := by
            rw [hstate rfl (h.held.mpr (Or.inl hphase)), hphase]
            rfl
          exact hmoves.trans (callClose_moves hopened hrun)
      · exact (poll_moves hrun).1
  · next hphase => exact callClose_moves hphase hrun

theorem settle_moves {call : Nat} {settlement : Settlement}
    (h : w.settle call settlement = some w') : Moves w w' := by
  unfold settle at h
  split at h
  · next method hcall =>
      obtain rfl := Option.some.inj h
      exact (Move.settle call method settlement hcall).moves
  · cases h

theorem releaseLock_moves (answer : Except Error Unit) : Moves w (w.releaseLock answer) :=
  match answer with
  | .ok () => Move.release.moves
  | .error _ => .refl

theorem abort_moves (answer : Except Error Unit) : Moves w (w.abort answer) :=
  match answer with
  | .ok () => Move.abort.moves
  | .error _ => .refl

theorem resumeAbort_moves (haborting : w.aborting = true) (answer : Poll Unit) :
    Moves w (w.resumeAbort answer) :=
  match answer with
  | none => .refl
  | some (.ok ()) => (Move.aborted haborting).moves
  | some (.error _) => Move.resume.moves

/-- **What a step can do.** Each is a sequence of moves. -/
theorem Sound.step_moves (h : w.Sound) {e : Event C} (hstep : w.step e = some w') : Moves w w' := by
  cases e with
  | settle call settlement => exact settle_moves hstep
  | resumeAbort answer =>
      obtain ⟨haborting, hrun⟩ := Option.ite_none_right_eq_some.mp hstep
      exact Option.some.inj hrun ▸ resumeAbort_moves haborting answer
  | dropAbort =>
      obtain ⟨-, hrun⟩ := Option.ite_none_right_eq_some.mp hstep
      exact Option.some.inj hrun ▸ Move.resume.moves
  | pollReady answer =>
      obtain ⟨-, hrun⟩ := Option.ite_none_left_eq_some.mp hstep
      obtain ⟨⟨result, w'⟩, hpoll, rfl⟩ := Option.map_eq_some_iff.mp hrun
      exact pollReady_moves hpoll
  | startSend chunk answer =>
      obtain ⟨-, hrun⟩ := Option.ite_none_left_eq_some.mp hstep
      exact Option.some.inj hrun ▸ startSend_moves chunk answer
  | pollFlush answer =>
      obtain ⟨-, hrun⟩ := Option.ite_none_left_eq_some.mp hstep
      obtain ⟨⟨result, w'⟩, hpoll, rfl⟩ := Option.map_eq_some_iff.mp hrun
      exact pollFlush_moves hpoll
  | pollClose answer close closing =>
      obtain ⟨-, hrun⟩ := Option.ite_none_left_eq_some.mp hstep
      obtain ⟨⟨result, w'⟩, hpoll, rfl⟩ := Option.map_eq_some_iff.mp hrun
      exact h.pollClose_moves hpoll
  | releaseLock answer =>
      obtain ⟨-, hrun⟩ := Option.ite_none_left_eq_some.mp hstep
      exact Option.some.inj hrun ▸ releaseLock_moves answer
  | abort answer =>
      obtain ⟨-, hrun⟩ := Option.ite_none_left_eq_some.mp hstep
      exact Option.some.inj hrun ▸ abort_moves answer

def writes (w : Writer C) : List C := w.calls.filterMap SinkCall.chunk

/-- What a sink promises, at one moment of a run. -/
structure Correct (w : Writer C) : Prop where
  held : w.state.pending ≠ none ↔ w.state.phase = .writing ∨ w.state.phase = .closing
  tracked : w.Live → ∀ call < w.calls.length, ¬w.Fulfilled call → w.state.pending = some call
  passed : ∃ refused, w.writes = w.accepted ++ refused ∧ refused.length ≤ 1 ∧
    (refused ≠ [] → w.Over)
  flushed : ∀ answer w', w.pollFlush answer = some (some (.ok ()), w') → w.aborted = false →
    ∀ call < w.calls.length, w.Fulfilled call
  silent : w.Over → ∀ events w', (machine C).run w events = some w' →
    w'.calls.map SinkCall.method = w.calls.map SinkCall.method

theorem Sound.run (h : w.Sound) {events : List (Event C)}
    (hrun : (machine C).run w events = some w') : Moves w w' := by
  induction events generalizing w with
  | nil => exact Option.some.inj hrun ▸ .refl
  | cons e events ih =>
      obtain ⟨middle, hstep, hrest⟩ := Machine.run_cons_eq_some.mp hrun
      have hmoves := h.step_moves hstep
      exact hmoves.trans (ih (hmoves.sound h) hrest)

theorem filterMap_chunk {calls : List (SinkCall C)} (h : ∀ call ∈ calls, call.promise ≠ none) :
    calls.filterMap SinkCall.chunk = calls.filterMap SinkCall.taken := by
  refine List.filterMap_congr fun call hmem => ?_
  obtain ⟨settlement, hpromise⟩ := Option.ne_none_iff_exists'.mp (h call hmem)
  rw [SinkCall.taken, hpromise, Option.bind_some]

theorem Sound.passed (h : w.Sound) : ∃ refused, w.writes = w.accepted ++ refused ∧
    refused.length ≤ 1 ∧ (refused ≠ [] → w.Over) := by
  rw [writes, ← h.accepted]
  have hthrew := h.threw
  generalize w.calls = calls at hthrew
  induction calls using List.reverseRecOn with
  | nil => exact ⟨[], rfl, Nat.zero_le _, fun hne => absurd rfl hne⟩
  | append_singleton calls last _ =>
      have hgiven : ∀ call ∈ calls, call.promise ≠ none := by
        intro call hmem hnone
        obtain ⟨k, hk⟩ := List.mem_iff_getElem?.mp hmem
        have hlt := (List.getElem?_eq_some_iff.mp hk).1
        have hlast := (hthrew k call.method (by rw [List.getElem?_append_left hlt, hk, ← hnone])).1
        rw [List.length_append, List.length_singleton] at hlast
        omega
      rw [List.filterMap_append, List.filterMap_append, filterMap_chunk hgiven]
      simp only [List.append_assoc, List.append_cancel_left_eq]
      cases hpromise : last.promise with
      | some settlement =>
          refine ⟨[], ?_, Nat.zero_le _, fun hne => absurd rfl hne⟩
          rw [List.append_nil]
          refine filterMap_chunk ?_
          intro call hmem
          rw [List.mem_singleton.mp hmem, hpromise]
          exact Option.some_ne_none _
      | none =>
          have htaken : [last].filterMap SinkCall.taken = [] := by
            simp [SinkCall.taken, hpromise]
          refine ⟨[last].filterMap SinkCall.chunk, by rw [htaken, List.nil_append],
            List.length_filterMap_le _ _, fun _ => ?_⟩
          refine (hthrew calls.length last.method ?_).2
          rw [List.getElem?_concat_length, ← hpromise]

theorem Sound.flushed (h : w.Sound) {answer : Poll Unit}
    (hrun : w.pollFlush answer = some (some (.ok ()), w')) (haborted : w.aborted = false) :
    ∀ call < w.calls.length, w.Fulfilled call := by
  have hidle : w.state.pending = none → w.Live → ∀ call < w.calls.length, w.Fulfilled call := by
    intro hnone hlive call hlt
    exact h.fulfilled hlive call hlt (by rw [hnone]; exact (Option.some_ne_none call).symm)
  have hpolled : w.state.phase = .writing ∨ w.state.phase = .closing →
      w.poll answer = some (some (.ok ()), w') → ∀ call < w.calls.length, w.Fulfilled call := by
    intro hphase hpoll call hlt
    have hne := h.held.mpr hphase
    by_cases hpending : w.state.pending = some call
    · exact fulfilled_of_poll hpoll hpending
    · exact h.fulfilled (h.live hne) call hlt hpending
  have hnone : w.state.phase ≠ .writing → w.state.phase ≠ .closing → w.state.pending = none := by
    intro hwriting hclosing
    by_contra hne
    exact (h.held.mp hne).elim hwriting hclosing
  unfold pollFlush at hrun
  split at hrun
  · next hphase => exact hpolled (Or.inl hphase) hrun
  · next hphase => exact hpolled (Or.inr hphase) hrun
  · cases hrun
  · cases hrun
  · next hwriting hclosing hfailed hreleased =>
      exact hidle (hnone hwriting hclosing) ⟨hfailed, hreleased, fun _ => haborted⟩

theorem Sound.correct (h : w.Sound) : w.Correct where
  held := h.held
  tracked := by
    intro hlive call hlt hopen
    by_contra hne
    exact hopen (h.fulfilled hlive call hlt hne)
  passed := h.passed
  flushed := fun _ _ hrun haborted => h.flushed hrun haborted
  silent := fun hover _ _ hrun => ((h.run hrun).silent hover).2

/-- **The writer is a correct sink**, whatever the host does with it and the guest's stream does. -/
theorem throughout_correct (events : List (Event C)) : (machine C).Throughout Correct new events := by
  have hsound := Machine.throughout_of_invariant (M := machine C)
    (fun w e w' h hstep => (h.step_moves hstep).sound h) sound_new events
  exact hsound.mono fun w h => h.correct

example : ((machine Nat).run new
    [.startSend 7 (.promised .unsettled), .pollFlush none, .settle 0 .fulfilled,
      .pollClose (some (.ok ())) (.promised .fulfilled) (some (.ok ())),
      .startSend 8 (.promised .unsettled)]).map (fun w => (w.state.phase, w.writes)) =
    some (.closed, [7]) := by decide

end Writer

end GuestJs
