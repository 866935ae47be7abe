import GuestJs.Host.SharedStream
import Mathlib.Data.List.GetD

/-!
# Streams are served in call order

The calls of a shared stream split at every moment into those that are complete, at most one whose
turn it is, and those that wait. What the inner stream has given is held by the calls of the same
numbers, because it is only polled by the call whose turn it is.
-/

namespace GuestJs

open Transition

namespace SharedStream

variable {T : Type} {s t : SharedStream T} {call : Nat} {c d : NextCall T}

/-- The call whose receiver the future of this one awaits. -/
def previous : Nat → Option Nat
  | 0 => none
  | call + 1 => some call

/-- The futures of all calls before this one are complete. -/
def Turn (s : SharedStream T) (call : Nat) : Prop := ∀ j < call, s.Finished j

structure Chained (s : SharedStream T) : Prop where
  turn : s.turn = previous s.calls.length
  waits : ∀ k p, s.calls[k]? = some (.waiting p) → p = previous k
  started : ∀ k c, s.calls[k]? = some c → (∀ p, c ≠ .waiting p) → s.Turn k
  kept : ∀ k : Nat, s.calls[k]? ≠ some .dropped

structure Recorded (s : SharedStream T) : Prop where
  received : ∀ k c step, s.calls[k]? = some c → c.result = some step →
    step = s.outcomes.getD k none
  unanswered : ∀ k c, s.calls[k]? = some c → c.result = none → s.outcomes.length ≤ k
  bounded : s.outcomes.length ≤ s.calls.length
  opened : s.stream = true → (∀ step ∈ s.outcomes, step.isItem = true) ∧
    ∀ k c step, s.calls[k]? = some c → c.result = some step → k < s.outcomes.length ∧ c.isDone
  ended : s.stream = false → s.closed = true ∨ ∃ step ∈ s.outcomes, step.isItem = false
  items : ∀ k step, s.outcomes[k]? = some step → k + 1 < s.outcomes.length → step.isItem = true

structure Lent (s : SharedStream T) : Prop where
  lent : s.borrowed = true ↔ ∃ k : Nat, s.calls[k]? = some .polling
  present : s.borrowed = true → s.stream = true
  calm : s.panicked = false

structure Ordered (s : SharedStream T) : Prop where
  chained : s.Chained
  recorded : s.Recorded
  lent : s.Lent

theorem ordered_new : Ordered (new : SharedStream T) := by
  refine ⟨⟨?_, ?_, ?_, ?_⟩, ⟨?_, ?_, ?_, ?_, ?_, ?_⟩, ⟨?_, ?_, ?_⟩⟩ <;> simp [new, previous]

theorem getElem?_set_of (hc : s.calls[call]? = some c) (hset : t.calls = s.calls.set call d)
    (j : Nat) : t.calls[j]? = if j = call then some d else s.calls[j]? := by
  have hlt : call < s.calls.length := (List.getElem?_eq_some_iff.mp hc).1
  rw [hset, List.getElem?_set]
  by_cases heq : call = j
  · rw [if_pos heq, if_pos (heq ▸ hlt), if_pos heq.symm]
  · rw [if_neg heq, if_neg (Ne.symm heq)]

/-- A call after the change is the changed one, or one there was. -/
theorem cases_of_set (hc : s.calls[call]? = some c) (hset : t.calls = s.calls.set call d) {j : Nat}
    {after : NextCall T} (h : t.calls[j]? = some after) :
    (j = call ∧ after = d) ∨ (j ≠ call ∧ s.calls[j]? = some after) := by
  rw [getElem?_set_of hc hset] at h
  by_cases heq : j = call
  · rw [if_pos heq] at h
    exact Or.inl ⟨heq, (Option.some.inj h).symm⟩
  · rw [if_neg heq] at h
    exact Or.inr ⟨heq, h⟩

theorem Chained.isTurn (h : s.Chained) {p : Option Nat} (hc : s.calls[call]? = some (.waiting p))
    (hp : s.isTurn p = true) : s.Turn call := by
  obtain rfl := h.waits call p hc
  intro j hj
  cases call with
  | zero => omega
  | succ call =>
      have hfinished : s.Finished call := by
        have hlt : call + 1 < s.calls.length := (List.getElem?_eq_some_iff.mp hc).1
        have hprevious := h.kept call
        simp only [previous, SharedStream.isTurn] at hp
        cases hcall : s.calls[call]? with
        | none => simp [hcall] at hp
        | some c =>
            cases c with
            | finished step => exact ⟨step, hcall⟩
            | _ => simp_all [NextCall.isDone]
      obtain ⟨step, hstep⟩ := hfinished
      by_cases heq : j = call
      · exact heq ▸ ⟨step, hstep⟩
      · exact h.started call _ hstep (by simp) j (by omega)

/-- After a call that has not completed there are only calls that wait. -/
theorem Chained.waiting_of_lt (h : s.Chained) (hc : s.calls[call]? = some c)
    (hopen : c.isDone = false) {j : Nat} (hj : call < j) (hc' : s.calls[j]? = some d) :
    ∃ p, d = .waiting p := by
  by_contra hnot
  obtain ⟨step, hstep⟩ := h.started j d hc' (fun p hp => hnot ⟨p, hp⟩) call hj
  obtain rfl : c = .finished step := Option.some.inj (hc.symm.trans hstep)
  simp [NextCall.isDone] at hopen

/-- No call but the one whose turn it is can be inside the inner stream. -/
theorem Chained.not_polling (h : s.Chained) (hc : s.calls[call]? = some c)
    (hopen : c.isDone = false) (hturn : s.Turn call) {k : Nat} (hk : k ≠ call) :
    s.calls[k]? ≠ some .polling := by
  intro hpolling
  obtain hlt | hlt := Nat.lt_or_gt_of_ne hk
  · obtain ⟨step, hstep⟩ := hturn k hlt
    simp [hpolling] at hstep
  · obtain ⟨p, hp⟩ := h.waiting_of_lt hc hopen hlt hpolling
    simp at hp

/-- The call whose turn it is may go on in any way but to give up. -/
theorem Chained.set (h : s.Chained) (hc : s.calls[call]? = some c) (hopen : c.isDone = false)
    (hturn : s.Turn call) (hwait : ∀ p, d ≠ .waiting p) (hdropped : d ≠ .dropped)
    (hset : t.calls = s.calls.set call d) (hsame : t.turn = s.turn) : t.Chained := by
  have hlength : t.calls.length = s.calls.length := by rw [hset, List.length_set]
  constructor
  · rw [hsame, hlength, h.turn]
  · intro k p hk
    obtain ⟨-, heq⟩ | ⟨-, hk⟩ := cases_of_set hc hset hk
    · exact absurd heq.symm (hwait p)
    · exact h.waits k p hk
  · intro k after hk hafter j hj
    have hbefore : s.Turn k := by
      obtain ⟨rfl, -⟩ | ⟨-, hk⟩ := cases_of_set hc hset hk
      · exact hturn
      · exact h.started k after hk hafter
    obtain ⟨step, hstep⟩ := hbefore j hj
    have hne : j ≠ call := by
      rintro rfl
      obtain rfl : c = .finished step := Option.some.inj (hc.symm.trans hstep)
      simp [NextCall.isDone] at hopen
    exact ⟨step, by rw [getElem?_set_of hc hset, if_neg hne, hstep]⟩
  · intro k hk
    obtain ⟨-, heq⟩ | ⟨-, hk⟩ := cases_of_set hc hset hk
    · exact hdropped heq.symm
    · exact h.kept k hk

/-- While the inner stream is there, the call whose turn it is has the outcomes of the calls before
it behind it and no more. -/
theorem Recorded.length_outcomes (h : s.Recorded) (hstream : s.stream = true)
    (hc : s.calls[call]? = some c) (hresult : c.result = none) (hturn : s.Turn call) :
    s.outcomes.length = call := by
  have hle := h.unanswered call c hc hresult
  cases call with
  | zero => omega
  | succ call =>
      obtain ⟨step, hstep⟩ := hturn call (by omega)
      have hlt := ((h.opened hstream).2 call _ step hstep (by simp [NextCall.result])).1
      omega

/-- After a new call there is what there was, and the call, which waits. -/
theorem cases_of_append {p : Option Nat} {j : Nat} {after : NextCall T}
    (h : (s.calls ++ [.waiting p])[j]? = some after) :
    (j = s.calls.length ∧ after = .waiting p) ∨ s.calls[j]? = some after := by
  by_cases hlt : j < s.calls.length
  · rw [List.getElem?_append_left hlt] at h
    exact Or.inr h
  · rw [List.getElem?_append_right (Nat.le_of_not_lt hlt), List.getElem?_singleton] at h
    split at h
    next hj => exact Or.inl ⟨by omega, (Option.some.inj h).symm⟩
    next => cases h

theorem Ordered.next (h : s.Ordered) :
    Ordered { s with turn := some s.calls.length, calls := s.calls ++ [.waiting s.turn] } := by
  have hkeep : ∀ {k : Nat} {c : NextCall T}, s.calls[k]? = some c →
      (s.calls ++ [.waiting s.turn])[k]? = some c := by
    intro k c hk
    rw [List.getElem?_append_left (List.getElem?_eq_some_iff.mp hk).1, hk]
  refine ⟨⟨?_, ?_, ?_, ?_⟩, ⟨?_, ?_, ?_, ?_, h.recorded.ended, h.recorded.items⟩,
    ⟨?_, h.lent.present, h.lent.calm⟩⟩
  · rw [List.length_append, List.length_singleton]
    rfl
  · intro k p hk
    obtain ⟨rfl, heq⟩ | hk := cases_of_append hk
    · rw [NextCall.waiting.inj heq, h.chained.turn]
    · exact h.chained.waits k p hk
  · intro k c hk hc j hj
    obtain ⟨-, rfl⟩ | hk := cases_of_append hk
    · exact absurd rfl (hc s.turn)
    · obtain ⟨step, hstep⟩ := h.chained.started k c hk hc j hj
      exact ⟨step, hkeep hstep⟩
  · intro k hk
    obtain ⟨-, heq⟩ | hk := cases_of_append hk
    · cases heq
    · exact h.chained.kept k hk
  · intro k c step hk hstep
    obtain ⟨-, rfl⟩ | hk := cases_of_append hk
    · cases hstep
    · exact h.recorded.received k c step hk hstep
  · intro k c hk hnone
    obtain ⟨rfl, -⟩ | hk := cases_of_append hk
    · exact h.recorded.bounded
    · exact h.recorded.unanswered k c hk hnone
  · rw [List.length_append]
    exact Nat.le_add_right_of_le h.recorded.bounded
  · intro hstream
    refine ⟨(h.recorded.opened hstream).1, fun k c step hk hstep => ?_⟩
    obtain ⟨-, rfl⟩ | hk := cases_of_append hk
    · cases hstep
    · exact (h.recorded.opened hstream).2 k c step hk hstep
  · rw [h.lent.lent]
    constructor
    · rintro ⟨k, hk⟩
      exact ⟨k, hkeep hk⟩
    · rintro ⟨k, hk⟩
      obtain ⟨-, heq⟩ | hk := cases_of_append hk
      · cases heq
      · exact ⟨k, hk⟩

theorem Ordered.close (h : s.Ordered) (hfree : ¬ s.borrowed = true) :
    Ordered { s with stream := false, closed := true } := by
  obtain ⟨⟨hturn, hwaits, hstarted, hkept⟩, ⟨hreceived, hunanswered, hbounded, -, -, hitems⟩,
    ⟨hlent, -, hcalm⟩⟩ := h
  refine ⟨⟨hturn, hwaits, hstarted, hkept⟩,
    ⟨hreceived, hunanswered, hbounded, ?_, ?_, hitems⟩, ⟨hlent, ?_, hcalm⟩⟩
  · simp
  · simp
  · exact fun hborrowed => absurd hborrowed hfree

section Receive

variable (s : SharedStream T) (call : Nat) (step : StreamStep T)

theorem calls_receive : (s.receive call step).calls =
    s.calls.set call (if step.isItem then .finished step else .releasing step) := by
  by_cases hitem : step.isItem = true <;> simp [receive, hitem, setCall]

theorem outcomes_receive : (s.receive call step).outcomes = s.outcomes ++ [step] := by
  by_cases hitem : step.isItem = true <;> simp [receive, hitem, setCall]

@[simp]
theorem borrowed_receive : (s.receive call step).borrowed = false := by
  by_cases hitem : step.isItem = true <;> simp [receive, hitem, setCall]

theorem stream_receive : (s.receive call step).stream = (step.isItem && s.stream) := by
  by_cases hitem : step.isItem = true <;> simp [receive, hitem, setCall]

@[simp]
theorem turn_receive : (s.receive call step).turn = s.turn := by
  by_cases hitem : step.isItem = true <;> simp [receive, hitem, setCall]

@[simp]
theorem panicked_receive : (s.receive call step).panicked = s.panicked := by
  by_cases hitem : step.isItem = true <;> simp [receive, hitem, setCall]

end Receive

section Moves

variable (hc : s.calls[call]? = some c) (hopen : c.isDone = false) (hturn : s.Turn call)
include hc

/-- The future moves on with the outcome it has, or still without one. -/
theorem Recorded.set (h : s.Recorded) (hresult : d.result = c.result)
    (hdone : c.isDone = true → d.isDone = true) (hset : t.calls = s.calls.set call d)
    (houtcomes : t.outcomes = s.outcomes) (hstream : t.stream = s.stream)
    (hclosed : t.closed = s.closed) : t.Recorded := by
  have hlength : t.calls.length = s.calls.length := by rw [hset, List.length_set]
  refine ⟨?_, ?_, ?_, ?_, ?_, ?_⟩
  · intro k after step hk hstep
    rw [houtcomes]
    obtain ⟨rfl, rfl⟩ | ⟨-, hk⟩ := cases_of_set hc hset hk
    · exact h.received k c step hc (hresult ▸ hstep)
    · exact h.received k after step hk hstep
  · intro k after hk hnone
    rw [houtcomes]
    obtain ⟨rfl, rfl⟩ | ⟨-, hk⟩ := cases_of_set hc hset hk
    · exact h.unanswered k c hc (hresult ▸ hnone)
    · exact h.unanswered k after hk hnone
  · rw [houtcomes, hlength]
    exact h.bounded
  · intro hopened
    rw [hstream] at hopened
    rw [houtcomes]
    refine ⟨(h.opened hopened).1, fun k after step hk hstep => ?_⟩
    obtain ⟨rfl, rfl⟩ | ⟨-, hk⟩ := cases_of_set hc hset hk
    · exact ((h.opened hopened).2 k c step hc (hresult ▸ hstep)).imp_right hdone
    · exact (h.opened hopened).2 k after step hk hstep
  · rw [hstream, houtcomes, hclosed]
    exact h.ended
  · rw [houtcomes]
    exact h.items

theorem Recorded.finish (h : s.Recorded) (hresult : c.result = none) (hstream : s.stream = false) :
    (s.setCall call (.finished none)).Recorded := by
  have hset : (s.setCall call (.finished none)).calls = s.calls.set call (.finished none) := rfl
  refine ⟨?_, ?_, ?_, ?_, h.ended, h.items⟩
  · intro k after step hk hstep
    obtain ⟨rfl, rfl⟩ | ⟨-, hk⟩ := cases_of_set hc hset hk
    · obtain rfl : none = step := Option.some.inj hstep
      exact (List.getD_eq_default _ _ (h.unanswered k c hc hresult)).symm
    · exact h.received k after step hk hstep
  · intro k after hk hnone
    obtain ⟨rfl, rfl⟩ | ⟨-, hk⟩ := cases_of_set hc hset hk
    · cases hnone
    · exact h.unanswered k after hk hnone
  · rw [hset, List.length_set]
    exact h.bounded
  · intro hopened
    exact absurd (hopened.symm.trans hstream) (by simp)

include hturn in
/-- The new outcome is the last, and the call is the one of its number. -/
theorem Recorded.receive (h : s.Recorded) (hresult : c.result = none) (hstream : s.stream = true)
    (step : StreamStep T) : (s.receive call step).Recorded := by
  have hset := calls_receive s call step
  have hlast : s.outcomes.length = call := h.length_outcomes hstream hc hresult hturn
  have hlt : call < s.calls.length := (List.getElem?_eq_some_iff.mp hc).1
  have hgiven : (if step.isItem then NextCall.finished step else .releasing step).result =
      some step := by split <;> rfl
  obtain ⟨hitems, hearlier⟩ := h.opened hstream
  refine ⟨?_, ?_, ?_, ?_, ?_, ?_⟩
  · intro k after step' hk hstep'
    rw [outcomes_receive]
    obtain ⟨rfl, rfl⟩ | ⟨-, hk⟩ := cases_of_set hc hset hk
    · rw [hgiven] at hstep'
      rw [← hlast, List.getD_append_right _ _ _ _ (Nat.le_refl _), Nat.sub_self]
      exact (Option.some.inj hstep').symm
    · rw [List.getD_append _ _ _ _ (hearlier k after step' hk hstep').1]
      exact h.received k after step' hk hstep'
  · intro k after hk hnone
    rw [outcomes_receive, List.length_append, List.length_singleton]
    obtain ⟨rfl, rfl⟩ | ⟨hne, hk⟩ := cases_of_set hc hset hk
    · rw [hgiven] at hnone
      cases hnone
    · have hle := h.unanswered k after hk hnone
      omega
  · rw [hset, List.length_set, outcomes_receive, List.length_append, List.length_singleton]
    omega
  · intro hopened
    rw [stream_receive, Bool.and_eq_true] at hopened
    rw [outcomes_receive, List.length_append, List.length_singleton]
    refine ⟨fun step' hmem => ?_, fun k after step' hk hstep' => ?_⟩
    · obtain hmem | hmem := List.mem_append.mp hmem
      · exact hitems step' hmem
      · rw [List.mem_singleton.mp hmem, hopened.1]
    · obtain ⟨rfl, rfl⟩ | ⟨-, hk⟩ := cases_of_set hc hset hk
      · rw [if_pos hopened.1]
        exact ⟨by omega, rfl⟩
      · obtain ⟨hk', hdone⟩ := hearlier k after step' hk hstep'
        exact ⟨by omega, hdone⟩
  · intro hgone
    rw [stream_receive, hstream, Bool.and_true] at hgone
    refine Or.inr ⟨step, ?_, hgone⟩
    rw [outcomes_receive]
    exact List.mem_append_right _ List.mem_cons_self
  · intro k step' hk hlater
    rw [outcomes_receive, List.length_append, List.length_singleton] at hlater
    rw [outcomes_receive, List.getElem?_append_left (by omega)] at hk
    exact hitems step' (List.mem_of_getElem? hk)

include hopen hturn

theorem Ordered.lent_set (h : s.Ordered) (hset : t.calls = s.calls.set call d)
    (hborrowed : t.borrowed = true ↔ d = .polling) (hstream : t.borrowed = true → t.stream = true)
    (hcalm : t.panicked = s.panicked) : t.Lent := by
  have halone := @Chained.not_polling T s call c h.chained hc hopen hturn
  refine ⟨?_, hstream, hcalm.trans h.lent.calm⟩
  rw [hborrowed]
  constructor
  · intro hpolling
    exact ⟨call, by rw [getElem?_set_of hc hset, if_pos rfl, hpolling]⟩
  · rintro ⟨k, hk⟩
    obtain ⟨-, heq⟩ | ⟨hne, hk⟩ := cases_of_set hc hset hk
    · exact heq.symm
    · exact absurd hk (halone hne)

theorem Ordered.not_borrowed (h : s.Ordered) (hpolling : c ≠ .polling) : ¬ s.borrowed = true := by
  intro hborrowed
  obtain ⟨k, hk⟩ := h.lent.lent.mp hborrowed
  have hsame : k = call := by
    by_contra hne
    exact h.chained.not_polling hc hopen hturn hne hk
  subst hsame
  exact hpolling (Option.some.inj (hc.symm.trans hk))

theorem Ordered.receive (h : s.Ordered) (hpolling : c = .polling) (step : StreamStep T) :
    (s.receive call step).Ordered := by
  have hborrowed : s.borrowed = true := h.lent.lent.mpr ⟨call, hpolling ▸ hc⟩
  have hresult : c.result = none := by rw [hpolling]; rfl
  have hcalls := calls_receive s call step
  refine ⟨h.chained.set hc hopen hturn ?_ ?_ hcalls (by simp),
    h.recorded.receive hc hturn hresult (h.lent.present hborrowed) step,
    h.lent_set hc hopen hturn hcalls ?_ (by simp) (by simp)⟩
  · split <;> simp
  · split <;> simp
  · split <;> simp

/-- The future whose turn it is goes on: it enters the inner stream, or ends with `None` if that is
gone. -/
theorem Ordered.enter (h : s.Ordered) (hresult : c.result = none) (hpolling : c ≠ .polling) :
    (s.enter call).Ordered := by
  have hfree := h.not_borrowed hc hopen hturn hpolling
  rw [SharedStream.enter, if_neg hfree]
  by_cases hstream : s.stream = true
  · rw [if_pos hstream]
    refine ⟨h.chained.set hc hopen hturn (by simp) (by simp) rfl rfl,
      h.recorded.set hc (d := .polling) hresult.symm (by simp [hopen]) rfl rfl rfl rfl,
      h.lent_set hc hopen hturn (d := .polling) rfl ?_ ?_ rfl⟩
    · simp
    · exact fun _ => hstream
  · rw [if_neg hstream]
    refine ⟨h.chained.set hc hopen hturn (by simp) (by simp) rfl rfl,
      h.recorded.finish hc hresult (by simpa using hstream),
      h.lent_set hc hopen hturn (d := .finished none) rfl ?_ ?_ rfl⟩
    · simpa [setCall] using hfree
    · exact h.lent.present

end Moves

theorem Ordered.step_invariant (h : s.Ordered) (e : Event T) (hawaited : s.Awaited e)
    (hstep : s.step e = some t) : t.Ordered := by
  cases happens hstep with
  | next => exact h.next
  | turn hcall hturn => exact h.enter hcall rfl (h.chained.isTurn hcall hturn) rfl (by simp)
  | wait => exact h
  | @again call hcall =>
      have hturn := h.chained.started call _ hcall (by simp)
      exact h.enter hcall rfl hturn rfl (by simp)
  | @pending call hcall =>
      have hturn := h.chained.started call _ hcall (by simp)
      exact ⟨h.chained.set hcall rfl hturn (by simp) (by simp) rfl rfl,
        h.recorded.set hcall (d := .stepping) rfl (by simp [NextCall.isDone]) rfl rfl rfl rfl,
        h.lent_set hcall rfl hturn (d := .stepping) rfl (by simp) (by simp) rfl⟩
  | @ready call step hcall =>
      have hturn := h.chained.started call _ hcall (by simp)
      exact h.receive hcall rfl hturn rfl step
  | @release call step hcall =>
      have hturn := h.chained.started call _ hcall (by simp)
      refine ⟨h.chained.set hcall rfl hturn (by simp) (by simp) rfl rfl,
        h.recorded.set hcall (d := .finished step) rfl (by simp [NextCall.isDone]) rfl rfl rfl rfl,
        h.lent_set hcall rfl hturn (d := .finished step) rfl ?_ h.lent.present rfl⟩
      simpa [setCall] using h.not_borrowed hcall rfl hturn (by simp)
  | drop hcall => exact absurd hawaited hcall
  | dropFinished => exact h
  | refuse => exact h
  | close hfree => exact h.close hfree

/-- What holds of a shared stream at every moment: its calls are served in call order, each with the
outcome of its number. -/
structure Served (s : SharedStream T) : Prop where
  received : ∀ (call : Nat) step, s.calls[call]? = some (.finished step) →
    step = s.outcomes.getD call none
  taken : ∀ (call : Nat) step, s.outcomes[call]? = some step →
    s.calls[call]? = some (.finished step) ∨ s.calls[call]? = some (.releasing step)
  inOrder : ∀ call, s.Finished call → s.Turn call
  polled : ∀ call : Nat, s.calls[call]? = some .polling →
    s.Turn call ∧ s.outcomes.length = call ∧ ∀ step ∈ s.outcomes, step.isItem = true
  ended : ∀ (call : Nat) step, s.outcomes[call]? = some step → step.isItem = false →
    ∀ later step', call < later → s.calls[later]? = some (.finished step') → step' = none
  without : ∀ call, s.Finished call → s.outcomes.length ≤ call →
    s.closed = true ∨ ∃ step ∈ s.outcomes, step.isItem = false
  released : ∀ (call : Nat) c, s.calls[call]? = some c → s.Turn call →
    (c = .stepping ∨ ∃ previous, c = .waiting previous) →
      ∃ t, s.step (.poll call) = some t ∧ (t.calls[call]? = some .polling ∨ t.Finished call)
  calm : s.panicked = false

theorem eq_of_result {step : StreamStep T} (h : c.result = some step) :
    c = .finished step ∨ c = .releasing step := by
  cases c <;> simp_all [NextCall.result]

theorem Chained.isTurn_of_turn (h : s.Chained) {p : Option Nat}
    (hc : s.calls[call]? = some (.waiting p)) (hturn : s.Turn call) : s.isTurn p = true := by
  obtain rfl := h.waits call p hc
  cases call with
  | zero => rfl
  | succ call =>
      obtain ⟨step, hstep⟩ := hturn call (Nat.lt_succ_self call)
      simp [previous, SharedStream.isTurn, hstep, NextCall.isDone]

theorem Ordered.released (h : s.Ordered) (hc : s.calls[call]? = some c) (hturn : s.Turn call)
    (hrest : c = .stepping ∨ ∃ previous, c = .waiting previous) :
    ∃ t, s.step (.poll call) = some t ∧ (t.calls[call]? = some .polling ∨ t.Finished call) := by
  have hentered : (s.enter call).calls[call]? = some .polling ∨ (s.enter call).Finished call := by
    have hfree : ¬ s.borrowed = true := by
      obtain rfl | ⟨p, rfl⟩ := hrest
      · exact h.not_borrowed hc rfl hturn (by simp)
      · exact h.not_borrowed hc rfl hturn (by simp)
    rw [SharedStream.enter, if_neg hfree]
    split
    · exact .inl (by simp [getElem?_set_of (t := s.setCall call .polling) hc rfl])
    · exact .inr ⟨none, by simp [getElem?_set_of (t := s.setCall call (.finished none)) hc rfl]⟩
  refine ⟨s.enter call, ?_, hentered⟩
  obtain rfl | ⟨p, rfl⟩ := hrest
  · simp only [step, hc]
  · simp only [step, hc, h.chained.isTurn_of_turn hc hturn, if_true]

theorem Ordered.served (h : s.Ordered) : s.Served where
  received := fun call step hc => h.recorded.received call _ step hc rfl
  taken := by
    intro call step hstep
    have hlt : call < s.outcomes.length := (List.getElem?_eq_some_iff.mp hstep).1
    have hlt' : call < s.calls.length := Nat.lt_of_lt_of_le hlt h.recorded.bounded
    have hc := List.getElem?_eq_getElem hlt'
    cases hresult : s.calls[call].result with
    | none =>
        have hle := h.recorded.unanswered call _ hc hresult
        omega
    | some step' =>
        obtain rfl : step' = step := by
          have := h.recorded.received call _ step' hc hresult
          simpa [hstep] using this
        obtain hfinished | hreleasing := eq_of_result hresult
        · exact .inl (hfinished ▸ hc)
        · exact .inr (hreleasing ▸ hc)
  inOrder := by
    rintro call ⟨step, hc⟩
    exact h.chained.started call _ hc (by simp)
  polled := by
    intro call hc
    have hturn := h.chained.started call _ hc (by simp)
    have hstream := h.lent.present (h.lent.lent.mpr ⟨call, hc⟩)
    exact ⟨hturn, h.recorded.length_outcomes hstream hc rfl hturn, (h.recorded.opened hstream).1⟩
  ended := by
    intro call step hstep hitem later step' hlater hc
    have hlast : ¬ call + 1 < s.outcomes.length := by
      intro hlt
      simp [h.recorded.items call step hstep hlt] at hitem
    rw [h.recorded.received later _ step' hc rfl]
    exact List.getD_eq_default _ _ (by omega)
  without := by
    rintro call ⟨step, hc⟩ hle
    have hstream : s.stream = false := by
      by_contra hopen
      have hlt := ((h.recorded.opened (by simpa using hopen)).2 call _ step hc rfl).1
      omega
    exact h.recorded.ended hstream
  released := fun call c hc hturn hrest => h.released hc hturn hrest
  calm := h.lent.calm

end SharedStream

end GuestJs
