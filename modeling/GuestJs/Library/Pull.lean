import GuestJs.Library.Transition
import Mathlib.Data.List.Basic

/-!
# Pulling one answer at a time

A consumer asks a producer for answers, and keeps the question it awaits in a slot of its own: the
futures in which it waits come and go, and the answer stays. Its phase decides what it does when it is
asked, and moves on with every answer. Where a phase goes on after items and stops after anything
else, the consumer gets every answer once, in the order of the questions, and asks no more after the
first that is no item.
-/

namespace Pull

open Transition

/-- What the producer does when it is asked: it answers at once, or promises an answer. -/
inductive Asked (O : Type*) where
  | answered (answer : O)
  | promised (answer : O)

def Asked.answer {O : Type*} : Asked O → O
  | answered answer | promised answer => answer

/-- What a consumer gives without asking, and where an answer leads it. -/
structure Rules (Phase O : Type*) where
  stopped : Phase → Option O
  after : Phase → O → Phase

/-- A consumer with the answers its futures have given. At most one future borrows it, which has
not been polled (`false`) or waits (`true`). -/
structure Consumer (Phase O : Type*) where
  phase : Phase
  pending : Option Nat
  asked : Nat
  future : Option Bool
  received : List O

namespace Consumer

variable {Phase O : Type*} (rules : Rules Phase O) (producer : Nat → Asked O)

def new (phase : Phase) : Consumer Phase O := ⟨phase, none, 0, none, []⟩

/-- The future ends with what the consumer has. -/
def give (c : Consumer Phase O) (answer : O) : Consumer Phase O :=
  { c with future := none, received := c.received ++ [answer] }

def await (c : Consumer Phase O) (question : Nat) (ready : Bool) : Consumer Phase O :=
  match ready with
  | true =>
      { c with phase := rules.after c.phase (producer question).answer, pending := none }.give
        (producer question).answer
  | false => { c with future := some true }

/-- The first poll of a future. -/
def start (c : Consumer Phase O) (ready : Bool) : Consumer Phase O :=
  match rules.stopped c.phase, c.pending with
  | some answer, _ => c.give answer
  | none, some question => c.await rules producer question ready
  | none, none =>
      match producer c.asked with
      | .answered answer =>
          { c with phase := rules.after c.phase answer, asked := c.asked + 1 }.give answer
      | .promised _ =>
          { c with pending := some c.asked, asked := c.asked + 1 }.await rules producer c.asked ready

/-- `pollOnce` makes a future, polls it and drops it. -/
inductive Event where
  | create
  | poll (ready : Bool)
  | drop
  | pollOnce (ready : Bool)

def step (c : Consumer Phase O) : Event → Option (Consumer Phase O)
  | .create =>
      match c.future with
      | none => some { c with future := some false }
      | some _ => none
  | .poll ready =>
      match c.future, c.pending with
      | some false, _ => some (c.start rules producer ready)
      | some true, some question => some (c.await rules producer question ready)
      | _, _ => none
  | .drop =>
      match c.future with
      | some _ => some { c with future := none }
      | none => none
  | .pollOnce ready =>
      match c.future with
      | none => some { c.start rules producer ready with future := none }
      | some _ => none

def machine : Machine (Consumer Phase O) Event := ⟨step rules producer⟩

end Consumer

/-- A phase goes on after items, and after anything else it stops for good. -/
structure Rules.Lawful {Phase O : Type*} (rules : Rules Phase O) (isItem : O → Bool) (finished : O) :
    Prop where
  go : ∀ phase answer, rules.stopped phase = none → isItem answer = true →
    rules.stopped (rules.after phase answer) = none
  stop : ∀ phase answer, rules.stopped phase = none → isItem answer = false →
    rules.stopped (rules.after phase answer) = some finished

namespace Consumer

variable {Phase O : Type*} {rules : Rules Phase O} {producer : Nat → Asked O} {isItem : O → Bool}
  {finished : O} {c d : Consumer Phase O}

/-- How many questions have their answer. -/
def settled (c : Consumer Phase O) : Nat := c.pending.getD c.asked

def Ended (producer : Nat → Asked O) (isItem : O → Bool) (c : Consumer Phase O) : Prop :=
  ∃ question < c.settled, isItem (producer question).answer = false

/-- What holds of a consumer at every moment. -/
structure Sound (rules : Rules Phase O) (producer : Nat → Asked O) (isItem : O → Bool) (finished : O)
    (c : Consumer Phase O) : Prop where
  last : ∀ question, c.pending = some question → question + 1 = c.asked
  waits : c.future = some true → c.pending ≠ none
  going : rules.stopped c.phase = none →
    c.received = (List.range c.settled).map (fun question => (producer question).answer) ∧
      ∀ question < c.settled, isItem (producer question).answer = true
  stopped : ∀ answer, rules.stopped c.phase = some answer → answer = finished ∧ c.pending = none ∧
    (∃ idle, c.received = (List.range c.asked).map (fun question => (producer question).answer) ++
      List.replicate idle finished) ∧
    ∃ last, last + 1 = c.asked ∧ isItem (producer last).answer = false ∧
      ∀ question < last, isItem (producer question).answer = true

theorem sound_new {phase : Phase} (hphase : rules.stopped phase = none) :
    (new phase : Consumer Phase O).Sound rules producer isItem finished := by
  refine ⟨nofun, nofun, fun _ => ⟨rfl, fun question hlt => ?_⟩, fun answer hover => ?_⟩
  · exact absurd hlt (Nat.not_lt_zero question)
  · cases hphase.symm.trans hover

/-- What a step can do: make or drop a future, or poll one for the first time or again. -/
theorem step_cases {e : Event} (hstep : c.step rules producer e = some d) :
    (∃ future, future ≠ some true ∧ d = { c with future }) ∨
      (∃ ready, d = c.start rules producer ready) ∨
      (∃ ready, d = { c.start rules producer ready with future := none }) ∨
      ∃ question ready, c.pending = some question ∧ d = c.await rules producer question ready := by
  cases e with
  | create =>
      simp only [Consumer.step] at hstep
      split at hstep
      · exact Or.inl ⟨some false, nofun, (Option.some.inj hstep).symm⟩
      · cases hstep
  | poll ready =>
      simp only [Consumer.step] at hstep
      split at hstep
      · exact Or.inr (Or.inl ⟨ready, (Option.some.inj hstep).symm⟩)
      · next question _ hpending =>
          exact Or.inr (Or.inr (Or.inr ⟨question, ready, hpending, (Option.some.inj hstep).symm⟩))
      · cases hstep
  | drop =>
      simp only [Consumer.step] at hstep
      split at hstep
      · exact Or.inl ⟨none, nofun, (Option.some.inj hstep).symm⟩
      · cases hstep
  | pollOnce ready =>
      simp only [Consumer.step] at hstep
      split at hstep
      · exact Or.inr (Or.inr (Or.inl ⟨ready, (Option.some.inj hstep).symm⟩))
      · cases hstep

/-- A consumer that is over stays so, and asks no more. -/
theorem Sound.step_over (h : c.Sound rules producer isItem finished) {e : Event}
    (hover : rules.stopped c.phase ≠ none) (hstep : c.step rules producer e = some d) :
    d.phase = c.phase ∧ d.asked = c.asked := by
  obtain ⟨answer, hanswer⟩ := Option.ne_none_iff_exists'.mp hover
  have hstart : ∀ ready, c.start rules producer ready = c.give answer := fun ready => by
    simp only [Consumer.start, hanswer]
  obtain ⟨future, -, rfl⟩ | ⟨ready, rfl⟩ | ⟨ready, rfl⟩ | ⟨question, ready, hpending, -⟩ :=
    step_cases hstep
  · exact ⟨rfl, rfl⟩
  · exact hstart ready ▸ ⟨rfl, rfl⟩
  · exact hstart ready ▸ ⟨rfl, rfl⟩
  · cases hpending.symm.trans (h.stopped answer hanswer).2.1

theorem Sound.withFuture (h : c.Sound rules producer isItem finished) {future : Option Bool}
    (hwaits : future = some true → c.pending ≠ none) :
    { c with future }.Sound rules producer isItem finished :=
  ⟨h.last, hwaits, h.going, h.stopped⟩

section Steps

variable (hlawful : rules.Lawful isItem finished)
include hlawful

/-- An answer comes: it is the next to be received, and decides whether the consumer goes on. -/
theorem Sound.give (h : c.Sound rules producer isItem finished) (hphase : rules.stopped c.phase = none)
    {question : Nat} (hquestion : c.settled = question)
    (hd : d = { c with
      phase := rules.after c.phase (producer question).answer
      pending := none
      asked := question + 1 }.give (producer question).answer) :
    d.Sound rules producer isItem finished := by
  subst hd hquestion
  obtain ⟨hreceived, hitems⟩ := h.going hphase
  have hrange : c.received ++ [(producer c.settled).answer] =
      (List.range (c.settled + 1)).map fun question => (producer question).answer := by
    rw [List.range_succ, List.map_append, hreceived, List.map_singleton]
  refine ⟨nofun, nofun, fun hgoing => ⟨hrange, fun question hlt => ?_⟩, fun answer hover => ?_⟩
  · obtain hlt | rfl := Nat.lt_succ_iff_lt_or_eq.mp hlt
    · exact hitems question hlt
    · by_contra hitem
      have hstop := hlawful.stop c.phase _ hphase (Bool.eq_false_iff.mpr hitem)
      cases hgoing.symm.trans hstop
  · cases hitem : isItem (producer c.settled).answer with
    | true =>
        have hgo := hlawful.go c.phase _ hphase hitem
        cases hgo.symm.trans hover
    | false =>
        have hstop := hlawful.stop c.phase _ hphase hitem
        refine ⟨Option.some.inj (hover.symm.trans hstop), rfl, ⟨0, ?_⟩, c.settled, rfl, hitem, hitems⟩
        rw [List.replicate_zero, List.append_nil]
        exact hrange

/-- The question that is asked gets its answer, or is waited for. -/
theorem Sound.await (h : c.Sound rules producer isItem finished) (hover : rules.stopped c.phase = none)
    {question : Nat} (hpending : c.pending = some question) (ready : Bool) :
    (c.await rules producer question ready).Sound rules producer isItem finished ∧
      (c.await rules producer question ready).asked = c.asked := by
  have hsettled : c.settled = question := by rw [settled, hpending, Option.getD_some]
  have hasked := h.last question hpending
  cases ready with
  | true =>
      refine ⟨h.give hlawful hover hsettled ?_, rfl⟩
      simp only [Consumer.await, hasked]
  | false =>
      refine ⟨h.withFuture fun _ => ?_, rfl⟩
      rw [hpending]
      nofun

omit hlawful in
/-- A consumer that is over gives the end once more. -/
theorem Sound.giveOver (h : c.Sound rules producer isItem finished) {answer : O}
    (hover : rules.stopped c.phase = some answer) :
    (c.give answer).Sound rules producer isItem finished := by
  obtain ⟨rfl, hpending, ⟨idle, hreceived⟩, hlast⟩ := h.stopped answer hover
  have hgiven : c.received ++ [answer] =
      (List.range c.asked).map (fun question => (producer question).answer) ++
        List.replicate (idle + 1) answer := by
    rw [hreceived, List.append_assoc, List.replicate_succ']
  refine ⟨h.last, nofun, fun hgoing => ?_, fun answer' hover' => ?_⟩
  · cases hover.symm.trans hgoing
  · exact ⟨Option.some.inj (hover'.symm.trans hover), hpending, ⟨idle + 1, hgiven⟩, hlast⟩

/-- What the first poll of a future can do: give the end again, get the answer to the question asked
or to the next one, or wait for it. -/
theorem Sound.start (h : c.Sound rules producer isItem finished) (ready : Bool) :
    (c.start rules producer ready).Sound rules producer isItem finished ∧
      (c.asked < (c.start rules producer ready).asked → rules.stopped c.phase = none ∧
        c.pending = none ∧ (c.start rules producer ready).asked = c.asked + 1) := by
  unfold Consumer.start
  cases hover : rules.stopped c.phase with
  | some answer => exact ⟨h.giveOver hover, fun hlt => absurd hlt (Nat.lt_irrefl c.asked)⟩
  | none =>
      cases hpending : c.pending with
      | some question =>
          obtain ⟨hsound, hasked⟩ := h.await hlawful hover hpending ready
          exact ⟨hsound, fun hlt => absurd (hasked ▸ hlt) (Nat.lt_irrefl c.asked)⟩
      | none =>
          have hsettled : c.settled = c.asked := by rw [settled, hpending, Option.getD_none]
          cases hproducer : producer c.asked with
          | answered answer =>
              have hanswer : (producer c.asked).answer = answer := by rw [hproducer, Asked.answer]
              refine ⟨h.give hlawful hover hsettled ?_, fun _ => ⟨rfl, rfl, rfl⟩⟩
              simp only [hanswer]
          | promised answer =>
              -- The question is asked, and then awaited as one that was asked before.
              have hasking : { c with pending := some c.asked, asked := c.asked + 1 }.Sound rules
                  producer isItem finished := by
                refine ⟨fun question hquestion => ?_, nofun, fun hgoing => ?_, fun _ hover' => ?_⟩
                · rw [← Option.some.inj hquestion]
                · exact hsettled ▸ h.going hgoing
                · cases hover.symm.trans hover'
              obtain ⟨hsound, hasked⟩ := hasking.await hlawful hover rfl ready
              exact ⟨hsound, fun _ => ⟨rfl, rfl, hasked⟩⟩

theorem Sound.step (h : c.Sound rules producer isItem finished) {e : Event}
    (hstep : c.step rules producer e = some d) :
    d.Sound rules producer isItem finished ∧ (c.asked < d.asked → rules.stopped c.phase = none ∧
      c.pending = none ∧ d.asked = c.asked + 1) := by
  obtain ⟨future, hnew, rfl⟩ | ⟨ready, rfl⟩ | ⟨ready, rfl⟩ | ⟨question, ready, hpending, rfl⟩ :=
    step_cases hstep
  · exact ⟨h.withFuture fun hwaits => absurd hwaits hnew,
      fun hlt => absurd hlt (Nat.lt_irrefl c.asked)⟩
  · exact h.start hlawful ready
  · obtain ⟨hsound, hasked⟩ := h.start hlawful ready
    exact ⟨hsound.withFuture nofun, hasked⟩
  · have hover : rules.stopped c.phase = none := by
      by_contra hne
      obtain ⟨answer, hover⟩ := Option.ne_none_iff_exists'.mp hne
      cases hpending.symm.trans (h.stopped answer hover).2.1
    obtain ⟨hsound, hasked⟩ := h.await hlawful hover hpending ready
    exact ⟨hsound, fun hlt => absurd (hasked ▸ hlt) (Nat.lt_irrefl c.asked)⟩

theorem Sound.run_over (h : c.Sound rules producer isItem finished)
    (hover : rules.stopped c.phase ≠ none) {events : List Event}
    (hrun : (machine rules producer).run c events = some d) : d.asked = c.asked := by
  induction events generalizing c with
  | nil => exact Option.some.inj hrun ▸ rfl
  | cons e events ih =>
      obtain ⟨middle, hstep, hrest⟩ := Machine.run_cons_eq_some.mp hrun
      obtain ⟨hphase, hasked⟩ := h.step_over hover hstep
      exact (ih (h.step hlawful hstep).1 (hphase ▸ hover) hrest).trans hasked

end Steps

/-- Every answer is received once and in order, and the first that is no item is the last. -/
structure Delivered (rules : Rules Phase O) (producer : Nat → Asked O) (isItem : O → Bool)
    (finished : O) (c : Consumer Phase O) : Prop where
  alone : ∀ e d, c.step rules producer e = some d → c.asked < d.asked →
    c.pending = none ∧ d.asked = c.asked + 1
  pending : ∀ question, c.pending = some question → question + 1 = c.asked
  received : ∃ idle, c.received =
    (List.range c.settled).map (fun question => (producer question).answer) ++
      List.replicate idle finished ∧ (idle ≠ 0 → c.Ended producer isItem)
  ended : c.Ended producer isItem → ∀ events d,
    (machine rules producer).run c events = some d → d.asked = c.asked
  waits : c.future = some true → c.pending ≠ none

theorem Sound.delivered (h : c.Sound rules producer isItem finished)
    (hlawful : rules.Lawful isItem finished) : c.Delivered rules producer isItem finished where
  alone := fun _ _ hstep hlt => ((h.step hlawful hstep).2 hlt).2
  pending := h.last
  received := by
    cases hover : rules.stopped c.phase with
    | none => exact ⟨0, by simpa using (h.going hover).1, fun hne => absurd rfl hne⟩
    | some answer =>
        obtain ⟨-, hpending, ⟨idle, hreceived⟩, last, hlast, hitem, -⟩ := h.stopped answer hover
        have hsettled : c.settled = c.asked := by rw [settled, hpending, Option.getD_none]
        exact ⟨idle, hsettled ▸ hreceived, fun _ => ⟨last, by omega, hitem⟩⟩
  ended := by
    rintro ⟨question, hlt, hitem⟩ events d hrun
    refine h.run_over hlawful (fun hgoing => ?_) hrun
    rw [(h.going hgoing).2 question hlt] at hitem
    cases hitem
  waits := h.waits

/-- **Every answer is delivered exactly once**, however futures come and go. -/
theorem throughout_delivered (hlawful : rules.Lawful isItem finished) {phase : Phase}
    (hphase : rules.stopped phase = none) (events : List Event) :
    (machine rules producer).Throughout (Delivered rules producer isItem finished) (new phase)
      events := by
  have hsound := Machine.throughout_of_invariant (M := machine rules producer)
    (fun _ _ _ (h : Sound rules producer isItem finished _) hstep => (h.step hlawful hstep).1)
    (sound_new hphase) events
  exact hsound.mono fun _ h => h.delivered hlawful

end Consumer

end Pull
