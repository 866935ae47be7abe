import GuestJs.Handle.Iterators
import GuestJs.Library.Fused
import GuestJs.Library.Loops
import GuestJs.QuickJs.IteratorEngine

/-!
# Whether an iterator is told to return

An iterator that has finished by itself needs no telling, and any other is told once, by the call of its
`return` that closing makes. The handle keeps one flag for both, and sets it for every failure.
-/

namespace GuestJs

open QuickJs Marshal Process

variable {E : Engine} {α β : Type}

/-! ## What closing calls -/

namespace QuickJs

/-- The method that `close` looks for, and calls if it is there. -/
def returnMethod (iterator : Value) : Op E (Option Value) := do
  settled
  capture do
    let iterator ← asObject iterator
    asOptionalFunction (← request (.get iterator (.string "return")))

theorem capture_bind (p : Raw E α) (f : α → Raw E β) :
    capture (p >>= f) = (capture p >>= fun a => capture (f a)) := by
  funext s
  show ((p s).andThen _).andThen _ = ((p s).andThen _).andThen _
  rw [Resumption.andThen_assoc, Resumption.andThen_assoc]
  congr 1
  funext result t
  cases result with
  | ok a => rfl
  | error fault =>
      cases fault with
      | exception thrown =>
          show (Thrown.intoError thrown t).andThen _ =
            ((Thrown.intoError thrown t).andThen _).andThen _
          rw [Resumption.andThen_assoc]
          congr 1
          funext result u
          cases result <;> rfl
      | fromJs source target => rfl
      | other message => rfl

/-- Closing calls the method it has found once, and nothing where there is none. -/
theorem close_eq (iterator : Value) :
    (close iterator : Op E Value) = (do
      match ← returnMethod iterator with
      | some method => capture (request (.call method iterator []))
      | none => pure .undefined) := by
  have hcapture : (capture (do
      let iterator ← asObject iterator
      match ← asOptionalFunction (← request (.get iterator (.string "return"))) with
      | some method => request (.call method iterator [])
      | none => pure .undefined) : Op E Value) =
      (capture (do
        let iterator ← asObject iterator
        asOptionalFunction (← request (.get iterator (.string "return"))))) >>= fun found =>
          match found with
          | some method => capture (request (.call method iterator []))
          | none => pure .undefined := by
    cases iterator with
    | object id =>
        simp only [asObject, pure_bind, ← bind_assoc]
        rw [capture_bind]
        congr 1
        funext found
        cases found <;> rfl
    | _ => rfl
  refine (congrArg (fun p => (settled : Op E Unit) >>= fun _ => p) hcapture).trans ?_
  rw [returnMethod, bind_assoc]

end QuickJs

/-- The guest lets itself be entered, and none of its memory is lent. -/
structure Moment.CanEnter (moment : Moment E) : Prop where
  entered : moment.refusal = none
  settled : moment.session.loans.settled = .ok ()

namespace Iterators

/-- The calls of the method that closing the iterator makes. -/
def returnCalls (iterator : Value) (moment : Moment E) : Nat :=
  match (moment.enter (returnMethod iterator)).1 with
  | .ok (some _) => 1
  | _ => 0

/-- At a close the method is looked for, and called once where there is one. -/
theorem enter_close_bind (iterator : Value) (moment : Moment E) (next : Value → Op E β) :
    moment.enter (QuickJs.close iterator >>= next) =
      match moment.enter (returnMethod iterator) with
      | (.error error, session) => (.error error, session)
      | (.ok none, session) => (moment.after session).enter (next .undefined)
      | (.ok (some method), session) =>
          (moment.after session).enter
            (capture (request (.call method iterator [])) >>= next) := by
  rw [close_eq, bind_assoc, Moment.enter_bind]
  rcases moment.enter (returnMethod iterator) with ⟨error | ⟨⟩ | method, session⟩
  · rfl
  · rfl
  · rfl

/-- What a call of `next` has met: an item, the end of an iterator that finishes by itself, or a failure
that is none of the iterator's. -/
inductive Verdict where
  | item
  | finished
  | broken
  deriving DecidableEq

def Verdict.ends : Verdict → Bool
  | .item => false
  | .finished | .broken => true

/-- A result that is no object finishes the iterator, and so does one that says it is done. One that
cannot be read, or has an item that does not convert, does not. -/
def resultVerdict (item : Value → Op E α) (result : Value) (moment : Moment E) : Verdict :=
  match (kindOf E result).isObject with
  | false => .finished
  | true =>
      match moment.enter (QuickJs.step result) with
      | (.error _, _) => .broken
      | (.ok none, _) => .finished
      | (.ok (some value), session) =>
          match ((moment.after session).enter (item value)).1 with
          | .ok _ => .item
          | .error _ => .broken

/-- A guest that refuses the entry runs nothing, and neither does one that has lent memory. -/
def askVerdict (moment : Moment E) (iterator : Value)
    (answered : Value → Moment E → Option Verdict) : Option Verdict :=
  match moment.refusal, moment.session.loans.settled with
  | none, .ok () =>
      match moment.enter (QuickJs.next iterator) with
      | (.error _, _) => some .finished
      | (.ok result, session) => answered result (moment.after session)
  | _, _ => some .broken

namespace Iter

def verdict (item : Value → Op E α) (iter : Iter) (moment : Moment E) : Option Verdict :=
  match iter.done with
  | true => none
  | false =>
      askVerdict moment iter.iterator fun result moment => some (resultVerdict item result moment)

end Iter

/-- A promise that is rejected finishes the iterator; when awaiting fails otherwise, nothing is known of
it. -/
def promiseVerdict (item : Value → Op E α) (promise : Value) (look : Look E) : Option Verdict :=
  match look.due with
  | some _ => some .broken
  | none =>
      match look.moment.enter (BackendPromises.state promise) with
      | (.error _, _) => some .broken
      | (.ok .pending, _) =>
          match look.progress with
          | .ok () => none
          | .error _ => some .broken
      | (.ok (.rejected _), _) => some .finished
      | (.ok (.fulfilled value), session) =>
          some (resultVerdict item value (look.moment.after session))

namespace AsyncIter

def verdict (item : Value → Op E α) (iter : AsyncIter) (look : Look E) : Option Verdict :=
  match iter.done, iter.pending with
  | true, _ => none
  | false, some promise => promiseVerdict item promise look
  | false, none =>
      askVerdict look.moment iter.iterator fun result moment =>
        match moment.enter (awaitable result) with
        | (.error _, _) => some .broken
        | (.ok promise, session) =>
            match (moment.after session).enter (BackendPromises.resolve promise) with
            | (.error _, _) => some .broken
            | (.ok promise, session) => promiseVerdict item promise (look.after session)

end AsyncIter

/-! ## The flag and the verdicts -/

section Flag

variable {item : Value → Op E α} {moment : Moment E}

theorem isItem_result (moment : Moment E) (hentered : moment.refusal = none) (result : Value) :
    PullOutcome.isItem (moment.enter (iterItemFromGuest item result)).1 =
      !(resultVerdict item result moment).ends := by
  unfold iterItemFromGuest resultVerdict
  cases (kindOf E result).isObject with
  | false => simp [Moment.enter, hentered, Resumption.resolve, PullOutcome.isItem, Verdict.ends]
  | true =>
      simp only [Moment.enter_bind]
      rcases moment.enter (QuickJs.step result) with ⟨error | ⟨⟩ | value, session⟩
      · rfl
      · simp [Moment.enter, Moment.after, hentered, Resumption.resolve, PullOutcome.isItem,
          Verdict.ends]
      · simp only [map_eq_pure_bind, Moment.enter_bind]
        rcases (moment.after session).enter (item value) with ⟨error | a, session'⟩
        · rfl
        · simp [Moment.enter, Moment.after, hentered, Resumption.resolve, PullOutcome.isItem,
            Verdict.ends]

theorem enter_next_of_refused (h : ¬ moment.CanEnter) (iterator : Value) :
    ∃ error session, moment.enter (QuickJs.next iterator) = (.error error, session) := by
  unfold Moment.enter
  cases hrefusal : moment.refusal with
  | some error => exact ⟨_, _, rfl⟩
  | none =>
      cases hsettled : moment.session.loans.settled with
      | ok _ => exact absurd ⟨hrefusal, hsettled⟩ h
      | error error =>
          refine ⟨error, moment.session, ?_⟩
          have hrefused : (QuickJs.settled : Op E Unit) moment.session =
              .done (.error error) moment.session := by
            rw [QuickJs.settled, check_apply, hsettled]
          simp only [QuickJs.next, bind_of_error hrefused, Resumption.resolve]

theorem askVerdict_of_refused (h : ¬ moment.CanEnter) {iterator : Value}
    {answered : Value → Moment E → Option Verdict} :
    askVerdict moment iterator answered = some .broken := by
  unfold askVerdict
  split
  · next hentered hsettled => exact absurd ⟨hentered, hsettled⟩ h
  · rfl

theorem askVerdict_of_canEnter (h : moment.CanEnter) {iterator : Value}
    {answered : Value → Moment E → Option Verdict} :
    askVerdict moment iterator answered =
      match moment.enter (QuickJs.next iterator) with
      | (.error _, _) => some .finished
      | (.ok result, session) => answered result (moment.after session) := by
  unfold askVerdict
  rw [h.entered, h.settled]

theorem Iter.done_next {iter : Iter} {verdict : Verdict}
    (h : iter.verdict item moment = some verdict) :
    (iter.next item moment).2.done = verdict.ends := by
  unfold Iter.verdict at h
  unfold Iter.next
  cases hdone : iter.done with
  | true => simp [hdone] at h
  | false =>
      simp only [hdone] at h
      simp only [Moment.enter_bind]
      by_cases hcan : moment.CanEnter
      · rw [askVerdict_of_canEnter hcan] at h
        rcases hnext : moment.enter (QuickJs.next iter.iterator) with ⟨error | result, session⟩
        · rw [hnext] at h
          cases h
          rfl
        · rw [hnext] at h
          cases h
          show (!PullOutcome.isItem
            ((moment.after session).enter (iterItemFromGuest item result)).1) = _
          rw [isItem_result (moment.after session) hcan.entered, Bool.not_not]
      · rw [askVerdict_of_refused hcan] at h
        obtain ⟨error, session, hrefused⟩ := enter_next_of_refused hcan iter.iterator
        cases h
        rw [hrefused]
        rfl

/-- The verdicts of an iterator are those of a source that ends, and the flag says when. -/
def Iter.source (item : Value → Op E α) : Fused Iter (Moment E) Verdict where
  next := fun iter moment => (iter.next item moment).2
  shown := fun iter moment => iter.verdict item moment
  flag := Iter.done
  ends := Verdict.ends
  quiet := by
    intro iter moment h
    rw [Iter.verdict, h]
  kept := by
    intro iter moment h
    cases hdone : iter.done with
    | true => simp only [Iter.next, hdone]
    | false =>
        simp only [Iter.verdict, hdone] at h
        unfold askVerdict at h
        split at h
        · split at h <;> cases h
        · cases h
  flagged := fun _ _ _ h => Iter.done_next h

theorem isItem_settled (promise : Value) (look : Look E) :
    (look.settled item promise).map PullOutcome.isItem =
      (promiseVerdict item promise look).map fun verdict => !verdict.ends := by
  unfold Look.settled promiseVerdict
  cases look.due with
  | some error => rfl
  | none =>
      dsimp only
      rcases hstate : look.moment.enter (BackendPromises.state promise) with
        ⟨error | ⟨⟩ | value | reason, session⟩
      · rfl
      · cases look.progress with
        | ok _ => rfl
        | error error => rfl
      · have hentered := Moment.entered_of_enter hstate
        show some (PullOutcome.isItem _) = some _
        rw [isItem_result (look.moment.after session) hentered]
      · dsimp only
        split <;> rfl

theorem AsyncIter.done_poll (iter : AsyncIter) (promise : Value) (look : Look E) :
    (iter.poll item promise look).2.done =
      match promiseVerdict item promise look with
      | some verdict => verdict.ends
      | none => iter.done := by
  have hsettled : (look.settled item promise).map PullOutcome.isItem = _ :=
    isItem_settled promise look
  unfold AsyncIter.poll
  cases hstep : look.settled item promise with
  | none =>
      rw [hstep] at hsettled
      rw [Option.map_eq_none_iff.mp hsettled.symm]
  | some step =>
      rw [hstep] at hsettled
      obtain ⟨verdict, hverdict, hends⟩ := Option.map_eq_some_iff.mp hsettled.symm
      simp only [hverdict, ← hends, Bool.not_not]

theorem AsyncIter.done_next (iter : AsyncIter) (look : Look E) :
    (iter.next item look).2.done =
      match iter.verdict item look with
      | some verdict => verdict.ends
      | none => iter.done := by
  unfold AsyncIter.next AsyncIter.verdict
  cases hdone : iter.done with
  | true => exact hdone
  | false =>
      cases iter.pending with
      | some promise => rw [AsyncIter.done_poll, hdone]
      | none =>
          dsimp only
          rw [Moment.enter_bind]
          by_cases hcan : look.moment.CanEnter
          · rw [askVerdict_of_canEnter hcan]
            rcases look.moment.enter (QuickJs.next iter.iterator) with ⟨error | result, session⟩
            · rfl
            · dsimp only
              rcases (look.moment.after session).enter (awaitable result) with
                ⟨error | promise, session'⟩
              · rfl
              · dsimp only
                rw [Moment.after_after]
                rcases (look.moment.after session').enter
                  (BackendPromises.resolve promise) with ⟨error | promise', session''⟩
                · rfl
                · dsimp only
                  rw [AsyncIter.done_poll, hdone]
          · rw [askVerdict_of_refused hcan]
            obtain ⟨error, session, hrefused⟩ := enter_next_of_refused hcan iter.iterator
            rw [hrefused]
            rfl

def AsyncIter.source (item : Value → Op E α) : Fused AsyncIter (Look E) Verdict where
  next := fun iter look => (iter.next item look).2
  shown := fun iter look => iter.verdict item look
  flag := AsyncIter.done
  ends := Verdict.ends
  quiet := by
    intro iter look h
    rw [AsyncIter.verdict, h]
  kept := by
    intro iter look h
    rw [AsyncIter.done_next, h]
  flagged := by
    intro iter look verdict h
    rw [AsyncIter.done_next, h]

end Flag

/-! ## Closing after a run -/

/-- At the moment the guest can be entered, and the iterator has a method to call. -/
def HasReturn (iterator : Value) (moment : Moment E) : Prop :=
  ∃ method session, moment.enter (returnMethod iterator) = (.ok (some method), session)

/-- An iterator that has finished by itself is not told to return, and any other is told once if it can
be told at all. -/
structure ClosesProperly (verdicts : List Verdict) (iterator : Value) (moment : Moment E)
    (calls : Nat) : Prop where
  finished : .finished ∈ verdicts → calls = 0
  unfinished : .finished ∉ verdicts → HasReturn iterator moment → calls = 1

theorem returnCalls_eq_one_iff {iterator : Value} {moment : Moment E} :
    returnCalls iterator moment = 1 ↔ HasReturn iterator moment := by
  unfold returnCalls HasReturn
  rcases moment.enter (returnMethod iterator) with ⟨error | ⟨⟩ | method, session⟩
  · simp
  · simp
  · simp

/-- What a handle does that goes by the flag of its source. -/
theorem closesProperly_source_iff {State Event : Type} {F : Fused State Event Verdict}
    (hends : F.ends = Verdict.ends) {s : State} (hnew : F.flag s = false) (events : List Event)
    (iterator : Value) (moment : Moment E) :
    ClosesProperly (F.outcomes s events) iterator moment
        (match F.flag (F.run s events) with
          | true => 0
          | false => returnCalls iterator moment) ↔
      .broken ∉ F.outcomes s events ∨ ¬ HasReturn iterator moment := by
  have hover := F.flag_run_iff hnew events
  rw [hends] at hover
  cases hrun : F.flag (F.run s events) with
  | false =>
      rw [hrun] at hover
      have hitems : ∀ verdict ∈ F.outcomes s events, verdict.ends = false := by
        simpa using hover
      constructor
      · exact fun _ => Or.inl fun hmem => nomatch hitems _ hmem
      · exact fun _ => ⟨fun hmem => absurd (hitems _ hmem) nofun, fun _ =>
          returnCalls_eq_one_iff.mpr⟩
  | true =>
      rw [hrun] at hover
      obtain ⟨verdict, hmem, hended⟩ := hover.mp rfl
      have honly : ∀ other ∈ F.outcomes s events, other.ends = true → other = verdict :=
        fun other hother hends' =>
          F.eq_of_ends hother hmem (by rw [hends, hends']) (by rw [hends, hended])
      cases verdict with
      | item => cases hended
      | finished =>
          have hbroken : .broken ∉ F.outcomes s events := fun hother =>
            nomatch honly _ hother rfl
          exact iff_of_true ⟨fun _ => rfl, fun hnot => absurd hmem hnot⟩ (Or.inl hbroken)
      | broken =>
          have hfinished : .finished ∉ F.outcomes s events := fun hother =>
            nomatch honly _ hother rfl
          constructor
          · intro h
            exact Or.inr fun hreturn => nomatch h.unfinished hfinished hreturn
          · rintro (hnot | hnone)
            · exact absurd hmem hnot
            · exact ⟨fun hother => absurd hother hfinished, fun _ hreturn => absurd hreturn hnone⟩

/-- The calls of the method that `close` makes on a handle. -/
def Iter.returns (iter : Iter) (moment : Moment E) : Nat :=
  match iter.done with
  | true => 0
  | false => returnCalls iter.iterator moment

def AsyncIter.returns (iter : AsyncIter) (moment : Moment E) : Nat :=
  match iter.done with
  | true => 0
  | false => returnCalls iter.iterator moment

/-- What a close comes to, with its calls of the method: a handle that is over does nothing, and any
other looks for the method and goes on with what the call gives. -/
inductive Closing (iterator : Value) (moment : Moment E) (next : Value → Op E β) (idle : β) :
    Bool → Except Error β → Nat → Prop where
  | over : Closing iterator moment next idle true (.ok idle) 0
  | unread {error : Error} {session : Session E}
      (h : moment.enter (returnMethod iterator) = (.error error, session)) :
      Closing iterator moment next idle false (.error error) 0
  | without {session : Session E} (h : moment.enter (returnMethod iterator) = (.ok none, session)) :
      Closing iterator moment next idle false ((moment.after session).enter (next .undefined)).1 0
  | called {method : Value} {session : Session E}
      (h : moment.enter (returnMethod iterator) = (.ok (some method), session)) :
      Closing iterator moment next idle false
        ((moment.after session).enter
          (capture (request (.call method iterator [])) >>= next)).1 1

theorem closing_enter (iterator : Value) (moment : Moment E) (next : Value → Op E β) (idle : β) :
    Closing iterator moment next idle false (moment.enter (QuickJs.close iterator >>= next)).1
      (returnCalls iterator moment) := by
  rw [enter_close_bind, returnCalls]
  rcases hmethod : moment.enter (returnMethod iterator) with ⟨error | ⟨⟩ | method, session⟩
  · exact .unread hmethod
  · exact .without hmethod
  · exact .called hmethod

/-- The one call counted is the one that is made, and its failure is that of the close. -/
theorem Iter.closing (iter : Iter) (moment : Moment E) :
    Closing iter.iterator moment (fun _ => pure ()) () iter.done (iter.close moment)
      (iter.returns moment) := by
  unfold Iter.close Iter.returns
  cases iter.done with
  | true => exact .over
  | false => exact closing_enter iter.iterator moment _ ()

theorem AsyncIter.closing (iter : AsyncIter) (moment : Moment E) :
    Closing iter.iterator moment (fun value => some <$> BackendPromises.resolve value) none iter.done
      (iter.close moment) (iter.returns moment) := by
  unfold AsyncIter.close AsyncIter.returns
  cases iter.done with
  | true => exact .over
  | false => exact closing_enter iter.iterator moment _ none

theorem Iter.iterator_run (item : Value → Op E α) (iter : Iter) (moments : List (Moment E)) :
    ((Iter.source item).run iter moments).iterator = iter.iterator := by
  induction moments generalizing iter with
  | nil => rfl
  | cons moment moments ih =>
      refine (ih (iter.next item moment).2).trans ?_
      unfold Iter.next
      cases iter.done with
      | true => rfl
      | false => rfl

theorem AsyncIter.iterator_poll (item : Value → Op E α) (iter : AsyncIter) (promise : Value)
    (look : Look E) : (iter.poll item promise look).2.iterator = iter.iterator := by
  unfold AsyncIter.poll
  split
  · rfl
  · rfl

theorem AsyncIter.iterator_run (item : Value → Op E α) (iter : AsyncIter)
    (looks : List (Look E)) :
    ((AsyncIter.source item).run iter looks).iterator = iter.iterator := by
  induction looks generalizing iter with
  | nil => rfl
  | cons look looks ih =>
      refine (ih (iter.next item look).2).trans ?_
      unfold AsyncIter.next
      split
      · rfl
      · exact AsyncIter.iterator_poll ..
      · split
        · rfl
        · split
          · rfl
          · exact AsyncIter.iterator_poll ..

/-- After any run of `next`, an iterator is closed as it should be exactly when no call has failed
otherwise than by the iterator's finishing, or there is nothing to call. The calls counted are those
that `close` makes. -/
theorem closesProperly_iff (item : Value → Op E α) (iterator : Value) (moment : Moment E) :
    (∀ moments : List (Moment E),
      (ClosesProperly ((Iter.source item).outcomes (.new iterator) moments) iterator moment
          (((Iter.source item).run (.new iterator) moments).returns moment) ↔
        .broken ∉ (Iter.source item).outcomes (.new iterator) moments ∨
          ¬ HasReturn iterator moment) ∧
      Closing iterator moment (fun _ => pure ()) ()
        ((Iter.source item).run (.new iterator) moments).done
        (((Iter.source item).run (.new iterator) moments).close moment)
        (((Iter.source item).run (.new iterator) moments).returns moment)) ∧
    ∀ looks : List (Look E),
      (ClosesProperly ((AsyncIter.source item).outcomes (.new iterator) looks) iterator moment
          (((AsyncIter.source item).run (.new iterator) looks).returns moment) ↔
        .broken ∉ (AsyncIter.source item).outcomes (.new iterator) looks ∨
          ¬ HasReturn iterator moment) ∧
      Closing iterator moment (fun value => some <$> BackendPromises.resolve value) none
        ((AsyncIter.source item).run (.new iterator) looks).done
        (((AsyncIter.source item).run (.new iterator) looks).close moment)
        (((AsyncIter.source item).run (.new iterator) looks).returns moment) := by
  constructor
  · intro moments
    have hiterator : ((Iter.source item).run (.new iterator) moments).iterator = iterator :=
      Iter.iterator_run ..
    constructor
    · rw [← closesProperly_source_iff (F := Iter.source item) rfl rfl moments, Iter.returns,
        hiterator]
      rfl
    · have hclosing := ((Iter.source item).run (.new iterator) moments).closing moment
      rwa [hiterator] at hclosing
  · intro looks
    have hiterator : ((AsyncIter.source item).run (.new iterator) looks).iterator = iterator :=
      AsyncIter.iterator_run ..
    constructor
    · rw [← closesProperly_source_iff (F := AsyncIter.source item) rfl rfl looks, AsyncIter.returns,
        hiterator]
      rfl
    · have hclosing := ((AsyncIter.source item).run (.new iterator) looks).closing moment
      rwa [hiterator] at hclosing

namespace IteratorEngine

open QuickJs.IteratorEngine

/-- An entry of a guest whose `next` gives the value. -/
def moment (answer : Value) : Moment engine := ⟨none, session, guest answer⟩

def look (answer : Value) : Look engine := ⟨moment answer, none, .ok ()⟩

/-- An item that does not convert ends the handle, and the iterator is not told. -/
theorem not_closesProperly_unconverted :
    (¬ ClosesProperly ((Iter.source boolFromGuest).outcomes (.new iterator) [moment result]) iterator
          (moment result)
          (((Iter.source boolFromGuest).run (.new iterator) [moment result]).returns
            (moment result)) ∧
        HasReturn iterator (moment result)) ∧
      ¬ ClosesProperly ((AsyncIter.source boolFromGuest).outcomes (.new iterator) [look promise])
        iterator (moment promise)
        (((AsyncIter.source boolFromGuest).run (.new iterator) [look promise]).returns
          (moment promise)) := by
  have hreturn : ∀ answer, HasReturn iterator (moment answer) := fun _ => ⟨returnMethod, _, rfl⟩
  have hsync : (Iter.source boolFromGuest).outcomes (.new iterator) [moment result] = [.broken] := rfl
  have hasync : (AsyncIter.source boolFromGuest).outcomes (.new iterator) [look promise] =
      [.broken] := rfl
  refine ⟨⟨fun h => ?_, hreturn result⟩, fun h => ?_⟩
  · have hcalls := h.unfinished (by rw [hsync]; decide) (hreturn result)
    cases hcalls
  · have hcalls := h.unfinished (by rw [hasync]; decide) (hreturn promise)
    cases hcalls

end IteratorEngine

end Iterators

end GuestJs
