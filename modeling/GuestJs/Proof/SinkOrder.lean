import GuestJs.Proof.SinkContract

/-!
# One future of a sink at a time

A guest's writable stream makes its next call when the promise of the one before it has settled. Then
the calls of one future are over before those of the next begin, and the items arrive in order.
-/

namespace GuestJs

open Transition

namespace SharedSink

variable {T : Type} {s t : SharedSink T} {name : String} {k : Nat} {stage : SinkStage T}

/-- The items the inner sink has taken. -/
def accepted (s : SharedSink T) : List T :=
  s.calls.filterMap fun call =>
    match call.stage, call.answer with
    | .start item, some (.ok ()) => some item
    | _, _ => none

/-- A guest's stream makes its next call when the one before it is complete. -/
def Serial (s : SharedSink T) : Event T → Prop
  | .send _ | .close => ∀ (k : Nat) state, s.futures[k]? = some state → state.isDone = true
  | _ => True

structure InTurn (s : SharedSink T) : Prop where
  last : ∀ (k : Nat) state, s.futures[k]? = some state → state.isDone = false →
    k + 1 = s.futures.length
  ordered : s.accepted.Sublist (s.requests.filterMap id)
  waiting : ∀ k, k + 1 = s.futures.length → Story.starts (s.history k) = [] →
    s.accepted.Sublist (s.requests.dropLast.filterMap id)

theorem inTurn_new : (new name : SharedSink T).InTurn := by
  refine ⟨?_, ?_, ?_⟩ <;> simp [new, accepted]

theorem InTurn.spawn (h : s.InTurn) (request : Option T)
    (hdone : ∀ (k : Nat) state, s.futures[k]? = some state → state.isDone = true) :
    (s.spawn request (.first request)).InTurn := by
  refine ⟨?_, ?_, ?_⟩
  · intro k state hk hopen
    rcases Positions.cases_of_concat hk with ⟨rfl, -⟩ | hk
    · rw [SharedSink.spawn, List.length_append, List.length_singleton]
    · rw [hdone k state hk] at hopen
      cases hopen
  · refine h.ordered.trans ?_
    rw [SharedSink.spawn, List.filterMap_append]
    exact List.sublist_append_left _ _
  · intro k _ _
    rw [SharedSink.spawn, List.dropLast_concat]
    exact h.ordered

/-- A future goes on, and its items are still to come or have come as before. -/
theorem InTurn.set (h : s.InTurn) {before state : SinkFuture T} (hk : s.futures[k]? = some before)
    (hopen : before.isDone = false) (hfutures : t.futures = s.futures.set k state)
    (hrequests : t.requests = s.requests) (haccepted : t.accepted = s.accepted)
    (hhistory : ∀ j, Story.starts (t.history j) = [] → Story.starts (s.history j) = []) :
    t.InTurn := by
  have hlength : t.futures.length = s.futures.length := by rw [hfutures, List.length_set]
  refine ⟨?_, ?_, ?_⟩
  · intro j state' hj hopen'
    rw [hlength]
    rw [hfutures] at hj
    rcases Positions.cases_of_set hj with ⟨rfl, -⟩ | ⟨-, hj⟩
    · exact h.last j before hk hopen
    · exact h.last j state' hj hopen'
  · rw [haccepted, hrequests]
    exact h.ordered
  · intro j hj hstarts
    rw [haccepted, hrequests]
    exact h.waiting j (hlength ▸ hj) (hhistory j hstarts)

theorem InTurn.enter (h : s.InTurn) (hk : s.futures[k]? = some (.suspended stage)) :
    (s.enter k stage).InTurn := by
  unfold SharedSink.enter
  split
  · exact h.set hk rfl rfl rfl rfl fun _ => id
  · split
    · exact h.set hk rfl rfl rfl rfl fun _ => id
    · exact h.set hk rfl rfl rfl rfl fun _ => id

theorem InTurn.receive (h : s.InTurn) (hsound : s.Sound name)
    (hk : s.futures[k]? = some (.running stage)) {answer : Poll Unit}
    (ht : s.receive k stage answer = some t) : t.InTurn := by
  obtain ⟨state, borrowed, rfl, -⟩ := receive_cases (hsound.lent k stage hk).2.1 ht
  have hhistory : ∀ j, Story.starts (history { s with
      borrowed, calls := s.calls ++ [⟨k, stage, answer⟩], futures := s.futures.set k state } j) = [] →
        Story.starts (s.history j) = [] := by
    intro j hstarts
    rw [history_concat (s := s) (c := ⟨k, stage, answer⟩) rfl, Story.starts,
      List.filter_append] at hstarts
    exact (List.append_eq_nil_iff.mp hstarts).1
  by_cases htaken : ∃ item, stage = .start item ∧ answer = some (.ok ())
  · obtain ⟨item, rfl, rfl⟩ := htaken
    have hlast := h.last k _ hk rfl
    obtain ⟨request, hrequest⟩ := hsound.request hk
    have hstory : Story request (s.history k) (.start item) := hsound.follows k request _ hrequest hk
    obtain ⟨rfl, hstarts⟩ : request = some item ∧ Story.starts (s.history k) = [] := by
      cases request with
      | none => cases hstory.close_cases.1
      | some item' =>
          rcases hstory.send_cases with ⟨heq | heq, hstarts⟩ | ⟨heq, -⟩
          · cases heq
          · cases heq
            exact ⟨rfl, hstarts⟩
          · cases heq
    have hsplit : s.requests = s.requests.dropLast ++ [some item] := by
      have hget : s.requests.getLast? = some (some item) := by
        rw [List.getLast?_eq_getElem?, hsound.lengths, ← hlast, Nat.add_sub_cancel, hrequest]
      exact (List.dropLast_append_getLast? _ hget).symm
    refine ⟨?_, ?_, ?_⟩
    · intro j state' hj hopen
      rw [List.length_set]
      rcases Positions.cases_of_set hj with ⟨rfl, -⟩ | ⟨-, hj⟩
      · exact hlast
      · exact h.last j state' hj hopen
    · have hgrown : ∀ calls : List (InnerCall T), accepted { s with
          borrowed, calls := calls ++ [⟨k, .start item, some (.ok ())⟩]
          futures := s.futures.set k state } = accepted { s with calls := calls } ++ [item] :=
        fun calls => by rw [accepted, List.filterMap_append]; rfl
      rw [hgrown, hsplit, List.filterMap_append]
      exact (h.waiting k hlast hstarts).append (List.Sublist.refl [item])
    · intro j hj hnone
      rw [List.length_set] at hj
      obtain rfl : j = k := by omega
      rw [history_concat (s := s) (c := ⟨j, .start item, some (.ok ())⟩) rfl, if_pos rfl,
        Story.starts_concat] at hnone
      cases (List.append_eq_nil_iff.mp hnone).2
  · refine h.set hk rfl rfl rfl ?_ hhistory
    have hnone : accepted { s with calls := [⟨k, stage, answer⟩] } = [] := by
      rcases stage with item | item | _ | _ <;> rcases answer with _ | _ | ⟨⟨⟩⟩ <;>
        first | rfl | exact absurd ⟨item, rfl, rfl⟩ htaken
    rw [accepted, List.filterMap_append]
    show s.accepted ++ accepted { s with calls := [⟨k, stage, answer⟩] } = s.accepted
    rw [hnone, List.append_nil]

theorem InTurn.step (h : s.InTurn) (hsound : s.Sound name) {event : Event T}
    (hserial : s.Serial event) (ht : s.step event = some t) : t.InTurn := by
  cases event with
  | send item => exact Option.some.inj ht ▸ h.spawn (some item) hserial
  | close => exact Option.some.inj ht ▸ h.spawn none hserial
  | poll k =>
      simp only [SharedSink.step] at ht
      split at ht
      next stage hk => exact Option.some.inj ht ▸ h.enter hk
      next => cases ht
  | answer k answer =>
      simp only [SharedSink.step] at ht
      split at ht
      next stage hk => exact h.receive hsound hk ht
      next => cases ht
  | abort =>
      simp only [SharedSink.step, Option.some.injEq] at ht
      split at ht
      next => exact ht ▸ h
      next => exact ht ▸ ⟨h.last, h.ordered, h.waiting⟩
  | released =>
      simp only [SharedSink.step] at ht
      split at ht
      next => exact Option.some.inj ht ▸ ⟨h.last, h.ordered, h.waiting⟩
      next => cases ht
  | drop k =>
      simp only [SharedSink.step] at ht
      split at ht
      next stage hk => exact Option.some.inj ht ▸ h.set hk rfl rfl rfl rfl fun _ => id
      next => exact Option.some.inj ht ▸ h
      next => cases ht

/-- **Order.** While a guest's stream makes one call at a time, the items reach the inner sink in the
order they were written, none of them twice. -/
theorem serial_sends_in_order {typeName : String} {events : List (Event T)} {s : SharedSink T}
    (hserial : (machine T).Along Serial (new typeName) events)
    (h : (machine T).run (new typeName) events = some s) :
    s.accepted.Sublist (s.requests.filterMap id) := by
  have hstep : ∀ s event t, (Sound typeName s ∧ s.InTurn) → Serial s event →
      (machine T).step s event = some t → Sound typeName t ∧ t.InTurn :=
    fun _ _ _ hs hevent ht => ⟨hs.1.step ht, hs.2.step hs.1 hevent ht⟩
  exact ((Machine.throughout_of_along hstep ⟨sound_new, inTurn_new⟩ hserial).last h).2.ordered

/-- A second item that is sent when the first has been flushed. -/
theorem serial_sends_in_order_two :
    let s : SharedSink Nat := ⟨"Sender", true, false, false, [some 7, some 8],
      [.finished (.ok ()), .suspended (.ready 8)],
      [⟨0, .ready 7, some (.ok ())⟩, ⟨0, .start 7, some (.ok ())⟩, ⟨0, .flush, some (.ok ())⟩]⟩
    s.accepted.Sublist (s.requests.filterMap id) := by
  intro s
  let events : List (Event Nat) := [.send 7, .poll 0, .answer 0 (some (.ok ())),
    .answer 0 (some (.ok ())), .answer 0 (some (.ok ())), .send 8]
  have hserial : (machine Nat).Along Serial (new "Sender") events := by
    refine .cons rfl ?_ <| .cons rfl trivial <| .cons rfl trivial <| .cons rfl trivial <|
      .cons rfl trivial <| .cons rfl ?_ trivial
    · exact fun _ _ hk => nomatch hk
    · rintro (_ | k) state hk
      · cases hk
        rfl
      · cases hk
  exact serial_sends_in_order (s := s) hserial rfl

end SharedSink

end GuestJs
