import GuestJs.Host.SharedSink
import GuestJs.Library.Positions

/-!
# The contract of a shared sink

Each future of a shared sink drives the inner sink through one story, whatever the others do: the
calls it has made so far determine the next one. With the futures told apart, the invariant says of
each that its calls and its state follow the story of its request, and of all that at most one of
them is inside the inner sink.
-/

namespace GuestJs

open Transition

namespace SinkStage

variable {T : Type}

def first : Option T → SinkStage T
  | some item => .ready item
  | none => .close

/-- The stage that a call which does not end the future leads to. -/
def next : SinkStage T → Poll Unit → Option (SinkStage T)
  | ready item, some (.ok ()) => some (start item)
  | start _, some (.ok ()) => some flush
  | start _, none => none
  | stage, none => some stage
  | _, some _ => none

end SinkStage

variable {T : Type}

/-- The calls that lead a future to a stage. -/
inductive Story (request : Option T) : List (SinkStage T × Poll Unit) → SinkStage T → Prop where
  | first : Story request [] (.first request)
  | next {story : List (SinkStage T × Poll Unit)} {stage stage' : SinkStage T} {answer : Poll Unit}
      (before : Story request story stage) (hnext : stage.next answer = some stage') :
      Story request (story ++ [(stage, answer)]) stage'

namespace Story

variable {request : Option T} {item : T} {story : List (SinkStage T × Poll Unit)}
  {stage : SinkStage T}

/-- The calls of `start_send` in a story. -/
def starts (story : List (SinkStage T × Poll Unit)) : List (SinkStage T × Poll Unit) :=
  story.filter fun call => call.1.isStart

theorem starts_concat (call : SinkStage T × Poll Unit) :
    starts (story ++ [call]) = starts story ++ if call.1.isStart then [call] else [] := by
  rw [starts, starts, List.filter_append, List.filter_singleton]
  cases call.1.isStart <;> rfl

/-- A `send` hands its item over once, between the ready polls and the flushes. -/
theorem send_cases (h : Story (some item) story stage) :
    ((stage = .ready item ∨ stage = .start item) ∧ starts story = []) ∨
      stage = .flush ∧ starts story = [(.start item, some (.ok ()))] := by
  generalize hrequest : some item = request at h
  induction h with
  | first =>
      subst hrequest
      exact Or.inl ⟨Or.inl rfl, rfl⟩
  | @next story stage stage' answer before hnext ih =>
      rw [starts_concat]
      rcases ih with ⟨rfl | rfl, hstarts⟩ | ⟨rfl, hstarts⟩
      · rcases answer with _ | _ | ⟨⟨⟩⟩ <;> cases hnext
        · exact Or.inl ⟨Or.inl rfl, by rw [hstarts]; rfl⟩
        · exact Or.inl ⟨Or.inr rfl, by rw [hstarts]; rfl⟩
      · rcases answer with _ | _ | ⟨⟨⟩⟩ <;> cases hnext
        exact Or.inr ⟨rfl, by rw [hstarts]; rfl⟩
      · rcases answer with _ | _ | ⟨⟨⟩⟩ <;> cases hnext
        exact Or.inr ⟨rfl, by rw [hstarts]; rfl⟩

theorem close_cases (h : Story (none : Option T) story stage) :
    stage = .close ∧ starts story = [] := by
  generalize hrequest : (none : Option T) = request at h
  induction h with
  | first =>
      subst hrequest
      exact ⟨rfl, rfl⟩
  | @next story stage stage' answer before hnext ih =>
      obtain ⟨rfl, hstarts⟩ := ih
      rcases answer with _ | _ | ⟨⟨⟩⟩ <;> cases hnext
      exact ⟨rfl, by rw [starts_concat, hstarts]; rfl⟩

/-- A call in a story has led to a further stage. -/
theorem next_isSome_of_mem (h : Story request story stage) {call : SinkStage T × Poll Unit}
    (hcall : call ∈ story) : (call.1.next call.2).isSome := by
  induction h with
  | first => cases hcall
  | next before hnext ih =>
      rcases List.mem_append.mp hcall with hcall | hcall
      · exact ih hcall
      · rw [List.mem_singleton.mp hcall, hnext]
        rfl

end Story

/-- A future in the state that the calls it has made lead to. -/
def Follows (typeName : String) (request : Option T) (story : List (SinkStage T × Poll Unit)) :
    SinkFuture T → Prop
  | .suspended stage => Story request story stage ∧ stage.isStart = false
  | .running stage => Story request story stage
  | .dropped => ∃ stage, Story request story stage
  | .finished (.ok ()) => ∃ earlier stage, Story request earlier stage ∧
      (stage = .flush ∨ stage = .close) ∧ story = earlier ++ [(stage, some (.ok ()))]
  | .finished (.error error) =>
      ((error = .borrow .exclusive typeName ∨ error = SharedSink.aborted) ∧
        ∃ stage, Story request story stage) ∨
      ∃ earlier stage, Story request earlier stage ∧
        story = earlier ++ [(stage, some (.error error))]

namespace Follows

variable {name : String} {request : Option T} {item : T} {story : List (SinkStage T × Poll Unit)}
  {state : SinkFuture T}

/-- The calls of a future are a story, or one and the call that has ended it. -/
theorem cases_story (h : Follows name request story state) :
    (∃ stage, Story request story stage ∧ state ≠ .finished (.ok ())) ∨
      ∃ earlier stage result, Story request earlier stage ∧
        story = earlier ++ [(stage, some result)] ∧ state = .finished result ∧
        (result = .ok () → stage = .flush ∨ stage = .close) := by
  match state with
  | .suspended stage => exact Or.inl ⟨stage, h.1, nofun⟩
  | .running stage => exact Or.inl ⟨stage, h, nofun⟩
  | .dropped => exact Or.inl ⟨h.choose, h.choose_spec, nofun⟩
  | .finished (.ok ()) =>
      obtain ⟨earlier, stage, hearlier, hstage, rfl⟩ := h
      exact Or.inr ⟨earlier, stage, _, hearlier, rfl, rfl, fun _ => hstage⟩
  | .finished (.error error) =>
      rcases h with ⟨-, stage, hstory⟩ | ⟨earlier, stage, hearlier, rfl⟩
      · exact Or.inl ⟨stage, hstory, nofun⟩
      · exact Or.inr ⟨earlier, stage, _, hearlier, rfl, rfl, nofun⟩

theorem starts_send (h : Follows name (some item) story state) :
    Story.starts story = [] ∨ ∃ answer, Story.starts story = [(.start item, answer)] := by
  rcases h.cases_story with ⟨stage, hstory, -⟩ | ⟨earlier, stage, result, hearlier, rfl, -, -⟩
  · rcases hstory.send_cases with ⟨-, hstarts⟩ | ⟨-, hstarts⟩
    · exact Or.inl hstarts
    · exact Or.inr ⟨_, hstarts⟩
  · rw [Story.starts_concat]
    rcases hearlier.send_cases with ⟨rfl | rfl, hstarts⟩ | ⟨rfl, hstarts⟩
    · exact Or.inl (by rw [hstarts]; rfl)
    · exact Or.inr ⟨_, by rw [hstarts]; rfl⟩
    · exact Or.inr ⟨_, by rw [hstarts]; rfl⟩

theorem starts_close (h : Follows name (none : Option T) story state) :
    Story.starts story = [] := by
  rcases h.cases_story with ⟨stage, hstory, -⟩ | ⟨earlier, stage, result, hearlier, rfl, -, -⟩
  · exact hstory.close_cases.2
  · obtain ⟨rfl, hstarts⟩ := hearlier.close_cases
    rw [Story.starts_concat, hstarts]
    rfl

/-- A call that can only end a future well has ended it. -/
theorem finished_of_mem (h : Follows name request story state) {stage : SinkStage T}
    (hend : stage.next (some (.ok ())) = none) (hmem : (stage, some (.ok ())) ∈ story) :
    state = .finished (.ok ()) := by
  have hnot : ∀ {earlier stage'}, Story request earlier stage' →
      (stage, some (.ok ())) ∉ earlier := fun hearlier hmem => by
    have hsome := hearlier.next_isSome_of_mem hmem
    rw [hend] at hsome
    cases hsome
  rcases h.cases_story with ⟨stage', hstory, -⟩ | ⟨earlier, stage', result, hearlier, rfl, rfl, -⟩
  · exact absurd hmem (hnot hstory)
  · rcases List.mem_append.mp hmem with hmem | hmem
    · exact absurd hmem (hnot hearlier)
    · have heq := congrArg Prod.snd (List.mem_singleton.mp hmem)
      rw [Option.some.inj heq]

end Follows

namespace SharedSink

variable {s t : SharedSink T} {name : String} {k : Nat} {stage : SinkStage T}

/-- The calls that one future has made. -/
def history (s : SharedSink T) (future : Nat) : List (SinkStage T × Poll Unit) :=
  s.calls.filterMap fun call => if call.future = future then some (call.stage, call.answer) else none

/-- Each hand-over comes right after the sink has said that it is ready, to the same future. -/
def Prepared (calls : List (InnerCall T)) : Prop :=
  ∀ before call after item, calls = before ++ call :: after → call.stage = .start item →
    before.getLast? = some ⟨call.future, .ready item, some (.ok ())⟩

structure Sound (name : String) (s : SharedSink T) : Prop where
  named : s.typeName = name
  lengths : s.requests.length = s.futures.length
  lent : ∀ (k : Nat) stage, s.futures[k]? = some (.running stage) →
    s.borrowed = true ∧ s.sink = true ∧ s.aborting = false
  silenced : s.aborting = true → s.borrowed = true ∧ s.sink = false
  alone : ∀ (j k : Nat) stage stage', s.futures[j]? = some (.running stage) →
    s.futures[k]? = some (.running stage') → j = k
  known : ∀ call ∈ s.calls, call.future < s.futures.length
  prepared : Prepared s.calls
  starting : ∀ (k : Nat) item, s.futures[k]? = some (.running (.start item)) →
    s.calls.getLast? = some ⟨k, .ready item, some (.ok ())⟩
  follows : ∀ (k : Nat) request state, s.requests[k]? = some request → s.futures[k]? = some state →
    Follows name request (s.history k) state

theorem sound_new : Sound name (new name : SharedSink T) := by
  refine ⟨rfl, rfl, ?_, ?_, ?_, ?_, ?_, ?_, ?_⟩ <;> simp [new, Prepared]

theorem history_congr (hcalls : t.calls = s.calls) : t.history k = s.history k := by
  rw [history, history, hcalls]

theorem history_concat {c : InnerCall T} (hcalls : t.calls = s.calls ++ [c]) :
    t.history k =
      s.history k ++ if c.future = k then [(c.stage, c.answer)] else [] := by
  rw [history, history, hcalls, List.filterMap_append, List.filterMap_cons, List.filterMap_nil]
  by_cases heq : c.future = k
  · rw [if_pos heq, if_pos heq]
  · rw [if_neg heq, if_neg heq]

theorem Prepared.concat {calls : List (InnerCall T)} {call : InnerCall T} (h : Prepared calls)
    (hcall : ∀ item, call.stage = .start item →
      calls.getLast? = some ⟨call.future, .ready item, some (.ok ())⟩) :
    Prepared (calls ++ [call]) := by
  intro before call' after item hsplit hstage
  rcases Positions.cases_of_concat_eq hsplit with ⟨rfl, rfl, -⟩ | ⟨rest, -, hsplit⟩
  · exact hcall item hstage
  · exact h before call' rest item hsplit hstage

theorem Sound.idle (h : s.Sound name) (hfree : s.borrowed = false) (j : Nat) (stage : SinkStage T) :
    s.futures[j]? ≠ some (.running stage) := fun hj => by
  rw [(h.lent j stage hj).1] at hfree
  cases hfree

theorem Sound.request (h : s.Sound name) {state : SinkFuture T} (hk : s.futures[k]? = some state) :
    ∃ request, s.requests[k]? = some request := by
  have hlt : k < s.requests.length := h.lengths ▸ (List.getElem?_eq_some_iff.mp hk).1
  exact ⟨_, List.getElem?_eq_getElem hlt⟩

theorem Sound.spawn (h : s.Sound name) (request : Option T) :
    (s.spawn request (.first request)).Sound name := by
  have hrunning : ∀ {j : Nat} {stage : SinkStage T},
      (s.spawn request (.first request)).futures[j]? = some (.running stage) →
        s.futures[j]? = some (.running stage) := by
    intro j stage hj
    rcases Positions.cases_of_concat hj with ⟨-, heq⟩ | hj
    · cases heq
    · exact hj
  have hlength : (s.spawn request (.first request)).futures.length = s.futures.length + 1 := by
    rw [SharedSink.spawn, List.length_append, List.length_singleton]
  refine ⟨h.named, ?_, fun k stage hk => h.lent k stage (hrunning hk), h.silenced,
    fun j k stage stage' hj hk => h.alone j k stage stage' (hrunning hj) (hrunning hk), ?_,
    h.prepared, fun k item hk => h.starting k item (hrunning hk), ?_⟩
  · rw [hlength, SharedSink.spawn, List.length_append, List.length_singleton, h.lengths]
  · intro call hcall
    rw [hlength]
    exact Nat.lt_succ_of_lt (h.known call hcall)
  · intro k request' state hrequest hstate
    rw [history_congr (t := s.spawn request (.first request)) (s := s) rfl]
    rcases Positions.cases_of_concat hstate with ⟨rfl, rfl⟩ | hstate
    · have hnew : s.history s.futures.length = [] := by
        refine List.filterMap_eq_nil_iff.mpr fun call hcall => ?_
        rw [if_neg (Nat.ne_of_lt (h.known call hcall))]
      rcases Positions.cases_of_concat hrequest with ⟨-, rfl⟩ | hrequest
      · rw [hnew]
        exact ⟨.first, by cases request' <;> rfl⟩
      · have hlt := (List.getElem?_eq_some_iff.mp hrequest).1
        rw [h.lengths] at hlt
        omega
    · have hlt := (List.getElem?_eq_some_iff.mp hstate).1
      rcases Positions.cases_of_concat hrequest with ⟨heq, -⟩ | hrequest
      · rw [h.lengths] at heq
        omega
      · exact h.follows k request' state hrequest hstate

/-- A future that is not inside the inner sink comes to an end, or is given up. -/
theorem Sound.settle (h : s.Sound name) {before state : SinkFuture T}
    (hk : s.futures[k]? = some before) (hidle : ∀ stage, state ≠ .running stage)
    (hfollows : ∀ request, s.requests[k]? = some request →
      Follows name request (s.history k) state) : (s.setFuture k state).Sound name := by
  have hrunning : ∀ {j : Nat} {stage : SinkStage T},
      (s.setFuture k state).futures[j]? = some (.running stage) →
        s.futures[j]? = some (.running stage) := by
    intro j stage hj
    rcases Positions.cases_of_set hj with ⟨-, heq⟩ | ⟨-, hj⟩
    · exact absurd heq.symm (hidle stage)
    · exact hj
  refine ⟨h.named, ?_, fun k stage hk => h.lent k stage (hrunning hk), h.silenced,
    fun j k stage stage' hj hk => h.alone j k stage stage' (hrunning hj) (hrunning hk), ?_,
    h.prepared, fun k item hk => h.starting k item (hrunning hk), ?_⟩
  · rw [setFuture, List.length_set, h.lengths]
  · rw [setFuture, List.length_set]
    exact h.known
  · intro j request state' hrequest hstate
    rw [history_congr (t := s.setFuture k state) (s := s) rfl]
    rcases Positions.cases_of_set hstate with ⟨rfl, rfl⟩ | ⟨-, hstate⟩
    · exact hfollows request hrequest
    · exact h.follows j request state' hrequest hstate

/-- A future takes the sink, or returns from it. -/
theorem Sound.take (h : s.Sound name) {before state : SinkFuture T}
    (hk : s.futures[k]? = some before)
    (hothers : ∀ (j : Nat) stage, s.futures[j]? = some (.running stage) → j = k)
    (hfree : s.sink = true ∧ s.aborting = false)
    (ht : t = { s with
      borrowed := t.borrowed, calls := t.calls, futures := s.futures.set k state })
    (hborrowed : ∀ stage, state = .running stage → t.borrowed = true)
    (hcalls : t.calls = s.calls ∨ ∃ stage answer, before = .running stage ∧
      t.calls = s.calls ++ [⟨k, stage, answer⟩])
    (hstarting : ∀ item, state = .running (.start item) →
      t.calls.getLast? = some ⟨k, .ready item, some (.ok ())⟩)
    (hfollows : ∀ request, s.requests[k]? = some request →
      Follows name request (t.history k) state) : t.Sound name := by
  have hfutures : t.futures = s.futures.set k state := by rw [ht]
  have hrequests : t.requests = s.requests := by rw [ht]
  have hsink : t.sink = s.sink := by rw [ht]
  have haborting : t.aborting = s.aborting := by rw [ht]
  have hlt : k < s.futures.length := (List.getElem?_eq_some_iff.mp hk).1
  have hlength : t.futures.length = s.futures.length := by rw [hfutures, List.length_set]
  have hrunning : ∀ {j : Nat} {stage : SinkStage T}, t.futures[j]? = some (.running stage) →
      j = k ∧ state = .running stage := by
    intro j stage hj
    rw [hfutures] at hj
    rcases Positions.cases_of_set hj with ⟨rfl, heq⟩ | ⟨hne, hj⟩
    · exact ⟨rfl, heq.symm⟩
    · exact absurd (hothers j stage hj) hne
  refine ⟨by rw [ht]; exact h.named, ?_, ?_, ?_, ?_, ?_, ?_, ?_, ?_⟩
  · rw [hrequests, hlength, h.lengths]
  · intro j stage hj
    obtain ⟨-, hstate⟩ := hrunning hj
    rw [hsink, haborting]
    exact ⟨hborrowed stage hstate, hfree⟩
  · intro hsilent
    rw [haborting, hfree.2] at hsilent
    cases hsilent
  · intro i j stage stage' hi hj
    rw [(hrunning hi).1, (hrunning hj).1]
  · intro call hcall
    rw [hlength]
    rcases hcalls with hcalls | ⟨stage, answer, -, hcalls⟩
    · exact h.known call (hcalls ▸ hcall)
    · rw [hcalls] at hcall
      rcases List.mem_append.mp hcall with hcall | hcall
      · exact h.known call hcall
      · rw [List.mem_singleton.mp hcall]
        exact hlt
  · rcases hcalls with hcalls | ⟨stage, answer, rfl, hcalls⟩
    · rw [hcalls]
      exact h.prepared
    · rw [hcalls]
      refine h.prepared.concat fun item hstart => ?_
      obtain rfl : stage = .start item := hstart
      exact h.starting k item hk
  · intro j item hj
    obtain ⟨rfl, hstate⟩ := hrunning hj
    exact hstarting item hstate
  · intro j request state' hrequest hstate
    rw [hrequests] at hrequest
    rw [hfutures] at hstate
    rcases Positions.cases_of_set hstate with ⟨rfl, rfl⟩ | ⟨hne, hstate⟩
    · exact hfollows request hrequest
    · have hsame : t.history j = s.history j := by
        rcases hcalls with hcalls | ⟨stage, answer, -, hcalls⟩
        · exact history_congr hcalls
        · rw [history_concat hcalls, if_neg (Ne.symm hne), List.append_nil]
      rw [hsame]
      exact h.follows j request state' hrequest hstate

theorem enter_of_free {s : SharedSink T} (hfree : s.borrowed = false) (hsink : s.sink = true) :
    s.enter k stage = { s with borrowed := true, futures := s.futures.set k (.running stage) } := by
  simp [enter, setFuture, hfree, hsink]

theorem Sound.enter (h : s.Sound name) (hk : s.futures[k]? = some (.suspended stage)) :
    (s.enter k stage).Sound name := by
  have hstory : ∀ request, s.requests[k]? = some request →
      Story request (s.history k) stage ∧ stage.isStart = false := fun request hrequest =>
    h.follows k request _ hrequest hk
  have hrefused : ∀ error, error = .borrow .exclusive name ∨ error = aborted →
      (s.setFuture k (.finished (.error error))).Sound name := fun error herror =>
    h.settle hk nofun fun request hrequest =>
      Or.inl ⟨herror, stage, (hstory request hrequest).1⟩
  cases hborrowed : s.borrowed with
  | true =>
      rw [SharedSink.enter, if_pos hborrowed]
      exact hrefused s.inUse (Or.inl (by rw [inUse, h.named]))
  | false =>
      cases hsink : s.sink with
      | false =>
          rw [SharedSink.enter, if_neg (by rw [hborrowed]; nofun), if_neg (by rw [hsink]; nofun)]
          exact hrefused aborted (Or.inr rfl)
      | true =>
          have hcalm : s.aborting = false := by
            cases haborting : s.aborting with
            | false => rfl
            | true =>
                rw [(h.silenced haborting).2] at hsink
                cases hsink
          rw [enter_of_free hborrowed hsink]
          refine h.take hk (fun j stage' hj => absurd hj (h.idle hborrowed j stage'))
            ⟨hsink, hcalm⟩ rfl (fun _ _ => rfl) (Or.inl rfl) ?_ ?_
          · rintro item ⟨⟩
            obtain ⟨request, hrequest⟩ := h.request hk
            cases (hstory request hrequest).2
          · intro request hrequest
            exact (hstory request hrequest).1

/-- The three ways on from a call of the inner sink. -/
theorem receive_cases {s : SharedSink T} {answer : Poll Unit} (hsink : s.sink = true)
    (ht : s.receive k stage answer = some t) : ∃ state borrowed,
      t = { s with
        borrowed := borrowed, calls := s.calls ++ [⟨k, stage, answer⟩]
        futures := s.futures.set k state } ∧
      ((stage.next answer = some stage ∧ stage.isStart = false ∧ state = .suspended stage) ∨
        (∃ next, stage.next answer = some next ∧ state = .running next ∧ borrowed = true ∧
          answer = some (.ok ()) ∧ ∀ item, next = .start item → stage = .ready item) ∨
        ∃ result, answer = some result ∧ state = .finished result ∧
          (result = .ok () → stage = .flush ∨ stage = .close)) := by
  have hgo : ∀ next, (enter { s with
        borrowed := false, calls := s.calls ++ [⟨k, stage, answer⟩] } k next) =
      { s with
        borrowed := true, calls := s.calls ++ [⟨k, stage, answer⟩]
        futures := s.futures.set k (.running next) } := fun next => enter_of_free rfl hsink
  rcases answer with _ | error | ⟨⟨⟩⟩
  · cases stage with
    | start item => cases ht
    | _ => exact ⟨_, _, (Option.some.inj ht).symm, Or.inl ⟨rfl, rfl, rfl⟩⟩
  · have hfinished : ∀ stage : SinkStage T, s.receive k stage (some (.error error)) = some
        { s with
          borrowed := false, calls := s.calls ++ [⟨k, stage, some (.error error)⟩]
          futures := s.futures.set k (.finished (.error error)) } := by
      intro stage
      cases stage <;> rfl
    rw [hfinished] at ht
    exact ⟨_, _, (Option.some.inj ht).symm, Or.inr (Or.inr ⟨_, rfl, rfl, nofun⟩)⟩
  · cases stage with
    | ready item =>
        refine ⟨_, _, ((hgo (.start item)).symm.trans (Option.some.inj ht)).symm,
          Or.inr (Or.inl ⟨_, rfl, rfl, rfl, rfl, fun _ heq => by cases heq; rfl⟩)⟩
    | start item =>
        exact ⟨_, _, ((hgo .flush).symm.trans (Option.some.inj ht)).symm,
          Or.inr (Or.inl ⟨_, rfl, rfl, rfl, rfl, nofun⟩)⟩
    | flush =>
        exact ⟨_, _, (Option.some.inj ht).symm, Or.inr (Or.inr ⟨_, rfl, rfl, fun _ => Or.inl rfl⟩)⟩
    | close =>
        exact ⟨_, _, (Option.some.inj ht).symm, Or.inr (Or.inr ⟨_, rfl, rfl, fun _ => Or.inr rfl⟩)⟩

theorem Sound.receive (h : s.Sound name) (hk : s.futures[k]? = some (.running stage))
    {answer : Poll Unit} (ht : s.receive k stage answer = some t) : t.Sound name := by
  obtain ⟨-, hsink, hcalm⟩ := h.lent k stage hk
  obtain ⟨state, borrowed, rfl, hways⟩ := receive_cases hsink ht
  refine h.take hk (fun j stage' hj => h.alone j k stage' stage hj hk) ⟨hsink, hcalm⟩ rfl ?_
    (Or.inr ⟨stage, answer, rfl, rfl⟩) ?_ ?_
  · rintro stage' rfl
    rcases hways with ⟨-, -, hstate⟩ | ⟨next, -, -, hborrowed, -⟩ | ⟨result, -, hstate, -⟩
    · cases hstate
    · exact hborrowed
    · cases hstate
  · rintro item rfl
    rcases hways with ⟨-, -, hstate⟩ | ⟨next, -, hstate, -, hok, hready⟩ | ⟨result, -, hstate, -⟩
    · cases hstate
    · obtain rfl : SinkStage.start item = next := SinkFuture.running.inj hstate
      rw [hok, hready item rfl, List.getLast?_append, List.getLast?_singleton, Option.some_or]
    · cases hstate
  · intro request hrequest
    have hstory : Story request (s.history k) stage := h.follows k request _ hrequest hk
    rw [history_concat (s := s) (c := ⟨k, stage, answer⟩) rfl, if_pos rfl]
    rcases hways with ⟨hnext, hstart, rfl⟩ | ⟨next, hnext, rfl, -⟩ | ⟨result, rfl, rfl, hresult⟩
    · exact ⟨hstory.next hnext, hstart⟩
    · exact hstory.next hnext
    · rcases result with error | ⟨⟨⟩⟩
      · exact Or.inr ⟨_, stage, hstory, rfl⟩
      · exact ⟨_, stage, hstory, hresult rfl, rfl⟩

theorem Sound.step (h : s.Sound name) {event : Event T} (ht : s.step event = some t) :
    t.Sound name := by
  cases event with
  | send item => exact Option.some.inj ht ▸ h.spawn (some item)
  | close => exact Option.some.inj ht ▸ h.spawn none
  | poll k =>
      simp only [SharedSink.step] at ht
      split at ht
      next stage hk => exact Option.some.inj ht ▸ h.enter hk
      next => cases ht
  | answer k answer =>
      simp only [SharedSink.step] at ht
      split at ht
      next stage hk => exact h.receive hk ht
      next => cases ht
  | abort =>
      simp only [SharedSink.step, Option.some.injEq] at ht
      split at ht
      next => exact ht ▸ h
      next hfree =>
        have hidle := h.idle (Bool.eq_false_iff.mpr hfree)
        subst ht
        exact ⟨h.named, h.lengths, fun j stage hj => absurd hj (hidle j stage),
          fun haborting => ⟨haborting, rfl⟩, h.alone, h.known, h.prepared, h.starting, h.follows⟩
  | released =>
      simp only [SharedSink.step] at ht
      split at ht
      next haborting =>
        obtain rfl := Option.some.inj ht
        have hidle : ∀ (j : Nat) stage, s.futures[j]? ≠ some (.running stage) := fun j stage hj => by
          rw [(h.lent j stage hj).2.2] at haborting
          cases haborting
        exact ⟨h.named, h.lengths, fun j stage hj => absurd hj (hidle j stage), nofun,
          h.alone, h.known, h.prepared, h.starting, h.follows⟩
      next => cases ht
  | drop k =>
      simp only [SharedSink.step] at ht
      split at ht
      next stage hk =>
        exact Option.some.inj ht ▸ h.settle hk nofun fun request hrequest =>
          ⟨stage, (h.follows k request _ hrequest hk).1⟩
      next => exact Option.some.inj ht ▸ h
      next => cases ht

theorem mem_history {answer : Poll Unit} :
    (stage, answer) ∈ s.history k ↔ ⟨k, stage, answer⟩ ∈ s.calls := by
  rw [history, List.mem_filterMap]
  constructor
  · rintro ⟨call, hcall, heq⟩
    split at heq
    next hfuture =>
      obtain ⟨rfl, rfl⟩ := Prod.mk.inj (Option.some.inj heq)
      exact hfuture ▸ hcall
    next => cases heq
  · intro hcall
    exact ⟨_, hcall, if_pos rfl⟩

/-- The items a future has handed to the inner sink, with what that gave. -/
def handed (s : SharedSink T) (future : Nat) : List (T × Poll Unit) :=
  (s.history future).filterMap fun call =>
    match call.1 with
    | .start item => some (item, call.2)
    | _ => none

theorem handed_eq (s : SharedSink T) (k : Nat) :
    s.handed k = (Story.starts (s.history k)).filterMap fun call =>
      match call.1 with
      | .start item => some (item, call.2)
      | _ => none := by
  rw [handed, Story.starts, List.filterMap_filter]
  refine List.filterMap_congr fun call _ => ?_
  rcases call with ⟨_ | _ | _ | _, answer⟩ <;> rfl

theorem Sound.future (h : s.Sound name) {request : Option T}
    (hrequest : s.requests[k]? = some request) :
    ∃ state, s.futures[k]? = some state ∧ Follows name request (s.history k) state := by
  have hlt : k < s.futures.length := h.lengths ▸ (List.getElem?_eq_some_iff.mp hrequest).1
  exact ⟨_, List.getElem?_eq_getElem hlt, h.follows k request _ hrequest
    (List.getElem?_eq_getElem hlt)⟩

theorem Sound.acknowledged_iff (h : s.Sound name) {item : T}
    (hrequest : s.requests[k]? = some (some item)) :
    s.futures[k]? = some (.finished (.ok ())) ↔ ∃ before after,
      s.calls = before ++ ⟨k, .flush, some (.ok ())⟩ :: after ∧
        ⟨k, .start item, some (.ok ())⟩ ∈ before := by
  obtain ⟨state, hstate, hfollows⟩ := h.future hrequest
  constructor
  · intro hfinished
    obtain rfl : state = .finished (.ok ()) := Option.some.inj (hstate.symm.trans hfinished)
    obtain ⟨earlier, stage, hearlier, hstage, hhistory⟩ := hfollows
    rcases hearlier.send_cases with ⟨hready, -⟩ | ⟨rfl, hstarts⟩
    · rcases hstage with rfl | rfl <;> rcases hready with hready | hready <;> cases hready
    · obtain ⟨before, rest, hcalls, hbefore, hrest⟩ := List.filterMap_eq_append_iff.mp hhistory
      obtain ⟨between, call, after, rfl, -, hcall, -⟩ := List.filterMap_eq_cons_iff.mp hrest
      split at hcall
      next hfuture =>
        obtain ⟨hflush, hok⟩ := Prod.mk.inj (Option.some.inj hcall)
        refine ⟨before ++ between, after, ?_, ?_⟩
        · rw [hcalls, List.append_assoc, ← hfuture, ← hflush, ← hok]
        · have hstart : (SinkStage.start item, some (.ok ())) ∈ earlier := by
            have hmem : (SinkStage.start item, some (.ok ())) ∈ Story.starts earlier := by
              rw [hstarts]
              exact List.mem_singleton_self _
            exact (List.mem_filter.mp hmem).1
          rw [← hbefore] at hstart
          have hmem := (mem_history (s := { s with calls := before })).mp hstart
          exact List.mem_append_left _ hmem
      next => cases hcall
  · rintro ⟨before, after, hcalls, -⟩
    have hmem : (SinkStage.flush, some (.ok ())) ∈ s.history k := by
      rw [mem_history, hcalls]
      exact List.mem_append_right _ List.mem_cons_self
    rw [hstate, hfollows.finished_of_mem rfl hmem]

theorem Sound.closed_iff (h : s.Sound name) (hrequest : s.requests[k]? = some none) :
    s.futures[k]? = some (.finished (.ok ())) ↔ ⟨k, .close, some (.ok ())⟩ ∈ s.calls := by
  obtain ⟨state, hstate, hfollows⟩ := h.future hrequest
  rw [← mem_history, hstate]
  constructor
  · intro hfinished
    obtain rfl : state = .finished (.ok ()) := Option.some.inj hfinished
    obtain ⟨earlier, stage, hearlier, -, hhistory⟩ := hfollows
    obtain ⟨rfl, -⟩ := hearlier.close_cases
    rw [hhistory]
    exact List.mem_append_right _ (List.mem_singleton_self _)
  · intro hmem
    rw [hfollows.finished_of_mem rfl hmem]

theorem Sound.error_cases (h : s.Sound name) {error : Error}
    (hk : s.futures[k]? = some (.finished (.error error))) :
    error = .borrow .exclusive name ∨ error = aborted ∨
      ∃ stage, ⟨k, stage, some (.error error)⟩ ∈ s.calls := by
  obtain ⟨request, hrequest⟩ := h.request hk
  rcases h.follows k request _ hrequest hk with ⟨hrefused | haborted, -⟩ | ⟨earlier, stage, -, hhistory⟩
  · exact Or.inl hrefused
  · exact Or.inr (Or.inl haborted)
  · refine Or.inr (Or.inr ⟨stage, ?_⟩)
    rw [← mem_history, hhistory]
    exact List.mem_append_right _ (List.mem_singleton_self _)

theorem calls_enter (s : SharedSink T) (k : Nat) (stage : SinkStage T) :
    (s.enter k stage).calls = s.calls ∧ (s.enter k stage).sink = s.sink := by
  unfold enter setFuture
  split
  · exact ⟨rfl, rfl⟩
  · split <;> exact ⟨rfl, rfl⟩

/-- Nothing calls a sink that has been aborted. -/
theorem Sound.silent (h : s.Sound name) (hsink : s.sink = false) {event : Event T}
    (ht : s.step event = some t) : t.sink = false ∧ t.calls = s.calls := by
  cases event with
  | send item => exact Option.some.inj ht ▸ ⟨hsink, rfl⟩
  | close => exact Option.some.inj ht ▸ ⟨hsink, rfl⟩
  | poll k =>
      simp only [SharedSink.step] at ht
      split at ht
      next stage hk =>
        obtain ⟨hcalls, hsame⟩ := calls_enter s k stage
        exact Option.some.inj ht ▸ ⟨hsame.trans hsink, hcalls⟩
      next => cases ht
  | answer k answer =>
      simp only [SharedSink.step] at ht
      split at ht
      next stage hk =>
        rw [(h.lent k stage hk).2.1] at hsink
        cases hsink
      next => cases ht
  | abort =>
      simp only [SharedSink.step, Option.some.injEq] at ht
      split at ht
      next => exact ht ▸ ⟨hsink, rfl⟩
      next => exact ht ▸ ⟨rfl, rfl⟩
  | released =>
      simp only [SharedSink.step] at ht
      split at ht
      next => exact Option.some.inj ht ▸ ⟨hsink, rfl⟩
      next => cases ht
  | drop k =>
      simp only [SharedSink.step] at ht
      split at ht
      next => exact Option.some.inj ht ▸ ⟨hsink, rfl⟩
      next => exact Option.some.inj ht ▸ ⟨hsink, rfl⟩
      next => cases ht

/-- **The contract of a sink.** Whatever the order in which the futures are polled and dropped and
whatever the inner sink does in its calls: it is never inside two calls, an item is handed over only
right after it has said to be ready, each item at most once, a `send` succeeds exactly when its item
has been taken and flushed after that, and once aborted the sink is never called again. -/
theorem sends_keep_contract {typeName : String} {events : List (Event T)} {s : SharedSink T}
    (h : (machine T).run (new typeName) events = some s) :
    (∀ (j k : Nat) stage stage', s.futures[j]? = some (.running stage) →
      s.futures[k]? = some (.running stage') → j = k) ∧
    (∀ before call after item, s.calls = before ++ call :: after → call.stage = .start item →
      before.getLast? = some ⟨call.future, .ready item, some (.ok ())⟩) ∧
    (∀ (k : Nat) item, s.requests[k]? = some (some item) →
      (s.handed k = [] ∨ ∃ answer, s.handed k = [(item, answer)]) ∧
      (s.futures[k]? = some (.finished (.ok ())) ↔ ∃ before after,
        s.calls = before ++ ⟨k, .flush, some (.ok ())⟩ :: after ∧
          ⟨k, .start item, some (.ok ())⟩ ∈ before)) ∧
    (∀ k : Nat, s.requests[k]? = some none → s.handed k = [] ∧
      (s.futures[k]? = some (.finished (.ok ())) ↔ ⟨k, .close, some (.ok ())⟩ ∈ s.calls)) ∧
    (∀ (k : Nat) error, s.futures[k]? = some (.finished (.error error)) →
      error = .borrow .exclusive typeName ∨ error = aborted ∨
        ∃ stage, ⟨k, stage, some (.error error)⟩ ∈ s.calls) ∧
    (s.sink = false → ∀ later t, (machine T).run s later = some t → t.calls = s.calls) := by
  have hstep : ∀ s event t, Sound typeName s → (machine T).step s event = some t →
      Sound typeName t := fun _ _ _ hs ht => hs.step ht
  have hsound : Sound typeName s := Machine.run_invariant hstep sound_new h
  refine ⟨hsound.alone, hsound.prepared, fun k item hrequest => ⟨?_, hsound.acknowledged_iff hrequest⟩,
    fun k hrequest => ⟨?_, hsound.closed_iff hrequest⟩, fun k error => hsound.error_cases, ?_⟩
  · obtain ⟨state, -, hfollows⟩ := hsound.future hrequest
    rw [handed_eq]
    rcases hfollows.starts_send with hstarts | ⟨answer, hstarts⟩
    · exact Or.inl (by rw [hstarts]; rfl)
    · exact Or.inr ⟨answer, by rw [hstarts]; rfl⟩
  · obtain ⟨state, -, hfollows⟩ := hsound.future hrequest
    rw [handed_eq, hfollows.starts_close]
    rfl
  · intro hsink later t hrun
    have hsilent : ∀ u event u', (Sound typeName u ∧ u.sink = false ∧ u.calls = s.calls) →
        (machine T).step u event = some u' →
          Sound typeName u' ∧ u'.sink = false ∧ u'.calls = s.calls := by
      rintro u event u' ⟨hu, husink, hcalls⟩ hu'
      obtain ⟨hsink', hcalls'⟩ := hu.silent husink hu'
      exact ⟨hu.step hu', hsink', hcalls'.trans hcalls⟩
    exact (Machine.run_invariant hsilent ⟨hsound, hsink, rfl⟩ hrun).2.2

/-- An item that is sent, accepted and flushed. -/
theorem sends_keep_contract_flushed :
    let s : SharedSink Nat := ⟨"Sender", true, false, false, [some 7], [.finished (.ok ())],
      [⟨0, .ready 7, some (.ok ())⟩, ⟨0, .start 7, some (.ok ())⟩, ⟨0, .flush, some (.ok ())⟩]⟩
    (s.handed 0 = [] ∨ ∃ answer, s.handed 0 = [(7, answer)]) ∧
      (s.futures[0]? = some (.finished (.ok ())) ↔ ∃ before after,
        s.calls = before ++ ⟨0, .flush, some (.ok ())⟩ :: after ∧
          ⟨0, .start 7, some (.ok ())⟩ ∈ before) := by
  intro s
  have hrun : (machine Nat).run (new "Sender") [.send 7, .poll 0, .answer 0 (some (.ok ())),
      .answer 0 (some (.ok ())), .answer 0 (some (.ok ()))] = some s := rfl
  exact (sends_keep_contract hrun).2.2.1 0 7 rfl

end SharedSink

end GuestJs
