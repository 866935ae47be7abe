import GuestJs.Host.AsyncIterable
import GuestJs.Proof.StreamOrder

/-!
# Returns and the calls before them

A call of `next` waits for its turn, and `return` does not: it closes the stream under the calls that
wait. They are served as if it had not been called only where the stream had nothing left for them.
-/

namespace GuestJs

open Transition

namespace AsyncIterable

variable {T : Type} {script : Nat → StreamStep T} {s t : AsyncIterable T} {call : Nat}

/-- What the stream has for a call when no `return` is made: the outcome of its number, unless the
stream is over before. -/
def served (script : Nat → StreamStep T) (call : Nat) : StreamStep T :=
  if ∀ earlier < call, (script earlier).isItem = true then script call else none

/-- What is due to a call: nothing after a `return`, and else what the stream has for it. -/
def due (script : Nat → StreamStep T) (s : AsyncIterable T) (call : Nat) : StreamStep T :=
  if ∃ made ∈ s.returns, made ≤ call then none else served script call

/-- Every call that has settled has got what is due to it. -/
def InOrder (script : Nat → StreamStep T) (s : AsyncIterable T) : Prop :=
  ∀ call step, s.shared.calls[call]? = some (.finished step) →
    settlement step = settlement (due script s call)

/-- The stream gives the outcomes of its script, whenever it is ready. -/
def Follows (script : Nat → StreamStep T) (s : AsyncIterable T) : Event T → Prop
  | .answer _ (some step) => step = script s.shared.outcomes.length
  | _ => True

/-- At a `return`, the stream has nothing for the calls that have no outcome yet. A `return` from
inside the stream fails: there it has nothing for the calls that come. -/
def ReturnsInTurn (script : Nat → StreamStep T) (s : AsyncIterable T) : Event T → Prop
  | .return =>
      if s.shared.borrowed then served script s.shared.calls.length = none
      else s.shared.stream = false ∨ ∀ call < s.shared.calls.length,
        s.shared.outcomes.length ≤ call → served script call = none
  | _ => True

theorem served_eq_none_of_not_item {earlier : Nat} (h : (script earlier).isItem = false)
    (hlt : earlier < call) : served script call = none := by
  unfold served
  refine if_neg fun hall => ?_
  rw [hall earlier hlt] at h
  cases h

/-- Where the stream is over for a call, it is over for the calls after it. -/
theorem served_eq_none_of_le {later : Nat} (h : served script call = none) (hle : call ≤ later) :
    served script later = none := by
  obtain rfl | hlt := Nat.eq_or_lt_of_le hle
  · exact h
  · by_cases hall : ∀ earlier < call, (script earlier).isItem = true
    · rw [served, if_pos hall] at h
      exact served_eq_none_of_not_item (by rw [h]; rfl) hlt
    · simp only [not_forall, Bool.not_eq_true] at hall
      obtain ⟨earlier, hearlier, hitem⟩ := hall
      exact served_eq_none_of_not_item hitem (Nat.lt_trans hearlier hlt)

/-- What holds of an iterator at every moment, when its returns come in turn. -/
structure Sound (script : Nat → StreamStep T) (s : AsyncIterable T) : Prop where
  ordered : s.shared.Ordered
  scripted : ∀ (call : Nat) step, s.shared.outcomes[call]? = some step → step = script call
  gone : s.shared.stream = false → (∃ step ∈ s.shared.outcomes, step.isItem = false) ∨
    ∃ made ∈ s.returns, ∀ call, s.shared.outcomes.length ≤ call → call < made →
      served script call = none
  returned : ∀ made ∈ s.returns,
    (s.shared.stream = false ∧ s.shared.outcomes.length ≤ made) ∨ served script made = none

theorem sound_new : Sound script new :=
  ⟨SharedStream.ordered_new, nofun, nofun, nofun⟩

theorem onShared_eq {e : SharedStream.Event T} (h : s.onShared e = some t) :
    s.shared.step e = some t.shared ∧ t.returns = s.returns := by
  obtain ⟨shared, hstep, rfl⟩ := Option.map_eq_some_iff.mp h
  exact ⟨hstep, rfl⟩

/-- A step of the shared stream that gives no outcome and does not close it. -/
theorem Sound.keep (h : s.Sound script) (hordered : t.shared.Ordered)
    (houtcomes : t.shared.outcomes = s.shared.outcomes)
    (hstream : t.shared.stream = s.shared.stream) (hreturns : t.returns = s.returns) :
    t.Sound script where
  ordered := hordered
  scripted := by
    rw [houtcomes]
    exact h.scripted
  gone := by
    rw [houtcomes, hstream, hreturns]
    exact h.gone
  returned := by
    rw [houtcomes, hstream, hreturns]
    exact h.returned

/-- An outcome is the next of the script, and comes while the stream is there. -/
theorem Sound.receive (h : s.Sound script) (hordered : t.shared.Ordered) {step : StreamStep T}
    (hscript : step = script s.shared.outcomes.length)
    (houtcomes : t.shared.outcomes = s.shared.outcomes ++ [step]) (hthere : s.shared.stream = true)
    (hstream : t.shared.stream = step.isItem) (hreturns : t.returns = s.returns) :
    t.Sound script where
  ordered := hordered
  scripted := by
    intro call given hgiven
    rw [houtcomes] at hgiven
    by_cases hlt : call < s.shared.outcomes.length
    · rw [List.getElem?_append_left hlt] at hgiven
      exact h.scripted call given hgiven
    · rw [List.getElem?_append_right (Nat.le_of_not_lt hlt), List.getElem?_singleton] at hgiven
      split at hgiven
      · have hcall : call = s.shared.outcomes.length := by omega
        rw [hcall, ← hscript]
        exact (Option.some.inj hgiven).symm
      · cases hgiven
  gone := by
    intro hgone
    rw [houtcomes]
    exact Or.inl ⟨step, List.mem_append_right _ List.mem_cons_self, hstream.symm.trans hgone⟩
  returned := by
    intro made hmade
    rw [hreturns] at hmade
    obtain ⟨hgone, -⟩ | hnone := h.returned made hmade
    · cases hthere.symm.trans hgone
    · exact Or.inr hnone

theorem Sound.return (h : s.Sound script) (hturn : ReturnsInTurn script s .return)
    (hstep : s.step .return = some t) : t.Sound script := by
  obtain ⟨hclose, hreturns⟩ := onShared_eq hstep
  have hordered : t.shared.Ordered := h.ordered.step_invariant .close trivial hclose
  have hshared := Option.some.inj hclose
  simp only [ReturnsInTurn] at hturn
  by_cases hborrowed : s.shared.borrowed = true
  · rw [if_pos hborrowed] at hshared hturn
    refine ⟨hordered, by rw [← hshared]; exact h.scripted, fun hgone => ?_, fun made hmade => ?_⟩
    · rw [← hshared] at hgone ⊢
      refine (h.gone hgone).imp_right fun ⟨made, hmade, hnone⟩ => ⟨made, ?_, hnone⟩
      rw [hreturns]
      exact List.mem_append_left _ hmade
    · rw [hreturns, List.mem_append, List.mem_singleton] at hmade
      rw [← hshared]
      obtain hmade | rfl := hmade
      · exact h.returned made hmade
      · exact Or.inr hturn
  · rw [if_neg hborrowed] at hshared hturn
    have houtcomes : t.shared.outcomes = s.shared.outcomes := by rw [← hshared]
    have hgone : t.shared.stream = false := by rw [← hshared]
    refine ⟨hordered, by rw [houtcomes]; exact h.scripted, fun _ => ?_, fun made hmade => ?_⟩
    · rw [houtcomes, hreturns]
      obtain hbefore | hover := hturn
      · refine (h.gone hbefore).imp_right fun ⟨made, hmade, hnone⟩ => ⟨made, ?_, hnone⟩
        exact List.mem_append_left _ hmade
      · refine Or.inr ⟨s.shared.calls.length, List.mem_append_right _ List.mem_cons_self, ?_⟩
        exact fun call hle hlt => hover call hlt hle
    · rw [hreturns, List.mem_append, List.mem_singleton] at hmade
      rw [houtcomes, hgone]
      obtain hmade | rfl := hmade
      · exact (h.returned made hmade).imp_left fun ⟨_, hle⟩ => ⟨rfl, hle⟩
      · exact Or.inl ⟨rfl, h.ordered.recorded.bounded⟩

/-- What a step but a close does to the stream and its outcomes: nothing, or an answer is added. -/
theorem step_outcomes {s t : SharedStream T} {e : SharedStream.Event T} (h : s.step e = some t)
    (hclose : e ≠ .close) : (t.outcomes = s.outcomes ∧ t.stream = s.stream) ∨
      ∃ call step, e = .answer call (some step) ∧ s.calls[call]? = some .polling ∧
        t.outcomes = s.outcomes ++ [step] ∧ t.stream = (step.isItem && s.stream) := by
  have henter : ∀ call, (s.enter call).outcomes = s.outcomes ∧ (s.enter call).stream = s.stream := by
    intro call
    unfold SharedStream.enter
    split
    · exact ⟨rfl, rfl⟩
    · split <;> exact ⟨rfl, rfl⟩
  cases SharedStream.happens h with
  | next | wait | pending | release | drop | dropFinished => exact Or.inl ⟨rfl, rfl⟩
  | turn | again => exact Or.inl (henter _)
  | @ready call step hpolling =>
      exact Or.inr ⟨call, step, rfl, hpolling, SharedStream.outcomes_receive s call step,
        SharedStream.stream_receive s call step⟩
  | refuse | close => exact absurd rfl hclose

theorem Sound.onShared (h : s.Sound script) {e : SharedStream.Event T}
    (hawaited : s.shared.Awaited e) (hclose : e ≠ .close)
    (hfollows : ∀ call step, e = .answer call (some step) → step = script s.shared.outcomes.length)
    (hstep : s.onShared e = some t) : t.Sound script := by
  obtain ⟨hshared, hreturns⟩ := onShared_eq hstep
  have hordered := h.ordered.step_invariant e hawaited hshared
  obtain ⟨houtcomes, hstream⟩ | ⟨call, step, rfl, hpolling, houtcomes, hstream⟩ :=
    step_outcomes hshared hclose
  · exact h.keep hordered houtcomes hstream hreturns
  · have hthere := h.ordered.lent.present (h.ordered.lent.lent.mpr ⟨call, hpolling⟩)
    rw [hthere, Bool.and_true] at hstream
    exact h.receive hordered (hfollows call step rfl) houtcomes hthere hstream hreturns

theorem Sound.step (h : s.Sound script) {e : Event T} (hfollows : Follows script s e)
    (hturn : ReturnsInTurn script s e) (hstep : s.step e = some t) : t.Sound script := by
  cases e with
  | next => exact h.onShared (e := .next) trivial nofun nofun hstep
  | poll call => exact h.onShared (e := .poll call) trivial nofun nofun hstep
  | answer call ready =>
      refine h.onShared (e := .answer call ready) trivial nofun (fun call' step heq => ?_) hstep
      cases heq
      exact hfollows
  | release call => exact h.onShared (e := .release call) trivial nofun nofun hstep
  | «return» => exact h.return hturn hstep

/-- A call whose outcome has come has settled with what the stream had for it. -/
theorem Sound.settled_of_lt (h : s.Sound script) {step : StreamStep T}
    (hcall : s.shared.calls[call]? = some (.finished step))
    (hlt : call < s.shared.outcomes.length) : step = served script call := by
  have houtcome := List.getElem?_eq_getElem hlt
  have hstep : step = script call := by
    rw [h.ordered.recorded.received call _ step hcall rfl, List.getD_eq_getElem?_getD, houtcome]
    exact h.scripted call _ houtcome
  have hitems : ∀ earlier < call, (script earlier).isItem = true := by
    intro earlier hearlier
    have hbefore := List.getElem?_eq_getElem (Nat.lt_trans hearlier hlt)
    rw [← h.scripted earlier _ hbefore]
    exact h.ordered.recorded.items earlier _ hbefore (by omega)
  rw [served, if_pos hitems, hstep]

/-- Any other has settled with the end, and where no `return` was made before it, that is what the
stream had. -/
theorem Sound.settled_of_le (h : s.Sound script) {step : StreamStep T}
    (hcall : s.shared.calls[call]? = some (.finished step))
    (hle : s.shared.outcomes.length ≤ call) :
    step = none ∧ ((∀ made ∈ s.returns, call < made) → served script call = none) := by
  refine ⟨?_, fun hbefore => ?_⟩
  · rw [h.ordered.recorded.received call _ step hcall rfl, List.getD_eq_default _ _ hle]
  · have hgone : s.shared.stream = false := by
      by_contra hthere
      have := ((h.ordered.recorded.opened (by simpa using hthere)).2 call _ step hcall rfl).1
      omega
    obtain ⟨ending, hmem, hitem⟩ | ⟨made, hmade, hnone⟩ := h.gone hgone
    · obtain ⟨earlier, hearlier⟩ := List.mem_iff_getElem?.mp hmem
      have hlt := (List.getElem?_eq_some_iff.mp hearlier).1
      rw [h.scripted earlier ending hearlier] at hitem
      exact served_eq_none_of_not_item hitem (Nat.lt_of_lt_of_le hlt hle)
    · exact hnone call hle (hbefore made hmade)

theorem Sound.inOrder (h : s.Sound script) : s.InOrder script := by
  intro call step hcall
  suffices hstep : step = due script s call by rw [hstep]
  by_cases hlt : call < s.shared.outcomes.length
  · have hgiven := h.settled_of_lt hcall hlt
    unfold due
    split
    next hafter =>
      obtain ⟨made, hmade, hle⟩ := hafter
      obtain ⟨-, hbound⟩ | hnone := h.returned made hmade
      · omega
      · rw [hgiven, served_eq_none_of_le hnone hle]
    next => exact hgiven
  · obtain ⟨hend, hserved⟩ := h.settled_of_le hcall (Nat.le_of_not_lt hlt)
    unfold due
    split
    next => exact hend
    next hbefore =>
      rw [hend, hserved fun made hmade => Nat.lt_of_not_le fun hle => hbefore ⟨made, hmade, hle⟩]

/-- **Returns that come in turn overtake nothing.** In every run in which, at each `return`, the
stream has nothing for the calls without an outcome, every call of `next` settles with what is due to
it, whatever the polling order and the readiness of the stream. -/
theorem throughout_inOrder (script : Nat → StreamStep T) (events : List (Event T))
    (hfollows : (machine T).Along (Follows script) new events)
    (hturn : (machine T).Along (ReturnsInTurn script) new events) :
    (machine T).Throughout (InOrder script) new events := by
  have hboth := hfollows.and hturn
  have hsound := Machine.throughout_of_along (M := machine T)
    (fun s e t (hI : Sound script s) hC hstep => hI.step hC.1 hC.2 hstep) sound_new hboth
  exact hsound.mono fun s h => h.inOrder

/-- A stream of one item, whose iterator is returned when the item has come. -/
def patient : List (Event Nat) :=
  [.next, .poll 0, .answer 0 (some (some (.ok 7))), .return, .next, .poll 1]

def oneItem : Nat → StreamStep Nat
  | 0 => some (.ok 7)
  | _ => none

theorem throughout_inOrder_patient : (machine Nat).Throughout (InOrder oneItem) new patient := by
  have hnothing : ∀ call < 1, 1 ≤ call → served oneItem call = none := fun call hlt hle =>
    absurd hle (Nat.not_le_of_lt hlt)
  exact throughout_inOrder oneItem patient
    (.cons rfl trivial <| .cons rfl trivial <| .cons rfl rfl <| .cons rfl trivial <|
      .cons rfl trivial <| .cons rfl trivial trivial)
    (.cons rfl trivial <| .cons rfl trivial <| .cons rfl trivial <| .cons rfl (Or.inr hnothing) <|
      .cons rfl trivial <| .cons rfl trivial trivial)

/-- The call was made before the `return`, and its future is polled after it. -/
def overtaken : List (Event Nat) := [.next, .return, .poll 0]

/-- The call settles with the end, though the stream has an item for it. -/
theorem not_inOrder_overtaken :
    (machine Nat).Along (Follows oneItem) new overtaken ∧
      ¬(machine Nat).Throughout (InOrder oneItem) new overtaken := by
  refine ⟨.cons rfl trivial <| .cons rfl trivial <| .cons rfl trivial trivial, fun hall => ?_⟩
  have hlast := hall.last rfl
  have hsettled := hlast 0 none rfl
  cases hsettled

end AsyncIterable

end GuestJs
