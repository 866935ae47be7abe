import GuestJs.Guest.Detached
import GuestJs.Proof.GuestRegistry

/-!
# Detached values stay in their guest

Whether a detached value belongs to a guest is decided by the address of the guest's context. The
guest of a kept exception can be gone; but the exception refers to its context, which is not freed for
as long as it is kept, and so no other guest comes to have its address.
-/

namespace GuestJs.Lifetime

open Driver (GuestId)
open QuickJs

/-- What a foreign exception is raised as: an error made of its texts. -/
def retell {E : Engine} (name message : String) (stack : Option String) : Raw E Value := do
  let object ← create .error message
  request (.defineText object "name" name)
  match stack with
  | some stack => request (.defineText object "stack" stack)
  | none => pure ()
  pure object

theorem exception_of_foreign {E : Engine} {thrown : GuestException} {session : Session E}
    {error : Error} (hforeign : thrown.value.restore session.context = .error error) :
    Raise.exception (.guest thrown) session =
      retell thrown.name thrown.message thrown.stack session := by
  have hget : (get : Raw E (Session E)) session = .done (.ok session) session := rfl
  rw [Raise.exception, Process.bind_of_ok hget]
  simp only [hforeign]
  rfl

namespace Runtime

variable {runtime runtime' : Runtime} {id other : GuestId} {contextId : ContextId}

theorem owns_foldl_retain (ids : List GuestId) :
    (ids.foldl retain runtime).Owns other contextId ↔ runtime.Owns other contextId := by
  induction ids generalizing runtime with
  | nil => exact Iff.rfl
  | cons id ids ih =>
      rw [List.foldl_cons, ih]
      exact owns_retain

/-- A context comes to a guest at its construction only. -/
theorem owns_of_step {event : Event} (hstep : runtime.step event = some runtime')
    (howns : runtime'.Owns id contextId) :
    runtime.Owns id contextId ∨ event = .construct contextId ∧ id = runtime.nextId := by
  cases happens hstep with
  | newContext | abandon | missed | freeContext => exact Or.inl howns
  | @construct address =>
      have howns : (runtime.setState runtime.nextId (some ⟨address, 1⟩)).Owns id contextId := howns
      by_cases hid : id = runtime.nextId
      · right
        subst hid
        rw [owns_setState_self] at howns
        obtain ⟨count, heq⟩ := howns
        obtain rfl : address = contextId := congrArg GuestState.contextId (Option.some.inj heq)
        exact ⟨rfl, rfl⟩
      · exact Or.inl ((owns_setState_of_ne hid).mp howns)
  | clone | found => exact Or.inl (owns_retain.mp howns)
  | guests => exact Or.inl ((owns_foldl_retain _).mp howns)
  | drop hstate => exact Or.inl ((owns_setCount hstate).mp howns)
  | @last guest address =>
      have howns : (runtime.setState guest (some ⟨address, 0⟩)).Owns id contextId := howns
      by_cases hid : id = guest
      · subst hid
        rw [owns_setState_self] at howns
        simp at howns
      · exact Or.inl ((owns_setState_of_ne hid).mp howns)
  | @free guest =>
      have howns : (runtime.setState guest none).Owns id contextId := howns
      by_cases hid : id = guest
      · subst hid
        rw [owns_setState_self] at howns
        simp at howns
      · exact Or.inl ((owns_setState_of_ne hid).mp howns)

theorem nextId_retain : (runtime.retain id).nextId = runtime.nextId := by
  unfold retain
  split <;> rfl

theorem nextId_foldl_retain (ids : List GuestId) :
    (ids.foldl retain runtime).nextId = runtime.nextId := by
  induction ids generalizing runtime with
  | nil => rfl
  | cons id ids ih => rw [List.foldl_cons, ih, nextId_retain]

theorem nextId_le_of_step {event : Event} (hstep : runtime.step event = some runtime') :
    runtime.nextId ≤ runtime'.nextId := by
  cases happens hstep with
  | newContext | abandon | missed | drop | last | free | freeContext => exact Nat.le_refl _
  | construct => exact Nat.le_succ _
  | clone | found => exact Nat.le_of_eq nextId_retain.symm
  | guests => exact Nat.le_of_eq (nextId_foldl_retain _).symm

theorem contexts_retain : (runtime.retain id).contexts = runtime.contexts := by
  unfold retain
  split
  next => rfl
  next => rfl

theorem contexts_foldl_retain (ids : List GuestId) :
    (ids.foldl retain runtime).contexts = runtime.contexts := by
  induction ids generalizing runtime with
  | nil => rfl
  | cons id ids ih => rw [List.foldl_cons, ih, contexts_retain]

/-- The context is that of the guest, or of nobody since the guest is gone. -/
def Holds (runtime : Runtime) (id : GuestId) (contextId : ContextId) : Prop :=
  runtime.contexts contextId = some (.guest id) ∨ runtime.contexts contextId = some .released

theorem holds_setContext_of_ne {address : ContextId} {holder : Option Holder} (hne : contextId ≠ address)
    (h : runtime.Holds id contextId) : (runtime.setContext address holder).Holds id contextId := by
  show Function.update runtime.contexts address holder contextId = _ ∨
    Function.update runtime.contexts address holder contextId = _
  rwa [Function.update_of_ne hne]

/-- A context that is a guest's becomes nobody's before it becomes another's, and then it is freed in
between. -/
theorem holds_of_step {event : Event} (h : runtime.Holds id contextId)
    (hstep : runtime.step event = some runtime') (hfree : event ≠ .freeContext contextId) :
    runtime'.Holds id contextId := by
  have hne : ∀ {address : ContextId} {holder : Option Holder},
      runtime.contexts address = holder → holder ≠ some .released →
        (∀ other, holder ≠ some (.guest other)) → contextId ≠ address := by
    rintro address holder hcontext hreleased hguest rfl
    rcases h with h | h
    · exact hguest id (hcontext.symm.trans h)
    · exact hreleased (hcontext.symm.trans h)
  cases happens hstep with
  | newContext hcontext => exact holds_setContext_of_ne (hne hcontext nofun nofun) h
  | construct hcontext => exact holds_setContext_of_ne (hne hcontext nofun nofun) h
  | abandon hcontext => exact holds_setContext_of_ne (hne hcontext nofun nofun) h
  | clone | found =>
      unfold Holds
      rwa [contexts_retain]
  | guests =>
      unfold Holds
      rwa [contexts_foldl_retain]
  | missed | drop | last => exact h
  | @free guest address hstate =>
      by_cases heq : contextId = address
      · exact Or.inr (heq ▸ Function.update_self ..)
      · exact holds_setContext_of_ne heq h
  | @freeContext address =>
      exact holds_setContext_of_ne (fun heq => hfree (congrArg Event.freeContext heq.symm)) h

end Runtime

namespace Host

/-- A value detached in a guest is attached in that guest, as itself, and in no other; an exception of
it is raised in another guest as its texts alone. -/
def Isolated (host : Host) : Prop :=
  ∀ detached ∈ host.detached, ∀ id contextId, host.runtime.Owns id contextId →
    (detached.kept.owned.restore contextId =
      if detached.origin = id then .ok detached.kept.owned.value else .error .foreignContext) ∧
    ∀ thrown, detached.kept = .exception thrown → detached.origin ≠ id →
      ∀ (E : Engine) (session : Session E), session.context = contextId →
        Raise.exception (.guest thrown) session =
          retell thrown.name thrown.message thrown.stack session

/-- Every kept value bears the address of its guest's context, which has not become another's. -/
structure Tracked (host : Host) : Prop where
  linked : host.runtime.Linked
  known : ∀ detached ∈ host.detached, detached.origin < host.runtime.nextId
  own : ∀ detached ∈ host.detached, ∀ contextId, host.runtime.Owns detached.origin contextId →
    detached.kept.owned.context = contextId
  held : ∀ detached ∈ host.detached,
    host.runtime.Holds detached.origin detached.kept.owned.context

variable {host host' : Host} {detached : Detached} {id : GuestId}

/-- No live guest has the address in a value of another. -/
theorem Tracked.origin_eq (h : host.Tracked) (hmem : detached ∈ host.detached)
    (howns : host.runtime.Owns id detached.kept.owned.context) : detached.origin = id := by
  obtain ⟨count, hstate⟩ := howns
  have hguest := h.linked.held id _ hstate
  rcases h.held detached hmem with hheld | hheld
  · exact Holder.guest.inj (Option.some.inj (hheld.symm.trans hguest))
  · exact nomatch hheld.symm.trans hguest

theorem Tracked.isolated (h : host.Tracked) : host.Isolated := by
  intro detached hmem id contextId howns
  have hforeign : detached.origin ≠ id →
      detached.kept.owned.restore contextId = .error .foreignContext := by
    intro horigin
    rw [Owned.restore, if_neg]
    rintro rfl
    exact horigin (h.origin_eq hmem howns)
  constructor
  · by_cases horigin : detached.origin = id
    · subst horigin
      rw [if_pos rfl, Owned.restore, if_pos (h.own detached hmem contextId howns)]
    · rw [if_neg horigin]
      exact hforeign horigin
  · rintro thrown hkept horigin E session rfl
    have hrestore := hforeign horigin
    rw [hkept] at hrestore
    exact exception_of_foreign hrestore

theorem owns_keep {contextId : ContextId} :
    (host.keep detached).runtime.Owns id contextId ↔ host.runtime.Owns id contextId := by
  unfold keep
  cases detached.kept.isHandle with
  | true => exact Runtime.owns_retain
  | false => exact Iff.rfl

theorem holds_keep {contextId : ContextId} :
    (host.keep detached).runtime.Holds id contextId ↔ host.runtime.Holds id contextId := by
  unfold keep Runtime.Holds
  cases detached.kept.isHandle with
  | true =>
      show (host.runtime.retain detached.origin).contexts contextId = _ ∨
        (host.runtime.retain detached.origin).contexts contextId = _ ↔ _
      rw [Runtime.contexts_retain]
  | false => exact Iff.rfl

theorem Tracked.keep (h : host.Tracked) (hknown : detached.origin < host.runtime.nextId)
    (hown : ∀ contextId, host.runtime.Owns detached.origin contextId →
      detached.kept.owned.context = contextId)
    (hheld : host.runtime.Holds detached.origin detached.kept.owned.context) :
    (host.keep detached).Tracked := by
  have hnext : (host.keep detached).runtime.nextId = host.runtime.nextId := by
    unfold Host.keep
    cases detached.kept.isHandle with
    | true => exact Runtime.nextId_retain
    | false => rfl
  refine ⟨?_, ?_, ?_, ?_⟩
  · unfold Host.keep
    cases detached.kept.isHandle with
    | true => exact h.linked.retain detached.origin
    | false => exact h.linked
  · rw [hnext]
    exact List.forall_mem_cons.mpr ⟨hknown, h.known⟩
  · intro other hother contextId howns
    rw [owns_keep] at howns
    rcases List.mem_cons.mp hother with rfl | hmem
    · exact hown contextId howns
    · exact h.own other hmem contextId howns
  · intro other hother
    rw [holds_keep]
    rcases List.mem_cons.mp hother with rfl | hmem
    · exact hheld
    · exact h.held other hmem

/-- A context is not freed under a value that refers to it. -/
theorem ne_freeContext {event : Event} (hpermits : host.permits event = true)
    (hmem : detached ∈ host.detached) : event ≠ .freeContext detached.kept.owned.context := by
  rintro rfl
  have hnone : host.references detached.kept.owned.context = 0 := eq_of_beq hpermits
  have hpos : 0 < host.references detached.kept.owned.context :=
    List.countP_pos_iff.mpr ⟨detached, hmem, beq_self_eq_true _⟩
  omega

theorem Tracked.guest (h : host.Tracked) {event : Event} {runtime : Runtime}
    (hpermits : host.permits event = true) (hstep : host.runtime.step event = some runtime) :
    { host with runtime }.Tracked := by
  refine ⟨Runtime.linked_step h.linked hstep, ?_, ?_, ?_⟩
  · intro detached hmem
    exact Nat.lt_of_lt_of_le (h.known detached hmem) (Runtime.nextId_le_of_step hstep)
  · intro detached hmem contextId howns
    rcases Runtime.owns_of_step hstep howns with hbefore | ⟨-, horigin⟩
    · exact h.own detached hmem contextId hbefore
    · exact absurd horigin (Nat.ne_of_lt (h.known detached hmem))
  · intro detached hmem
    exact Runtime.holds_of_step (h.held detached hmem) hstep (ne_freeContext hpermits hmem)

/-- Forgetting a value is, for the others, a drop of a guest at most. -/
theorem Tracked.forget (h : host.Tracked) (hforget : host.forget detached = some host') :
    host'.Tracked := by
  have hrest : ∀ other ∈ host.detached.erase detached, other ∈ host.detached :=
    fun other hother => List.mem_of_mem_erase hother
  unfold Host.forget at hforget
  cases hhandle : detached.kept.isHandle with
  | false =>
      rw [hhandle] at hforget
      obtain rfl := Option.some.inj hforget
      exact ⟨h.linked, fun other hother => h.known other (hrest other hother),
        fun other hother => h.own other (hrest other hother),
        fun other hother => h.held other (hrest other hother)⟩
  | true =>
      rw [hhandle] at hforget
      obtain ⟨runtime, hrelease, rfl⟩ := Option.map_eq_some_iff.mp hforget
      have hstep : host.runtime.step (.drop detached.origin) = some runtime := hrelease
      refine ⟨Runtime.linked_step h.linked hstep, ?_, ?_, ?_⟩
      · intro other hother
        exact Nat.lt_of_lt_of_le (h.known other (hrest other hother))
          (Runtime.nextId_le_of_step hstep)
      · intro other hother contextId howns
        rcases Runtime.owns_of_step hstep howns with hbefore | ⟨hevent, -⟩
        · exact h.own other (hrest other hother) contextId hbefore
        · exact nomatch hevent
      · intro other hother
        exact Runtime.holds_of_step (h.held other (hrest other hother)) hstep nofun

/-- All that an event of the host can lead to. -/
inductive Happens (host : Host) : HostEvent → Host → Prop where
  | guest {event : Event} {runtime : Runtime} (hpermits : host.permits event = true)
      (hstep : host.runtime.step event = some runtime) :
      Happens host (.guest event) { host with runtime }
  | detach {id : GuestId} {kept : Kept} (howns : host.runtime.Owns id kept.owned.context) :
      Happens host (.detach id kept) (host.keep ⟨kept, id⟩)
  | clone {detached : Detached} (hmem : detached ∈ host.detached) :
      Happens host (.clone detached) (host.keep detached)
  | forget {detached : Detached} {host' : Host} (hmem : detached ∈ host.detached)
      (hforget : host.forget detached = some host') : Happens host (.forget detached) host'

theorem happens {event : HostEvent} (h : host.step event = some host') :
    host.Happens event host' := by
  cases event with
  | guest event =>
      obtain ⟨hpermits, heq⟩ := Option.ite_none_right_eq_some.mp h
      obtain ⟨runtime, hstep, rfl⟩ := Option.map_eq_some_iff.mp heq
      exact .guest hpermits hstep
  | detach id kept =>
      simp only [step] at h
      split at h
      next contextId count hstate =>
        obtain ⟨rfl, heq⟩ := Option.ite_none_right_eq_some.mp h
        obtain rfl := Option.some.inj heq
        exact .detach ⟨count, hstate⟩
      next => exact nomatch h
  | clone detached =>
      obtain ⟨⟨hmem, -⟩, heq⟩ := Option.ite_none_right_eq_some.mp h
      obtain rfl := Option.some.inj heq
      exact .clone hmem
  | forget detached =>
      obtain ⟨hmem, heq⟩ := Option.ite_none_right_eq_some.mp h
      exact .forget hmem heq

/-- **One step.** -/
theorem tracked_step {event : HostEvent} (h : host.Tracked) (hstep : host.step event = some host') :
    host'.Tracked := by
  cases happens hstep with
  | guest hpermits hruntime => exact h.guest hpermits hruntime
  | @detach id kept howns =>
      obtain ⟨count, hstate⟩ := howns
      refine h.keep ?_ ?_ (Or.inl (h.linked.held id _ hstate))
      · by_contra hunknown
        rw [h.linked.fresh id (Nat.le_of_not_lt hunknown)] at hstate
        exact nomatch hstate
      · rintro contextId ⟨count', hstate'⟩
        exact congrArg GuestState.contextId (Option.some.inj (hstate.symm.trans hstate'))
  | clone hmem => exact h.keep (h.known _ hmem) (h.own _ hmem) (h.held _ hmem)
  | forget _ hforget => exact h.forget hforget

theorem tracked_new : new.Tracked where
  linked := Runtime.linked_new
  known := by simp [new]
  own := by simp [new]
  held := by simp [new]

/-- **Detached values stay in their guest.** In every run of guests that are created and dropped, with
any reuse of the addresses of freed contexts, and of values and exceptions kept by the host: what was
detached in a guest is attached in that guest, as itself, and in no other, and is raised elsewhere as
its texts. -/
theorem throughout_isolated (events : List HostEvent) : machine.Throughout Isolated new events := by
  have hkept : ∀ host event host', Tracked host → machine.step host event = some host' →
      Tracked host' := fun _ _ _ h hstep => tracked_step h hstep
  exact (Transition.Machine.throughout_of_invariant hkept tracked_new events).mono
    fun _ h => h.isolated

/-- A context is freed and its address used again, once the exception of the guest that had it is
gone. -/
example : (machine.run new [.guest (.newContext 16), .guest (.construct 16),
    .detach 1 (.exception ⟨"object", "", none, [], ⟨.object 7, 16⟩⟩), .guest (.drop 1),
    .guest (.free 1), .forget ⟨.exception ⟨"object", "", none, [], ⟨.object 7, 16⟩⟩, 1⟩,
    .guest (.freeContext 16), .guest (.newContext 16), .guest (.construct 16)]).isSome = true := rfl

end Host

end GuestJs.Lifetime
