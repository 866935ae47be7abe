import GuestJs.Proof.Reading
import GuestJs.QuickJs.Leases
import GuestJs.QuickJs.TinyEngine

/-!
# What a view is read through

The slots of a `DataView` are read by calling the accessors on the prototype of its class. The guest
can redefine those, and then the answers are the guest's. As long as it has put no function of another
kind there, an operation on the view gives its own slots or fails, whatever the guest has done
otherwise; and a slice that has been lent stays the window of the view's own buffer, which the view
keeps in reach.
-/

namespace GuestJs.QuickJs

open Process Transition

variable {E : Engine} {environment : Environment E} {session session' : Session E} {view : Value}

/-- A slice is the window of the view's own slots, where that window's memory is. -/
structure OfSlots (heap : E.Heap) (view : Value) (bytes : Bytes) : Prop where
  window : bytes.window = ⟨(E.slots heap view).buffer, (E.slots heap view).byteOffset,
    (E.slots heap view).byteLength⟩
  memory : 0 < bytes.window.byteLength → ∃ block,
    E.block heap (E.slots heap view).buffer = some block ∧
      bytes.guard = some ⟨"ArrayBuffer", block.address⟩ ∧
      bytes.address = block.address + bytes.window.byteOffset ∧
      bytes.window.byteOffset + bytes.window.byteLength ≤ block.size

theorem Granted.heap_eq {kind : BorrowKind} {window : Window} {data size : Nat} {bytes : Bytes}
    (h : Granted session kind window data size bytes session') : session'.heap = session.heap := by
  cases h <;> rfl

theorem Granted.ofSlots {kind : BorrowKind} {window : Window} {data size : Nat} {bytes : Bytes}
    (h : Granted session kind window data size bytes session')
    (hwindow : window = ⟨(E.slots session.heap view).buffer, (E.slots session.heap view).byteOffset,
      (E.slots session.heap view).byteLength⟩)
    (hblock : E.block session.heap window.buffer = some ⟨data, size⟩) :
    OfSlots session'.heap view bytes := by
  rw [h.heap_eq]
  cases h with
  | empty _ _ hempty => exact ⟨hwindow, fun hlength => absurd hempty (Nat.ne_of_gt hlength)⟩
  | loan hrange _ _ _ =>
      have hbuffer : window.buffer = (E.slots session.heap view).buffer :=
        congrArg Window.buffer hwindow
      exact ⟨hwindow, fun _ => ⟨⟨data, size⟩, hbuffer ▸ hblock, rfl, rfl, hrange⟩⟩

theorem OfSlots.spared {heap heap' : E.Heap} {bytes : Bytes} (h : OfSlots heap view bytes)
    (hslots : E.slots heap' view = E.slots heap view)
    (hblock : ∀ block, E.block heap bytes.window.buffer = some block →
      E.block heap' bytes.window.buffer = some block) : OfSlots heap' view bytes := by
  have hbuffer : bytes.window.buffer = (E.slots heap view).buffer := congrArg Window.buffer h.window
  refine ⟨by rw [hslots]; exact h.window, fun hlength => ?_⟩
  obtain ⟨block, hfound, hrest⟩ := h.memory hlength
  rw [hslots, ← hbuffer]
  exact ⟨block, hblock block (hbuffer ▸ hfound), hrest⟩

/-! ### Reading the slots -/

namespace Engine.Accessors

variable (A : E.Accessors)

/-- The session of a guest goes on, and nothing that a view is read through changes. -/
structure Still (s s' : Session E) : Prop where
  views : LeavesViews E A.getter s.heap s'.heap
  block : Keeps E.block s.heap s'.heap

variable {A}

theorem Still.refl (s : Session E) : A.Still s s := ⟨⟨rfl, rfl, rfl⟩, fun _ _ => id⟩

theorem Still.trans (s t u : Session E) (h : A.Still s t) (h' : A.Still t u) : A.Still s u where
  views := ⟨h'.views.getter.trans h.views.getter,
    h'.views.isOwn.trans h.views.isOwn, h'.views.slots.trans h.views.slots⟩
  block := fun buffer b hb => h'.block buffer b (h.block buffer b hb)

variable (A)

theorem reading : Reading A.Still where
  refl := Still.refl
  trans := Still.trans
  request := fun {α} {p} hp _ => by
    have hheap : Process.Moves (fun h h' => LeavesViews E A.getter h h' ∧ Keeps E.block h h')
        (E.primitive p) fun _ _ => True := fun heap =>
      ((A.read p heap hp).and (E.block_read p heap hp)).mono fun _ _ _ h => ⟨h, fun _ _ => trivial⟩
    exact hheap.zoom (fun _ _ h => ⟨h.1, h.2⟩) fun _ _ _ _ => trivial

variable {A}

theorem Untampered.still {accessor : Accessor} (h : A.Untampered session.heap view accessor)
    (hstill : A.Still session session') : A.Untampered session'.heap view accessor := by
  intro getter hgetter hfunction
  rw [hstill.views.getter] at hgetter
  rw [hstill.views.isOwn]
  exact h getter hgetter hfunction

theorem Still.slots (h : A.Still session session') : E.slots session'.heap = E.slots session.heap :=
  h.views.slots

theorem prompt_done {α : Type} {p : Primitive α} {result : Except Fault α} {heap : E.Heap}
    (hread : p.isRead = true) (htext : p.definesText = false)
    (hdone : E.primitive p session.heap = .done result heap) :
    (request p : Raw E α).Prompt A.Still session
      fun a s' => result = .ok a ∧ s' = { session with heap } := by
  have hrequest := request_of_done hdone
  have hstill := (A.reading.request hread htext) session
  rw [hrequest] at hstill
  refine prompt_of_done hrequest hstill.1 ?_
  rintro a rfl
  exact ⟨rfl, rfl⟩

theorem prompt_capture {α : Type} {raw : Raw E α} {Q : α → Session E → Prop}
    (h : raw.Prompt A.Still session Q) : (capture raw).Prompt A.Still session Q := by
  refine h.handle Still.trans fun fault => ?_
  cases fault with
  | exception thrown => exact A.reading.bind (A.reading.intoError thrown) fun _ => A.reading.throw
  | fromJs source target => exact A.reading.throw
  | other message => exact A.reading.throw

theorem prompt_asFunction (value : Value) : (asFunction value : Raw E Value).Prompt A.Still session
    fun function s' => kindOf E value = .function ∧ function = value ∧ s' = session := by
  unfold asFunction
  split
  · next hfunction =>
      refine prompt_of_done rfl (.refl session) ?_
      rintro _ ⟨⟩
      exact ⟨hfunction, rfl, rfl⟩
  · exact A.reading.mistyped.prompt

theorem prompt_asU32 (value : Value) : (asU32 value : Raw E Nat).Prompt A.Still session
    fun n s' => E.toU32 value = some n ∧ s' = session := by
  unfold asU32
  split
  · next n hinteger =>
      refine prompt_of_done rfl (.refl session) ?_
      rintro _ ⟨⟩
      exact ⟨hinteger, rfl⟩
  · exact A.reading.mistyped.prompt

/-- **An accessor of the engine's own** reports the slot, or fails. -/
theorem prompt_intrinsic {accessor : Accessor} (h : A.Untampered session.heap view accessor) :
    (intrinsic view accessor : Raw E Value).Prompt A.Still session
      fun value s' => (E.slots s'.heap view).Reports accessor value := by
  obtain ⟨result, heap, hlookup⟩ :=
    Resumption.finished_iff.mp (E.inert (.ownGetter view accessor) session.heap rfl)
  refine (prompt_done rfl rfl hlookup).bind Still.trans ?_
  rintro found s' hstill ⟨rfl, rfl⟩
  have hfound := A.ownGetter hlookup
  cases found with
  | none => exact A.reading.throwNew.prompt
  | some getter =>
      refine (prompt_asFunction getter).bind Still.trans ?_
      rintro function _ - ⟨hfunction, rfl, rfl⟩
      have hfound' : A.getter heap view accessor = some function := by
        rw [hstill.views.getter]
        exact hfound.symm
      have hown := h.still hstill function hfound' hfunction
      obtain ⟨answer, heap', hcall, hreports⟩ := E.own_getter accessor function view heap hown
      refine (prompt_done rfl rfl hcall).mono ?_
      rintro value s'' hstill' ⟨rfl, rfl⟩
      rw [hstill'.slots]
      exact hreports value rfl

theorem prompt_integer {accessor : Accessor} (h : A.Untampered session.heap view accessor) :
    (do asU32 (← intrinsic view accessor) : Raw E Nat).Prompt A.Still session fun n s' =>
      ∃ value, (E.slots s'.heap view).Reports accessor value ∧ E.toU32 value = some n := by
  refine (prompt_intrinsic h).bind Still.trans fun value s' _ hreports => ?_
  refine (prompt_asU32 value).mono ?_
  rintro n _ - ⟨hinteger, rfl⟩
  exact ⟨value, hreports, hinteger⟩

/-- **A function of the guest's** reports what it likes. -/
theorem exists_intrinsic {accessor : Accessor} {function : Value} {heap : E.Heap}
    (hlookup : E.primitive (.ownGetter view accessor) session.heap = .done (.ok (some function)) heap)
    (hguest : A.isGuest function = true) (value : Value) :
    ∃ (environment : Environment E) (session' : Session E),
      (intrinsic view accessor session).resolve environment = (.ok value, session') := by
  obtain ⟨hfunction, query, heap', hcall⟩ := A.callGetter_guest function view heap hguest
  refine ⟨fun _ session => (.ok value, session), { session with heap := heap' }, ?_⟩
  refine Process.resolve_bind_ok.mpr
    ⟨some function, _, (resolve_inert_ok rfl).mpr ⟨heap, hlookup, rfl⟩, ?_⟩
  refine Process.resolve_bind_ok.mpr
    ⟨function, _, resolve_asFunction_ok.mpr ⟨hfunction, rfl, rfl⟩, ?_⟩
  simp only [request, Process.zoom, hcall, Resumption.zoom, Resumption.resolve]

section Views

variable (hview : kindOf E view = .dataView)

include hview

theorem prompt_buffer (h : A.Untampered session.heap view .buffer) :
    (buffer view : Op E Value).Prompt A.Still session
      fun value s' => value = (E.slots s'.heap view).buffer := by
  have hbuffer : (buffer view : Op E Value) = capture (intrinsic view .buffer) := by
    simp only [buffer, hview]
  rw [hbuffer]
  exact prompt_capture (prompt_intrinsic h)

theorem prompt_byteOffset (h : A.Untampered session.heap view .byteOffset) :
    (byteOffset view : Op E Nat).Prompt A.Still session
      fun offset s' => offset = (E.slots s'.heap view).byteOffset := by
  have hoffset : (byteOffset view : Op E Nat) =
      capture (do asU32 (← intrinsic view .byteOffset)) := by
    simp only [byteOffset, hview]
  rw [hoffset]
  refine prompt_capture ((prompt_integer h).mono ?_)
  rintro offset s' - ⟨_, rfl, hinteger⟩
  exact E.toU32_natCast _ _ hinteger

theorem prompt_byteLength (h : A.Untampered session.heap view .byteLength) :
    (byteLength view : Op E Nat).Prompt A.Still session
      fun length s' => length = (E.slots s'.heap view).byteLength := by
  have hlength : (byteLength view : Op E Nat) =
      capture (do asU32 (← intrinsic view .byteLength)) := by
    simp only [byteLength, hview]
  rw [hlength]
  refine prompt_capture ((prompt_integer h).mono ?_)
  rintro length s' - ⟨_, rfl, hinteger⟩
  exact E.toU32_natCast _ _ hinteger

/-- The range of a view is that of its slots. -/
theorem prompt_bufferRange (h : ∀ accessor, A.Untampered session.heap view accessor) :
    (bufferRange view : Op E Window).Prompt A.Still session fun window s' =>
      window = ⟨(E.slots s'.heap view).buffer, (E.slots s'.heap view).byteOffset,
        (E.slots s'.heap view).byteLength⟩ := by
  have hrange : (bufferRange view : Op E Window) = (do viewRange view (← buffer view)) := by
    simp only [bufferRange, hview]
  rw [hrange]
  refine (prompt_buffer hview (h .buffer)).bind Still.trans fun value s' hstill hvalue => ?_
  unfold viewRange
  split
  · have hoffset := (h .byteOffset).still hstill
    refine (prompt_byteOffset hview hoffset).bind Still.trans fun offset t hstill' hoffset => ?_
    have hlength := ((h .byteLength).still hstill).still hstill'
    refine (prompt_byteLength hview hlength).bind Still.trans fun length u hstill'' hlength => ?_
    refine prompt_of_done rfl (.refl u) ?_
    rintro _ ⟨⟩
    rw [hvalue, hoffset, hlength, ← hstill'.slots, ← hstill''.slots]
  · exact A.reading.throw.prompt

/-- **A borrow through the engine's own accessors** lends the window of the view's slots. -/
theorem prompt_new (h : ∀ accessor, A.Untampered session.heap view accessor) (kind : BorrowKind) :
    (Bytes.new view kind : Op E Bytes).Prompt A.Still session
      fun bytes s' => OfSlots s'.heap view bytes := by
  refine (prompt_bufferRange hview h).bind Still.trans fun window s _ hwindow => ?_
  by_cases hkind : kindOf E window.buffer = .arrayBuffer
  · obtain ⟨result, heap, hmemory⟩ :=
      Resumption.finished_iff.mp (E.inert (.arrayBuffer window.buffer) s.heap rfl)
    have hread : (arrayBuffer window.buffer : Raw E (Nat × Nat)).Prompt A.Still s
        fun memory s' => result = .ok memory ∧ s' = { s with heap } := by
      rw [arrayBuffer_of_kind hkind]
      exact prompt_done rfl rfl hmemory
    refine (prompt_capture hread).bind Still.trans ?_
    rintro ⟨data, size⟩ _ hstill ⟨rfl, rfl⟩
    have hblock := E.arrayBuffer_block window.buffer s.heap data size heap hmemory
    rw [← hstill.slots] at hwindow
    rcases grant_cases kind window data size { s with heap } with
      ⟨bytes, s', hdone, hgranted⟩ | ⟨errorKind, message, hthrow⟩ | ⟨error, hdone⟩
    · refine prompt_of_done hdone ⟨?_, ?_⟩ ?_
      · rw [hgranted.heap_eq]
        exact ⟨rfl, rfl, rfl⟩
      · rw [hgranted.heap_eq]
        exact fun _ _ => id
      · rintro _ ⟨⟩
        exact hgranted.ofSlots hwindow hblock
    · exact (A.reading.capture A.reading.throwNew).prompt.congr hthrow
    · exact prompt_of_done hdone (.refl _) nofun
  · unfold Bytes.lend
    rw [arrayBuffer_of_kind_ne hkind]
    have hfails : (capture (throwNew .typeError "not an ArrayBuffer") : Op E (Nat × Nat)).Prompt
        A.Still s fun _ _ => False := (A.reading.capture A.reading.throwNew).prompt
    exact hfails.bind Still.trans fun _ _ _ hfalse => hfalse.elim

end Views

end Engine.Accessors

/-! ### For as long as a slice lives -/

namespace Leases

variable (C : E.Collector) (A : E.Accessors)

/-- What happens in a session leaves the views and the memory of slices alone. -/
def Spares (s : Leases E) (session : Session E) : Prop :=
  ∀ lease ∈ s.leases, 0 < lease.bytes.window.byteLength →
    E.slots session.heap lease.source = E.slots s.session.heap lease.source ∧
      ∀ block, E.block s.session.heap lease.bytes.window.buffer = some block →
        E.block session.heap lease.bytes.window.buffer = some block

/-- A view is borrowed through accessors of the engine's own, and while a slice is lent what else
happens in the session spares it. -/
def Fair (s : Leases E) : LeaseEvent E → Prop
  | .borrow _ view => ∀ accessor, A.Untampered s.session.heap view accessor
  | .other session => s.Spares session
  | _ => True

/-- Every slice is the window of its view's own slots, in the memory of the view's own buffer, which
what the host holds keeps in reach. -/
def KeptAlive (s : Leases E) : Prop :=
  ∀ lease ∈ s.leases, 0 < lease.bytes.window.byteLength →
    OfSlots s.session.heap lease.source lease.bytes ∧
      Reaches (C.refers s.session.heap) s.values lease.bytes.window.buffer

structure Sound (s : Leases E) : Prop where
  held : ∀ view ∈ s.sources, view ∈ s.values ∧ kindOf E view = .dataView
  slices : ∀ lease ∈ s.leases, 0 < lease.bytes.window.byteLength →
    OfSlots s.session.heap lease.source lease.bytes
  /-- A borrow that code of the guest's has come between fails. -/
  pending : ∀ suspended ∈ s.pending, ∀ answer t, (suspended.2 answer t).Guarantees A.Still
    (fun t result t' => A.Still t t' ∧ ∀ bytes, result ≠ .ok bytes) t

variable {C A} {s t : Leases E}

theorem source_mem {lease : Lease} (h : lease ∈ s.leases) : lease.source ∈ s.sources :=
  List.mem_append_left _ (List.mem_map_of_mem h)

theorem sound_init (session : Session E) (values : List Value) :
    (init session values).Sound A where
  held := nofun
  slices := nofun
  pending := nofun

/-- A view refers to its buffer. -/
theorem Sound.reaches (h : s.Sound A) {lease : Lease} (hmem : lease ∈ s.leases) :
    Reaches (C.refers s.session.heap) s.values (E.slots s.session.heap lease.source).buffer :=
  ⟨lease.source, (h.held _ (source_mem hmem)).1,
    .single (C.refers_buffer _ _ (h.held _ (source_mem hmem)).2)⟩

theorem Sound.keptAlive (h : s.Sound A) : s.KeptAlive C := by
  intro lease hmem hlength
  have hslots := h.slices lease hmem hlength
  refine ⟨hslots, ?_⟩
  rw [show lease.bytes.window.buffer = _ from congrArg Window.buffer hslots.window]
  exact h.reaches hmem

theorem Sound.spared (h : s.Sound A) {session : Session E} (hspares : s.Spares session) :
    Sound A { s with session } where
  held := h.held
  slices lease hmem hlength :=
    have hsame := hspares lease hmem hlength
    (h.slices lease hmem hlength).spared hsame.1 hsame.2
  pending := h.pending

theorem spares_of_still {session : Session E} (h : A.Still s.session session) : s.Spares session :=
  fun lease _ _ => ⟨congrFun h.slots lease.source, fun block => h.block _ block⟩

/-- What a borrow of a view comes to, when it either succeeds at once or fails. -/
theorem Sound.proceed (h : s.Sound A) {view : Value} (hmem : view ∈ s.values)
    (hview : kindOf E view = .dataView) {r : Resumption (Session E) GuestCall Answer Error Bytes}
    (hr : (∃ bytes session, r = .done (.ok bytes) session ∧ A.Still s.session session ∧
        OfSlots session.heap view bytes) ∨
      r.Guarantees A.Still (fun t result t' => A.Still t t' ∧ ∀ bytes, result ≠ .ok bytes) s.session) :
    (s.proceed view r).Sound A := by
  rcases hr with ⟨bytes, session, rfl, hstill, hslots⟩ | hfails
  · have hspared := h.spared (spares_of_still hstill)
    refine ⟨?_, ?_, h.pending⟩
    · exact List.forall_mem_cons.mpr ⟨⟨hmem, hview⟩, hspared.held⟩
    · exact List.forall_mem_cons.mpr ⟨fun _ => hslots, hspared.slices⟩
  · cases r with
    | done result session =>
        cases result with
        | ok bytes => exact absurd rfl (hfails.2 bytes)
        | error error => exact h.spared (spares_of_still hfails.1)
    | call query session resume =>
        have hspared := h.spared (spares_of_still hfails.1)
        refine ⟨fun other hother => ?_, hspared.slices, ?_⟩
        · rcases List.mem_append.mp hother with hlease | hpending
          · exact h.held other (List.mem_append_left _ hlease)
          · rcases List.mem_cons.mp hpending with rfl | hpending
            · exact ⟨hmem, hview⟩
            · exact h.held other (List.mem_append_right _ hpending)
        · exact List.forall_mem_cons.mpr ⟨hfails.2, hspared.pending⟩

/-- What is in reach of the host's values stays where it is when the rest is freed. -/
theorem Sound.collect (h : s.Sound A) (C : E.Collector) :
    s.Spares { s.session with heap := C.collect s.values s.session.heap } := by
  intro lease hmem hlength
  have hsource : Reaches (C.refers s.session.heap) s.values lease.source :=
    ⟨lease.source, (h.held _ (source_mem hmem)).1, .refl⟩
  have hbuffer := (h.keptAlive (C := C) lease hmem hlength).2
  refine ⟨C.slots_collect _ _ _ hsource, fun block hblock => ?_⟩
  rw [← hblock]
  exact C.block_collect _ _ _ hbuffer

/-- **One event.** -/
theorem Sound.step (h : s.Sound A) {event : LeaseEvent E} (hfair : s.Fair A event)
    (ht : s.step C event = some t) : t.Sound A := by
  cases event with
  | keep value =>
      obtain rfl := Option.some.inj ht
      refine ⟨fun view hmem => ?_, h.slices, h.pending⟩
      exact ⟨List.mem_cons_of_mem _ (h.held view hmem).1, (h.held view hmem).2⟩
  | release value =>
      simp only [Leases.step] at ht
      split at ht
      · next hkept =>
          obtain rfl := Option.some.inj ht
          exact ⟨fun view hmem => ⟨hkept view hmem, (h.held view hmem).2⟩, h.slices, h.pending⟩
      · cases ht
  | borrow kind view =>
      simp only [Leases.step] at ht
      split at ht
      · next hheld =>
          obtain rfl := Option.some.inj ht
          exact h.proceed hheld.1 hheld.2 (Engine.Accessors.prompt_new hheld.2 hfair kind)
      · cases ht
  | answer answer =>
      simp only [Leases.step] at ht
      split at ht
      · cases ht
      · next view resume pending hpending =>
          obtain rfl := Option.some.inj ht
          have hrest : Sound A { s with pending } := by
            refine ⟨fun other hother => h.held other ?_, h.slices, fun suspended hmem => ?_⟩
            · simp only [sources, hpending, List.map_cons, List.mem_append, List.mem_cons] at hother ⊢
              tauto
            · exact h.pending suspended (hpending ▸ List.mem_cons_of_mem _ hmem)
          have hfirst : (view, resume) ∈ s.pending := hpending ▸ List.mem_cons_self
          have hview := h.held view (List.mem_append_right _ (List.mem_map_of_mem hfirst))
          exact hrest.proceed hview.1 hview.2 (Or.inr (h.pending _ hfirst answer s.session))
  | drop index =>
      obtain ⟨lease, hlease, rfl⟩ := Option.map_eq_some_iff.mp ht
      have hsub : (s.leases.eraseIdx index).Sublist s.leases := List.eraseIdx_sublist _ _
      refine ⟨fun view hmem => ?_, fun lease hmem => h.slices lease (hsub.subset hmem), h.pending⟩
      refine h.held view ?_
      rcases List.mem_append.mp hmem with hmem | hmem
      · exact List.mem_append_left _ ((hsub.map _).subset hmem)
      · exact List.mem_append_right _ hmem
  | collect =>
      obtain rfl := Option.some.inj ht
      exact h.spared (h.collect C)
  | other session =>
      obtain rfl := Option.some.inj ht
      exact h.spared hfair

end Leases

/-- **What tampering takes.** Where the functions behind the accessors of a view are the engine's own,
or there are none, an operation on the view that succeeds gives the view's own slots, in every world,
and what a borrow lends is the window of these slots. In every run of borrows through such accessors,
with the engine freeing at any time what is out of reach of the host's references, every slice stays
this window, as long as the host has it: of memory that the view keeps in reach, where nothing that
happens meanwhile moves it. A function of the guest's behind the accessor gives whatever it likes. -/
theorem view_operations_exact (A : E.Accessors) (C : E.Collector) :
    (∀ (environment : Environment E) (session : Session E) (view : Value), kindOf E view = .dataView →
      (A.Untampered session.heap view .buffer → ∀ value session',
        (buffer view session).resolve environment = (.ok value, session') →
          value = (E.slots session'.heap view).buffer) ∧
      (A.Untampered session.heap view .byteOffset → ∀ offset session',
        (byteOffset view session).resolve environment = (.ok offset, session') →
          offset = (E.slots session'.heap view).byteOffset) ∧
      (A.Untampered session.heap view .byteLength → ∀ length session',
        (byteLength view session).resolve environment = (.ok length, session') →
          length = (E.slots session'.heap view).byteLength) ∧
      ((∀ accessor, A.Untampered session.heap view accessor) → ∀ bytes session',
        ((borrowBytes view session).resolve environment = (.ok bytes, session') →
          OfSlots session'.heap view bytes) ∧
        ((borrowBytesMut view session).resolve environment = (.ok bytes, session') →
          OfSlots session'.heap view bytes))) ∧
    (∀ (session : Session E) (values : List Value) (events : List (LeaseEvent E)),
      (Leases.machine C).Along (Leases.Fair A) (Leases.init session values) events →
        (Leases.machine C).Throughout (Leases.KeptAlive C) (Leases.init session values) events) ∧
    ∀ (session : Session E) (view function : Value) (accessor : Accessor) (heap : E.Heap),
      E.primitive (.ownGetter view accessor) session.heap = .done (.ok (some function)) heap →
        A.isGuest function = true → ∀ value, ∃ (environment : Environment E) (session' : Session E),
          (intrinsic view accessor session).resolve environment = (.ok value, session') := by
  refine ⟨fun environment session view hview => ⟨fun h value session' hrun => ?_,
    fun h offset session' hrun => ?_, fun h length session' hrun => ?_,
    fun h bytes session' => ⟨fun hrun => ?_, fun hrun => ?_⟩⟩, fun session values events hfair => ?_,
    fun session view function accessor heap hlookup hguest value =>
      Engine.Accessors.exists_intrinsic hlookup hguest value⟩
  · exact ((Engine.Accessors.prompt_buffer hview h).of_resolve hrun).2
  · exact ((Engine.Accessors.prompt_byteOffset hview h).of_resolve hrun).2
  · exact ((Engine.Accessors.prompt_byteLength hview h).of_resolve hrun).2
  · exact ((Engine.Accessors.prompt_new hview h .shared).of_resolve hrun).2
  · exact ((Engine.Accessors.prompt_new hview h .exclusive).of_resolve hrun).2
  · exact (Machine.throughout_of_along (fun _ _ _ hs hC ht => hs.step hC ht)
      (Leases.sound_init session values) hfair).mono fun _ hs => hs.keptAlive

section

open TinyEngine

def accessors : engine.Accessors where
  getter heap _ accessor := some (prototypeGetter heap accessor)
  ownGetter := by
    rintro view accessor heap found heap' ⟨⟩
    rfl
  read p heap _ := primitive_guarantees (fun _ => ⟨rfl, rfl, rfl⟩) p heap
  isGuest function := function = guestFunction
  callGetter_guest := by
    intro function view heap hguest
    obtain rfl : function = guestFunction := of_decide_eq_true hguest
    exact ⟨rfl, _, _, rfl⟩

/-- The second buffer loses its memory when the host has no reference to it: the view is one of the
first. -/
def freed (values : List Value) (heap : Heap) : Heap :=
  if secondBuffer ∈ values then heap else { heap with size := 0 }

theorem block_freed {values : List Value} {value : Value} (h : value = secondBuffer → value ∈ values)
    (heap : Heap) : block (freed values heap) value = block heap value := by
  unfold freed
  split
  · rfl
  · next hsecond =>
      have hvalue : value ≠ secondBuffer := fun heq => hsecond (heq ▸ h heq)
      simp only [block, hvalue, if_false]

def collector : engine.Collector where
  refers _ value other := value = TinyEngine.view ∧ other = firstBuffer
  refers_buffer := by
    intro heap view hview
    have hobject : view = TinyEngine.view := by
      cases view with
      | object id =>
          have hkind : objectKind id = .dataView := hview
          unfold objectKind at hkind
          split at hkind
          · rfl
          all_goals cases hkind
      | _ => cases hview
    exact ⟨hobject, rfl⟩
  collect := freed
  block_collect := by
    rintro values heap value ⟨root, hroot, hreaches⟩
    refine block_freed ?_ heap
    rintro rfl
    rcases Relation.ReflTransGen.cases_tail hreaches with rfl | ⟨_, -, -, hfirst⟩
    · exact hroot
    · cases hfirst
  slots_collect _ _ _ _ := rfl

def secondBufferGuest : Environment engine := fun _ session => (.ok secondBuffer, session)

/-- The second buffer is freed while a slice of the view is lent. -/
def collectingRun : List (LeaseEvent engine) :=
  [.borrow .shared TinyEngine.view, .collect, .drop 0, .release TinyEngine.view]

theorem view_operations_exact_untampered :
    (∀ value session', (buffer TinyEngine.view (TinyEngine.session (ownGetter .buffer))).resolve
        secondBufferGuest = (.ok value, session') → value = firstBuffer) ∧
      (Leases.machine collector).Throughout (Leases.KeptAlive collector)
        (Leases.init (TinyEngine.session (ownGetter .buffer)) [TinyEngine.view]) collectingRun := by
  have huntampered : ∀ accessor, accessors.Untampered
      (TinyEngine.session (ownGetter .buffer)).heap TinyEngine.view accessor := by
    intro accessor getter hgetter _
    cases accessor <;> exact decide_eq_true (Option.some.inj hgetter).symm
  obtain ⟨hoperations, hruns, -⟩ := view_operations_exact accessors collector
  refine ⟨(hoperations secondBufferGuest _ TinyEngine.view rfl).1 (huntampered .buffer), hruns _ _ _ ?_⟩
  exact .cons rfl huntampered (.cons rfl trivial (.cons rfl trivial (.cons rfl trivial trivial)))

theorem borrowBytes_tampered :
    ¬ ∀ bytes session', (borrowBytes TinyEngine.view (TinyEngine.session guestFunction)).resolve
        secondBufferGuest = (.ok bytes, session') →
      OfSlots session'.heap TinyEngine.view bytes := by
  intro h
  have hwindow := (h _ _ rfl).window
  revert hwindow
  decide

/-- While the slice is lent, the reference it has been borrowed through is not given up. -/
example : ((Leases.machine collector).run
      (Leases.init (TinyEngine.session (ownGetter .buffer)) [TinyEngine.view])
      [.borrow .shared TinyEngine.view, .collect]).map
        (fun s => (s.leases.map (·.bytes.address), (s.step collector (.release TinyEngine.view)).isSome)) =
    some ([256], false) := rfl

end

end GuestJs.QuickJs
