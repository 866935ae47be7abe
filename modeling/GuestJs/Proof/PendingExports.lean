import GuestJs.Proof.Reading
import GuestJs.QuickJs.ModuleEngine

/-!
# The exports of synthetic modules

The slot is filled at one place, and whatever fails from there on, the engine or a callback, comes
back through the place that empties it. In between only reading an exception runs code of the guest,
and then the definition has failed already.
-/

namespace GuestJs.QuickJs

variable {E : Engine} {α : Type} {N : NativeModules E}

/-! ### Bindings -/

namespace Bindings

def assign (bindings : Bindings) (entries : List (String × Value)) : Bindings :=
  entries.foldl (fun bindings entry => Function.update bindings entry.1 (some entry.2)) bindings

/-- The bindings of a module that has declared its exports. -/
def declared (exports : List (String × Value)) : Bindings :=
  assign (fun _ => none) (exports.map fun entry => (entry.1, .undefined))

variable {bindings : Bindings} {entries : List (String × Value)} {name : String} {value : Value}

theorem assign_of_notMem (h : name ∉ entries.map Prod.fst) :
    bindings.assign entries name = bindings name := by
  induction entries generalizing bindings with
  | nil => rfl
  | cons entry entries ih =>
      rw [List.map_cons, List.mem_cons, not_or] at h
      exact (ih h.2).trans (Function.update_of_ne h.1 _ _)

theorem assign_of_mem (hnodup : (entries.map Prod.fst).Nodup) (h : (name, value) ∈ entries) :
    bindings.assign entries name = some value := by
  induction entries generalizing bindings with
  | nil => cases h
  | cons entry entries ih =>
      rw [List.map_cons, List.nodup_cons] at hnodup
      rcases List.mem_cons.mp h with rfl | h
      · exact (assign_of_notMem hnodup.1).trans (Function.update_self _ _ _)
      · exact ih hnodup.2 h

theorem declared_assign_iff {exports : List (String × Value)}
    (hnodup : (exports.map Prod.fst).Nodup) :
    (declared exports).assign exports name = some value ↔ (name, value) ∈ exports := by
  constructor
  · intro h
    by_cases hname : name ∈ exports.map Prod.fst
    · obtain ⟨⟨_, found⟩, hmem, rfl⟩ := List.mem_map.mp hname
      rw [assign_of_mem hnodup hmem] at h
      cases h
      exact hmem
    · have hnames : name ∉ (exports.map fun entry => (entry.1, Value.undefined)).map Prod.fst := by
        rwa [List.map_map]
      rw [assign_of_notMem hname, declared, assign_of_notMem hnames] at h
      cases h
  · exact assign_of_mem hnodup

end Bindings

theorem firstDuplicate_eq_none {seen names : List String} :
    firstDuplicate seen names = none ↔ names.Nodup ∧ ∀ name ∈ names, name ∉ seen := by
  induction names generalizing seen with
  | nil => simp [firstDuplicate]
  | cons name names ih =>
      rw [firstDuplicate]
      by_cases hseen : name ∈ seen
      · simp [hseen]
      · simp only [hseen, if_false, ih, List.nodup_cons]
        constructor
        · rintro ⟨hnodup, hrest⟩
          refine ⟨⟨fun hname => hrest name hname List.mem_cons_self, hnodup⟩, ?_⟩
          rintro n hn hmem
          rcases List.mem_cons.mp hn with rfl | hn
          · exact hseen hmem
          · exact hrest n hn (List.mem_cons_of_mem _ hmem)
        · rintro ⟨⟨hname, hnodup⟩, hrest⟩
          refine ⟨hnodup, fun n hn hmem => ?_⟩
          rcases List.mem_cons.mp hmem with rfl | hmem
          · exact hname hn
          · exact hrest n (List.mem_cons_of_mem _ hn) hmem

/-! ### What a definition may do to the session -/

/-- Nothing is put into the slot, and no module loses what it exposes. -/
structure Undisturbed (N : NativeModules E) (s s' : Session E) : Prop where
  slot : s'.pendingExports = s.pendingExports ∨ s'.pendingExports = none
  exposed : KeepsExposed N.exposed s.heap s'.heap

theorem Undisturbed.refl (s : Session E) : Undisturbed N s s := ⟨Or.inl rfl, fun _ _ h => h⟩

theorem Undisturbed.trans {s t u : Session E} (hst : Undisturbed N s t) (htu : Undisturbed N t u) :
    Undisturbed N s u where
  slot := by
    rcases htu.slot with hslot | hslot
    · rw [hslot]
      exact hst.slot
    · exact Or.inr hslot
  exposed := fun module bindings h => htu.exposed module bindings (hst.exposed module bindings h)

theorem undisturbed_request (N : NativeModules E) {α : Type} {p : Primitive α}
    (hp : p.isRead = true) : (request p : Raw E α).Moves (Undisturbed N) fun _ _ => True := by
  have hheap : Process.Moves (KeepsExposed N.exposed) (E.primitive p) fun _ _ => True :=
    fun heap => (N.exposed_read p heap hp).mono fun _ _ _ hkeeps => ⟨hkeeps, fun _ _ => trivial⟩
  exact hheap.zoom (fun _ _ hkeeps => ⟨Or.inl rfl, hkeeps⟩) fun _ _ _ _ => trivial

theorem undisturbed_reading (N : NativeModules E) : Reading (Undisturbed N) where
  refl := Undisturbed.refl
  trans := fun _ _ _ => Undisturbed.trans
  request := fun hp _ => undisturbed_request N hp

/-- The session since `s`, with `slot` in its slot. -/
structure Kept (N : NativeModules E) (s : Session E) (slot : Option (List (String × Value)))
    (t : Session E) : Prop where
  slot : t.pendingExports = slot
  exposed : KeepsExposed N.exposed s.heap t.heap

/-- A module with the bindings it has so far. -/
structure Building (N : NativeModules E) (s : Session E) (slot : Option (List (String × Value)))
    (module : ModuleId) (bindings : Bindings) (t : Session E) : Prop extends Kept N s slot t where
  building : N.building t.heap module bindings

section Callbacks

variable {s t : Session E} {slot : Option (List (String × Value))} {module : ModuleId}
  {bindings : Bindings} {exports : List (String × Value)}

theorem Kept.undisturbed (h : Kept N s slot t) (hslot : slot = s.pendingExports ∨ slot = none) :
    Undisturbed N s t := ⟨by rwa [h.slot], h.exposed⟩

theorem Kept.move {heap : E.Heap} (h : Kept N s slot t)
    (hkeeps : KeepsExposed N.exposed t.heap heap) : Kept N s slot { t with heap } :=
  ⟨h.slot, fun module bindings hexposed =>
    hkeeps module bindings (h.exposed module bindings hexposed)⟩

theorem silent_perform {f : E.Heap → Except Fault α × E.Heap} {ok : α → Session E → Prop}
    {fail : Fault → Session E → Prop}
    (hok : ∀ a, (f t.heap).1 = .ok a → ok a { t with heap := (f t.heap).2 })
    (hfail : ∀ fault, (f t.heap).1 = .error fault → fail fault { t with heap := (f t.heap).2 }) :
    (perform f).Silent t ok fail := by
  unfold Process.Silent perform
  cases hresult : (f t.heap).1 with
  | ok a => exact hok a hresult
  | error fault => exact hfail fault hresult

theorem silent_request_of_done {p : Primitive α} {result : Except Fault α} {heap : E.Heap}
    {ok : α → Session E → Prop} {fail : Fault → Session E → Prop}
    (hdone : E.primitive p t.heap = .done result heap)
    (hok : ∀ a, result = .ok a → ok a { t with heap })
    (hfail : ∀ fault, result = .error fault → fail fault { t with heap }) :
    (request p : Raw E α).Silent t ok fail := by
  unfold Process.Silent
  rw [request_of_done hdone]
  cases result with
  | ok a => exact hok a rfl
  | error fault => exact hfail fault rfl

/-- A request for a module under construction. -/
theorem Building.perform {f : E.Heap → Except Fault Unit × E.Heap} {bindings' : Bindings}
    (h : Building N s slot module bindings t)
    (hf : KeepsExposed N.exposed t.heap (f t.heap).2 ∧
      ((f t.heap).1 = .ok () → N.building (f t.heap).2 module bindings')) :
    (perform f).Silent t (fun _ u => Building N s slot module bindings' u)
      fun _ u => Kept N s slot u :=
  silent_perform (fun _ hok => ⟨h.toKept.move hf.1, hf.2 hok⟩) fun _ _ => h.toKept.move hf.1

theorem silent_raised {fault : Fault} :
    (N.raised fault).Silent t
      (fun _ u => ∃ heap, u = { t with heap } ∧ KeepsExposed N.exposed t.heap heap ∧
        ∀ module bindings, N.building t.heap module bindings → N.building heap module bindings)
      fun _ _ => False :=
  ⟨_, rfl, N.raise_building fault t.heap⟩

theorem silent_declareExports (h : Building N s slot module bindings t) :
    (exports.forM fun (name, _) => perform (N.declareExport module name) : Raw E PUnit).Silent t
      (fun _ u => Building N s slot module
        (bindings.assign (exports.map fun entry => (entry.1, .undefined))) u)
      fun _ u => Kept N s slot u := by
  induction exports generalizing bindings t with
  | nil => exact h
  | cons entry exports ih =>
      refine Process.silent_bind.mpr ?_
      have hfirst := h.perform (N.declareExport_building module entry.1 t.heap bindings h.building)
      exact hfirst.mono (fun _ _ hnext => ih hnext) fun _ _ hkept => hkept

theorem silent_declare (h : Building N s (some exports) module bindings t) :
    (Synthetic.declare N module).Silent t
      (fun _ u => Building N s (some exports) module
        (bindings.assign (exports.map fun entry => (entry.1, .undefined))) u)
      fun _ u => Kept N s (some exports) u := by
  refine Process.silent_bind.mpr <| Process.silent_get.mpr ?_
  simp only [h.slot]
  exact silent_declareExports h

theorem silent_init {name : String} (h : Kept N s (some exports) t) :
    (N.init (Synthetic.declare N) name).Silent t
      (fun module u => N.exposed t.heap module = none ∧
        Building N s (some exports) module (Bindings.declared exports) u)
      fun _ u => Kept N s (some exports) u := by
  obtain ⟨hkeeps, hmade⟩ := N.newModule_building name t.heap
  refine Process.silent_bind.mpr <| silent_perform (fun module hok => ?_) fun _ _ => h.move hkeeps
  obtain ⟨hfresh, hbuilding⟩ := hmade module hok
  have hmodule := silent_declare ⟨h.move hkeeps, hbuilding⟩
  refine Process.silent_bind.mpr <| Process.silent_handle.mpr <| hmodule.mono ?_ ?_
  · intro _ u hdeclared
    have hresolve := hdeclared.perform
      (N.resolve_building module u.heap (Bindings.declared exports) hdeclared.building)
    refine Process.silent_bind.mpr <| hresolve.mono ?_ fun _ _ hkept => hkept
    exact fun _ _ hresolved => ⟨hfresh, hresolved⟩
  · intro fault u hkept
    refine Process.silent_bind.mpr <| silent_raised.mono ?_ fun _ _ => False.elim
    rintro thrown _ ⟨heap, rfl, hkeeps, -⟩
    exact hkept.move hkeeps

theorem silent_exportValues (h : Building N s slot module bindings t) :
    (exports.forM fun (name, value) => request (.export module name value) : Raw E PUnit).Silent t
      (fun _ u => Building N s slot module (bindings.assign exports) u)
      fun _ u => ∃ bindings', Building N s slot module bindings' u := by
  induction exports generalizing bindings t with
  | nil => exact h
  | cons entry exports ih =>
      obtain ⟨result, heap, bindings', hdone, hkeeps, hbuilding, hset⟩ :=
        N.export_building module entry.1 entry.2 t.heap bindings h.building
      have hnext : Building N s slot module bindings' { t with heap } :=
        ⟨h.toKept.move hkeeps, hbuilding⟩
      refine Process.silent_bind.mpr <| silent_request_of_done hdone (fun _ hok => ?_)
        fun _ _ => ⟨bindings', hnext⟩
      obtain rfl := hset hok
      exact ih hnext

/-- The callback empties the slot, and the exports it has taken out are this module's. -/
theorem silent_evaluate (h : Building N s (some exports) module bindings t) :
    (Synthetic.evaluate module : Raw E Unit).Silent t
      (fun _ u => Building N s none module (bindings.assign exports) u)
      fun _ u => ∃ bindings', Building N s none module bindings' u := by
  refine Process.silent_bind.mpr <| Process.silent_get.mpr ?_
  simp only [h.slot]
  refine Process.silent_bind.mpr <| Process.silent_set.mpr <| silent_exportValues ?_
  exact ⟨⟨rfl, h.exposed⟩, h.building⟩

/-- The promise of an evaluation whose callback has thrown. -/
def Rejected (heap : E.Heap) (promise : Value) : Prop :=
  ∀ state heap', E.primitive (.promiseResult promise) heap = .done (.ok state) heap' →
    ∃ reason, state = .rejected reason

theorem silent_eval (h : Building N s (some exports) module bindings t) :
    (N.eval Synthetic.evaluate module).Silent t
      (fun evaluated u => Kept N s none u ∧
        (N.exposed u.heap module = some (bindings.assign exports) ∨ Rejected u.heap evaluated.2))
      fun _ u => Kept N s (some exports) u ∨ Kept N s none u := by
  have hstart := h.perform (N.start_building module t.heap bindings h.building)
  refine Process.silent_bind.mpr <| hstart.mono ?_ fun _ _ hkept => Or.inl hkept
  intro _ t hstarted
  refine Process.silent_bind.mpr <| Process.silent_attempt.mpr <|
    (silent_evaluate hstarted).mono ?_ ?_
  · intro _ u hexported
    obtain ⟨result, heap, hdone, hkeeps, hexposed⟩ :=
      N.evaluate_building module u.heap _ hexported.building
    have hkept := hexported.toKept.move hkeeps
    exact silent_request_of_done hdone
      (fun evaluated hok => ⟨hkept, Or.inl (hexposed evaluated hok)⟩) fun _ _ => Or.inr hkept
  · rintro fault u ⟨bindings', hfailed⟩
    refine Process.silent_bind.mpr <| silent_raised.mono ?_ fun _ _ => False.elim
    rintro thrown _ ⟨heap, rfl, hkeeps, hbuilding⟩
    have hkept := (hfailed.toKept.move hkeeps).move
      (N.reject_building module thrown heap bindings' (hbuilding _ _ hfailed.building))
    refine silent_perform (fun evaluated hok => ⟨hkept, Or.inr fun state heap' hstate => ?_⟩)
      fun _ _ => Or.inr hkept
    exact N.reject_rejected module thrown heap evaluated.1 evaluated.2 state heap' hok hstate

end Callbacks

/-! ### Definitions -/

/-- Code of the guest's that runs while an exception is read. It may define modules of its own. -/
structure Guest (N : NativeModules E) where
  environment : Environment E
  undisturbed : ∀ call s, Undisturbed N s (environment call s).2

section Definitions

variable {guest : Guest N} {s : Session E}

theorem ends_of_moves {op : Op E α} {Q : α → Session E → Prop} (h : op.Moves (Undisturbed N) Q) :
    op.Ends guest.environment s (fun a t => Undisturbed N s t ∧ Q a t)
      fun _ t => Undisturbed N s t :=
  Process.Moves.ends h (fun _ _ _ => Undisturbed.trans) guest.undisturbed s

theorem moves_captured (fault : Fault) :
    (capture (throw fault : Raw E α)).Moves (Undisturbed N) fun _ _ => False :=
  (undisturbed_reading N).capture (undisturbed_reading N).throw

/-- An exception is read when a definition has failed, and a success is no matter of the guest's. -/
theorem ends_capture {raw : Raw E α} {t : Session E} {ok : α → Session E → Prop}
    (h : raw.Silent t ok fun _ u => Undisturbed N s u) :
    (capture raw).Ends guest.environment t ok fun _ u => Undisturbed N s u := by
  refine Process.ends_handle.mpr <| h.ends.mono (fun _ _ hok => hok) fun fault u hfailed => ?_
  refine Process.Ends.mono (ends_of_moves (moves_captured fault)) ?_ ?_
  · exact fun _ _ hnever => hnever.2.elim
  · exact fun _ _ hcaptured => hfailed.trans hcaptured

theorem silent_cString_same {name : String} :
    (cString name : Raw E String).Silent s (fun _ t => t = s) fun _ t => t = s := by
  unfold cString
  split
  · rfl
  · rfl

theorem silent_cStrings_same {exports : List (String × Value)} :
    (exports.forM fun (name, _) => discard (cString name) : Raw E PUnit).Silent s
      (fun _ t => t = s) fun _ t => t = s := by
  induction exports with
  | nil => rfl
  | cons entry exports ih =>
      refine Process.silent_bind.mpr <| Process.silent_map.mpr <| silent_cString_same.mono ?_
        fun _ _ heq => heq
      rintro _ _ rfl
      exact ih

/-- Where a definition succeeds: the slot is empty, and a module that nothing was known of exposes
the exports and nothing else. -/
structure Defined (N : NativeModules E) (exports : List (String × Value)) (s : Session E)
    (module : ModuleId) (t : Session E) : Prop where
  kept : Kept N s none t
  fresh : N.exposed s.heap module = none
  exposes : ∃ bindings, N.exposed t.heap module = some bindings ∧
    ∀ name value, bindings name = some value ↔ (name, value) ∈ exports

theorem silent_promiseResult {promise : Value} {t : Session E} (h : Kept N s none t) :
    (request (.promiseResult promise) : Raw E PromiseState).Silent t
      (fun state u => Kept N s none u ∧ KeepsExposed N.exposed t.heap u.heap ∧
        (Rejected t.heap promise → ∃ reason, state = .rejected reason))
      fun _ u => Undisturbed N s u := by
  obtain ⟨result, heap, hdone, -⟩ := exists_of_inert (p := .promiseResult promise) rfl t
  have hkeeps := N.exposed_read (.promiseResult promise) t.heap rfl
  rw [hdone] at hkeeps
  refine silent_request_of_done hdone ?_ ?_
  · rintro state rfl
    exact ⟨h.move hkeeps, hkeeps, fun hrejected => hrejected state heap hdone⟩
  · exact fun _ _ => (h.move hkeeps).undisturbed (Or.inr rfl)

section Instantiate

variable {name : String} {exports : List (String × Value)}
  (hpending : s.pendingExports = some exports)

include hpending

theorem ends_declareNative :
    (N.declareNative (Synthetic.declare N) name).Ends guest.environment s
      (fun module t => N.exposed s.heap module = none ∧
        Building N s (some exports) module (Bindings.declared exports) t)
      fun _ t => Undisturbed N s t := by
  refine ends_capture <| Process.silent_bind.mpr <| silent_cString_same.mono ?_ ?_
  · rintro _ _ rfl
    exact (silent_init ⟨hpending, fun _ _ h => h⟩).mono (fun _ _ hmade => hmade)
      fun _ _ hkept => hkept.undisturbed (Or.inl hpending.symm)
  · rintro _ _ rfl
    exact Undisturbed.refl _

theorem ends_instantiate (hnodup : (exports.map Prod.fst).Nodup) :
    (N.instantiate name).Ends guest.environment s (Defined N exports s)
      fun _ t => Undisturbed N s t := by
  refine Process.ends_bind.mpr <| (ends_declareNative hpending).mono ?_ fun _ _ hfailed => hfailed
  rintro module t ⟨hfresh, hdeclared⟩
  refine ends_capture <| Process.silent_bind.mpr <| (silent_eval hdeclared).mono ?_ ?_
  · rintro ⟨entry, promise⟩ u ⟨hkept, hevaluated⟩
    refine Process.silent_bind.mpr <| (silent_promiseResult hkept).mono ?_ fun _ _ hfailed => hfailed
    rintro state v ⟨hkept, hkeeps, hrejected⟩
    have hdefined : (∀ reason, state ≠ .rejected reason) → Defined N exports s module v := by
      intro hstate
      rcases hevaluated with hexposed | hthrown
      · exact ⟨hkept, hfresh, _, hkeeps module _ hexposed,
          fun _ _ => Bindings.declared_assign_iff hnodup⟩
      · obtain ⟨reason, hreason⟩ := hrejected hthrown
        exact absurd hreason (hstate reason)
    cases state with
    | pending => exact hdefined fun _ h => by cases h
    | fulfilled value => exact hdefined fun _ h => by cases h
    | rejected reason => exact hkept.undisturbed (Or.inr rfl)
  · rintro _ u (hkept | hkept)
    · exact hkept.undisturbed (Or.inl hpending.symm)
    · exact hkept.undisturbed (Or.inr rfl)

omit hpending in
theorem capture_congr {raw raw' : Raw E α} {t : Session E} (h : raw t = raw' t) :
    capture raw t = capture raw' t := by
  rw [capture, capture, Process.handle, Process.handle, h]

omit hpending in
/-- Where nothing fails up to the end of the callback, making a module and evaluating it might as well
be one request each. -/
theorem instantiate_eq {t u : Session E} {module : ModuleId}
    (hdeclare : N.declareNative (Synthetic.declare N) name s = .done (.ok module) t)
    (hdirect : capture (request (.declareNative name (exports.map Prod.fst))) s =
      .done (.ok module) t)
    (hstart : N.start module t.heap = (.ok (), t.heap))
    (hevaluate : Synthetic.evaluate module t = .done (.ok ()) u) :
    N.instantiate name s = BackendModules.instantiate (.whole exports) name s := by
  have hstarted : perform (N.start module) t = .done (.ok ()) t := by
    rw [perform, hstart]
  have heval : N.requests.eval module t = (ModuleRequests.whole exports).eval module t := by
    calc
      _ = N.eval Synthetic.evaluate module t := rfl
      _ = (request (.evaluate module) : Raw E (Value × Value)) u := by
        rw [NativeModules.eval, Process.bind_of_ok hstarted,
          Process.bind_of_ok (Process.attempt_of_done hevaluate)]
      _ = (do Synthetic.evaluate module; request (.evaluate module)) t := by
        rw [Process.bind_of_ok hevaluate]
      _ = (ModuleRequests.whole exports).eval module t := rfl
  have hmade : N.requests.declareNative name s = .done (.ok module) t := hdeclare
  have hmade' : (ModuleRequests.whole exports).declareNative name s = .done (.ok module) t := hdirect
  rw [NativeModules.instantiate, BackendModules.instantiate, BackendModules.instantiate,
    Process.bind_of_ok hmade, Process.bind_of_ok hmade']
  refine capture_congr ?_
  rw [Process.bind_apply, Process.bind_apply, heval]

end Instantiate

theorem moves_create (kind : GuestErrorKind) (message : String) :
    (create kind message : Raw E Value).Moves (Undisturbed N) fun _ _ => True := by
  have hreading := undisturbed_reading N
  exact hreading.bind (hreading.request rfl rfl) fun _ =>
    hreading.bind (undisturbed_request N rfl) fun _ => hreading.pure _

/-- Whatever the slot holds before, a definition leaves nothing of its own in it. -/
theorem ends_synthetic {borrowed : Bool} {name : String} {exports : List (String × Value)} :
    (N.synthetic borrowed name exports).Ends guest.environment s (Defined N exports s)
      fun _ t => Undisturbed N s t := by
  have hnames : (capture (exports.forM fun (name, _) => discard (cString name)) : Op E PUnit).Ends
      guest.environment s (fun _ t => t = s) fun _ t => Undisturbed N s t := by
    refine ends_capture (silent_cStrings_same.mono (fun _ _ heq => heq) ?_)
    rintro _ _ rfl
    exact Undisturbed.refl _
  refine Process.ends_bind.mpr (hnames.mono ?_ fun _ _ hfailed => hfailed)
  rintro _ s rfl
  cases hduplicate : firstDuplicate [] (exports.map Prod.fst) with
  | some duplicate =>
      have hreading := undisturbed_reading N
      have hthrown := hreading.capture <| hreading.bind (moves_create (N := N) .syntaxError
        s!"duplicate exported name '{duplicate}'") fun error =>
          hreading.throw (e := Fault.exception error) (Q := fun (_ : ModuleId) _ => False)
      exact (ends_of_moves hthrown).mono (fun _ _ hnever => hnever.2.elim) fun _ _ hfailed => hfailed
  | none =>
      obtain ⟨hnodup, -⟩ := firstDuplicate_eq_none.mp hduplicate
      cases borrowed with
      | true => exact Undisturbed.refl s
      | false =>
          have hstored : (N.instantiate name).Ends guest.environment
              { s with pendingExports := some exports } _ _ := ends_instantiate rfl hnodup
          refine Process.ends_bind.mpr (Process.ends_handle.mpr (hstored.mono ?_ ?_))
          · exact fun module t hdefined =>
              ⟨⟨hdefined.kept.slot, hdefined.kept.exposed⟩, hdefined.fresh, hdefined.exposes⟩
          · exact fun error t hfailed => ⟨Or.inr rfl, hfailed.exposed⟩

end Definitions

/-- One call of `synthetic`: its arguments, whether user data is borrowed at that moment, and what the
guest does meanwhile. -/
structure Definition (N : NativeModules E) where
  name : String
  exports : List (String × Value)
  borrowed : Bool
  guest : Guest N

def Definition.define (definition : Definition N) (s : Session E) :
    Except Error ModuleId × Session E :=
  (N.synthetic definition.borrowed definition.name definition.exports s).resolve
    definition.guest.environment

/-- What happens in a session: definitions, and anything else between them. -/
inductive Event (N : NativeModules E) where
  | define (definition : Definition N)
  | other (move : Session E → Session E) (undisturbed : ∀ s, Undisturbed N s (move s))

def Event.after (s : Session E) : Event N → Session E
  | .define definition => (definition.define s).2
  | .other move _ => move s

def after (s : Session E) (events : List (Event N)) : Session E := events.foldl Event.after s

theorem define_cases (definition : Definition N) (s : Session E) :
    (∃ module, (definition.define s).1 = .ok module ∧
      Defined N definition.exports s module (definition.define s).2) ∨
    ∃ error, (definition.define s).1 = .error error ∧ Undisturbed N s (definition.define s).2 := by
  have hends : (N.synthetic definition.borrowed definition.name definition.exports).Ends
      definition.guest.environment s (Defined N definition.exports s)
      fun _ t => Undisturbed N s t := ends_synthetic
  revert hends
  unfold Definition.define Process.Ends
  rcases Resumption.resolve _ _ with ⟨error | module, t⟩
  · exact fun hfailed => Or.inr ⟨error, rfl, hfailed⟩
  · exact fun hdefined => Or.inl ⟨module, rfl, hdefined⟩

/-- A definition is no more than what code of the guest may do, so definitions can be nested. -/
theorem undisturbed_define (definition : Definition N) (s : Session E) :
    Undisturbed N s (definition.define s).2 := by
  rcases define_cases definition s with ⟨module, -, hdefined⟩ | ⟨error, -, hfailed⟩
  · exact hdefined.kept.undisturbed (Or.inr rfl)
  · exact hfailed

theorem undisturbed_after (s : Session E) (events : List (Event N)) :
    Undisturbed N s (after s events) := by
  induction events generalizing s with
  | nil => exact Undisturbed.refl s
  | cons event events ih =>
      refine Undisturbed.trans ?_ (ih _)
      cases event with
      | define definition => exact undisturbed_define definition s
      | other move undisturbed => exact undisturbed s

/-- **Synthetic modules do not share pending exports.** However definitions follow each other, fail and
are interrupted by code of the guest, the slot is empty after each, and a module that was defined
exposes exactly its own exports, from then on and whatever is defined later; it is a new one, so
nothing that was defined before changes. -/
theorem definitions_separate (s : Session E) (hs : s.pendingExports = none)
    (before : List (Event N)) (definition : Definition N) :
    (after s (before ++ [.define definition])).pendingExports = none ∧
      ∀ module, (definition.define (after s before)).1 = .ok module →
        N.exposed (after s before).heap module = none ∧
        ∀ later, ∃ bindings,
          N.exposed (after s (before ++ .define definition :: later)).heap module = some bindings ∧
          ∀ name value, bindings name = some value ↔ (name, value) ∈ definition.exports := by
  have hafter : ∀ later, after s (before ++ .define definition :: later) =
      after (definition.define (after s before)).2 later := fun later => by
    simp only [after, List.foldl_append, List.foldl_cons, Event.after]
  constructor
  · have hbefore := (undisturbed_after s before).slot
    rw [hs, or_self] at hbefore
    rw [hafter]
    have hslot := (undisturbed_define definition (after s before)).slot
    rwa [hbefore, or_self] at hslot
  · intro module hmodule
    rcases define_cases definition (after s before) with ⟨module', hok, hdefined⟩ | ⟨error, herror, -⟩
    · obtain rfl : module' = module := by rw [hok] at hmodule; exact Except.ok.inj hmodule
      obtain ⟨bindings, hexposed, hexports⟩ := hdefined.exposes
      refine ⟨hdefined.fresh, fun later => ⟨bindings, ?_, hexports⟩⟩
      rw [hafter]
      exact (undisturbed_after _ later).exposed _ _ hexposed
    · rw [herror] at hmodule
      cases hmodule

namespace ModuleEngine

def guest : Guest modules where
  environment := fun _ s => (.ok .undefined, s)
  undisturbed := fun _ => Undisturbed.refl

/-- The engine takes no name with a NUL, which is seen when the slot has been filled. -/
def unnamed : Definition modules := ⟨"a\x00b", [("x", .boolean true)], false, guest⟩

def shared : Definition modules := ⟨"shared", [("x", .null)], false, guest⟩

theorem definitions_separate_shared :
    (unnamed.define session).1.toOption = none ∧
      (after session ([.define unnamed] ++ [.define shared])).pendingExports = none ∧
      ∀ later, ∃ bindings,
        exposed (after session ([.define unnamed] ++ .define shared :: later)).heap 0 =
            some bindings ∧
          ∀ name value, bindings name = some value ↔ (name, value) ∈ shared.exports := by
  have hfailed : (unnamed.define session).1.toOption = none := rfl
  have hshared : (shared.define (after session [.define unnamed])).1 = .ok 0 := rfl
  obtain ⟨hslot, hexposed⟩ := definitions_separate session rfl [.define unnamed] shared
  exact ⟨hfailed, hslot, (hexposed 0 hshared).2⟩

end ModuleEngine

end GuestJs.QuickJs
