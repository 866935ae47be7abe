import GuestJs.Host.Exceptions
import GuestJs.Proof.Crossings
import GuestJs.Proof.Reading

/-!
# Ordinary objects

What the objects of an engine hold, and what the requests of the bindings do to it: a class of an
exception is made without running code of the guest's, and reading one of its instances comes by the
name of the class.
-/

namespace GuestJs

namespace QuickJs

open Process

variable {E : Engine} {environment : Environment E} {session : Session E}

/-- What can be seen of the objects of an engine that are no proxies: their own data properties and
their prototypes. A loose object can be extended, has data properties only and is no object's
prototype. -/
structure Objects (E : Engine) where
  own : E.Heap → ObjectId → String → Option Value
  prototype : E.Heap → ObjectId → Option ObjectId
  loose : E.Heap → ObjectId → Prop

namespace Objects

variable (O : Objects E)

structure Keeps (h h' : E.Heap) : Prop where
  own : ∀ object key value, E.isError (.object object) = false →
    O.own h object key = some value → O.own h' object key = some value
  prototype : ∀ object above, O.prototype h object = some above → O.prototype h' object = some above

/-- New objects, or texts of errors. -/
structure Grows (h h' : E.Heap) : Prop extends O.Keeps h h' where
  loose : ∀ object, O.loose h object → O.loose h' object
  absent : ∀ object key, E.isError (.object object) = false → O.loose h object →
    O.own h object key = none → O.own h' object key = none

/-- The class of a constructor: errors are not among its two objects. -/
structure Intact (name : String) (h : E.Heap) (constructor prototype : ObjectId) : Prop where
  constructor_plain : E.isError (.object constructor) = false
  prototype_plain : E.isError (.object prototype) = false
  linked : O.own h prototype "constructor" = some (.object constructor)
  named : O.own h constructor "name" = some (.string name)

/-- The object inherits from the prototype, within so many steps. -/
inductive Below (h : E.Heap) (prototype : ObjectId) : Nat → ObjectId → Prop where
  | ofClass {depth : Nat} {object : ObjectId} (hobject : O.prototype h object = some prototype) :
      Below h prototype (depth + 1) object
  | ofSubclass {depth : Nat} {object above : ObjectId} (hobject : O.prototype h object = some above)
      (habove : Below h prototype depth above) : Below h prototype (depth + 1) object

/-- Something inherits from the object, or it has a property. -/
def Occurs (h : E.Heap) (object : ObjectId) : Prop :=
  (∃ below, O.prototype h below = some object) ∨
    (E.isError (.object object) = false ∧ ∃ key value, O.own h object key = some value)

/-- A class of the name stays one, and its instances stay its instances. -/
def Respects (name : String) (h h' : E.Heap) : Prop :=
  ∀ constructor prototype, O.Intact name h constructor prototype →
    O.Intact name h' constructor prototype ∧
      ∀ depth object, O.Below h prototype depth object → O.Below h' prototype depth object

/-- The session of a guest goes on, and the guest leaves the classes of the name alone. -/
def Stays (name : String) (s s' : Session E) : Prop :=
  s'.context = s.context ∧ O.Respects name s.heap s'.heap

variable {O} {name : String} {h h' h'' : E.Heap} {constructor prototype object above : ObjectId}
  {depth : Nat}

theorem Keeps.refl : O.Keeps h h := ⟨fun _ _ _ _ => id, fun _ _ => id⟩

theorem Keeps.trans (h₁ : O.Keeps h h') (h₂ : O.Keeps h' h'') : O.Keeps h h'' where
  own := fun object key value hplain hown =>
    h₂.own object key value hplain (h₁.own object key value hplain hown)
  prototype := fun object above habove => h₂.prototype object above (h₁.prototype object above habove)

theorem Grows.trans (h₁ : O.Grows h h') (h₂ : O.Grows h' h'') : O.Grows h h'' where
  toKeeps := h₁.toKeeps.trans h₂.toKeeps
  loose := fun object hloose => h₂.loose object (h₁.loose object hloose)
  absent := fun object key hplain hloose hnone =>
    h₂.absent object key hplain (h₁.loose object hloose) (h₁.absent object key hplain hloose hnone)

theorem Intact.keep (hclass : O.Intact name h constructor prototype) (hkeeps : O.Keeps h h') :
    O.Intact name h' constructor prototype where
  constructor_plain := hclass.constructor_plain
  prototype_plain := hclass.prototype_plain
  linked := hkeeps.own _ _ _ hclass.prototype_plain hclass.linked
  named := hkeeps.own _ _ _ hclass.constructor_plain hclass.named

theorem Below.keep (hbelow : O.Below h prototype depth object) (hkeeps : O.Keeps h h') :
    O.Below h' prototype depth object := by
  induction hbelow with
  | ofClass hobject => exact .ofClass (hkeeps.prototype _ _ hobject)
  | ofSubclass hobject _ ih => exact .ofSubclass (hkeeps.prototype _ _ hobject) ih

theorem Keeps.respects (hkeeps : O.Keeps h h') : O.Respects name h h' := by
  intro constructor prototype hclass
  exact ⟨hclass.keep hkeeps, fun _ _ hbelow => hbelow.keep hkeeps⟩

theorem Respects.refl : O.Respects name h h := fun _ _ hclass => ⟨hclass, fun _ _ hbelow => hbelow⟩

theorem Respects.trans (h₁ : O.Respects name h h') (h₂ : O.Respects name h' h'') :
    O.Respects name h h'' := by
  intro constructor prototype hclass
  obtain ⟨hclass', hbelow⟩ := h₁ constructor prototype hclass
  obtain ⟨hclass'', hbelow'⟩ := h₂ constructor prototype hclass'
  exact ⟨hclass'', fun depth object h => hbelow' depth object (hbelow depth object h)⟩

theorem Stays.refl (s : Session E) : O.Stays name s s := ⟨rfl, .refl⟩

theorem Stays.trans {s t u : Session E} (h₁ : O.Stays name s t) (h₂ : O.Stays name t u) :
    O.Stays name s u := ⟨h₂.1.trans h₁.1, h₁.2.trans h₂.2⟩

end Objects

/-- The parts of ECMAScript that making and reading the class of an exception relies on. -/
structure Engine.OrdinaryObjects (E : Engine) extends E.OwnTexts where
  objects : Objects E
  reads : ∀ {α : Type} (p : Primitive α) h, p.isRead = true → p.definesText = false →
    (E.primitive p h).Guarantees objects.Keeps (fun h _ h' => objects.Keeps h h') h
  prototype_not_loose : ∀ h object above,
    objects.prototype h object = some above → ¬objects.loose h above
  getPrototype : ∀ h object above, objects.prototype h object = some above →
    E.primitive (.getPrototype (.object object)) h = .done (.ok (.object above)) h
  getOwn : ∀ h object key value, objects.own h object key = some value →
    E.primitive (.get (.object object) (.string key)) h = .done (.ok value) h
  newString : ∀ text h, ∃ h',
    E.primitive (.newString text) h = .done (.ok (.string text)) h' ∧ objects.Grows h h'
  newObject : ∀ h, ∃ object h', E.primitive .newObject h = .done (.ok (.object object)) h' ∧
    objects.Grows h h' ∧ E.isError (.object object) = false ∧ objects.loose h' object ∧
      ∀ key, objects.own h' object key = none
  newError_loose : ∀ kind message h error h',
    E.primitive (.newError kind message) h = .done (.ok error) h' → objects.Grows h h' ∧
      ∃ object base, error = .object object ∧ objects.loose h' object ∧
        objects.prototype h' object = some base
  defineText_grows : ∀ error key text h h', E.isError error = true →
    E.primitive (.defineText error key text) h = .done (.ok ()) h' → objects.Grows h h'
  newFunction : ∀ name length h, ∃ object h',
    E.primitive (.newFunction name length) h = .done (.ok (.object object)) h' ∧
      objects.Grows h h' ∧ E.objectKind object = .function ∧ E.isError (.object object) = false ∧
        objects.loose h' object ∧ objects.own h' object "name" = some (.string name) ∧
          objects.own h' object "prototype" = none
  withConstructor : ∀ object h, E.objectKind object = .function → ∃ h',
    E.primitive (.withConstructor (.object object)) h = .done (.ok (.object object)) h' ∧
      objects.Grows h h'
  define : ∀ object key value writable enumerable configurable h, objects.loose h object →
    E.isError (.object object) = false → objects.own h object key = none → ∃ h',
      E.primitive (.define (.object object) (.string key)
          (.value value writable enumerable configurable)) h = .done (.ok ()) h' ∧
        objects.own h' object key = some value ∧ objects.Keeps h h' ∧
          (∀ other, objects.loose h other → objects.loose h' other) ∧
            ∀ other key', other ≠ object ∨ key' ≠ key →
              objects.own h' other key' = objects.own h other key'
  /-- What is nobody's prototype is not on the way from its new prototype up. -/
  setPrototype : ∀ object above h, objects.loose h object → above ≠ object →
    objects.Occurs h above → ∃ h',
    E.primitive (.setPrototype (.object object) (some (.object above))) h = .done (.ok ()) h' ∧
      objects.prototype h' object = some above ∧
        (∀ other, other ≠ object → objects.prototype h' other = objects.prototype h other) ∧
          (∀ other key, objects.own h' other key = objects.own h other key) ∧
            ∀ other, other ≠ above → objects.loose h other → objects.loose h' other

namespace Engine.OrdinaryObjects

variable (T : E.OrdinaryObjects) {name : String} {h : E.Heap} {constructor prototype : ObjectId}

theorem reading (name : String) : Reading (T.objects.Stays name) where
  refl := Objects.Stays.refl
  trans := fun _ _ _ => Objects.Stays.trans
  request := fun {α} {p} hp htext => by
    have hheap : Process.Moves T.objects.Keeps (E.primitive p) fun _ _ => True := fun heap =>
      (T.reads p heap hp htext).mono fun _ _ _ hkeeps => ⟨hkeeps, fun _ _ => trivial⟩
    exact hheap.zoom (fun s _ hkeeps => ⟨rfl, hkeeps.respects⟩) fun _ _ _ _ => trivial

/-! ### Reading an instance -/

variable {T}

theorem constructorName_intact (hclass : T.objects.Intact name session.heap constructor prototype) :
    (Thrown.settle (Thrown.constructorName (.object prototype)) : Op E (Option String)) session =
      .done (.ok (some name)) session := by
  refine Thrown.settle_of_ok ?_
  have hconstructor : (Thrown.property (.object prototype) "constructor" : Raw E Value) session =
      .done (.ok (.object constructor)) session :=
    request_of_done (T.getOwn _ _ _ _ hclass.linked)
  have hname : (Thrown.property (.object constructor) "name" : Raw E Value) session =
      .done (.ok (.string name)) session := request_of_done (T.getOwn _ _ _ _ hclass.named)
  unfold Thrown.constructorName
  rw [bind_of_ok hconstructor]
  show ((asObject (.object constructor) : Raw E Value) >>= _) session = _
  rw [show (asObject (.object constructor) : Raw E Value) = Pure.pure (.object constructor) from rfl]
  exact bind_of_ok hname

theorem settle_getPrototype {object above : ObjectId}
    (hobject : T.objects.prototype session.heap object = some above) :
    (Thrown.settle (request (.getPrototype (.object object))) : Op E (Option Value)) session =
      .done (.ok (some (.object above))) session :=
  Thrown.settle_of_ok (request_of_done (T.getPrototype _ _ _ hobject))

variable (henvironment : ∀ query s, T.objects.Stays name s (environment query s).2)

include henvironment

/-- The walk up the prototypes of an instance comes by the class, whatever is read on the way. -/
theorem ends_prototypes_below {depth : Nat} {object : ObjectId}
    (hclass : T.objects.Intact name session.heap constructor prototype)
    (hbelow : T.objects.Below session.heap prototype depth object) :
    (Thrown.prototypes depth (.object object) : Op E (List String)).Ends environment session
      (fun names _ => name ∈ names) fun _ _ => True := by
  induction depth generalizing object session with
  | zero => cases hbelow
  | succ depth ih =>
      have hreading := T.reading name
      cases hbelow with
      | ofClass hobject =>
          rw [Thrown.prototypes]
          refine ends_bind.mpr (ends_of_done (settle_getPrototype hobject) (fun found hfound => ?_)
            fun _ _ => trivial)
          obtain rfl := Except.ok.inj hfound
          refine ends_bind.mpr (ends_of_done (constructorName_intact hclass) (fun read hread => ?_)
            fun _ _ => trivial)
          obtain rfl := Except.ok.inj hread
          refine ends_bind.mpr (ends_of_forall (fun rest _ => ?_) fun _ _ => trivial)
          exact List.mem_cons_self
      | @ofSubclass _ _ above hobject habove =>
          rw [Thrown.prototypes]
          refine ends_bind.mpr (ends_of_done (settle_getPrototype hobject) (fun found hfound => ?_)
            fun _ _ => trivial)
          obtain rfl := Except.ok.inj hfound
          have hmoves := (hreading.settle (hreading.constructorName (.object above))).ends
            hreading.trans henvironment session
          refine ends_bind.mpr (hmoves.mono (fun read session' hstays => ?_) fun _ _ _ => trivial)
          obtain ⟨hclass', hbelow'⟩ := hstays.1.2 constructor prototype hclass
          refine ends_bind.mpr ((ih hclass' (hbelow' _ _ habove)).mono (fun rest _ hrest => ?_)
            fun _ _ _ => trivial)
          exact List.mem_append_right _ hrest

/-- **Reading an instance.** The host gets the object with the name of the class among those of its
prototypes. -/
theorem ends_exception_below (session : Session E) {object : ObjectId}
    (hclass : T.objects.Intact name session.heap constructor prototype)
    (hbelow : T.objects.Below session.heap prototype E.walk object) :
    (Thrown.exception (.object object) : Op E GuestException).Ends environment session
      (fun exception session' => T.objects.Stays name session session' ∧
        exception.value = ⟨.object object, session.context⟩ ∧ name ∈ exception.prototypes)
      fun error session' => T.objects.Stays name session session' ∧ error = .interrupted := by
  have hreading := T.reading name
  have hends : ∀ {α : Type} {read : Op E α} {s : Session E}, read.Moves (T.objects.Stays name)
      (fun _ _ => True) → read.Ends environment s (fun _ s' => T.objects.Stays name s s')
        fun _ s' => T.objects.Stays name s s' := fun hmoves =>
    (hmoves.ends hreading.trans henvironment _).mono (fun _ _ h => h.1) fun _ _ h => h
  have hnames : (Thrown.exception (.object object) : Op E GuestException).Ends environment session
      (fun exception _ => name ∈ exception.prototypes) fun _ _ => True := by
    unfold Thrown.exception
    refine ends_bind.mpr (ends_of_done rfl (fun _ hget => ?_) nofun)
    obtain rfl := Except.ok.inj hget
    split
    · trivial
    · refine ends_bind.mpr ((hends (hreading.name _ _)).mono (fun _ first hfirst => ?_)
        fun _ _ _ => trivial)
      refine ends_bind.mpr ((hends (hreading.message _ _)).mono (fun _ second hsecond => ?_)
        fun _ _ _ => trivial)
      refine ends_bind.mpr ((hends (hreading.stack _ _)).mono (fun _ third hthird => ?_)
        fun _ _ _ => trivial)
      obtain ⟨hclass', hbelow'⟩ :=
        ((hfirst.trans hsecond).trans hthird).2 constructor prototype hclass
      refine ends_bind.mpr ((ends_prototypes_below henvironment hclass'
        (hbelow' _ _ hbelow)).mono (fun _ _ hmem => hmem) fun _ _ _ => trivial)
  have hstays := hends (s := session) (hreading.exception (.object object))
  refine ((hstays.and (Thrown.ends_exception _)).and hnames).mono ?_ ?_
  · exact fun _ _ ⟨⟨hstays, hvalue⟩, hmem⟩ => ⟨hstays, hvalue, hmem⟩
  · exact fun _ _ ⟨⟨hstays, herror⟩, _⟩ => ⟨hstays, herror⟩

/-- **An instance that is thrown.** The host gets it as an exception that is caught by the name. -/
theorem ends_intoError_below {object : ObjectId}
    (hclass : T.objects.Intact name session.heap constructor prototype)
    (hbelow : T.objects.Below session.heap prototype E.walk object) :
    (Thrown.intoError (.object object) : Op E Error).Ends environment session
      (fun error session' => T.objects.Stays name session session' ∧
        Arrives (fun exception => exception.value = ⟨.object object, session.context⟩ ∧
          name ∈ exception.prototypes) error)
      fun _ _ => False := by
  refine ends_handle.mpr (ends_bind.mpr ((ends_exception_below henvironment session hclass
    hbelow).mono ?_ ?_))
  · exact fun exception _ hread => ⟨hread.1, .guest hread.2⟩
  · exact fun error _ hread => ⟨hread.1, .of_interrupted hread.2⟩

end Engine.OrdinaryObjects

/-! ### Making a class -/

variable {T : E.OrdinaryObjects} {name : String}

theorem capture_ok {α : Type} {raw : Raw E α} {a : α} {session' : Session E}
    (h : raw session = .done (.ok a) session') : capture raw session = .done (.ok a) session' := by
  rw [capture, handle, h]
  rfl

theorem guarded_ok {α : Type} {op : Op E α} (hsettled : session.loans.settled = .ok ()) :
    (do settled; op) session = op session := by
  have hguard : (settled : Op E Unit) session = .done (.ok ()) session := by
    rw [settled, check_apply, hsettled]
  exact bind_of_ok hguard

theorem newString_done (T : E.OrdinaryObjects) (text : String) (session : Session E) : ∃ heap,
    newString text session = .done (.ok (.string text)) { session with heap } ∧
      T.objects.Grows session.heap heap := by
  obtain ⟨heap, hdone, hgrows⟩ := T.newString text session.heap
  exact ⟨heap, capture_ok (request_of_done hdone), hgrows⟩

theorem defineText_done (T : E.OrdinaryObjects) {error : Value} (herror : E.isError error = true)
    (key text : String) (session : Session E) : ∃ heap,
      (request (.defineText error key text) : Raw E Unit) session =
          .done (.ok ()) { session with heap } ∧ T.objects.Grows session.heap heap := by
  obtain ⟨heap, hdefine, -⟩ := T.defineText error key text session.heap herror
  exact ⟨heap, request_of_done hdefine, T.defineText_grows _ _ _ _ _ herror hdefine⟩

theorem create_done (T : E.OrdinaryObjects) (kind : GuestErrorKind) (message : String)
    (session : Session E) : ∃ object base heap,
      (create kind message : Raw E Value) session =
          .done (.ok (.object object)) { session with heap } ∧
        T.objects.Grows session.heap heap ∧ E.isError (.object object) = true ∧
          T.objects.loose heap object ∧ T.objects.prototype heap object = some base := by
  obtain ⟨error, heap, hnew, herror, -⟩ := T.newError kind "" session.heap
  obtain ⟨hgrows, object, base, rfl, hloose, hbase⟩ := T.newError_loose _ _ _ _ _ hnew
  obtain ⟨heap', hdefine, hgrows'⟩ :=
    defineText_done T herror "message" message { session with heap }
  refine ⟨object, base, heap', ?_, hgrows.trans hgrows', herror, hgrows'.loose _ hloose,
    hgrows'.prototype _ _ hbase⟩
  unfold create
  rw [bind_of_ok (request_of_done hnew)]
  exact bind_of_ok hdefine

theorem newError_done (T : E.OrdinaryObjects) (kind : GuestErrorKind) (message : String)
    (session : Session E) : ∃ object base heap,
      BackendExceptions.newError kind message session =
          .done (.ok (.object object)) { session with heap } ∧
        T.objects.Grows session.heap heap ∧ E.isError (.object object) = true ∧
          T.objects.loose heap object ∧ T.objects.prototype heap object = some base := by
  obtain ⟨object, base, heap, hcreate, hrest⟩ := create_done T kind message session
  exact ⟨object, base, heap, capture_ok hcreate, hrest⟩

theorem setUncatchable_done (T : E.OrdinaryObjects) {error : Value} (herror : E.isError error = true)
    (session : Session E) : ∃ heap,
      (request (.setUncatchable error) : Raw E Unit) session =
          .done (.ok ()) { session with heap } ∧ T.objects.Keeps session.heap heap := by
  obtain ⟨heap, hset, -⟩ := T.setUncatchable error session.heap herror
  have hkeeps := T.reads (.setUncatchable error) session.heap rfl rfl
  rw [hset] at hkeeps
  exact ⟨heap, request_of_done hset, hkeeps⟩

/-- What a guest is given for an error is a value of its own or a new error. -/
theorem raiseException_done (T : E.OrdinaryObjects) (error : Error) (session : Session E) :
    ∃ value heap, (Raise.exception error : Raw E Value) session =
        .done (.ok value) { session with heap } ∧ T.objects.Keeps session.heap heap := by
  have hget : (MonadState.get : Raw E (Session E)) session = .done (.ok session) session := rfl
  cases error with
  | guest exception =>
      cases hrestore : exception.value.restore session.context with
      | ok value =>
          refine ⟨value, session.heap, ?_, .refl⟩
          unfold Raise.exception
          rw [bind_of_ok hget]
          dsimp only
          rw [hrestore]
          rfl
      | error failure =>
          obtain ⟨object, _, heap, hcreate, hgrows, herror, -⟩ :=
            create_done T .error exception.message session
          obtain ⟨heap', hname, hgrows'⟩ :=
            defineText_done T herror "name" exception.name { session with heap }
          have hkeeps := hgrows.toKeeps.trans hgrows'.toKeeps
          unfold Raise.exception
          rw [bind_of_ok hget]
          dsimp only
          rw [hrestore]
          dsimp only
          rw [bind_of_ok hcreate, bind_of_ok hname]
          cases exception.stack with
          | none => exact ⟨.object object, heap', rfl, hkeeps⟩
          | some stack =>
              obtain ⟨heap'', hstack, hgrows''⟩ :=
                defineText_done T herror "stack" stack { session with heap := heap' }
              exact ⟨.object object, heap'', bind_of_ok hstack, hkeeps.trans hgrows''.toKeeps⟩
  | interrupted =>
      obtain ⟨object, _, heap, hcreate, hgrows, herror, -⟩ :=
        create_done T .error Error.interrupted.toString session
      obtain ⟨heap', hset, hkeeps⟩ := setUncatchable_done T herror { session with heap }
      refine ⟨.object object, heap', (bind_of_ok hcreate).trans ?_, hgrows.toKeeps.trans hkeeps⟩
      exact bind_of_ok hset
  | _ =>
      obtain ⟨object, _, heap, hcreate, hgrows, -⟩ := create_done T _ _ session
      exact ⟨.object object, heap, bind_of_ok hcreate, hgrows.toKeeps⟩

theorem moves_capture_raise (T : E.OrdinaryObjects) (name : String) (error : Error) :
    (capture (raise error) : Op E Empty).Moves (T.objects.Stays name) fun _ _ => True := by
  have hreading := T.reading name
  refine hreading.capture (hreading.bind (fun session => ?_) fun _ => hreading.throw)
  obtain ⟨value, heap, hraise, hkeeps⟩ := raiseException_done T error session
  rw [hraise]
  exact ⟨⟨rfl, hkeeps.respects⟩, fun _ _ => trivial⟩

theorem prototypeOf_done (T : E.OrdinaryObjects) (session : Session E) {object above : ObjectId}
    (hsettled : session.loans.settled = .ok ())
    (hobject : T.objects.prototype session.heap object = some above) :
    (prototypeOf (.object object) : Op E Value) session = .done (.ok (.object above)) session := by
  have hrequest : (request (.getPrototype (.object object)) : Raw E Value) session =
      .done (.ok (.object above)) session := request_of_done (T.getPrototype _ _ _ hobject)
  refine (guarded_ok hsettled).trans (capture_ok ?_)
  exact bind_of_ok hrequest

theorem setPrototype_done (T : E.OrdinaryObjects) (session : Session E) {object above : ObjectId}
    (hsettled : session.loans.settled = .ok ())
    (hloose : T.objects.loose session.heap object) (hne : above ≠ object)
    (hoccurs : T.objects.Occurs session.heap above) : ∃ heap,
      (setPrototype (.object object) (.object above) : Op E Unit) session =
          .done (.ok ()) { session with heap } ∧
        T.objects.prototype heap object = some above ∧
          (∀ other, other ≠ object →
            T.objects.prototype heap other = T.objects.prototype session.heap other) ∧
            (∀ other key, T.objects.own heap other key = T.objects.own session.heap other key) ∧
              ∀ other, other ≠ above → T.objects.loose session.heap other →
                T.objects.loose heap other := by
  obtain ⟨heap, hdone, hrest⟩ := T.setPrototype object above session.heap hloose hne hoccurs
  exact ⟨heap, (guarded_ok hsettled).trans (capture_ok (request_of_done hdone)), hrest⟩

theorem define_done (T : E.OrdinaryObjects) (session : Session E) {object : ObjectId} (key : String)
    (value : Value) (writable enumerable configurable : Bool)
    (hsettled : session.loans.settled = .ok ())
    (hloose : T.objects.loose session.heap object) (hplain : E.isError (.object object) = false)
    (habsent : T.objects.own session.heap object key = none) : ∃ heap,
      define (.object object) (.string key) (.value value writable enumerable configurable) session =
          .done (.ok ()) { session with heap } ∧
        T.objects.own heap object key = some value ∧ T.objects.Keeps session.heap heap ∧
          (∀ other, T.objects.loose session.heap other → T.objects.loose heap other) ∧
            ∀ other key', other ≠ object ∨ key' ≠ key →
              T.objects.own heap other key' = T.objects.own session.heap other key' := by
  obtain ⟨heap, hdone, hrest⟩ := T.define object key value writable enumerable configurable
    session.heap hloose hplain habsent
  exact ⟨heap, (guarded_ok hsettled).trans (capture_ok (request_of_done hdone)), hrest⟩

theorem newConstructor_done (T : E.OrdinaryObjects) (name : String) (length : Nat)
    (session : Session E) : ∃ object heap,
      BackendClasses.newConstructor name length session =
          .done (.ok (.object object)) { session with heap } ∧
        T.objects.Grows session.heap heap ∧ E.isError (.object object) = false ∧
          T.objects.loose heap object ∧ T.objects.own heap object "name" = some (.string name) ∧
            T.objects.own heap object "prototype" = none := by
  obtain ⟨object, heap, hnew, hgrows, hkind, hplain, hloose, hname, habsent⟩ :=
    T.newFunction name length session.heap
  obtain ⟨heap', hmark, hgrows'⟩ := T.withConstructor object heap hkind
  refine ⟨object, heap', ?_, hgrows.trans hgrows', hplain, hgrows'.loose _ hloose,
    hgrows'.own _ _ _ hplain hname, hgrows'.absent _ _ hplain hloose habsent⟩
  have hfunction : (BackendCallables.newFunction name length : Op E Value) session =
      .done (.ok (.object object)) { session with heap } := capture_ok (request_of_done hnew)
  have hcast : (asFunction (.object object) : Raw E Value) = Pure.pure (.object object) := by
    simp only [asFunction, kindOf, hkind]
  refine (bind_of_ok hfunction).trans (capture_ok ?_)
  rw [hcast]
  exact request_of_done hmark

/-- The two objects refer to each other. -/
theorem link_done (T : E.OrdinaryObjects) (session : Session E) {c p : ObjectId}
    (hsettled : session.loans.settled = .ok ())
    (hc : T.objects.loose session.heap c) (hcPlain : E.isError (.object c) = false)
    (hcName : T.objects.own session.heap c "name" = some (.string name))
    (hcAbsent : T.objects.own session.heap c "prototype" = none)
    (hp : T.objects.loose session.heap p) (hpPlain : E.isError (.object p) = false)
    (hpAbsent : T.objects.own session.heap p "constructor" = none) : ∃ heap,
      (RealisedClass.link (.object c) (.object p) : Op E RealisedClass) session =
          .done (.ok ⟨⟨.object c, session.context⟩, ⟨.object p, session.context⟩⟩)
            { session with heap } ∧
        T.objects.Intact name heap c p := by
  obtain ⟨heap₁, hkey, hgrows⟩ := newString_done T "prototype" session
  obtain ⟨heap₂, hdefine, -, hkeeps, hloose, hother⟩ := define_done T
    { session with heap := heap₁ } "prototype" (.object p) false false false hsettled
    (hgrows.loose _ hc) hcPlain (hgrows.absent _ _ hcPlain hc hcAbsent)
  obtain ⟨heap₃, hkey', hgrows'⟩ := newString_done T "constructor" { session with heap := heap₂ }
  have hpLoose : T.objects.loose heap₂ p := hloose p (hgrows.loose _ hp)
  have hpStill : T.objects.own heap₂ p "constructor" = none := by
    rw [hother p "constructor" (Or.inr (by decide))]
    exact hgrows.absent _ _ hpPlain hp hpAbsent
  obtain ⟨heap₄, hdefine', hlinked, hkeeps', -⟩ := define_done T
    { session with heap := heap₃ } "constructor" (.object c) true false true hsettled
    (hgrows'.loose _ hpLoose) hpPlain (hgrows'.absent _ _ hpPlain hpLoose hpStill)
  have hnamed : T.objects.own heap₄ c "name" = some (.string name) :=
    (((hgrows.toKeeps.trans hkeeps).trans hgrows'.toKeeps).trans hkeeps').own _ _ _ hcPlain hcName
  refine ⟨heap₄, ?_, hcPlain, hpPlain, hlinked, hnamed⟩
  unfold RealisedClass.link
  rw [bind_of_ok hkey, bind_of_ok hdefine, bind_of_ok hkey', bind_of_ok hdefine']
  rfl

/-- **Realising the class** runs no code of the guest's and ends in a class of the name. -/
theorem build_done (T : E.OrdinaryObjects) (exception : HostException) {session : Session E}
    (hsettled : session.loans.settled = .ok ()) : ∃ c p heap,
      exception.build session =
          .done (.ok ⟨⟨.object c, session.context⟩, ⟨.object p, session.context⟩⟩)
            { session with heap } ∧
        T.objects.Intact exception.name heap c p := by
  obtain ⟨p, heap₁, hobject, -, hpPlain, hp, hpAbsent⟩ := T.newObject session.heap
  have hnewObject : (newObject : Op E Value) session =
      .done (.ok (.object p)) { session with heap := heap₁ } := capture_ok (request_of_done hobject)
  obtain ⟨error, base, heap₂, hnewError, hgrows₂, -, -, hbase⟩ :=
    newError_done T exception.base "" { session with heap := heap₁ }
  have hpLoose₂ : T.objects.loose heap₂ p := hgrows₂.loose p hp
  have hne : base ≠ p := by
    rintro rfl
    exact T.prototype_not_loose _ _ _ hbase hpLoose₂
  have hprototype := prototypeOf_done T { session with heap := heap₂ } hsettled hbase
  obtain ⟨heap₃, hset, -, -, hown₃, hloose₃⟩ := setPrototype_done T
    { session with heap := heap₂ } hsettled hpLoose₂ hne (Or.inl ⟨_, hbase⟩)
  have hpLoose₃ : T.objects.loose heap₃ p := hloose₃ p hne.symm hpLoose₂
  have hpAbsent₃ : ∀ key, T.objects.own heap₃ p key = none := by
    intro key
    rw [hown₃]
    exact hgrows₂.absent _ _ hpPlain hp (hpAbsent key)
  obtain ⟨heap₄, hkey, hgrows₄⟩ := newString_done T "name" { session with heap := heap₃ }
  obtain ⟨heap₅, htext, hgrows₅⟩ := newString_done T exception.name { session with heap := heap₄ }
  have hgrows := hgrows₄.trans hgrows₅
  obtain ⟨heap₆, hdefine, -, -, hloose₆, hother₆⟩ := define_done T
    { session with heap := heap₅ } "name" (.string exception.name) true false true hsettled
    (hgrows.loose _ hpLoose₃) hpPlain (hgrows.absent _ _ hpPlain hpLoose₃ (hpAbsent₃ "name"))
  have hpLoose₆ : T.objects.loose heap₆ p := hloose₆ p (hgrows.loose _ hpLoose₃)
  have hpAbsent₆ : T.objects.own heap₆ p "constructor" = none := by
    rw [hother₆ p "constructor" (Or.inr (by decide))]
    exact hgrows.absent _ _ hpPlain hpLoose₃ (hpAbsent₃ "constructor")
  obtain ⟨c, heap₇, hconstructor, hgrows₇, hcPlain, hc, hcName, hcAbsent⟩ :=
    newConstructor_done T exception.name 1 { session with heap := heap₆ }
  obtain ⟨heap, hlink, hclass⟩ := link_done T { session with heap := heap₇ } hsettled
    hc hcPlain hcName hcAbsent (hgrows₇.loose _ hpLoose₆) hpPlain
    (hgrows₇.absent _ _ hpPlain hpLoose₆ hpAbsent₆)
  refine ⟨c, p, heap, ?_, hclass⟩
  unfold HostException.build
  rw [bind_of_ok hnewObject, bind_of_ok hnewError, bind_of_ok hprototype, bind_of_ok hset,
    bind_of_ok hkey, bind_of_ok htext, bind_of_ok hdefine, bind_of_ok hconstructor]
  exact hlink

/-- **Making an instance** keeps the class and the instances it has. -/
theorem instantiate_done (T : E.OrdinaryObjects) (exception : HostException) {c p : ObjectId}
    (message : String) (hsettled : session.loans.settled = .ok ())
    (hclass : T.objects.Intact name session.heap c p) : ∃ object heap,
      exception.instantiate (.object p) message session =
          .done (.ok (.object object)) { session with heap } ∧
        T.objects.Intact name heap c p ∧ T.objects.prototype heap object = some p ∧
          ∀ depth other, T.objects.Below session.heap p depth other →
            T.objects.Below heap p depth other := by
  obtain ⟨object, base, heap₁, hnewError, hgrows, herror, hloose, -⟩ :=
    newError_done T exception.base message session
  have hne : p ≠ object := by
    rintro rfl
    rw [hclass.prototype_plain] at herror
    cases herror
  have hclass₁ := hclass.keep hgrows.toKeeps
  obtain ⟨heap, hset, hprototype, hothers, hown, -⟩ := setPrototype_done T
    { session with heap := heap₁ } hsettled hloose hne
    (Or.inr ⟨hclass.prototype_plain, _, _, hclass₁.linked⟩)
  refine ⟨object, heap, ?_, ⟨hclass.constructor_plain, hclass.prototype_plain,
    (hown _ _).trans hclass₁.linked, (hown _ _).trans hclass₁.named⟩, hprototype, ?_⟩
  · unfold HostException.instantiate
    rw [bind_of_ok hnewError, bind_of_ok hset]
    rfl
  · intro depth other hbelow
    have hbelow₁ := hbelow.keep hgrows.toKeeps
    clear hbelow
    induction hbelow₁ with
    | @ofClass _ other hobject =>
        by_cases heq : other = object
        · exact .ofClass (heq ▸ hprototype)
        · exact .ofClass ((hothers other heq).trans hobject)
    | @ofSubclass _ other above hobject _ ih =>
        by_cases heq : other = object
        · exact .ofClass (heq ▸ hprototype)
        · exact .ofSubclass ((hothers other heq).trans hobject) ih

end QuickJs

end GuestJs
