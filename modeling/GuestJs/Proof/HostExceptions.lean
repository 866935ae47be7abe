import GuestJs.Library.Transition
import GuestJs.Proof.ClassObjects

/-!
# The host knows its exceptions

An exception type is known by the name of its class, which the guest keeps as it keeps any other. As
long as it leaves the class alone, everything that is thrown from it comes back as what it was.
-/

namespace GuestJs

namespace QuickJs

open Process

variable {E : Engine} {environment : Environment E} {session : Session E} {T : E.OrdinaryObjects}
  {name : String}

/-! ### Crossings in the guest of the class -/

section Crossings

variable {constructor prototype object : ObjectId}
  (henvironment : ∀ query s, T.objects.Stays name s (environment query s).2)
  {before : Session E → Session E} (hbefore : T.objects.Stays name session (before session))

include henvironment hbefore

/-- A guest is in the same session after an error has crossed it. -/
theorem stays_run (error : Error) :
    T.objects.Stays name session
      (Crossing.run environment ⟨session.context, before⟩ error session).2 := by
  have hreading := T.reading name
  have hstart : T.objects.Stays name session
      (Crossing.entered ⟨session.context, before⟩ session) := ⟨rfl, hbefore.2⟩
  refine Crossing.run_of_ends_session (P := fun _ s' => T.objects.Stays name session s') ?_
  exact ((moves_capture_raise T name error).ends hreading.trans henvironment _).mono
    (fun _ _ _ => trivial) fun _ _ hstays => hstart.trans hstays

/-- An instance that crosses the guest it is of is read again, and caught again. -/
theorem run_below {exception : GuestException}
    (hclass : T.objects.Intact name session.heap constructor prototype)
    (hbelow : T.objects.Below session.heap prototype E.walk object)
    (hvalue : exception.value = ⟨.object object, session.context⟩) :
    Arrives (fun arrived => arrived.value = ⟨.object object, session.context⟩ ∧
        name ∈ arrived.prototypes)
      (Crossing.run environment ⟨session.context, before⟩ (.guest exception) session).1 := by
  obtain ⟨hclass', hbelow'⟩ := hbefore.2 constructor prototype hclass
  have hthrown : exception.value.value = .object object := by rw [hvalue]
  refine Crossing.run_of_ends (ends_capture_raise (Crossing.raise_within ?_) ?_)
  · rw [hvalue]
    rfl
  · rw [hthrown]
    refine (Engine.OrdinaryObjects.ends_exception_below henvironment
      (Crossing.entered ⟨session.context, before⟩ session) hclass'
      (hbelow' _ _ hbelow)).mono ?_ ?_
    · exact fun arrived _ hread => .guest hread.2
    · exact fun error _ hread => .of_interrupted hread.2

end Crossings

end QuickJs

/-! ### Runs -/

namespace HostExceptions

open QuickJs Process Transition

variable {E : Engine} (T : E.OrdinaryObjects) (name : String) {environment : Environment E}
  {s t : HostExceptions E}

/-- The class that the guest has, as the host keeps it. -/
def HasClass (s : HostExceptions E) (constructor prototype : ObjectId) : Prop :=
  T.objects.Intact name s.session.heap constructor prototype ∧
    s.realised = some ⟨⟨.object constructor, s.session.context⟩, ⟨.object prototype, s.session.context⟩⟩

/-- The object is an instance of the class, or of a class of the guest's below it. -/
def IsInstance (s : HostExceptions E) (object : ObjectId) : Prop :=
  ∃ constructor prototype, HasClass T name s constructor prototype ∧
    T.objects.Below s.session.heap prototype E.walk object

/-- What the host has got is an instance that it recognises, unless an interruption took its place. -/
def Recognised (s : HostExceptions E) (error : Error) : Prop :=
  Arrives (fun exception => name ∈ exception.prototypes ∧ ∃ object,
    exception.value = ⟨.object object, s.session.context⟩ ∧ IsInstance T name s object) error

structure Sound (s : HostExceptions E) : Prop where
  realised : ∀ realised, s.realised = some realised →
    ∃ constructor prototype, HasClass T name s constructor prototype
  thrown : s.errors ≠ [] → s.realised.isSome = true
  errors : ∀ error ∈ s.errors, Recognised T name s error

/-- The host throws while it has no slice of the guest's memory, what is captured is an instance, and
the guest leaves the classes of the name alone. -/
def Fair (s : HostExceptions E) : Event E → Prop
  | .throw _ => s.session.loans.settled = .ok ()
  | .capture thrown => IsInstance T name s thrown
  | .cross error before => error ∈ s.errors ∧ T.objects.Stays name s.session (before s.session)
  | .guest session => T.objects.Stays name s.session session

variable {T name}

/-- What happens in the session of the guest does not take the class away. -/
theorem HasClass.stays {constructor prototype : ObjectId}
    (h : HasClass T name s constructor prototype) (hrealised : t.realised = s.realised)
    (hstays : T.objects.Stays name s.session t.session) :
    HasClass T name t constructor prototype := by
  obtain ⟨hclass, hsome⟩ := h
  refine ⟨(hstays.2 _ _ hclass).1, ?_⟩
  rw [hrealised, hsome, hstays.1]

theorem IsInstance.stays {object : ObjectId} (h : IsInstance T name s object)
    (hrealised : t.realised = s.realised) (hstays : T.objects.Stays name s.session t.session) :
    IsInstance T name t object := by
  obtain ⟨constructor, prototype, hclass, hbelow⟩ := h
  exact ⟨constructor, prototype, hclass.stays hrealised hstays,
    (hstays.2 _ _ hclass.1).2 _ _ hbelow⟩

theorem Recognised.stays {error : Error} (h : Recognised T name s error)
    (hrealised : t.realised = s.realised) (hstays : T.objects.Stays name s.session t.session) :
    Recognised T name t error := by
  refine Arrives.mono h fun exception ⟨hmem, object, hvalue, hinstance⟩ => ?_
  refine ⟨hmem, object, ?_, hinstance.stays hrealised hstays⟩
  rw [hvalue, hstays.1]

theorem Sound.stays (h : s.Sound T name) (hrealised : t.realised = s.realised)
    (herrors : t.errors = s.errors) (hstays : T.objects.Stays name s.session t.session) :
    t.Sound T name where
  realised := fun realised hsome => by
    obtain ⟨constructor, prototype, hclass⟩ := h.realised realised (hrealised ▸ hsome)
    exact ⟨constructor, prototype, hclass.stays hrealised hstays⟩
  thrown := by
    rw [herrors, hrealised]
    exact h.thrown
  errors := fun error herror => (h.errors error (herrors ▸ herror)).stays hrealised hstays

theorem Sound.push {error : Error} (h : s.Sound T name) (hsome : s.realised.isSome = true)
    (herror : Recognised T name s error) :
    Sound T name { s with errors := s.errors ++ [error] } where
  realised := h.realised
  thrown := fun _ => hsome
  errors := fun other hother => by
    obtain hother | hother := List.mem_append.mp hother
    · exact h.errors other hother
    · obtain rfl := List.mem_singleton.mp hother
      exact herror

variable {exception : HostException}

/-- The class that an exception is thrown with: the one the guest has, or a new one. -/
theorem realised_done (h : s.Sound T exception.name)
    (hsettled : s.session.loans.settled = .ok ()) : ∃ realised heap,
      exception.realised s.realised s.session = .done (.ok realised) { s.session with heap } ∧
        Sound T exception.name ⟨{ s.session with heap }, some realised, s.errors⟩ := by
  cases hcached : s.realised with
  | some realised =>
      refine ⟨realised, s.session.heap, rfl, ?_⟩
      rw [← hcached]
      exact h
  | none =>
      obtain ⟨c, p, heap, hdone, hclass⟩ := build_done T exception hsettled
      refine ⟨_, heap, hdone, ?_, fun _ => rfl, fun error herror => ?_⟩
      · intro realised hsome
        exact ⟨c, p, hclass, rfl⟩
      · have hrecognised := h.errors error herror
        cases hrecognised with
        | interrupted => exact .interrupted
        | guest hguest =>
            -- Without a class there was no instance.
            obtain ⟨-, _, -, _, _, ⟨-, hsome⟩, -⟩ := hguest
            rw [hcached] at hsome
            cases hsome

theorem instance_done (h : s.Sound T exception.name) (hwalk : 0 < E.walk)
    (hsettled : s.session.loans.settled = .ok ()) {realised : RealisedClass}
    (hrealised : s.realised = some realised) (message : String) : ∃ object heap,
      (do exception.instantiate (← realised.prototype.attach) message : Op E Value) s.session =
          .done (.ok (.object object)) { s.session with heap } ∧
        Sound T exception.name ⟨{ s.session with heap }, some realised, s.errors⟩ ∧
          IsInstance T exception.name ⟨{ s.session with heap }, some realised, s.errors⟩ object := by
  obtain ⟨c, p, hclass, hsome⟩ := h.realised realised hrealised
  have hfound := Option.some.inj (hrealised.symm.trans hsome)
  obtain ⟨object, heap, hdone, hclass', hinstance, hkeep⟩ :=
    instantiate_done T exception message hsettled hclass
  have hhas : HasClass T exception.name ⟨{ s.session with heap }, some realised, s.errors⟩ c p :=
    ⟨hclass', congrArg some hfound⟩
  have hattach : (realised.prototype.attach : Op E Value) s.session =
      .done (.ok (.object p)) s.session := by
    rw [Owned.attach, check_apply, hfound]
    exact congrArg (Resumption.done · s.session) (if_pos rfl)
  refine ⟨object, heap, (bind_of_ok hattach).trans hdone,
    ⟨fun _ _ => ⟨c, p, hhas⟩, fun _ => rfl, fun error herror => ?_⟩, c, p, hhas, ?_⟩
  -- The class is the same, so what was an instance is one.
  · refine Arrives.mono (h.errors error herror) fun exception' ⟨hmem, other, hvalue, hother⟩ => ?_
    obtain ⟨c', p', ⟨-, hsome'⟩, hbelow⟩ := hother
    have hsame := Option.some.inj (hsome.symm.trans hsome')
    obtain rfl : p = p' := Value.object.inj (congrArg (fun realised => realised.prototype.value) hsame)
    exact ⟨hmem, other, hvalue, c, p, hhas, hkeep _ _ hbelow⟩
  · obtain ⟨depth, hdepth⟩ := Nat.exists_eq_succ_of_ne_zero hwalk.ne'
    rw [hdepth]
    exact .ofClass hinstance

section Steps

variable (henvironment : ∀ query session, T.objects.Stays exception.name session
  (environment query session).2)

include henvironment

/-- An instance is read, by a throw of the host's or at the end of an entry. -/
theorem Sound.read (h : s.Sound T exception.name) {object : ObjectId}
    (hinstance : IsInstance T exception.name s object) :
    (BackendExceptions.throw (.object object) : Op E Error).Ends environment s.session
      (fun error session => Sound T exception.name ⟨session, s.realised, s.errors ++ [error]⟩)
      fun _ _ => False := by
  obtain ⟨constructor, prototype, hclass, hbelow⟩ := hinstance
  refine (Engine.OrdinaryObjects.ends_intoError_below henvironment hclass.1 hbelow).mono
    (fun error session hread => ?_) fun _ _ => id
  have hstays : Sound T exception.name ⟨session, s.realised, s.errors⟩ :=
    h.stays rfl rfl hread.1
  refine hstays.push (Option.isSome_of_eq_some hclass.2)
    (hread.2.mono fun thrown ⟨hvalue, hmem⟩ => ⟨hmem, object, ?_, ?_⟩)
  · rw [hvalue, hread.1.1]
  · exact IsInstance.stays ⟨constructor, prototype, hclass, hbelow⟩ rfl hread.1

theorem Sound.throw (h : s.Sound T exception.name) (hwalk : 0 < E.walk)
    (hsettled : s.session.loans.settled = .ok ()) (message : String) :
    (exception.throw s.realised message).Ends environment s.session
      (fun result session => Sound T exception.name ⟨session, result.2, s.errors ++ [result.1]⟩)
      fun _ _ => False := by
  obtain ⟨realised, heap, hrealised, hsound⟩ := realised_done h hsettled
  obtain ⟨object, heap', hmade, hsound', hinstance⟩ :=
    instance_done hsound hwalk hsettled rfl message
  unfold HostException.throw
  refine ends_bind.mpr (ends_of_done (attempt_of_done hrealised) (fun result hresult => ?_) nofun)
  obtain rfl := Except.ok.inj hresult
  refine ends_bind.mpr (ends_of_done (attempt_of_done hmade) (fun result hresult => ?_) nofun)
  obtain rfl := Except.ok.inj hresult
  exact ends_bind.mpr ((hsound'.read henvironment hinstance).mono (fun _ _ hread => hread)
    fun _ _ => id)

/-- **One event.** -/
theorem Sound.step (h : s.Sound T exception.name) (hwalk : 0 < E.walk) {e : Event E}
    (hfair : Fair T exception.name s e)
    (hstep : HostExceptions.step exception environment s e = some t) : t.Sound T exception.name := by
  cases e with
  | throw message =>
      simp only [HostExceptions.step] at hstep
      split at hstep
      next hrun =>
        obtain rfl := Option.some.inj hstep
        exact (h.throw henvironment hwalk hfair message).of_ok hrun
      next => cases hstep
  | capture thrown =>
      simp only [HostExceptions.step] at hstep
      split at hstep
      next hrun =>
        obtain rfl := Option.some.inj hstep
        exact (h.read henvironment hfair).of_ok hrun
      next => cases hstep
  | cross error before =>
      obtain ⟨hmem, hbefore⟩ := hfair
      obtain rfl := Option.some.inj hstep
      have hstays := stays_run henvironment hbefore error
      refine Sound.push (s := ⟨_, s.realised, s.errors⟩) (h.stays rfl rfl hstays)
        (h.thrown (List.ne_nil_of_mem hmem)) ?_
      cases h.errors error hmem with
      | interrupted => exact .of_interrupted (Crossing.run_interrupted T.toOwnTexts)
      | guest hguest =>
          obtain ⟨-, object, hvalue, hinstance⟩ := hguest
          obtain ⟨constructor, prototype, hclass, hbelow⟩ := hinstance
          refine (run_below henvironment hbefore hclass.1 hbelow hvalue).mono ?_
          intro arrived ⟨harrived, hname⟩
          refine ⟨hname, object, ?_, IsInstance.stays ⟨_, _, hclass, hbelow⟩ rfl hstays⟩
          rw [harrived, hstays.1]
  | guest session =>
      obtain rfl := Option.some.inj hstep
      exact h.stays rfl rfl hfair

end Steps

section

open QuickJs.ClassEngine

/-- A guest that does nothing where it is called. -/
def idle : Environment engine := fun _ session => (.ok .undefined, session)

def start : HostExceptions engine := ⟨ClassEngine.session, none, []⟩

end

end HostExceptions

end GuestJs
