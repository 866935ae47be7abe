import GuestJs.Proof.Interruption
import GuestJs.Proof.PrototypeChains
import GuestJs.QuickJs.Crossings
import GuestJs.QuickJs.ErrorEngine
import Mathlib.Data.List.Chain

/-!
# Errors on their way through guests

The value of an error is kept while it stays in one guest. Another guest is given a new error, whose
texts are properties of its own: what is read of it there is what was written, whatever the guest has
done to its classes, so an error that goes from guest to guest arrives with the texts it left with,
if it arrives: a guest can keep the host reading.
-/

namespace GuestJs

/-- The texts of an exception are those of another, as far as that one has them. -/
structure GuestException.Carries (exception original : GuestException) : Prop where
  name : exception.name = original.name
  message : exception.message = original.message
  stack : ∀ stack, original.stack = some stack → exception.stack = some stack

theorem GuestException.Carries.trans {first second third : GuestException}
    (h : third.Carries second) (h' : second.Carries first) : third.Carries first where
  name := h.name.trans h'.name
  message := h.message.trans h'.message
  stack := fun stack hstack => h.stack stack (h'.stack stack hstack)

namespace QuickJs

open Process

/-- The texts that are properties of an error's own: reading one runs nothing. -/
structure Engine.OwnTexts (E : Engine) extends E.MakesErrors where
  text : E.Heap → Value → String → Option String
  text_defineText : ∀ {error key value heap heap'}, E.isError error = true →
    E.primitive (.defineText error key value) heap = .done (.ok ()) heap' →
      text heap' error key = some value ∧
        ∀ other, other ≠ key → text heap' error other = text heap error other
  setUncatchable : ∀ error heap, E.isError error = true → ∃ heap',
    E.primitive (.setUncatchable error) heap = .done (.ok ()) heap' ∧
      E.isUncatchable heap' error = true
  get_own : ∀ {heap error key value}, text heap error key = some value →
    E.primitive (.get error (.string key)) heap = .done (.ok (.string value)) heap
  toText_string : ∀ heap value, E.primitive (.toText (.string value)) heap = .done (.ok value) heap

variable {E : Engine} {environment : Environment E} {session : Session E}

/-- An error that is an exception as `P` says, unless reading it was interrupted. -/
inductive Arrives (P : GuestException → Prop) : Error → Prop
  | guest {exception : GuestException} (h : P exception) : Arrives P (.guest exception)
  | interrupted : Arrives P .interrupted

theorem Arrives.of_interrupted {P : GuestException → Prop} {error : Error}
    (h : error = .interrupted) : Arrives P error := by
  rw [h]
  exact .interrupted

theorem Arrives.mono {P Q : GuestException → Prop} {error : Error} (h : Arrives P error)
    (hPQ : ∀ exception, P exception → Q exception) : Arrives Q error := by
  cases h with
  | guest h => exact .guest (hPQ _ h)
  | interrupted => exact .interrupted

namespace Thrown

theorem ends_settle {α : Type} (read : Raw E α) :
    (settle read).Ends environment session (fun _ _ => True) fun error _ => error = .interrupted := by
  unfold settle
  refine ends_handle.mpr (ends_of_forall (fun _ _ => trivial) fun fault session => ?_)
  refine ends_of_done (check_apply _ session) (fun _ _ => trivial) fun error herror => ?_
  cases fault with
  | exception thrown =>
      dsimp only at herror
      split at herror
      · exact (Except.error.inj herror).symm
      · cases herror
  | fromJs source target => cases herror
  | other message => cases herror

theorem ends_prototypes (walk : Nat) (object : Value) :
    (prototypes walk object : Op E (List String)).Ends environment session (fun _ _ => True)
      fun error _ => error = .interrupted := by
  induction walk generalizing object session with
  | zero => trivial
  | succ walk ih =>
      cases object with
      | object id =>
          rw [prototypes]
          refine ends_bind.mpr ((ends_settle _).mono (fun prototype session _ => ?_) fun _ _ h => h)
          split
          · refine ends_bind.mpr ((ends_settle _).mono (fun name session _ => ?_) fun _ _ h => h)
            exact ends_bind.mpr ((ih _).mono (fun _ _ _ => trivial) fun _ _ h => h)
          · trivial
      | _ => trivial

theorem settle_of_ok {α : Type} {read : Raw E α} {result : α}
    (h : read session = .done (.ok result) session) :
    (settle read : Op E (Option α)) session = .done (.ok (some result)) session := by
  have hmap : (some <$> read) session = .done (.ok (some result)) session := bind_of_ok h
  unfold settle handle
  rw [hmap]
  rfl

theorem text_of_get (T : E.OwnTexts) {thrown : Value} {key text : String}
    (h : E.primitive (.get thrown (.string key)) session.heap =
      .done (.ok (.string text)) session.heap) :
    (do request (.toText (← property thrown key)) : Raw E String) session =
      .done (.ok text) session := by
  have hproperty : (property thrown key : Raw E Value) session = .done (.ok (.string text)) session :=
    request_of_done h
  rw [bind_of_ok hproperty]
  exact request_of_done (T.toText_string session.heap text)

theorem ends_name (thrown : Value) (isError : Bool) :
    (name thrown isError : Op E String).Ends environment session (fun _ _ => True)
      fun error _ => error = .interrupted := by
  cases isError with
  | true => exact ends_bind.mpr ((ends_settle _).mono (fun _ _ _ => trivial) fun _ _ h => h)
  | false => trivial

theorem ends_message (thrown : Value) (isError : Bool) :
    (message thrown isError : Op E String).Ends environment session (fun _ _ => True)
      fun error _ => error = .interrupted :=
  ends_bind.mpr ((ends_settle _).mono (fun _ _ _ => trivial) fun _ _ h => h)

theorem ends_stack (thrown : Value) (isError : Bool) :
    (stack thrown isError : Op E (Option String)).Ends environment session (fun _ _ => True)
      fun error _ => error = .interrupted := by
  cases isError with
  | true =>
      refine ends_bind.mpr ((ends_settle _).mono (fun read session _ => ?_) fun _ _ h => h)
      split
      · trivial
      · trivial
  | false => trivial

theorem ends_describe (thrown : Value) :
    (describe thrown : Op E Description).Ends environment session (fun _ _ => True)
      fun error _ => error = .interrupted := by
  unfold describe
  refine ends_bind.mpr (ends_of_done rfl (fun _ hget => ?_) nofun)
  obtain rfl := Except.ok.inj hget
  split
  · exact rfl
  · refine ends_bind.mpr ((ends_name _ _).mono (fun name _ _ => ?_) fun _ _ h => h)
    refine ends_bind.mpr ((ends_message _ _).mono (fun message _ _ => ?_) fun _ _ h => h)
    exact ends_bind.mpr ((ends_stack _ _).mono (fun stack _ _ => trivial) fun _ _ h => h)

/-- The texts an exception is read with are those an error has of its own, under the name it is given
where it is read. -/
theorem ends_describe_own (T : E.OwnTexts) {thrown : Value} {name message : String}
    (herror : E.isError thrown = true) (hcatchable : E.isUncatchable session.heap thrown = false)
    (hname : E.primitive (.get thrown (.string "name")) session.heap =
      .done (.ok (.string name)) session.heap)
    (hmessage : T.text session.heap thrown "message" = some message) :
    (describe thrown : Op E Description).Ends environment session
      (fun description _ => description.name = name ∧ description.message = message ∧
        ∀ stack, T.text session.heap thrown "stack" = some stack → description.stack = some stack)
      fun error _ => error = .interrupted := by
  have hreadName : (Thrown.name thrown true : Op E String) session = .done (.ok name) session :=
    bind_of_ok (settle_of_ok (text_of_get T hname))
  have hreadMessage : (Thrown.message thrown true : Op E String) session =
      .done (.ok message) session := bind_of_ok (settle_of_ok (text_of_get T (T.get_own hmessage)))
  have hreadStack : (Thrown.stack thrown true : Op E (Option String)).Ends environment session
      (fun read _ => ∀ stack, T.text session.heap thrown "stack" = some stack → read = some stack)
      fun error _ => error = .interrupted := by
    cases hstack : T.text session.heap thrown "stack" with
    | none => exact (ends_stack _ _).mono (fun _ _ _ => nofun) fun _ _ h => h
    | some stack =>
        have hread : (Thrown.stack thrown true : Op E (Option String)) session =
            .done (.ok (some stack)) session :=
          bind_of_ok (settle_of_ok (request_of_done (T.get_own hstack)))
        refine ends_of_done hread (fun read hok other hother => ?_) nofun
        rw [← Except.ok.inj hok, Option.some.inj hother]
  unfold describe
  refine ends_bind.mpr (ends_of_done rfl (fun _ hget => ?_) nofun)
  obtain rfl := Except.ok.inj hget
  rw [hcatchable, herror]
  dsimp only
  refine ends_bind.mpr (ends_of_done hreadName (fun _ hok => ?_) nofun)
  obtain rfl := Except.ok.inj hok
  refine ends_bind.mpr (ends_of_done hreadMessage (fun _ hok => ?_) nofun)
  obtain rfl := Except.ok.inj hok
  exact ends_bind.mpr (hreadStack.mono (fun stack _ hstack => ⟨rfl, rfl, hstack⟩) fun _ _ h => h)

theorem ends_nextPrototype (object : Value) :
    (nextPrototype object : Op E (Option (Value × Option String))).Ends environment session
      (fun _ _ => True) fun error _ => error = .interrupted := by
  unfold nextPrototype
  refine ends_bind.mpr ((ends_settle _).mono (fun prototype session _ => ?_) fun _ _ h => h)
  split
  · exact ends_bind.mpr ((ends_settle _).mono (fun _ _ _ => trivial) fun _ _ h => h)
  · trivial

/-- Nothing but an interruption cuts the walk along the prototypes short. -/
theorem Walk.error_eq_interrupted {walk : Walk E} {rounds : Nat} {error : Error} {last : Session E}
    (h : Loop.run (Walk.round environment) rounds walk = some (.error error, last)) :
    error = .interrupted := by
  have hend : ∀ (walk : Walk E) (ended : Except Error (List String) × Session E), True →
      walk.round environment = .inr ended → ∀ error, ended.1 = .error error → error = .interrupted := by
    rintro ⟨prototypes, current, session⟩ ended - hround error herror
    cases current
    case object id =>
      simp only [Walk.round] at hround
      rcases hnext : (nextPrototype (.object id) session).resolve environment with
        ⟨failure | _ | ⟨next, name⟩, t⟩
      · rw [hnext] at hround
        cases hround
        exact Except.error.inj herror ▸ (ends_nextPrototype _).of_error hnext
      · rw [hnext] at hround
        cases hround
        cases herror
      · rw [hnext] at hround
        cases hround
    all_goals
      cases hround
      cases herror
  exact Loop.run_invariant (fun _ _ _ _ => trivial) hend trivial h error rfl

/-- What a capture that ends makes of what was thrown, when `ok` holds of its texts. -/
theorem exceptionWithin_arrives {thrown : Value} {ok : Description → Prop} {rounds : Nat}
    {result : Except Error GuestException} {last : Session E}
    (hdescribe : (describe thrown : Op E Description).Ends environment session
      (fun description _ => ok description) fun error _ => error = .interrupted)
    (h : exceptionWithin environment rounds thrown session = some (result, last)) :
    Arrives (fun exception => ∃ description prototypes, ok description ∧
      exception = description.exception ⟨thrown, session.context⟩ prototypes) (toError result) := by
  unfold exceptionWithin at h
  rcases hrun : (describe thrown session).resolve environment with ⟨error | description, session'⟩
  · rw [hrun] at h
    cases h
    exact .of_interrupted (hdescribe.of_error hrun)
  · rw [hrun] at h
    obtain ⟨⟨walked, last'⟩, hwalk, heq⟩ := Option.map_eq_some_iff.mp h
    cases heq
    cases walked with
    | error error => exact .of_interrupted (Walk.error_eq_interrupted hwalk)
    | ok prototypes => exact .guest ⟨description, prototypes, hdescribe.of_ok hrun, rfl⟩

/-- The value of an exception is what was thrown. -/
theorem ends_exception (thrown : Value) :
    (exception thrown : Op E GuestException).Ends environment session
      (fun exception _ => exception.value = ⟨thrown, session.context⟩)
      fun error _ => error = .interrupted := by
  have hread : (describe thrown >>= fun description =>
      description.exception ⟨thrown, session.context⟩ <$> prototypes E.walk thrown).Ends environment
        session (fun exception _ => exception.value = ⟨thrown, session.context⟩)
        fun error _ => error = .interrupted := by
    refine ends_bind.mpr ((ends_describe thrown).mono (fun description _ _ => ?_) fun _ _ h => h)
    exact ends_bind.mpr ((ends_prototypes _ _).mono (fun _ _ _ => rfl) fun _ _ h => h)
  rwa [Ends, exception_eq]

end Thrown

namespace Engine.OwnTexts

variable (T : E.OwnTexts)

/-- An error the engine has just made for the host, with a message of its own. -/
structure Made (heap : E.Heap) (error : Value) (message : String) : Prop where
  isError : E.isError error = true
  catchable : E.isUncatchable heap error = false
  message : T.text heap error "message" = some message

variable {T}

theorem Made.defineText {heap : E.Heap} {error : Value} {message : String}
    (h : T.Made heap error message) (key text : String) (hkey : key ≠ "message") :
    ∃ heap', E.primitive (.defineText error key text) heap = .done (.ok ()) heap' ∧
      T.Made heap' error message ∧ T.text heap' error key = some text ∧
        ∀ other, other ≠ key → T.text heap' error other = T.text heap error other := by
  obtain ⟨heap', hdone, hsame⟩ := T.defineText error key text heap h.isError
  obtain ⟨hwritten, hother⟩ := T.text_defineText h.isError hdone
  refine ⟨heap', hdone, ⟨h.isError, hsame.trans h.catchable, ?_⟩, hwritten, hother⟩
  rw [hother "message" hkey.symm, h.message]

theorem create_made (T : E.OwnTexts) (kind : GuestErrorKind) (message : String)
    (session : Session E) : ∃ (error : Value) (heap : E.Heap),
      (create kind message : Raw E Value) session = .done (.ok error) { session with heap } ∧
        T.Made heap error message := by
  obtain ⟨error, heap, hnew, herror, hcatchable⟩ := T.newError kind "" session.heap
  obtain ⟨heap', hdefine, hsame⟩ := T.defineText error "message" message heap herror
  refine ⟨error, heap', ?_, ⟨herror, hsame.trans hcatchable, (T.text_defineText herror hdefine).1⟩⟩
  unfold create
  rw [bind_of_ok (request_of_done hnew)]
  exact bind_of_ok (request_of_done hdefine)

/-- **Another guest is given an error of its own.** It has the texts of the exception it stands for. -/
theorem raise_foreign (T : E.OwnTexts) {exception : GuestException}
    (h : exception.value.context ≠ session.context) : ∃ (error : Value) (heap : E.Heap),
      (Raise.exception (.guest exception) : Raw E Value) session =
          .done (.ok error) { session with heap } ∧
        T.Made heap error exception.message ∧ T.text heap error "name" = some exception.name ∧
          ∀ stack, exception.stack = some stack → T.text heap error "stack" = some stack := by
  obtain ⟨error, heap, hcreate, hmade⟩ := create_made T .error exception.message session
  obtain ⟨heap', hname, hmade', htext, -⟩ := hmade.defineText "name" exception.name (by decide)
  have hrestore : exception.value.restore session.context = .error .foreignContext := if_neg h
  have hget : (get : Raw E (Session E)) session = .done (.ok session) session := rfl
  unfold Raise.exception
  rw [bind_of_ok hget]
  dsimp only
  rw [hrestore]
  dsimp only
  rw [bind_of_ok hcreate, bind_of_ok (request_of_done hname)]
  cases hstack : exception.stack with
  | none => exact ⟨error, heap', rfl, hmade', htext, nofun⟩
  | some stack =>
      obtain ⟨heap'', hdefine, hmade'', hwritten, hother⟩ := hmade'.defineText "stack" stack (by decide)
      refine ⟨error, heap'', ?_, hmade'', (hother "name" (by decide)).trans htext, fun other heq => ?_⟩
      · exact bind_of_ok (request_of_done hdefine)
      · rw [hwritten, ← Option.some.inj heq]

theorem raise_interrupted (T : E.OwnTexts) (session : Session E) :
    ∃ (object : Value) (heap : E.Heap),
      (Raise.exception .interrupted : Raw E Value) session = .done (.ok object) { session with heap } ∧
        E.isUncatchable heap object = true := by
  obtain ⟨object, heap, hcreate, hmade⟩ := create_made T .error Error.interrupted.toString session
  obtain ⟨heap', hset, huncatchable⟩ := T.setUncatchable object heap hmade.isError
  refine ⟨object, heap', ?_, huncatchable⟩
  refine (bind_of_ok hcreate).trans ?_
  exact bind_of_ok (request_of_done hset)

end Engine.OwnTexts

/-- What an entry returns for an error is what the value thrown for it is read as. -/
theorem ends_capture_raise {error : Error} {thrown : Value} {heap : E.Heap} {P : Error → Prop}
    (hraise : (Raise.exception error : Raw E Value) session =
      .done (.ok thrown) { session with heap })
    (h : (Thrown.exception thrown : Op E GuestException).Ends environment { session with heap }
      (fun exception _ => P (.guest exception)) fun error _ => P error) :
    (capture (raise error) : Op E Empty).Ends environment session (fun _ _ => True)
      fun error _ => P error := by
  have hthrown : (raise error : Raw E Empty) session =
      .done (.error (.exception thrown)) { session with heap } := bind_of_ok hraise
  refine ends_handle.mpr (ends_of_done hthrown nofun fun fault hfault => ?_)
  obtain rfl := Except.error.inj hfault
  refine ends_bind.mpr (ends_handle.mpr (ends_bind.mpr (h.mono ?_ ?_)))
  · exact fun _ _ hguest => hguest
  · exact fun _ _ herror => herror

namespace Crossing

variable {crossing : Crossing E} {error passed : Error} {between : Session E} {rounds : Nat}

theorem run_of_ends_session {P : Error → Session E → Prop}
    (h : (capture (raise error) : Op E Empty).Ends environment (crossing.entered session)
      (fun _ _ => True) P) :
    P (crossing.run environment error session).1 (crossing.run environment error session).2 := by
  unfold run
  split
  next hrun => exact h.of_error hrun

theorem run_of_ends {P : Error → Prop}
    (h : (capture (raise error) : Op E Empty).Ends environment (crossing.entered session)
      (fun _ _ => True) fun error _ => P error) : P (crossing.run environment error session).1 :=
  run_of_ends_session (P := fun error _ => P error) h

/-- A crossing that ends within the bound of the engine is the crossing in which reading stops there. -/
theorem run_of_within (h : crossing.runWithin environment rounds error session =
    some (passed, between)) (hrounds : rounds ≤ E.walk) :
    crossing.run environment error session = (passed, between) := by
  obtain ⟨⟨_ | failure, last⟩, hwithin, heq⟩ := Option.map_eq_some_iff.mp h
  · cases heq
    rw [run, Thrown.resolve_capture_of_within hwithin hrounds]
  · exact failure.elim

/-- The guest a value belongs to is given that value. -/
theorem raise_within {exception : GuestException} (h : exception.value.context = session.context) :
    (Raise.exception (.guest exception) : Raw E Value) session =
      .done (.ok exception.value.value) session := by
  have hrestore : exception.value.restore session.context = .ok exception.value.value := if_pos h
  have hget : (get : Raw E (Session E)) session = .done (.ok session) session := rfl
  unfold Raise.exception
  rw [bind_of_ok hget]
  dsimp only
  rw [hrestore]
  rfl

theorem runWithin_of_raise {thrown : Value} {heap : E.Heap}
    (hraise : (Raise.exception error : Raw E Value) (crossing.entered session) =
      .done (.ok thrown) { crossing.entered session with heap }) :
    crossing.runWithin environment rounds error session =
      (Thrown.exceptionWithin environment rounds thrown { crossing.entered session with heap }).map
        fun (result, last) => (Thrown.toError result, last) := by
  have hthrown : (raise error : Raw E Empty) (crossing.entered session) =
      .done (.error (.exception thrown)) { crossing.entered session with heap } := bind_of_ok hraise
  unfold runWithin captureWithin
  rw [hthrown]
  dsimp only [Resumption.resolve]
  rw [Option.map_map]
  rfl

/-- What arrives where a crossing ends, when `ok` holds of the texts that are read in the guest. -/
theorem arrives_of_raise {thrown : Value} {heap : E.Heap} {ok : Thrown.Description → Prop}
    {P : GuestException → Prop}
    (hraise : (Raise.exception error : Raw E Value) (crossing.entered session) =
      .done (.ok thrown) { crossing.entered session with heap })
    (hdescribe : (Thrown.describe thrown : Op E Thrown.Description).Ends environment
      { crossing.entered session with heap } (fun description _ => ok description)
      fun error _ => error = .interrupted)
    (hP : ∀ description prototypes, ok description →
      P (description.exception ⟨thrown, crossing.context⟩ prototypes))
    (hrun : crossing.runWithin environment rounds error session = some (passed, between)) :
    Arrives P passed := by
  rw [runWithin_of_raise hraise] at hrun
  obtain ⟨⟨result, last⟩, hwithin, heq⟩ := Option.map_eq_some_iff.mp hrun
  cases heq
  refine (Thrown.exceptionWithin_arrives hdescribe hwithin).mono ?_
  rintro exception ⟨description, prototypes, hok, rfl⟩
  exact hP description prototypes hok

theorem arrives_same {exception : GuestException} (h : exception.value.context = crossing.context)
    (hrun : crossing.runWithin environment rounds (.guest exception) session =
      some (passed, between)) :
    Arrives (fun arrived => arrived.value = exception.value) passed := by
  refine arrives_of_raise (raise_within h) (Thrown.ends_describe _) (fun _ _ _ => ?_) hrun
  exact congrArg (Owned.mk _) h.symm

/-- **To another guest.** What arrives there has the texts, and is a value of that guest. -/
theorem arrives_foreign (T : E.OwnTexts) {exception : GuestException}
    (h : exception.value.context ≠ crossing.context)
    (hrun : crossing.runWithin environment rounds (.guest exception) session =
      some (passed, between)) :
    Arrives (fun arrived => arrived.Carries exception ∧ arrived.value.context = crossing.context)
      passed := by
  have hforeign : exception.value.context ≠ (crossing.entered session).context := h
  obtain ⟨thrown, heap, hraise, hmade, hname, hstack⟩ := T.raise_foreign hforeign
  refine arrives_of_raise hraise (Thrown.ends_describe_own T hmade.isError hmade.catchable
    (T.get_own hname) hmade.message) ?_ hrun
  rintro description prototypes ⟨hname', hmessage, hstack'⟩
  exact ⟨⟨hname', hmessage, fun stack hsome => hstack' stack (hstack stack hsome)⟩, rfl⟩

/-- An interruption is not read at all. -/
theorem runWithin_interrupted (T : E.OwnTexts) (environment : Environment E)
    (crossing : Crossing E) (session : Session E) :
    ∃ last, ∀ rounds,
      crossing.runWithin environment rounds .interrupted session = some (.interrupted, last) := by
  obtain ⟨thrown, heap, hraise, huncatchable⟩ := T.raise_interrupted (crossing.entered session)
  have hdescribe : (Thrown.describe thrown : Op E Thrown.Description)
      { crossing.entered session with heap } =
        .done (.error .interrupted) { crossing.entered session with heap } := by
    have hget : (get : Op E (Session E)) { crossing.entered session with heap } =
        .done (.ok _) _ := rfl
    unfold Thrown.describe
    rw [bind_of_ok hget, huncatchable]
    rfl
  refine ⟨{ crossing.entered session with heap }, fun rounds => ?_⟩
  rw [runWithin_of_raise hraise, Thrown.exceptionWithin, hdescribe]
  rfl

theorem run_interrupted (T : E.OwnTexts) :
    (crossing.run environment .interrupted session).1 = .interrupted := by
  obtain ⟨last, hwithin⟩ := runWithin_interrupted T environment crossing session
  rw [run_of_within (hwithin 0) (Nat.zero_le _)]

end Crossing

section Routes

variable {crossings : List (Crossing E)} {arrived : Error} {last : Session E}

theorem Through.interrupted (T : E.OwnTexts)
    (h : Through environment crossings .interrupted session arrived last) :
    arrived = .interrupted := by
  induction crossings generalizing session with
  | nil =>
      cases h
      rfl
  | cons crossing crossings ih =>
      cases h with
      | cross hcross hrest =>
          obtain ⟨between, hwithin⟩ := Crossing.runWithin_interrupted T environment crossing session
          rw [hwithin] at hcross
          cases hcross
          exact ih hrest

/-- What goes for an exception that has arrived goes for an error that has. -/
theorem Arrives.through (T : E.OwnTexts) {P Q : GuestException → Prop} {passed : Error}
    {between : Session E} (h : Arrives P passed)
    (hrest : Through environment crossings passed between arrived last)
    (hnext : ∀ exception, P exception →
      Through environment crossings (.guest exception) between arrived last → Arrives Q arrived) :
    Arrives Q arrived := by
  cases h with
  | guest h => exact hnext _ h hrest
  | interrupted => exact .of_interrupted (hrest.interrupted T)

theorem Through.same (T : E.OwnTexts) {exception : GuestException}
    (hsame : ∀ crossing ∈ crossings, crossing.context = exception.value.context)
    (h : Through environment crossings (.guest exception) session arrived last) :
    Arrives (fun arrived => arrived.value = exception.value) arrived := by
  induction crossings generalizing exception session with
  | nil =>
      cases h
      exact .guest rfl
  | cons crossing crossings ih =>
      cases h with
      | cross hcross hrest =>
          have hfirst := Crossing.arrives_same (hsame crossing List.mem_cons_self).symm hcross
          refine hfirst.through T hrest fun passed hvalue hpassed => ?_
          rw [← hvalue]
          refine ih (fun other hmem => ?_) hpassed
          rw [hvalue, hsame other (List.mem_cons_of_mem _ hmem)]

theorem Through.apart (T : E.OwnTexts) {exception : GuestException}
    (hapart : (exception.value.context :: crossings.map Crossing.context).IsChain (· ≠ ·))
    (h : Through environment crossings (.guest exception) session arrived last) :
    Arrives (fun arrived => arrived.Carries exception ∧
      arrived.value.context = (crossings.map Crossing.context).getLastD exception.value.context)
      arrived := by
  induction crossings generalizing exception session with
  | nil =>
      cases h
      exact .guest ⟨⟨rfl, rfl, fun _ => id⟩, rfl⟩
  | cons crossing crossings ih =>
      cases h with
      | cross hcross hrest =>
          obtain ⟨hforeign, hnext⟩ := List.isChain_cons_cons.mp hapart
          have hfirst := Crossing.arrives_foreign T hforeign hcross
          refine hfirst.through T hrest fun passed ⟨hcarries, hcontext⟩ hpassed => ?_
          rw [← hcontext] at hnext
          refine (ih hnext hpassed).mono fun arrived harrived => ⟨harrived.1.trans hcarries, ?_⟩
          rw [harrived.2, hcontext, List.map_cons, List.getLastD_cons]

section

open ErrorEngine

def visit (context : ContextId) : Crossing engine := ⟨context, id⟩

/-- A guest that does nothing where it is called. -/
def idle : Environment engine := fun _ session => (.ok .undefined, session)

end

end Routes

end QuickJs

end GuestJs
