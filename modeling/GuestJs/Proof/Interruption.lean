import GuestJs.QuickJs.Nesting
import GuestJs.QuickJs.TinyEngine

/-!
# Interruptions and host functions

An interruption is an exception that cannot be caught, and the first entry it leaves names it. A host
function that passes the named error on hands the guest an ordinary exception.
-/

namespace GuestJs.QuickJs

/-- The engine makes errors that are ordinary exceptions. -/
structure Engine.MakesErrors (E : Engine) : Prop where
  newError : ∀ kind message heap, ∃ error heap',
    E.primitive (.newError kind message) heap = .done (.ok error) heap' ∧
      E.isError error = true ∧ E.isUncatchable heap' error = false
  defineText : ∀ error key text heap, E.isError error = true → ∃ heap',
    E.primitive (.defineText error key text) heap = .done (.ok ()) heap' ∧
      E.isUncatchable heap' error = E.isUncatchable heap error

namespace Nesting

open Process

variable {E : Engine} {α : Type}

def IsName (error : Error) : Prop := error = .timeout ∨ error = .cancelled

/-- No handler of the guest's gets the interruption: what each host function throws in the code that
called it cannot be caught, whatever the guest does where it is called. -/
def Hidden (activity : GuestActivity) :
    List (Entries × (Value → Raw E α)) → Raw E α → Session E → Prop
  | [], _, _ => True
  | (entries, react) :: calls, code, session =>
      (∀ environment, ∃ thrown session',
        ((hostFunction (passedOn activity entries code)) session).resolve environment =
          (.error (.exception thrown), session') ∧
            E.isUncatchable session'.heap thrown = true) ∧
        Hidden activity calls (guestCode react (hostFunction (passedOn activity entries code)))
          session

/-- Every level unwinds: no handler of the guest's gets the interruption, and the outermost entry
returns its name. -/
def Unwinds (activity : GuestActivity) (thrown : Value) (calls : List (Entries × (Value → Raw E α)))
    (outermost : Entries) (session : Session E) : Prop :=
  Hidden activity calls (throw (.exception thrown)) session ∧
    ∀ environment, ∃ error session',
      ((interrupted activity thrown calls outermost) session).resolve environment =
        (.error error, session') ∧ IsName error

variable {activity : GuestActivity} {clock : Clock} {entries : Entries} {session : Session E}

theorem named_of_isName {error : Error} (h : IsName error) :
    activity.named clock error = error := by
  rcases h with rfl | rfl <;> rfl

theorem isName_of_dueError {error : Error} (h : activity.dueError clock = some error) :
    IsName error := by
  obtain ⟨armed, -, herror⟩ := Option.bind_eq_some_iff.mp h
  exact ArmedPolicy.eq_of_dueError_eq_some herror

theorem isName_named (hdue : activity.isDue clock = true) :
    IsName (activity.named clock .interrupted) := by
  rcases activity.named_interrupted clock with ⟨-, hnot⟩ | hnamed
  · rw [hdue] at hnot
    exact nomatch hnot
  · exact isName_of_dueError hnamed

theorem activated_of_error {op : Op E α} {error : Error} {session' : Session E}
    (h : op session = .done (.error error) session') :
    activated activity op clock session =
      .done (.error (activity.named clock error)) session' :=
  Process.handle_of_error h

theorem capture_uncatchable {raw : Raw E α} {thrown : Value} {session' : Session E}
    (hraw : raw session = .done (.error (.exception thrown)) session')
    (h : E.isUncatchable session'.heap thrown = true) :
    capture raw session = .done (.error .interrupted) session' := by
  have hexception : Thrown.exception thrown session' = .done (.error .interrupted) session' := by
    unfold Thrown.exception
    rw [Process.bind_of_ok (show (get : Op E (Session E)) session' = .done (.ok session') session'
      from rfl), h]
    rfl
  have hread : Thrown.intoError thrown session' = .done (.ok .interrupted) session' := by
    unfold Thrown.intoError
    exact Process.handle_of_error (Process.bind_of_error hexception)
  unfold capture
  rw [Process.handle_of_error hraw]
  exact Process.bind_of_ok hread

/-- Entries within entries keep an interruption, or the name one of them gave it. -/
theorem foldl_activated {clocks : List Clock} :
    ∀ {op : Op E α} {error : Error}, op session = .done (.error error) session →
      (error = .interrupted ∨ IsName error) → ∃ error',
        clocks.foldl (activated activity) op session = .done (.error error') session ∧
          (error' = .interrupted ∨ IsName error') := by
  induction clocks with
  | nil => exact fun hop herror => ⟨_, hop, herror⟩
  | cons clock clocks ih =>
      intro op error hop herror
      refine ih (activated_of_error hop) ?_
      rcases herror with rfl | hname
      · rcases activity.named_interrupted clock with ⟨hkept, -⟩ | hnamed
        · exact Or.inl hkept
        · exact Or.inr (isName_of_dueError hnamed)
      · exact Or.inr ((named_of_isName hname).symm ▸ hname)

/-- **Entries keep the name.** Whatever entries of the host an interruption passes, it comes out
under the name of the guest's policy. -/
theorem passedOn_uncatchable {thrown : Value} (hdue : activity.isDue entries.outer = true)
    (h : E.isUncatchable session.heap thrown = true) : ∃ error,
      passedOn activity entries (throw (.exception thrown) : Raw E α) session =
        .done (.error error) session ∧ IsName error := by
  have hcapture : capture (throw (.exception thrown) : Raw E α) session =
      .done (.error .interrupted) session := capture_uncatchable rfl h
  have hkept : ∃ error, entries.inner.foldl (activated activity)
      (capture (throw (.exception thrown) : Raw E α)) session = .done (.error error) session ∧
        (error = .interrupted ∨ IsName error) := foldl_activated hcapture (Or.inl rfl)
  obtain ⟨error, hinner, herror⟩ := hkept
  refine ⟨_, activated_of_error hinner, ?_⟩
  rcases herror with rfl | hname
  · exact isName_named hdue
  · exact (named_of_isName hname).symm ▸ hname

theorem create_catchable (hE : E.MakesErrors) (kind : GuestErrorKind) (message : String) :
    ∃ (object : Value) (session' : Session E),
      (create kind message : Raw E Value) session = .done (.ok object) session' ∧
        E.isUncatchable session'.heap object = false := by
  obtain ⟨object, heap, hnew, hobject, hcatchable⟩ := hE.newError kind "" session.heap
  obtain ⟨heap', hdefine, hsame⟩ := hE.defineText object "message" message heap hobject
  refine ⟨object, { session with heap := heap' }, ?_, hsame.trans hcatchable⟩
  unfold create
  rw [Process.bind_of_ok (request_of_done hnew)]
  exact Process.bind_of_ok (request_of_done hdefine)

/-- **A name becomes an ordinary exception.** Only an interruption without a name is made so that it
cannot be caught. -/
theorem raise_isName (hE : E.MakesErrors) {error : Error} (hname : IsName error) :
    ∃ (thrown : Value) (session' : Session E),
      (raise error : Raw E α) session = .done (.error (.exception thrown)) session' ∧
        E.isUncatchable session'.heap thrown = false := by
  have hcreated : ∃ (object : Value) (session' : Session E),
      (create error.guestKind error.toString : Raw E Value) session =
          .done (.ok object) session' ∧
        E.isUncatchable session'.heap object = false := create_catchable hE _ _
  obtain ⟨object, session', hcreate, hcatchable⟩ := hcreated
  have hmade : (Raise.exception error : Raw E Value) session = .done (.ok object) session' := by
    rcases hname with rfl | rfl <;> exact Process.bind_of_ok hcreate
  exact ⟨object, session', Process.bind_of_ok hmade, hcatchable⟩

theorem hostFunction_uncatchable (hE : E.MakesErrors) {thrown : Value}
    (hdue : activity.isDue entries.outer = true)
    (h : E.isUncatchable session.heap thrown = true) :
    ∃ (named : Value) (session' : Session E),
      (hostFunction (passedOn activity entries (throw (.exception thrown))) : Raw E α) session =
        .done (.error (.exception named)) session' ∧
          E.isUncatchable session'.heap named = false := by
  have hpassed : ∃ error, passedOn activity entries (throw (.exception thrown) : Raw E α) session =
      .done (.error error) session ∧ IsName error := passedOn_uncatchable hdue h
  obtain ⟨error, hout, hname⟩ := hpassed
  have hraised : ∃ (named : Value) (session' : Session E),
      (raise error : Raw E α) session = .done (.error (.exception named)) session' ∧
        E.isUncatchable session'.heap named = false := raise_isName hE hname
  obtain ⟨named, session', hraise, hcatchable⟩ := hraised
  exact ⟨named, session', (Process.handle_of_error hout).trans hraise, hcatchable⟩

/-- **Interruptions and host functions.** An interruption unwinds every level exactly when the code
it stops was called by no host function: the first host function it passes hands the guest its name
as an ordinary exception. -/
theorem unwinds_iff (hE : E.MakesErrors) {thrown : Value}
    {calls : List (Entries × (Value → Raw E α))} {outermost : Entries}
    (h : E.isUncatchable session.heap thrown = true)
    (hdue : ∀ entries ∈ outermost :: calls.map Prod.fst, activity.isDue entries.outer = true) :
    Unwinds activity thrown calls outermost session ↔ calls = [] := by
  cases calls with
  | nil =>
      have hpassed : ∃ error, (interrupted activity thrown [] outermost : Op E α) session =
          .done (.error error) session ∧ IsName error :=
        passedOn_uncatchable (hdue outermost List.mem_cons_self) h
      obtain ⟨error, hout, hname⟩ := hpassed
      refine iff_of_true ⟨trivial, fun environment => ⟨error, session, ?_, hname⟩⟩ rfl
      rw [hout]
      rfl
  | cons call calls =>
      obtain ⟨entries, react⟩ := call
      refine iff_of_false (fun hunwinds => ?_) nofun
      have hthrown : ∃ (named : Value) (session' : Session E),
          (hostFunction (passedOn activity entries (throw (.exception thrown))) : Raw E α) session =
            .done (.error (.exception named)) session' ∧
              E.isUncatchable session'.heap named = false :=
        hostFunction_uncatchable hE
          (hdue entries (List.mem_cons_of_mem _ List.mem_cons_self)) h
      obtain ⟨named, session', hthrow, hcatchable⟩ := hthrown
      obtain ⟨object, session'', hresolve, huncatchable⟩ :=
        hunwinds.1.1 fun _ session => (.ok .undefined, session)
      rw [hthrow] at hresolve
      cases hresolve
      rw [hcatchable] at huncatchable
      cases huncatchable

section

open TinyEngine

theorem engine_makesErrors : engine.MakesErrors where
  newError := fun _ _ heap => ⟨typeError, heap, rfl, by decide, rfl⟩
  defineText := fun _ _ _ heap _ => ⟨heap, rfl, rfl⟩

def lateActivity : GuestActivity := ⟨⟨some 50, none⟩, 1, some ⟨some 50, none⟩, by decide⟩

def lateEntries : Entries := ⟨[], ⟨100, fun _ => false⟩⟩

/-- A host function runs a loop in the guest that called it. -/
def loopCall (react : Value → Raw engine Value) : List (Entries × (Value → Raw engine Value)) :=
  [(lateEntries, react)]

/-- `try { hostLoop() } catch { 'caught' }` -/
def caught : Value → Raw engine Value := fun _ => pure (.string "caught")

theorem unwinds_iff_loopCall :
    Unwinds lateActivity interruption (loopCall caught) lateEntries
      (TinyEngine.session guestFunction) ↔ loopCall caught = [] :=
  unwinds_iff engine_makesErrors (by decide) (by simp [loopCall]; decide)

/-- With the `try` the entry succeeds, and without it it fails with an exception of the guest's. -/
theorem not_unwinds_loopCall :
    lateActivity.isDue lateEntries.outer = true ∧
      interrupted lateActivity interruption (loopCall caught) lateEntries
          (TinyEngine.session guestFunction) =
        .done (.ok (.string "caught")) (TinyEngine.session guestFunction) ∧
      interrupted lateActivity interruption
          (loopCall fun thrown => throw (.exception thrown)) lateEntries
          (TinyEngine.session guestFunction) =
        .done (.error (.guest ⟨"object", "", none, [], ⟨typeError, 0⟩⟩))
          (TinyEngine.session guestFunction) ∧
      ¬ Unwinds lateActivity interruption (loopCall caught) lateEntries
          (TinyEngine.session guestFunction) := by
  refine ⟨by decide, rfl, rfl, fun hunwinds => ?_⟩
  obtain ⟨error, session', hresolve, -⟩ := hunwinds.2 fun _ session => (.ok .undefined, session)
  cases hresolve

end

end Nesting

end GuestJs.QuickJs
