import GuestJs.Library.Loops
import GuestJs.QuickJs.Captures
import GuestJs.QuickJs.ProxyEngine

/-!
# Which captures end

A capture goes on for as long as the guest has another prototype to show. Where that comes to an end
the capture does too; a proxy whose prototype leads back to it has the host walk in a circle.
-/

namespace GuestJs.QuickJs.Thrown

variable {E : Engine} {environment : Environment E}

/-- An object answers a prototype that is an object too. The second session is what reading the name
of the prototype's constructor leaves behind, unless that is interrupted. -/
def Presents (environment : Environment E) (first second : Value × Session E) : Prop :=
  ∃ id id' session read, first.1 = .object id ∧ second.1 = .object id' ∧
    (request (.getPrototype first.1) first.2).resolve environment = (.ok second.1, session) ∧
    (constructorName second.1 session).resolve environment = (read, second.2) ∧
    ∀ thrown, read = .error (.exception thrown) → E.isUncatchable second.2.heap thrown = false

/-- Every object of a chain without end presents the next. -/
def EndlessChain (environment : Environment E) (object : Value) (session : Session E) : Prop :=
  ∃ chain : Nat → Value × Session E, chain 0 = (object, session) ∧
    ∀ n, Presents environment (chain n) (chain (n + 1))

/-! ### Rounds -/

/-- What is made of a read, in the heap it has left behind. -/
def settleResult {α : Type} (E : Engine) (heap : E.Heap) : Except Fault α → Except Error (Option α)
  | .ok a => .ok (some a)
  | .error (.exception thrown) =>
      if E.isUncatchable heap thrown then .error .interrupted else .ok none
  | .error _ => .ok none

theorem resolve_settle {α : Type} {read : Raw E α} {s t : Session E} {result : Except Fault α}
    (h : (read s).resolve environment = (result, t)) :
    (settle read s).resolve environment = (settleResult E t.heap result, t) := by
  have hsome := Process.resolve_map (f := some) h
  rw [settle, Process.handle, Resumption.resolve_andThen, hsome]
  cases result with
  | ok a => rfl
  | error fault =>
      cases fault with
      | exception thrown =>
          simp only [Except.map, settleResult, Process.check_apply, Resumption.resolve]
          cases E.isUncatchable t.heap thrown <;> rfl
      | fromJs source target => rfl
      | other message => rfl

theorem exists_settled_iff {α : Type} {heap : E.Heap} {result : Except Fault α} :
    (∃ settled, settleResult E heap result = .ok settled) ↔
      ∀ thrown, result = .error (.exception thrown) → E.isUncatchable heap thrown = false := by
  rcases result with (⟨thrown⟩ | ⟨source, target⟩ | ⟨message⟩) | a
  · cases huncatchable : E.isUncatchable heap thrown <;> simp [settleResult, huncatchable]
  all_goals simp [settleResult]

theorem settleResult_eq_some_iff {α : Type} {heap : E.Heap} {result : Except Fault α} {a : α} :
    settleResult E heap result = .ok (some a) ↔ result = .ok a := by
  rcases result with (⟨thrown⟩ | ⟨source, target⟩ | ⟨message⟩) | b
  · cases huncatchable : E.isUncatchable heap thrown <;> simp [settleResult, huncatchable]
  all_goals simp [settleResult]

/-- A round that goes on has been presented a prototype. -/
theorem presents_iff {first second : Value × Session E} :
    Presents environment first second ↔ ∃ id name, first.1 = .object id ∧
      (nextPrototype first.1 first.2).resolve environment =
        (.ok (some (second.1, name)), second.2) := by
  obtain ⟨object, s⟩ := first
  obtain ⟨prototype, t⟩ := second
  constructor
  · rintro ⟨id, id', session, read, hobject, hprototype, hanswer, hread, hcaught⟩
    obtain ⟨name, hname⟩ := exists_settled_iff.mpr hcaught
    dsimp only at hobject hprototype hanswer hread hname
    subst hobject hprototype
    refine ⟨id, name, rfl, ?_⟩
    have hsettled := resolve_settle hread
    rw [hname] at hsettled
    rw [nextPrototype, Process.resolve_bind_of_ok (resolve_settle hanswer)]
    exact Process.resolve_bind_of_ok hsettled
  · rintro ⟨id, name, hobject, hnext⟩
    dsimp only at hobject hnext
    rw [nextPrototype] at hnext
    obtain ⟨found, session, hfound, hrest⟩ := Process.resolve_bind_ok.mp hnext
    rcases hanswer : (request (.getPrototype object) s).resolve environment with ⟨answer, session'⟩
    rw [resolve_settle hanswer, Prod.mk.injEq] at hfound
    obtain ⟨hfound, rfl⟩ := hfound
    rcases found with _ | value
    · cases hrest
    cases value
    case object id' =>
      obtain ⟨name', t', hname, hlast⟩ := Process.resolve_bind_ok.mp hrest
      rcases hread : (constructorName (.object id') session').resolve environment with ⟨read, t''⟩
      rw [resolve_settle hread, Prod.mk.injEq] at hname
      obtain ⟨hname, rfl⟩ := hname
      cases hlast
      refine ⟨id, id', session', read, hobject, rfl, ?_, hread, exists_settled_iff.mp ⟨_, hname⟩⟩
      rw [hanswer, settleResult_eq_some_iff.mp hfound]
    all_goals cases hrest

namespace Walk

/-- What the guest is asked in a round depends on. -/
def position (walk : Walk E) : Value × Session E := (walk.current, walk.session)

theorem presents_of_round {walk walk' : Walk E} (h : walk.round environment = .inl walk') :
    Presents environment walk.position walk'.position := by
  obtain ⟨prototypes, current, session⟩ := walk
  refine presents_iff.mpr ?_
  cases current
  case object id =>
    simp only [Walk.round] at h
    rcases hnext : (nextPrototype (.object id) session).resolve environment with
      ⟨_ | _ | ⟨next, name⟩, t⟩
    · rw [hnext] at h
      cases h
    · rw [hnext] at h
      cases h
    · rw [hnext] at h
      cases h
      exact ⟨id, name, rfl, hnext⟩
  all_goals cases h

theorem exists_round_of_presents {walk : Walk E} {second : Value × Session E}
    (h : Presents environment walk.position second) :
    ∃ walk', walk.round environment = .inl walk' ∧ walk'.position = second := by
  obtain ⟨prototypes, current, session⟩ := walk
  obtain ⟨id, name, hobject, hnext⟩ := presents_iff.mp h
  dsimp only [position] at hobject hnext
  subst hobject
  refine ⟨⟨prototypes ++ name.toList, second.1, second.2⟩, ?_, rfl⟩
  simp only [Walk.round, hnext]

theorem halts_iff {walk : Walk E} :
    Loop.Halts (round environment) walk ↔
      ¬ EndlessChain environment walk.current walk.session := by
  rw [iff_not_comm]
  constructor
  · rintro ⟨chain, hstart, hchain⟩
    refine Loop.not_halts_of_invariant (I := fun walk => ∃ n, walk.position = chain n) ?_
      ⟨0, hstart.symm⟩
    rintro walk ⟨n, hposition⟩
    obtain ⟨walk', hround, hnext⟩ := exists_round_of_presents (hposition ▸ hchain n)
    exact ⟨walk', hround, n + 1, hnext⟩
  · intro hendless
    exact ⟨fun n => ((Loop.next (round environment))^[n] walk).position, rfl, fun n =>
      presents_of_round (Loop.step_iterate_of_not_halts hendless n)⟩

end Walk

section Captures

variable {thrown : Value} {session session' : Session E} {description : Description}

theorem captured_iff_of_describe
    (h : (describe thrown session).resolve environment = (.ok description, session')) :
    Captured environment thrown session ↔ ¬ EndlessChain environment thrown session' := by
  have hwalk : Loop.Halts (Walk.round environment) ⟨[], thrown, session'⟩ ↔
      ¬ EndlessChain environment thrown session' := Walk.halts_iff
  simp only [Captured, exceptionWithin, h, Option.isSome_map]
  exact hwalk

theorem captured_of_finite
    (h : ∀ description session',
      (describe thrown session).resolve environment = (.ok description, session') →
        ¬ EndlessChain environment thrown session') : Captured environment thrown session := by
  cases hdescribe : (describe thrown session).resolve environment with
  | mk result session' =>
    cases result with
    | error error => exact ⟨0, by simp only [exceptionWithin, hdescribe, Option.isSome_some]⟩
    | ok description =>
        exact (captured_iff_of_describe hdescribe).mpr (h description session' hdescribe)

end Captures

/-- **A capture ends exactly where the guest's prototypes do.** However the guest answers, the only
thing that keeps a capture from ending is an endless chain of prototypes, each presented where
reading the one before has left the guest. -/
theorem captured_iff (environment : Environment E) (thrown : Value) (session : Session E) :
    Captured environment thrown session ↔
      ∀ description session',
        (describe thrown session).resolve environment = (.ok description, session') →
          ¬ EndlessChain environment thrown session' :=
  ⟨fun h _ _ hdescribe => (captured_iff_of_describe hdescribe).mp h, captured_of_finite⟩

/-- No code of the guest's is run, so nothing it or an interruption could do ends the capture. -/
theorem not_captured_proxy :
    ¬ ∃ environment : Environment ProxyEngine.engine,
      Captured environment ProxyEngine.proxy ProxyEngine.session := by
  rintro ⟨environment, hcaptured⟩
  have hdescribe : (describe ProxyEngine.proxy ProxyEngine.session).resolve environment =
      (.ok ⟨"object", "", none⟩, ProxyEngine.session) := rfl
  refine (captured_iff_of_describe hdescribe).mp hcaptured
    ⟨fun _ => (ProxyEngine.proxy, ProxyEngine.session), rfl, fun _ => ?_⟩
  exact ⟨1, 1, ProxyEngine.session, .error (.exception ProxyEngine.rangeError), rfl, rfl, rfl, rfl,
    fun _ _ => rfl⟩

/-- An object without a prototype is captured in one round. -/
example (environment : Environment ProxyEngine.engine) :
    Captured environment ProxyEngine.plain ProxyEngine.session := ⟨1, rfl⟩

/-! ### A bounded walk -/

theorem exception_eq (thrown : Value) (s : Session E) :
    exception thrown s = (describe thrown >>= fun description =>
      description.exception ⟨thrown, s.context⟩ <$> prototypes E.walk thrown) s := by
  have hget : ∀ {α : Type} (next : Session E → Op E α),
      ((get : Op E (Session E)) >>= next) s = next s s := fun _ => rfl
  unfold exception describe
  rw [hget, bind_assoc, hget]
  cases E.isUncatchable s.heap thrown with
  | true => rfl
  | false => simp only [bind_assoc, pure_bind, map_eq_pure_bind, Description.exception]

theorem prototypes_succ (walk : Nat) (id : ObjectId) :
    (prototypes (walk + 1) (.object id) : Op E (List String)) =
      nextPrototype (.object id) >>= fun found => found.elim (pure []) fun found =>
        (found.2.toList ++ ·) <$> prototypes walk found.1 := by
  rw [prototypes, nextPrototype, bind_assoc]
  refine bind_congr fun found => ?_
  rcases found with _ | value
  · rfl
  cases value
  case object id' => simp only [bind_assoc, pure_bind, map_eq_pure_bind, Option.elim]
  all_goals rfl

/-- A walk that ends within its bound is the walk. -/
theorem resolve_prototypes_of_run {rounds bound : Nat} {walk : Walk E}
    {result : Except Error (List String)} {last : Session E}
    (hrun : Loop.run (Walk.round environment) rounds walk = some (result, last))
    (hbound : rounds ≤ bound) :
    ∃ names, (prototypes bound walk.current walk.session).resolve environment = (names, last) ∧
      result = names.map (walk.prototypes ++ ·) := by
  induction rounds generalizing bound walk with
  | zero => cases hrun
  | succ rounds ih =>
      obtain ⟨bound, rfl⟩ : ∃ n, bound = n + 1 := ⟨bound - 1, by omega⟩
      obtain ⟨prototypes, current, session⟩ := walk
      cases current
      case object id =>
        rw [prototypes_succ]
        rcases hnext : (nextPrototype (.object id) session).resolve environment with
          ⟨error | _ | ⟨next, name⟩, t⟩
        · have hround : Walk.round environment ⟨prototypes, .object id, session⟩ =
              .inr (.error error, t) := by simp only [Walk.round, hnext]
          rw [Loop.run_of_end hround] at hrun
          cases hrun
          exact ⟨_, Process.resolve_bind_of_error hnext, rfl⟩
        · have hround : Walk.round environment ⟨prototypes, .object id, session⟩ =
              .inr (.ok prototypes, t) := by simp only [Walk.round, hnext]
          rw [Loop.run_of_end hround] at hrun
          cases hrun
          exact ⟨_, Process.resolve_bind_of_ok hnext, by simp [Except.map]⟩
        · have hround : Walk.round environment ⟨prototypes, .object id, session⟩ =
              .inl ⟨prototypes ++ name.toList, next, t⟩ := by simp only [Walk.round, hnext]
          rw [Loop.run_of_again hround] at hrun
          obtain ⟨names, hnames, rfl⟩ := ih hrun (Nat.le_of_succ_le_succ hbound)
          refine ⟨names.map (name.toList ++ ·),
            (Process.resolve_bind_of_ok hnext).trans (Process.resolve_map hnames), ?_⟩
          cases names <;> simp [Except.map]
      all_goals
        cases hrun
        exact ⟨.ok [], rfl, by simp [Except.map]⟩

/-- A capture that ends within the bound of the engine is the capture in which reading stops there. -/
theorem resolve_exception_of_within {rounds : Nat} {thrown : Value} {session : Session E}
    {captured : Except Error GuestException × Session E}
    (h : exceptionWithin environment rounds thrown session = some captured)
    (hrounds : rounds ≤ E.walk) :
    (exception thrown session).resolve environment = captured := by
  rw [exception_eq]
  rcases hdescribe : (describe thrown session).resolve environment with ⟨error | description, t⟩
  · simp only [exceptionWithin, hdescribe] at h
    cases h
    exact Process.resolve_bind_of_error hdescribe
  · simp only [exceptionWithin, hdescribe, Option.map_eq_some_iff] at h
    obtain ⟨⟨result, last⟩, hrun, rfl⟩ := h
    obtain ⟨names, hnames, rfl⟩ := resolve_prototypes_of_run hrun hrounds
    rw [Process.resolve_bind_of_ok hdescribe, Process.resolve_map hnames]
    cases names <;> simp [Except.map]

theorem resolve_intoError {thrown : Value} {s t : Session E} {result : Except Error GuestException}
    (h : (exception thrown s).resolve environment = (result, t)) :
    (intoError thrown s).resolve environment = (.ok (toError result), t) := by
  have hguest := Process.resolve_map (f := Error.guest) h
  rw [intoError, Process.handle, Resumption.resolve_andThen, hguest]
  cases result <;> rfl

/-- The same for whatever is captured. -/
theorem resolve_capture_of_within {α : Type} {rounds : Nat} {raw : Raw E α} {session : Session E}
    {captured : Except Error α × Session E}
    (h : captureWithin environment rounds raw session = some captured) (hrounds : rounds ≤ E.walk) :
    (capture raw session).resolve environment = captured := by
  rw [capture, Process.handle, Resumption.resolve_andThen]
  revert h
  unfold captureWithin
  rcases (raw session).resolve environment with ⟨(⟨thrown⟩ | ⟨source, target⟩ | ⟨message⟩) | a, t⟩
  · intro h
    obtain ⟨⟨result, last⟩, hwithin, rfl⟩ := Option.map_eq_some_iff.mp h
    exact Process.resolve_bind_of_ok (resolve_intoError (resolve_exception_of_within hwithin hrounds))
  · exact Option.some.inj
  · exact Option.some.inj
  · exact Option.some.inj

end GuestJs.QuickJs.Thrown
