import GuestJs.Proof.GuardedEntry
import GuestJs.Proof.OrdinaryObjects
import GuestJs.Proof.ViewSlots

/-!
# Heaps in which nothing of the guest's runs

Whether an operation that does not ask the table of loans keeps to the rule depends on a few places
in the heap: the global `Set`, the accessors on the prototypes of views, and what an exception and
the classes it is an instance of have to be read.
-/

namespace GuestJs.QuickJs

variable {E : Engine} {session : Session E} {heap heap' : E.Heap}

theorem Engine.silent_of_ok {α : Type} {p : Primitive α} {a : α} {ok : α → E.Heap → Prop}
    {fail : Fault → E.Heap → Prop} (h : E.primitive p heap = .done (.ok a) heap') :
    Engine.Silent p heap ok fail ↔ ok a heap' := by
  unfold Engine.Silent Process.Silent
  rw [h]

theorem Engine.finished_of_silent {α : Type} {p : Primitive α} {ok : α → E.Heap → Prop}
    {fail : Fault → E.Heap → Prop} (h : Engine.Silent p heap ok fail) :
    (E.primitive p heap).Finished :=
  Process.finished_iff_silent.mpr
    (Process.Silent.mono h (fun _ _ _ => trivial) fun _ _ _ => trivial)

namespace Operation

theorem respects_of_unguarded {operation : Operation} (hguarded : operation.isGuarded = false)
    (hlent : session.loans.entries ≠ ∅) :
    operation.Respects session ↔ operation.Silent E session := by
  rw [respects_iff operation session hlent, hguarded, or_iff_right Bool.false_ne_true]

/-! ### The global `Set` -/

/-- An accessor of the guest's in the place of the global `Set` runs below the loan. -/
theorem not_newSet_respects (hlent : session.loans.entries ≠ ∅) (items : List Value)
    (hget : ¬ (E.primitive (.get E.globals (.string "Set")) session.heap).Finished) :
    ¬ (newSet items).Respects session := by
  rw [respects_of_unguarded rfl hlent]
  exact fun hsilent => hget (Engine.finished_of_silent hsilent)

/-- A constructor that is found there may be anything: what counts is what its call does. -/
theorem newSet_respects_iff (hlent : session.loans.entries ≠ ∅) {items : List Value}
    {set array : Value}
    (hget : E.primitive (.get E.globals (.string "Set")) session.heap = .done (.ok set) heap)
    (hset : E.isConstructor set = true)
    (harray : E.primitive (.newArray items) heap = .done (.ok array) heap') :
    (newSet items).Respects session ↔ SilentRequest E (.construct set [array]) heap' := by
  rw [respects_of_unguarded rfl hlent]
  show SilentSet E items session.heap ↔ _
  rw [SilentSet, Engine.silent_of_ok hget]
  rw [hset, Engine.silent_of_ok harray]

/-! ### The accessors of a view -/

/-- The operations on a view whose slots are read through accessors. -/
def ofView (view : Value) : List Operation :=
  [.buffer view, .byteOffset view, .byteLength view, .borrowBytes view, .borrowBytesMut view]

theorem respects_or_fails {α : Type} {R : Session E → Session E → Prop} {p : Op E α}
    {Q : α → Session E → Prop} {operation : Operation} (hguarded : operation.isGuarded = false)
    (hlent : session.loans.entries ≠ ∅) (hrun : operation.run E = (discard p : Op E Unit))
    (h : p.Prompt R session Q) :
    operation.Respects session ∨ ∀ (environment : Environment E) (t : Session E),
      (operation.run E session).resolve environment ≠ (.ok (), t) := by
  have hdiscard : (discard p : Op E Unit).Prompt R session fun _ _ => True :=
    (h.mono fun _ _ _ _ => trivial).map
  rw [hrun]
  rcases hdiscard with ⟨_, _, hdone, -, -⟩ | hfails
  · refine Or.inl ((respects_of_unguarded hguarded hlent).mpr ((finished_iff hguarded).mp ?_))
    rw [hrun, hdone]
    trivial
  · exact Or.inr fun environment t => hfails.resolve_ne_ok

/-- Through accessors of the engine's own a view is read without code of the guest's: only the
reading of the error with which an operation fails can run some. -/
theorem ofView_respects_or_fails (A : E.Accessors) {view : Value}
    (hview : kindOf E view = .dataView) (hlent : session.loans.entries ≠ ∅)
    (h : ∀ accessor, A.Untampered session.heap view accessor) :
    ∀ operation ∈ ofView view, operation.Respects session ∨
      ∀ (environment : Environment E) (t : Session E),
        (operation.run E session).resolve environment ≠ (.ok (), t) := by
  intro operation hmem
  simp only [ofView, List.mem_cons, List.not_mem_nil, or_false] at hmem
  rcases hmem with rfl | rfl | rfl | rfl | rfl
  · exact respects_or_fails rfl hlent rfl (Engine.Accessors.prompt_buffer hview (h .buffer))
  · exact respects_or_fails rfl hlent rfl
      (Engine.Accessors.prompt_byteOffset hview (h .byteOffset))
  · exact respects_or_fails rfl hlent rfl
      (Engine.Accessors.prompt_byteLength hview (h .byteLength))
  · exact respects_or_fails rfl hlent rfl (Engine.Accessors.prompt_new hview h .shared)
  · exact respects_or_fails rfl hlent rfl (Engine.Accessors.prompt_new hview h .exclusive)

/-! ### What is thrown -/

/-- The prototypes of an object, as far as a capture goes, are ordinary objects, and so are their
constructors, with names that are data properties. -/
inductive Plain (T : E.OrdinaryObjects) (heap : E.Heap) : Nat → ObjectId → Prop
  | walked {object : ObjectId} : Plain T heap 0 object
  | last {walk : Nat} {object : ObjectId}
      (hlast : E.primitive (.getPrototype (.object object)) heap = .done (.ok .null) heap) :
      Plain T heap (walk + 1) object
  | next {walk : Nat} {object above constructor : ObjectId} {name : Value}
      (hobject : T.objects.prototype heap object = some above)
      (hconstructor : T.objects.own heap above "constructor" = some (.object constructor))
      (hname : T.objects.own heap constructor "name" = some name)
      (habove : Plain T heap walk above) : Plain T heap (walk + 1) object

theorem Plain.silent {T : E.OrdinaryObjects} {walk : Nat} {object : ObjectId}
    (h : Plain T heap walk object) : SilentPrototypes E walk (.object object) heap := by
  induction h with
  | walked => trivial
  | last hlast =>
      rw [SilentPrototypes, Engine.silent_of_ok hlast]
      trivial
  | next hobject hconstructor hname _ ih =>
      rw [SilentPrototypes, Engine.silent_of_ok (T.getPrototype _ _ _ hobject)]
      dsimp only
      rw [SilentConstructor, Engine.silent_of_ok (T.getOwn _ _ _ _ hconstructor)]
      dsimp only
      rw [Engine.silent_of_ok (T.getOwn _ _ _ _ hname)]
      exact ih

/-- An error with texts of its own, on prototypes that are plain, is captured without code of the
guest's. -/
theorem throw_respects (T : E.OrdinaryObjects) (hlent : session.loans.entries ≠ ∅)
    {object : ObjectId} (herror : E.isError (.object object) = true) {name message stack : String}
    (hname : T.text session.heap (.object object) "name" = some name)
    (hmessage : T.text session.heap (.object object) "message" = some message)
    (hstack : T.text session.heap (.object object) "stack" = some stack)
    (hplain : Plain T session.heap E.walk object) :
    (Operation.throw (.object object)).Respects session := by
  refine (respects_of_unguarded rfl hlent).mpr (Or.inr ?_)
  rw [herror]
  dsimp only
  rw [SilentText, Engine.silent_of_ok (T.get_own hname), Engine.silent_of_ok (T.toText_string _ _),
    SilentText, Engine.silent_of_ok (T.get_own hmessage), Engine.silent_of_ok (T.toText_string _ _),
    SilentStack, Engine.silent_of_ok (T.get_own hstack)]
  exact hplain.silent

/-- Reading the name of an error through an accessor of the guest's runs it below the loan. -/
theorem not_throw_respects (hlent : session.loans.entries ≠ ∅) {thrown : Value}
    (hcatchable : E.isUncatchable session.heap thrown = false) (herror : E.isError thrown = true)
    (hget : ¬ (E.primitive (.get thrown (.string "name")) session.heap).Finished) :
    ¬ (Operation.throw thrown).Respects session := by
  rw [respects_of_unguarded rfl hlent]
  rintro (huncatchable | hsilent)
  · rw [hcatchable] at huncatchable
    cases huncatchable
  · rw [herror] at hsilent
    exact hget (Engine.finished_of_silent hsilent)

end Operation

end GuestJs.QuickJs
