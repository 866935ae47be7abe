import GuestJs.Host.RealisedClasses

/-!
# One class for each type

The cache answers for a type what it was first told, as long as no realisation asks for its own type:
where one does, the class of the inner call is in the cache, and handed out, when that of the outer
one replaces it.
-/

namespace GuestJs

open Fallible

namespace RealisedClasses

/-- Every call that returned a class returned the one the cache has for its type. -/
def Identical (cache : RealisedClasses) : Prop :=
  ∀ type realised, (type, .ok realised) ∈ cache.returned → cache.classes type = some realised

/-- What the cache has, some call for the type returned, and a type for which a call returned a class
has one. -/
structure Backed (cache : RealisedClasses) : Prop where
  recorded : ∀ type realised, cache.classes type = some realised →
    (type, .ok realised) ∈ cache.returned
  cached : ∀ type realised, (type, .ok realised) ∈ cache.returned → cache.classes type ≠ none

/-- The cache answers as before, and knows of all that has returned before. -/
structure Extends (earlier later : RealisedClasses) : Prop where
  classes : ∀ type realised, earlier.classes type = some realised →
    later.classes type = some realised
  returned : ∀ entry ∈ earlier.returned, entry ∈ later.returned

end RealisedClasses

namespace Realise

open RealisedClasses

/-- A realisation that succeeds has made no call for its own type, itself or through others, that
returned another class. -/
def Once : Realise → RealisedClasses → Prop
  | .done _, _ => True
  | .ask type realise next, cache =>
      (cache.classes type = none → realise.Once cache ∧
        ∀ realised called, exec realise.run cache = (.ok realised, called) →
          ∀ other, (type, .ok other) ∈ called.returned → other = realised) ∧
      ∀ result called, exec (getOrRealise type realise.run) cache = (result, called) →
        (next result).Once (called.record type result)

end Realise

namespace RealisedClasses

variable {cache called later : RealisedClasses} {type : TypeId} {realised : RealisedClass}

theorem Extends.refl (cache : RealisedClasses) : cache.Extends cache :=
  ⟨fun _ _ h => h, fun _ h => h⟩

theorem Extends.trans (h : cache.Extends called) (h' : called.Extends later) :
    cache.Extends later :=
  ⟨fun type realised hcached => h'.classes type realised (h.classes type realised hcached),
    fun entry hmem => h'.returned entry (h.returned entry hmem)⟩

theorem extends_record (cache : RealisedClasses) (type : TypeId)
    (result : Except Error RealisedClass) : cache.Extends (cache.record type result) :=
  ⟨fun _ _ h => h, fun _ hmem => List.mem_cons_of_mem _ hmem⟩

theorem classes_insert (other : TypeId) : (cache.insert type realised).classes other =
    if other = type then some realised else cache.classes other := by
  unfold insert
  by_cases hother : other = type
  · simp [hother]
  · simp [hother]

/-- A class put in place of none: what was there before stays. -/
theorem Extends.insert (h : cache.Extends called) (hnone : cache.classes type = none) :
    cache.Extends (called.insert type realised) := by
  refine ⟨fun other found hfound => ?_, h.returned⟩
  rw [classes_insert, if_neg]
  · exact h.classes other found hfound
  · rintro rfl
    rw [hnone] at hfound
    exact nomatch hfound

theorem Backed.record_error (h : cache.Backed) (error : Error) :
    (cache.record type (.error error)).Backed := by
  constructor
  · intro other found hfound
    exact List.mem_cons_of_mem _ (h.recorded other found hfound)
  · intro other found hmem
    rcases List.mem_cons.mp hmem with heq | hmem
    · exact nomatch (Prod.mk.inj heq).2
    · exact h.cached other found hmem

theorem Backed.record_cached (h : cache.Backed) (hcached : cache.classes type = some realised) :
    (cache.record type (.ok realised)).Backed := by
  constructor
  · intro other found hfound
    exact List.mem_cons_of_mem _ (h.recorded other found hfound)
  · intro other found hmem
    rcases List.mem_cons.mp hmem with heq | hmem
    · obtain ⟨rfl, -⟩ := Prod.mk.inj heq
      show cache.classes other ≠ none
      rw [hcached]
      exact Option.some_ne_none _
    · exact h.cached other found hmem

theorem Backed.record_insert (h : cache.Backed) :
    ((cache.insert type realised).record type (.ok realised)).Backed := by
  constructor
  · intro other found hfound
    have hfound : (cache.insert type realised).classes other = some found := hfound
    rw [classes_insert] at hfound
    split at hfound
    next heq =>
      obtain rfl := Option.some.inj hfound
      rw [heq]
      exact List.mem_cons_self
    next => exact List.mem_cons_of_mem _ (h.recorded other found hfound)
  · intro other found hmem
    show (cache.insert type realised).classes other ≠ none
    rw [classes_insert]
    split
    next => exact Option.some_ne_none _
    next hne =>
      rcases List.mem_cons.mp hmem with heq | hmem
      · exact absurd (Prod.mk.inj heq).1 hne
      · exact h.cached other found hmem

theorem Identical.record_cached (h : cache.Identical)
    (hcached : cache.classes type = some realised) :
    (cache.record type (.ok realised)).Identical := by
  intro other found hmem
  rcases List.mem_cons.mp hmem with heq | hmem
  · obtain ⟨rfl, hsame⟩ := Prod.mk.inj heq
    obtain rfl := Except.ok.inj hsame
    exact hcached
  · exact h other found hmem

theorem identical_record_error_iff {error : Error} :
    (cache.record type (.error error)).Identical ↔ cache.Identical := by
  constructor
  · exact fun h other found hmem => h other found (List.mem_cons_of_mem _ hmem)
  · intro h other found hmem
    rcases List.mem_cons.mp hmem with heq | hmem
    · exact nomatch (Prod.mk.inj heq).2
    · exact h other found hmem

/-- A class that is put in the cache belies every other that has been handed out for its type. -/
theorem identical_record_insert_iff (hbacked : cache.Backed) :
    ((cache.insert type realised).record type (.ok realised)).Identical ↔
      cache.Identical ∧ ∀ other, (type, .ok other) ∈ cache.returned → other = realised := by
  constructor
  · intro h
    have hother : ∀ found, (type, .ok found) ∈ cache.returned → found = realised := by
      intro found hmem
      have hfound := h type found (List.mem_cons_of_mem _ hmem)
      have hfound : (cache.insert type realised).classes type = some found := hfound
      rw [classes_insert, if_pos rfl] at hfound
      exact (Option.some.inj hfound).symm
    refine ⟨fun other found hmem => ?_, hother⟩
    by_cases heq : other = type
    · subst heq
      obtain ⟨present, hpresent⟩ := Option.ne_none_iff_exists'.mp (hbacked.cached other found hmem)
      rw [hpresent, hother found hmem, hother present (hbacked.recorded other present hpresent)]
    · have hfound := h other found (List.mem_cons_of_mem _ hmem)
      have hfound : (cache.insert type realised).classes other = some found := hfound
      rwa [classes_insert, if_neg heq] at hfound
  · rintro ⟨h, hother⟩ other found hmem
    show (cache.insert type realised).classes other = some found
    rw [classes_insert]
    rcases List.mem_cons.mp hmem with heq | hmem
    · obtain ⟨rfl, hsame⟩ := Prod.mk.inj heq
      rw [if_pos rfl, Except.ok.inj hsame]
    · split
      next heq =>
        subst heq
        rw [hother found hmem]
      next => exact h other found hmem

/-- Once a call has returned a class that is not in the cache, it never will be. -/
theorem Identical.of_extends (h : later.Identical) (hextends : cache.Extends later)
    (hbacked : cache.Backed) : cache.Identical := by
  intro type realised hmem
  obtain ⟨found, hfound⟩ := Option.ne_none_iff_exists'.mp (hbacked.cached type realised hmem)
  have hlater := h type realised (hextends.returned _ hmem)
  rw [hextends.classes type found hfound] at hlater
  rw [hfound, hlater]

end RealisedClasses

namespace Realise

open RealisedClasses

variable {cache called : RealisedClasses} {type : TypeId} {realise : Realise}
  {result : Except Error RealisedClass}

/-- What the code of a realisation keeps, a call that runs it keeps. -/
theorem backed_call
    (hkeeps : ∀ {cache called : RealisedClasses} {result}, cache.Backed →
      exec realise.run cache = (result, called) → called.Backed ∧ cache.Extends called)
    (hbacked : cache.Backed)
    (hcall : exec (getOrRealise type realise.run) cache = (result, called)) :
    (called.record type result).Backed ∧ cache.Extends (called.record type result) := by
  rcases exec_getOrRealise_cases cache type realise.run with ⟨realised, hcached, heq⟩ |
    ⟨realised, inner, hnone, hrun, heq⟩ | ⟨error, inner, hnone, hrun, heq⟩
  · rw [heq] at hcall
    obtain ⟨rfl, rfl⟩ := Prod.mk.inj hcall
    exact ⟨hbacked.record_cached hcached, extends_record cache type _⟩
  · rw [heq] at hcall
    obtain ⟨rfl, rfl⟩ := Prod.mk.inj hcall
    obtain ⟨hinner, hextends⟩ := hkeeps hbacked hrun
    exact ⟨hinner.record_insert, (hextends.insert hnone).trans (extends_record _ type _)⟩
  · rw [heq] at hcall
    obtain ⟨rfl, rfl⟩ := Prod.mk.inj hcall
    obtain ⟨hinner, hextends⟩ := hkeeps hbacked hrun
    exact ⟨hinner.record_error error, hextends.trans (extends_record _ type _)⟩

theorem backed_run (realise : Realise) {cache called : RealisedClasses}
    {result : Except Error RealisedClass} (hbacked : cache.Backed)
    (hrun : exec realise.run cache = (result, called)) :
    called.Backed ∧ cache.Extends called := by
  induction realise generalizing cache called result with
  | done outcome =>
      rw [run, exec_check] at hrun
      obtain ⟨-, rfl⟩ := Prod.mk.inj hrun
      exact ⟨hbacked, Extends.refl cache⟩
  | ask type realise next ihRealise ihNext =>
      rcases hcall : exec (getOrRealise type realise.run) cache with ⟨answer, answered⟩
      rw [exec_ask hcall] at hrun
      obtain ⟨hanswered, hextends⟩ := backed_call ihRealise hbacked hcall
      obtain ⟨hcalled, hrest⟩ := ihNext answer hanswered hrun
      exact ⟨hcalled, hextends.trans hrest⟩

/-- **One call.** -/
theorem identical_call_iff
    (hiff : ∀ {cache called : RealisedClasses} {result}, cache.Backed → cache.Identical →
      exec realise.run cache = (result, called) → (called.Identical ↔ realise.Once cache))
    (hbacked : cache.Backed) (hidentical : cache.Identical)
    (hcall : exec (getOrRealise type realise.run) cache = (result, called)) :
    (called.record type result).Identical ↔
      (cache.classes type = none → realise.Once cache ∧
        ∀ realised inner, exec realise.run cache = (.ok realised, inner) →
          ∀ other, (type, .ok other) ∈ inner.returned → other = realised) := by
  rcases exec_getOrRealise_cases cache type realise.run with ⟨realised, hcached, heq⟩ |
    ⟨realised, inner, hnone, hrun, heq⟩ | ⟨error, inner, hnone, hrun, heq⟩
  · rw [heq] at hcall
    obtain ⟨rfl, rfl⟩ := Prod.mk.inj hcall
    exact iff_of_true (hidentical.record_cached hcached)
      fun hnone => absurd (hcached.symm.trans hnone) (Option.some_ne_none _)
  · rw [heq] at hcall
    obtain ⟨rfl, rfl⟩ := Prod.mk.inj hcall
    obtain ⟨hinner, -⟩ := backed_run realise hbacked hrun
    rw [identical_record_insert_iff hinner, hiff hbacked hidentical hrun]
    constructor
    · rintro ⟨honce, hsame⟩ -
      refine ⟨honce, fun realised' inner' hrun' other hother => ?_⟩
      obtain ⟨houtcome, rfl⟩ := Prod.mk.inj (hrun.symm.trans hrun')
      obtain rfl : realised = realised' := Except.ok.inj houtcome
      exact hsame other hother
    · intro honce
      obtain ⟨honce, hsame⟩ := honce hnone
      exact ⟨honce, hsame realised inner hrun⟩
  · rw [heq] at hcall
    obtain ⟨rfl, rfl⟩ := Prod.mk.inj hcall
    rw [identical_record_error_iff, hiff hbacked hidentical hrun]
    constructor
    · intro honce _
      refine ⟨honce, fun realised inner' hrun' => ?_⟩
      exact nomatch (Prod.mk.inj (hrun.symm.trans hrun')).1
    · intro honce
      exact (honce hnone).1

/-- What a run leaves is one class for each type exactly when no realisation in it hands out two. -/
theorem identical_run_iff (realise : Realise) {cache called : RealisedClasses}
    {result : Except Error RealisedClass} (hbacked : cache.Backed) (hidentical : cache.Identical)
    (hrun : exec realise.run cache = (result, called)) :
    called.Identical ↔ realise.Once cache := by
  induction realise generalizing cache called result with
  | done outcome =>
      rw [run, exec_check] at hrun
      obtain ⟨-, rfl⟩ := Prod.mk.inj hrun
      exact iff_of_true hidentical trivial
  | ask type realise next ihRealise ihNext =>
      rcases hcall : exec (getOrRealise type realise.run) cache with ⟨answer, answered⟩
      rw [exec_ask hcall] at hrun
      obtain ⟨hanswered, -⟩ := backed_call (fun h => backed_run realise h) hbacked hcall
      obtain ⟨-, hextends⟩ := backed_run (next answer) hanswered hrun
      have hcallIff := identical_call_iff ihRealise hbacked hidentical hcall
      constructor
      · intro hcalled
        have hanswer := hcalled.of_extends hextends hanswered
        refine ⟨hcallIff.mp hanswer, fun result' called' hcall' => ?_⟩
        obtain ⟨rfl, rfl⟩ := Prod.mk.inj (hcall.symm.trans hcall')
        exact (ihNext answer hanswered hanswer hrun).mp hcalled
      · rintro ⟨honce, hnext⟩
        have hanswer := hcallIff.mpr honce
        exact (ihNext answer hanswered hanswer hrun).mpr (hnext answer answered hcall)

end Realise

namespace RealisedClasses

/-- A realisation that fails records nothing: what is in the cache, a call for its type returned. -/
def SuccessesOnly (cache : RealisedClasses) : Prop :=
  ∀ type realised, cache.classes type = some realised → (type, .ok realised) ∈ cache.returned

theorem backed_new : new.Backed where
  recorded := fun _ _ hcached => nomatch hcached
  cached := fun _ _ hmem => nomatch hmem

/-- **One identity for each class.** For all code that asks for classes in a guest, nested in any way
and failing anywhere, every call that returned a class returned the one the cache has afterwards, and
the cache has nothing but what calls returned, exactly when no realisation that succeeds has, in a
call for its own type, got another class. -/
theorem run_identical_iff (calls : Realise) :
    ((exec calls.run new).2.Identical ∧ (exec calls.run new).2.SuccessesOnly) ↔
      calls.Once new := by
  have hidentical : new.Identical := fun _ _ hmem => nomatch hmem
  rcases hrun : exec calls.run new with ⟨result, called⟩
  obtain ⟨hbacked, -⟩ := calls.backed_run backed_new hrun
  have hsuccesses : called.SuccessesOnly := hbacked.recorded
  show called.Identical ∧ called.SuccessesOnly ↔ calls.Once new
  rw [and_iff_left hsuccesses]
  exact calls.identical_run_iff backed_new hidentical hrun

def outer : RealisedClass := ⟨⟨.object 1, 0⟩, ⟨.object 2, 0⟩⟩

def inner : RealisedClass := ⟨⟨.object 3, 0⟩, ⟨.object 4, 0⟩⟩

/-- A class with a member for which the same class is realised. -/
def selfMember : Realise :=
  .ask 0 (.ask 0 (.done (.ok inner)) fun _ => .done (.ok outer)) .done

theorem not_identical_selfMember : ¬ (exec selfMember.run new).2.Identical := by
  intro hidentical
  have hcached := hidentical 0 inner (.tail _ (.head _))
  exact nomatch hcached

end RealisedClasses

end GuestJs
