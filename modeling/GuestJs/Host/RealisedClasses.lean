import GuestJs.Errors
import GuestJs.Library.Fallible
import Mathlib.Logic.Function.Basic

/-!
# Realised classes

A guest keeps the class object of each host type it has realised. The cache is asked before a class
is realised and written after, and realising one runs code of the host that may ask for classes
itself.
-/

namespace GuestJs

open Fallible

abbrev TypeId := Nat

structure RealisedClass where
  constructor : Owned
  prototype : Owned
  deriving DecidableEq

/-- The classes of a guest, with the results of all calls for them that have returned. -/
structure RealisedClasses where
  classes : TypeId → Option RealisedClass
  returned : List (TypeId × Except Error RealisedClass)

namespace RealisedClasses

def new : RealisedClasses := ⟨fun _ => none, []⟩

def insert (cache : RealisedClasses) (type : TypeId) (realised : RealisedClass) : RealisedClasses :=
  { cache with classes := Function.update cache.classes type (some realised) }

def record (cache : RealisedClasses) (type : TypeId) (result : Except Error RealisedClass) :
    RealisedClasses :=
  { cache with returned := (type, result) :: cache.returned }

def getOrRealise (type : TypeId) (realise : Fallible RealisedClasses Error RealisedClass) :
    Fallible RealisedClasses Error RealisedClass := do
  match (← get).classes type with
  | some realised => pure realised
  | none => do
      let realised ← realise
      modify fun cache => cache.insert type realised
      pure realised

/-- A call whose caller goes on with its result, whatever it is. -/
def observe (type : TypeId) (call : Fallible RealisedClasses Error RealisedClass) :
    Fallible RealisedClasses Error (Except Error RealisedClass) := fun cache =>
  let (result, called) := exec call cache
  (.ok result, called.record type result)

end RealisedClasses

/-- Code of the host that asks for classes: what it asks next depends on the results it has got. -/
inductive Realise where
  | done (outcome : Except Error RealisedClass)
  | ask (type : TypeId) (realise : Realise) (next : Except Error RealisedClass → Realise)

def Realise.run : Realise → Fallible RealisedClasses Error RealisedClass
  | .done outcome => check fun _ => outcome
  | .ask type realise next => do
      let result ← RealisedClasses.observe type (RealisedClasses.getOrRealise type realise.run)
      (next result).run

namespace RealisedClasses

variable {cache called : RealisedClasses} {type : TypeId}
  {realise : Fallible RealisedClasses Error RealisedClass}

/-- **A call for a class.** The class is there; or it is realised and put there, over what the
realisation has put there; or realising it fails, and the call puts nothing there. -/
theorem exec_getOrRealise_cases (cache : RealisedClasses) (type : TypeId)
    (realise : Fallible RealisedClasses Error RealisedClass) :
    (∃ realised, cache.classes type = some realised ∧
        exec (getOrRealise type realise) cache = (.ok realised, cache)) ∨
      (∃ realised called, cache.classes type = none ∧
        exec realise cache = (.ok realised, called) ∧
        exec (getOrRealise type realise) cache = (.ok realised, called.insert type realised)) ∨
      ∃ error called, cache.classes type = none ∧ exec realise cache = (.error error, called) ∧
        exec (getOrRealise type realise) cache = (.error error, called) := by
  unfold getOrRealise
  rw [exec_bind, exec_get]
  dsimp only
  cases hcached : cache.classes type with
  | some realised => exact Or.inl ⟨realised, rfl, rfl⟩
  | none =>
      right
      rcases hrun : exec realise cache with ⟨outcome, called⟩
      dsimp only
      rw [exec_bind, hrun]
      cases outcome with
      | ok realised => exact Or.inl ⟨realised, called, rfl, rfl, rfl⟩
      | error error => exact Or.inr ⟨error, called, rfl, rfl, rfl⟩

theorem exec_ask {nested : Realise} {next : Except Error RealisedClass → Realise}
    {result : Except Error RealisedClass}
    (hcall : exec (getOrRealise type nested.run) cache = (result, called)) :
    exec (Realise.ask type nested next).run cache =
      exec (next result).run (called.record type result) := by
  rw [Realise.run, exec_bind]
  show (match ((.ok (exec (getOrRealise type nested.run) cache).1,
    (exec (getOrRealise type nested.run) cache).2.record type
      (exec (getOrRealise type nested.run) cache).1) :
        Except Error (Except Error RealisedClass) × RealisedClasses) with
    | (.ok a, s') => exec (next a).run s'
    | (.error e, s') => (.error e, s')) = _
  rw [hcall]

end RealisedClasses

end GuestJs
