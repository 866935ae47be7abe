import GuestJs.QuickJs.BareEngine
import GuestJs.QuickJs.NativeModules
import Mathlib.Data.List.Basic

/-!
# An engine with native modules

An engine whose heap is the modules it has made. Evaluations give one of two promises, and nothing
the guest could do is asked for.
-/

namespace GuestJs.QuickJs.ModuleEngine

structure Record where
  bindings : Bindings
  evaluated : Bool

abbrev Heap := List Record

def fulfilled : Value := .object 1

def rejected : Value := .object 2

def namespaceObject : Value := .object 3

def primitive {α : Type} : Primitive α → Heap → Resumption Heap GuestCall Answer Fault α
  | .export module name value, heap =>
      .done (.ok ()) (heap.modify module fun record =>
        { record with bindings := Function.update record.bindings name (some value) })
  | .evaluate module, heap =>
      .done (.ok (namespaceObject, fulfilled))
        (heap.modify module fun record => { record with evaluated := true })
  | .promiseResult promise, heap =>
      .done (.ok (if promise = fulfilled then .fulfilled .undefined else .rejected .undefined)) heap
  | _, heap => .done (.error (.other "not available")) heap

theorem primitive_read {α : Type} {p : Primitive α} (h : p.isRead = true) (heap : Heap) :
    ∃ result, primitive p heap = .done result heap := by
  cases p
  all_goals first | exact ⟨_, rfl⟩ | cases h

def engine : Engine :=
  .bare Heap primitive (fun heap h => primitive_read h heap) fun h => by cases h

def building (heap : Heap) (module : ModuleId) (bindings : Bindings) : Prop :=
  heap[module]? = some ⟨bindings, false⟩

def exposed (heap : Heap) (module : ModuleId) : Option Bindings :=
  match heap[module]? with
  | some record => if record.evaluated then some record.bindings else none
  | none => none

/-- A change of a record that is not evaluated is not seen. -/
theorem keepsExposed_modify {heap : Heap} {module : ModuleId} {bindings : Bindings}
    (h : building heap module bindings) (f : Record → Record) :
    KeepsExposed exposed heap (heap.modify module f) := by
  intro other bindings' hexposed
  rw [exposed, List.getElem?_modify]
  by_cases hother : module = other
  · subst hother
    rw [exposed, h] at hexposed
    cases hexposed
  · simpa [exposed, hother] using hexposed

theorem building_modify {heap : Heap} {module : ModuleId} {bindings : Bindings}
    (h : building heap module bindings) (f : Record → Record) :
    (heap.modify module f)[module]? = some (f ⟨bindings, false⟩) := by
  rw [building] at h
  simp [h]

theorem exposed_length (heap : Heap) : exposed heap heap.length = none := by
  rw [exposed, List.getElem?_eq_none (Nat.le_refl _)]

theorem keepsExposed_concat (heap : Heap) (record : Record) :
    KeepsExposed exposed heap (heap ++ [record]) := by
  intro module bindings hexposed
  have hlt : module < heap.length := by
    by_contra hge
    rw [exposed, List.getElem?_eq_none (Nat.le_of_not_lt hge)] at hexposed
    cases hexposed
  rwa [exposed, List.getElem?_append_left hlt]

def modules : NativeModules engine where
  newModule := fun _ (heap : Heap) => (.ok heap.length, heap ++ [⟨fun _ => none, false⟩])
  declareExport := fun module name (heap : Heap) => (.ok (), heap.modify module fun record =>
    { record with bindings := Function.update record.bindings name (some .undefined) })
  resolve := fun _ heap => (.ok (), heap)
  start := fun _ heap => (.ok (), heap)
  raise := fun _ heap => (.undefined, heap)
  reject := fun _ _ heap => (.ok (namespaceObject, rejected), heap)
  building := building
  exposed := exposed
  newModule_building := by
    refine fun name heap => ⟨keepsExposed_concat heap _, ?_⟩
    rintro module ⟨⟩
    exact ⟨exposed_length heap, List.getElem?_concat_length⟩
  declareExport_building := fun module name heap bindings h =>
    ⟨keepsExposed_modify h _, fun _ => building_modify h _⟩
  resolve_building := fun _ _ _ h => ⟨fun _ _ h => h, fun _ => h⟩
  start_building := fun _ _ _ h => ⟨fun _ _ h => h, fun _ => h⟩
  export_building := fun module name value heap bindings h =>
    ⟨_, _, _, rfl, keepsExposed_modify h _, building_modify h _, fun _ => rfl⟩
  evaluate_building := by
    intro module heap bindings h
    refine ⟨_, _, rfl, keepsExposed_modify h _, fun _ _ => ?_⟩
    rw [exposed, building_modify h]
    rfl
  raise_building := fun _ _ => ⟨fun _ _ h => h, fun _ _ h => h⟩
  reject_building := fun _ _ _ _ _ _ _ h => h
  reject_rejected := by
    rintro module thrown heap entry promise state heap' ⟨⟩ ⟨⟩
    exact ⟨.undefined, rfl⟩
  exposed_read := by
    intro α p heap hread
    obtain ⟨result, hdone⟩ := primitive_read hread heap
    show (primitive p heap).Guarantees _ _ _
    rw [hdone]
    exact fun _ _ h => h

def session : Session engine := .entered []

end GuestJs.QuickJs.ModuleEngine
