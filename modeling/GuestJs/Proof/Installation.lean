import GuestJs.Host.ClassDeclaration
import GuestJs.Library.Merged
import GuestJs.Library.Results

/-!
# Installing declarations

What a namespace has under a key, what installing it puts on an object, and when that succeeds.
-/

namespace GuestJs

open Results

namespace NamespaceDeclaration

def lookup (ns : NamespaceDeclaration) (key : PropertyKey) : Option PropertyDeclaration :=
  ns.properties.lookup key

theorem lookup_new (key : PropertyKey) : new.lookup key = none := rfl

theorem insert_eq_upsert (key : PropertyKey) (property : PropertyDeclaration)
    (properties : List (PropertyKey × PropertyDeclaration)) :
    insert key property properties =
      Merged.upsert PropertyDeclaration.merge key property properties := by
  induction properties with
  | nil => rfl
  | cons entry rest ih => rw [insert, Merged.upsert, ih]

theorem lookup_property (ns : NamespaceDeclaration) (key : PropertyKey)
    (property : PropertyDeclaration) (other : PropertyKey) :
    (ns.property key property).lookup other =
      if other = key then some (((ns.lookup key).map (·.merge property)).getD property)
      else ns.lookup other := by
  obtain ⟨properties⟩ := ns
  simp only [lookup, NamespaceDeclaration.property, insert_eq_upsert]
  exact Merged.lookup_upsert

theorem nodup_property {ns : NamespaceDeclaration} (h : (ns.properties.map Prod.fst).Nodup)
    (key : PropertyKey) (property : PropertyDeclaration) :
    ((ns.property key property).properties.map Prod.fst).Nodup := by
  rw [NamespaceDeclaration.property, insert_eq_upsert]
  exact Merged.nodup_upsert h

end NamespaceDeclaration

namespace Realiser

theorem define_eq_ok {guest : Realiser} {call : EngineCall} {target target' : Properties}
    {key : PropertyKey} {property : ClassProperty} :
    guest.define call target key property = .ok target' ↔
      guest.attempt call = .ok () ∧ (target key).all (·.replaceable property) = true ∧
        target' = fun other => if other = key then some property else target other := by
  rw [define, bind_eq_ok]
  constructor
  · rintro ⟨⟨⟩, hattempt, hrest⟩
    split at hrest
    next hall => exact ⟨hattempt, hall, (pure_eq_ok.mp hrest).symm⟩
    next => cases hrest
  · rintro ⟨hattempt, hall, rfl⟩
    exact ⟨(), hattempt, by rw [if_pos hall]; rfl⟩

/-- Every call goes through and every value of the host can be converted. -/
structure Obliging (guest : Realiser) : Prop where
  fault : ∀ call, guest.fault call = none
  convert : ∀ item, ∃ value, guest.convert item = .ok value

theorem Obliging.attempt {guest : Realiser} (h : guest.Obliging) (call : EngineCall) :
    guest.attempt call = .ok () := by
  rw [Realiser.attempt, h.fault]

end Realiser

theorem PropertyDeclaration.realise_ok {guest : Realiser} (h : guest.Obliging)
    (target : ClassObject) (key : PropertyKey) (property : PropertyDeclaration) :
    ∃ realised, property.realise guest target key = .ok realised := by
  have hdeclaration : ∀ (declaration : Declaration) (name : String),
      ∃ value, declaration.realise guest target name = .ok value := by
    intro declaration name
    cases declaration with
    | function function => exact ⟨_, bind_eq_ok.mpr ⟨(), h.attempt _, rfl⟩⟩
    | value item =>
        obtain ⟨value, hvalue⟩ := h.convert item
        exact ⟨_, map_eq_ok.mpr ⟨value, hvalue, rfl⟩⟩
  have haccessor : ∀ (accessor : Option FunctionDeclaration) (name : String),
      ∃ value, realiseAccessor guest target accessor name = .ok value := by
    intro accessor name
    cases accessor with
    | none => exact ⟨none, rfl⟩
    | some accessor =>
        obtain ⟨value, hvalue⟩ := hdeclaration (.function accessor) name
        exact ⟨_, map_eq_ok.mpr ⟨value, hvalue, rfl⟩⟩
  cases property with
  | value declaration writable enumerable configurable =>
      obtain ⟨value, hvalue⟩ := hdeclaration declaration key.functionName
      exact ⟨_, bind_eq_ok.mpr ⟨value, hvalue, rfl⟩⟩
  | accessor get set enumerable configurable =>
      obtain ⟨get', hget⟩ := haccessor get ("get " ++ key.functionName)
      obtain ⟨set', hset⟩ := haccessor set ("set " ++ key.functionName)
      exact ⟨_, bind_eq_ok.mpr ⟨get', hget, bind_eq_ok.mpr ⟨set', hset, rfl⟩⟩⟩

/-- The definitions of a loop over distinct keys all stand at its end. -/
theorem define_loop {guest : Realiser} {call : PropertyKey → EngineCall}
    {entries : List (PropertyKey × ClassProperty)} {object object' : Properties}
    (hnodup : (entries.map Prod.fst).Nodup)
    (h : entries.foldlM (fun object entry => guest.define (call entry.1) object entry.1 entry.2)
      object = .ok object') (key : PropertyKey) :
    object' key = ((entries.lookup key).map some).getD (object key) := by
  induction entries generalizing object with
  | nil => simp [pure_eq_ok.mp h]
  | cons entry entries ih =>
      obtain ⟨first, hfirst, hrest⟩ := foldlM_cons_eq_ok.mp h
      obtain ⟨-, -, rfl⟩ := Realiser.define_eq_ok.mp hfirst
      have hlater := ih (List.nodup_cons.mp hnodup).2 hrest
      obtain ⟨first, property⟩ := entry
      by_cases heq : key = first
      · subst heq
        have hnone : entries.lookup key = none := by
          rw [List.lookup_eq_none_iff]
          grind
        simp [hlater, hnone]
      · have hlookup : List.lookup key ((first, property) :: entries) = entries.lookup key := by
          grind
        rw [hlater, hlookup, if_neg heq]

theorem define_loop_ok {guest : Realiser} (hguest : guest.Obliging)
    (call : PropertyKey → EngineCall) {entries : List (PropertyKey × ClassProperty)}
    (object : Properties) (hnodup : (entries.map Prod.fst).Nodup)
    (hfree : ∀ key ∈ entries.map Prod.fst, ∀ property, object key = some property →
      property.configurable = true) :
    ∃ object', entries.foldlM
      (fun object entry => guest.define (call entry.1) object entry.1 entry.2) object =
        .ok object' := by
  induction entries generalizing object with
  | nil => exact ⟨object, rfl⟩
  | cons entry entries ih =>
      obtain ⟨hnew, hnodup⟩ := List.nodup_cons.mp hnodup
      have hreplace : (object entry.1).all (·.replaceable entry.2) = true := by
        cases hcurrent : object entry.1 with
        | none => rfl
        | some current =>
            have := hfree entry.1 (by simp) current hcurrent
            simp [ClassProperty.replaceable, this]
      have hfirst := Realiser.define_eq_ok.mpr ⟨hguest.attempt (call entry.1), hreplace, rfl⟩
      obtain ⟨object', hrest⟩ := ih
        (fun other => if other = entry.1 then some entry.2 else object other) hnodup (by grind)
      exact ⟨object', foldlM_cons_eq_ok.mpr ⟨_, hfirst, hrest⟩⟩

namespace NamespaceDeclaration

theorem lookup_of_forall₂ {guest : Realiser} {target : ClassObject}
    {properties : List (PropertyKey × PropertyDeclaration)}
    {realised : List (PropertyKey × ClassProperty)}
    (h : List.Forall₂ (fun entry made => realiseEntry guest target entry = .ok made) properties
      realised) :
    realised.map Prod.fst = properties.map Prod.fst ∧
      ∀ key property, properties.lookup key = some property →
        ∃ made, property.realise guest target key = .ok made ∧ realised.lookup key = some made := by
  induction h with
  | nil => simp
  | @cons entry made properties realised hentry hrest ih =>
      obtain ⟨⟨⟩, -, hproperty⟩ := bind_eq_ok.mp hentry
      obtain ⟨made', hmade, hpair⟩ := bind_eq_ok.mp hproperty
      obtain rfl := pure_eq_ok.mp hpair
      refine ⟨by simp [ih.1], fun key property hlookup => ?_⟩
      obtain ⟨first, declared⟩ := entry
      by_cases heq : key = first
      · subst heq
        obtain rfl : declared = property := by simpa using hlookup
        exact ⟨made', hmade, by simp⟩
      · obtain ⟨made, hmade, hfound⟩ := ih.2 key property (by grind)
        exact ⟨made, hmade, by grind⟩

/-- Installing puts every declared property on the object and leaves the other keys alone. -/
theorem install_eq_ok {ns : NamespaceDeclaration} (hnodup : (ns.properties.map Prod.fst).Nodup)
    {guest : Realiser} {target : ClassObject} {object object' : Properties}
    (h : ns.install guest target object = .ok object') (key : PropertyKey) :
    (∀ property, ns.lookup key = some property →
      ∃ made, property.realise guest target key = .ok made ∧ object' key = some made) ∧
    (ns.lookup key = none → object' key = object key) := by
  obtain ⟨realised, hrealised, hdefined⟩ := bind_eq_ok.mp h
  obtain ⟨hkeys, hlookup⟩ := lookup_of_forall₂ (mapM_eq_ok.mp hrealised)
  have hobject := define_loop (hkeys ▸ hnodup) hdefined key
  constructor
  · intro property hproperty
    obtain ⟨made, hmade, hfound⟩ := hlookup key property hproperty
    exact ⟨made, hmade, by rw [hobject, hfound]; rfl⟩
  · intro hnone
    have hmissing : realised.lookup key = none := by
      rw [List.lookup_eq_none_iff]
      have hnone := List.lookup_eq_none_iff.mp hnone
      intro entry hentry
      have hmem : entry.1 ∈ ns.properties.map Prod.fst := hkeys ▸ List.mem_map_of_mem hentry
      obtain ⟨declared, hdeclared, heq⟩ := List.mem_map.mp hmem
      exact heq ▸ hnone declared hdeclared
    rw [hobject, hmissing]
    rfl

theorem install_ok {ns : NamespaceDeclaration} (hnodup : (ns.properties.map Prod.fst).Nodup)
    {guest : Realiser} (hguest : guest.Obliging) (target : ClassObject) (object : Properties)
    (hfree : ∀ key property, object key = some property → property.configurable = true) :
    ∃ object', ns.install guest target object = .ok object' := by
  have hentries : ∀ properties : List (PropertyKey × PropertyDeclaration),
      ∃ realised, List.Forall₂ (fun entry made => realiseEntry guest target entry = .ok made)
        properties realised := by
    intro properties
    induction properties with
    | nil => exact ⟨[], .nil⟩
    | cons entry rest ih =>
        obtain ⟨realised, hrest⟩ := ih
        obtain ⟨made, hmade⟩ := entry.2.realise_ok hguest target entry.1
        have hentry : realiseEntry guest target entry = .ok (entry.1, made) :=
          bind_eq_ok.mpr ⟨(), hguest.attempt _, bind_eq_ok.mpr ⟨made, hmade, rfl⟩⟩
        exact ⟨_, .cons hentry hrest⟩
  obtain ⟨realised, hrealised⟩ := hentries ns.properties
  have hkeys := (lookup_of_forall₂ hrealised).1
  obtain ⟨object', hdefined⟩ := define_loop_ok hguest (.define target) object (hkeys ▸ hnodup)
    (fun key _ => hfree key)
  exact ⟨object', bind_eq_ok.mpr ⟨realised, mapM_eq_ok.mpr hrealised, hdefined⟩⟩

end NamespaceDeclaration

end GuestJs
