import GuestJs.Proof.MemberEntries

/-!
# The members of a host class

The entries that the two loops of a realisation install are all there, and the links that the class
defines afterwards take the place of what is under their keys.
-/

namespace GuestJs

open Results

/-- A property of an object is what an entry asks for. -/
def Entry.Made (entry : Entry) (guest : Realiser) (target : ClassObject) (made : ClassProperty) :
    Prop :=
  match entry.property, made with
  | .value declaration writable enumerable configurable,
      .value value writable' enumerable' configurable' =>
      declaration.realise guest target entry.key.functionName = .ok value ∧ writable' = writable ∧
        enumerable' = enumerable ∧ configurable' = configurable
  | .accessor get set _ _, .accessor get' set' _ _ =>
      (∀ getter, get = some getter →
          get' = some (.function ("get " ++ entry.key.functionName) getter)) ∧
        ∀ setter, set = some setter →
          set' = some (.function ("set " ++ entry.key.functionName) setter)
  | _, _ => False

theorem realiseAccessor_some {guest : Realiser} {target : ClassObject} {name : String}
    {accessor : FunctionDeclaration} {value : Option ClassValue}
    (h : PropertyDeclaration.realiseAccessor guest target (some accessor) name = .ok value) :
    value = some (.function name accessor) := by
  obtain ⟨function, hfunction, rfl⟩ := map_eq_ok.mp h
  obtain ⟨-, -, hpure⟩ := bind_eq_ok.mp hfunction
  rw [pure_eq_ok.mp hpure]

theorem Entry.KeptIn.made {entry : Entry} {declared : PropertyDeclaration} {guest : Realiser}
    {target : ClassObject} {made : ClassProperty} (h : entry.KeptIn declared)
    (hmade : declared.realise guest target entry.key = .ok made) :
    entry.Made guest target made := by
  obtain ⟨key, registration, property, half⟩ := entry
  cases half with
  | data declaration writable enumerable configurable =>
      obtain rfl : declared = _ := h
      obtain ⟨value, hvalue, hpure⟩ := bind_eq_ok.mp hmade
      obtain rfl := pure_eq_ok.mp hpure
      exact ⟨hvalue, rfl, rfl, rfl⟩
  | get get =>
      cases declared with
      | value => simp [Entry.KeptIn, PropertyDeclaration.getter] at h
      | accessor get' set' enumerable configurable =>
          obtain rfl : get' = some get := h.1 rfl
          obtain ⟨getter, hgetter, hrest⟩ := bind_eq_ok.mp hmade
          obtain ⟨setter, -, hpure⟩ := bind_eq_ok.mp hrest
          obtain rfl := pure_eq_ok.mp hpure
          have hvalue := realiseAccessor_some hgetter
          simp [Entry.Made, PropertyDeclaration.getter, hvalue]
  | set set =>
      cases declared with
      | value => simp [Entry.KeptIn, PropertyDeclaration.setter] at h
      | accessor get' set' enumerable configurable =>
          obtain rfl : set' = some set := h.2.1 rfl
          obtain ⟨getter, -, hrest⟩ := bind_eq_ok.mp hmade
          obtain ⟨setter, hsetter, hpure⟩ := bind_eq_ok.mp hrest
          obtain rfl := pure_eq_ok.mp hpure
          have hvalue := realiseAccessor_some hsetter
          simp [Entry.Made, PropertyDeclaration.setter, hvalue]

theorem Merged.installed {entries : List Entry} {ns : NamespaceDeclaration} (h : Merged entries ns)
    {guest : Realiser} {target : ClassObject} {object object' : Properties}
    (hinstall : ns.install guest target object = .ok object') {entry : Entry}
    (hentry : entry ∈ entries) :
    ∃ made, object' entry.key = some made ∧ entry.Made guest target made := by
  obtain ⟨declared, hlookup, hkept⟩ := h.kept entry hentry
  obtain ⟨made, hmade, hobject⟩ :=
    (NamespaceDeclaration.install_eq_ok h.nodup hinstall entry.key).1 declared hlookup
  exact ⟨made, hobject, hkept.made hmade⟩

namespace ClassMember

/-- The member is on the object of its role under its own key, as its role asks for. -/
def Present (guest : Realiser) (objects : ClassObjects) : ClassMember → Prop
  | .callable .method item key =>
      objects.prototype key.render =
        some (.value (.function key.render.functionName ⟨item.ident, false⟩) true false true)
  | .callable .asyncMethod item key =>
      objects.prototype key.render =
        some (.value (.function key.render.functionName ⟨item.ident, true⟩) true false true)
  | .callable .get item key =>
      ∃ set enumerable configurable, objects.prototype key.render =
        some (.accessor (some (.function ("get " ++ key.render.functionName) ⟨item.ident, false⟩))
          set enumerable configurable)
  | .callable .set item key =>
      ∃ get enumerable configurable, objects.prototype key.render =
        some (.accessor get
          (some (.function ("set " ++ key.render.functionName) ⟨item.ident, false⟩)) enumerable
          configurable)
  | .callable .staticMethod item key =>
      objects.constructor key.render =
        some (.value (.function key.render.functionName ⟨item.ident, item.asynchronous⟩) true false
          true)
  | .constant ident key =>
      ∃ value, guest.convert ident = .ok value ∧
        objects.constructor key.render = some (.value (.converted value) false false false)
  | _ => True

/-- The key of a member of the prototype. -/
def prototypeKey : ClassMember → Option MemberKey
  | .callable .method _ key | .callable .asyncMethod _ key | .callable .get _ key
  | .callable .set _ key => some key
  | _ => none

end ClassMember

namespace Entry

variable {guest : Realiser} {target : ClassObject} {made : ClassProperty} {key : PropertyKey}
  {function : FunctionDeclaration}

theorem made_function {writable enumerable configurable : Bool}
    (h : (⟨key, .data, _, .data (.function function) writable enumerable configurable⟩ :
      Entry).Made guest target made) :
    made = .value (.function key.functionName function) writable enumerable configurable := by
  cases made with
  | accessor => exact h.elim
  | value value =>
      obtain ⟨hvalue, rfl, rfl, rfl⟩ := h
      obtain ⟨-, -, hpure⟩ := bind_eq_ok.mp hvalue
      rw [pure_eq_ok.mp hpure]

theorem made_constant {item : String} {writable enumerable configurable : Bool}
    (h : (⟨key, .data, _, .data (.value item) writable enumerable configurable⟩ : Entry).Made guest
      target made) :
    ∃ value, guest.convert item = .ok value ∧
      made = .value (.converted value) writable enumerable configurable := by
  cases made with
  | accessor => exact h.elim
  | value value =>
      obtain ⟨hvalue, rfl, rfl, rfl⟩ := h
      obtain ⟨converted, hconvert, rfl⟩ := map_eq_ok.mp hvalue
      exact ⟨converted, hconvert, rfl⟩

theorem made_getter (h : (⟨key, .get, _, .get function⟩ : Entry).Made guest target made) :
    ∃ set enumerable configurable,
      made = .accessor (some (.function ("get " ++ key.functionName) function)) set enumerable
        configurable := by
  cases made with
  | value => exact h.elim
  | accessor get set enumerable configurable =>
      exact ⟨set, enumerable, configurable, by rw [h.1 _ rfl]⟩

theorem made_setter (h : (⟨key, .set, _, .set function⟩ : Entry).Made guest target made) :
    ∃ get enumerable configurable,
      made = .accessor get (some (.function ("set " ++ key.functionName) function)) enumerable
        configurable := by
  cases made with
  | value => exact h.elim
  | accessor get set enumerable configurable =>
      exact ⟨get, enumerable, configurable, by rw [h.2 _ rfl]⟩

end Entry

namespace ClassMember

variable {guest : Realiser} {objects : ClassObjects}

/-- What is asked of the prototype for a member is there if it is there for its entry. -/
theorem present_of_instanceEntry {member : ClassMember}
    (h : ∀ entry, member.instanceEntry = some entry →
      ∃ made, objects.prototype entry.key = some made ∧ entry.Made guest .prototype made)
    (hstatic : ∀ entry, member.staticEntry = some entry →
      ∃ made, objects.constructor entry.key = some made ∧ entry.Made guest .constructor made) :
    member.Present guest objects := by
  cases member with
  | hook ident => trivial
  | constant ident key =>
      obtain ⟨made, hobject, hmade⟩ := hstatic _ rfl
      obtain ⟨value, hconvert, rfl⟩ := Entry.made_constant hmade
      exact ⟨value, hconvert, hobject⟩
  | callable role item key =>
      cases role with
      | method | asyncMethod =>
          obtain ⟨made, hobject, hmade⟩ := h _ rfl
          obtain rfl := Entry.made_function hmade
          exact hobject
      | staticMethod =>
          obtain ⟨made, hobject, hmade⟩ := hstatic _ rfl
          obtain rfl := Entry.made_function hmade
          exact hobject
      | get =>
          obtain ⟨made, hobject, hmade⟩ := h _ rfl
          obtain ⟨set, enumerable, configurable, rfl⟩ := Entry.made_getter hmade
          exact ⟨set, enumerable, configurable, hobject⟩
      | set =>
          obtain ⟨made, hobject, hmade⟩ := h _ rfl
          obtain ⟨get, enumerable, configurable, rfl⟩ := Entry.made_setter hmade
          exact ⟨get, enumerable, configurable, hobject⟩
      | constructor | statics | constant => trivial

end ClassMember

namespace HostClassDefinition

/-- Whenever the class is realised, every member is there. -/
def KeepsMembers (definition : HostClassDefinition) : Prop :=
  ∀ hooks guest state objects,
    (definition.declaration hooks).realised guest state none = .ok objects →
      ∀ member ∈ definition.members, member.Present guest objects

/-- No member is where the class defines a link, or the class cannot be realised: a constant cannot
be redefined, and a module has one state. -/
def LeavesLinks (definition : HostClassDefinition) : Prop :=
  (∃ ident, .constant ident (.name "prototype") ∈ definition.members) ∨
  (∃ state ∈ definition.requirements, ∃ other ∈ definition.requirements, state ≠ other) ∨
  ((∀ member ∈ definition.members, member.prototypeKey ≠ some (.name "constructor")) ∧
    ∀ item, .callable .staticMethod item (.name "prototype") ∉ definition.members)

variable {definition : HostClassDefinition} {hooks : ClassMember.Hooks} {guest : Realiser}
  {state : HostState} {objects : ClassObjects}

/-- What an accepted definition without a hook gives the loops of the realisation. -/
structure Declared (definition : HostClassDefinition) (declaration : ClassDeclaration) : Prop where
  prototype : Merged (definition.members.filterMap ClassMember.instanceEntry) declaration.prototype
  statics : Merged (definition.members.filterMap ClassMember.staticEntry) declaration.statics
  requirements : declaration.requirements = definition.requirements

theorem declared {apply : Casing} {options : ClassOptions} {item : ItemImpl}
    (hnew : new apply options item = .ok definition)
    (hhook : ∀ ident, .hook ident ∉ definition.members) (hooks : ClassMember.Hooks) :
    definition.Declared (definition.declaration hooks) := by
  obtain ⟨hprototype, hstatics, hrequirements⟩ := declaration_eq hooks hhook
  obtain ⟨hinstances, hmembers⟩ := new_compatible hnew
  exact ⟨hprototype ▸ merged_ofEntries hinstances, hstatics ▸ merged_ofEntries hmembers,
    hrequirements⟩

end HostClassDefinition

/-- The objects of a class that has been realised: what the two loops have installed, and the links
over it. -/
theorem ClassDeclaration.realised_eq_ok {declaration : ClassDeclaration} {guest : Realiser}
    {state : HostState} {objects : ClassObjects}
    (h : declaration.realised guest state none = .ok objects) :
    declaration.requirements.forM state.check = .ok () ∧
    ∃ prototype constructor : Properties,
      declaration.prototype.install guest .prototype (fun _ => none) = .ok prototype ∧
      declaration.statics.install guest .constructor (.ofFunction declaration.name) =
        .ok constructor ∧
      guest.define (.link .constructor) constructor (.name "prototype")
        (.value (.object .prototype) false false false) = .ok objects.constructor ∧
      guest.define (.link .prototype) prototype (.name "constructor")
        (.value (.object .constructor) true false true) = .ok objects.prototype := by
  obtain ⟨⟨⟩, hcheck, h⟩ := bind_eq_ok.mp h
  obtain ⟨-, -, h⟩ := bind_eq_ok.mp h
  obtain ⟨prototype, hprototype, h⟩ := bind_eq_ok.mp h
  obtain ⟨-, -, h⟩ := bind_eq_ok.mp h
  obtain ⟨constructor, hconstructor, h⟩ := bind_eq_ok.mp h
  obtain ⟨constructor', hlink, h⟩ := bind_eq_ok.mp h
  obtain ⟨prototype', hlink', h⟩ := bind_eq_ok.mp h
  obtain rfl := pure_eq_ok.mp h
  exact ⟨hcheck, prototype, constructor, hprototype, hconstructor, hlink, hlink'⟩

theorem ClassDeclaration.realised_ok {declaration : ClassDeclaration} {guest : Realiser}
    {state : HostState} (hguest : guest.Obliging)
    (hcheck : declaration.requirements.forM state.check = .ok ())
    (hprototype : (declaration.prototype.properties.map Prod.fst).Nodup)
    (hstatics : (declaration.statics.properties.map Prod.fst).Nodup)
    (hlinks : ∀ prototype constructor,
      declaration.prototype.install guest .prototype (fun _ => none) = .ok prototype →
      declaration.statics.install guest .constructor (.ofFunction declaration.name) =
        .ok constructor →
      (constructor (.name "prototype")).all (·.configurable) = true ∧
        (prototype (.name "constructor")).all (·.configurable) = true) :
    ∃ objects, declaration.realised guest state none = .ok objects := by
  obtain ⟨prototype, hinstalled⟩ := NamespaceDeclaration.install_ok hprototype hguest .prototype
    (fun _ => none) (by simp)
  obtain ⟨constructor, hinstalled'⟩ := NamespaceDeclaration.install_ok hstatics hguest .constructor
    (.ofFunction declaration.name) (by
      intro key property hproperty
      unfold Properties.ofFunction at hproperty
      split at hproperty <;> cases hproperty <;> rfl)
  obtain ⟨hfree, hfree'⟩ := hlinks prototype constructor hinstalled hinstalled'
  have hreplace : ∀ (current : Option ClassProperty) (property : ClassProperty),
      current.all (·.configurable) = true → current.all (·.replaceable property) = true := by
    intro current property hcurrent
    cases current with
    | none => rfl
    | some current => simp_all [ClassProperty.replaceable]
  have hlink := Realiser.define_eq_ok.mpr ⟨hguest.attempt (.link .constructor),
    hreplace _ (.value (.object .prototype) false false false) hfree, rfl⟩
  have hlink' := Realiser.define_eq_ok.mpr ⟨hguest.attempt (.link .prototype),
    hreplace _ (.value (.object .constructor) true false true) hfree', rfl⟩
  refine ⟨_, bind_eq_ok.mpr ⟨(), hcheck, bind_eq_ok.mpr ⟨(), hguest.attempt _,
    bind_eq_ok.mpr ⟨prototype, hinstalled, bind_eq_ok.mpr ⟨(), hguest.attempt _,
      bind_eq_ok.mpr ⟨constructor, hinstalled', bind_eq_ok.mpr ⟨_, hlink,
        bind_eq_ok.mpr ⟨_, hlink', rfl⟩⟩⟩⟩⟩⟩⟩⟩

/-- What is installed under a key can be redefined if no entry rules it out. -/
theorem Merged.configurable {entries : List Entry} {ns : NamespaceDeclaration}
    (h : Merged entries ns) {key : PropertyKey}
    (hentries : ∀ entry ∈ entries, entry.key = key →
      ∀ declaration writable enumerable configurable,
        entry.property = .value declaration writable enumerable configurable → configurable = true)
    {guest : Realiser} {target : ClassObject} {object object' : Properties}
    (hinstall : ns.install guest target object = .ok object')
    (hobject : (object key).all (·.configurable) = true) :
    (object' key).all (·.configurable) = true := by
  obtain ⟨hsome, hnone⟩ := NamespaceDeclaration.install_eq_ok h.nodup hinstall key
  cases hlookup : ns.lookup key with
  | none => rwa [hnone hlookup]
  | some declared =>
      obtain ⟨made, hmade, hfound⟩ := hsome declared hlookup
      have hsourced := h.sourced key declared hlookup
      rw [hfound]
      cases declared with
      | value declaration writable enumerable configurable =>
          obtain ⟨entry, hmem, hkey, -, hproperty⟩ := hsourced
          obtain ⟨value, -, hpure⟩ := bind_eq_ok.mp hmade
          obtain rfl := pure_eq_ok.mp hpure
          exact hentries entry hmem hkey _ _ _ _ hproperty
      | accessor get set enumerable configurable =>
          obtain ⟨-, -, rfl, -, -⟩ := hsourced
          obtain ⟨getter, -, hrest⟩ := bind_eq_ok.mp hmade
          obtain ⟨setter, -, hpure⟩ := bind_eq_ok.mp hrest
          obtain rfl := pure_eq_ok.mp hpure
          rfl

namespace ClassMember

theorem exists_prototypeKey {member : ClassMember} {entry : Entry}
    (h : member.instanceEntry = some entry) :
    ∃ key, member.prototypeKey = some key ∧ key.render = entry.key := by
  unfold instanceEntry at h
  split at h <;> cases h <;> exact ⟨_, rfl, rfl⟩

theorem configurable_of_instanceEntry {member : ClassMember} {entry : Entry}
    (h : member.instanceEntry = some entry) (declaration : Declaration)
    (writable enumerable configurable : Bool)
    (hproperty : entry.property = .value declaration writable enumerable configurable) :
    configurable = true := by
  unfold instanceEntry at h
  split at h <;> cases h <;> cases hproperty <;> rfl

/-- A static entry is a method's, which can be redefined, or a constant's. -/
theorem staticEntry_cases {member : ClassMember} {entry : Entry}
    (h : member.staticEntry = some entry) :
    (∃ item key, member = .callable .staticMethod item key ∧ key.render = entry.key ∧
      entry.property = .ofValue (.function ⟨item.ident, item.asynchronous⟩)) ∨
    ∃ ident key, member = .constant ident key ∧ key.render = entry.key := by
  unfold staticEntry at h
  split at h
  next item key =>
    cases h
    exact .inl ⟨item, key, rfl, rfl, rfl⟩
  next ident key =>
    cases h
    exact .inr ⟨ident, key, rfl, rfl⟩
  next => cases h

end ClassMember

theorem MemberKey.render_eq_name {key : MemberKey} {text : String} (h : key.render = .name text) :
    key = .name text := by
  have hrender : key.render = (MemberKey.name text).render := h
  exact MemberKey.render_injective hrender

namespace HostClassDefinition

variable {definition : HostClassDefinition} {declaration : ClassDeclaration} {guest : Realiser}
  {state : HostState} {objects : ClassObjects}

theorem Declared.not_constant_prototype (h : definition.Declared declaration)
    (hrealised : declaration.realised guest state none = .ok objects) (ident : String) :
    .constant ident (.name "prototype") ∉ definition.members := by
  intro hmem
  obtain ⟨-, prototype, constructor, -, hinstall, hlink, -⟩ :=
    ClassDeclaration.realised_eq_ok hrealised
  have hentry : _ ∈ definition.members.filterMap ClassMember.staticEntry :=
    List.mem_filterMap.mpr ⟨_, hmem, rfl⟩
  obtain ⟨made, hmade, hentry⟩ := h.statics.installed hinstall hentry
  obtain ⟨value, -, rfl⟩ := Entry.made_constant hentry
  obtain ⟨-, hreplaceable, -⟩ := Realiser.define_eq_ok.mp hlink
  have hmade : constructor (.name "prototype") =
      some (.value (.converted value) false false false) := hmade
  rw [hmade] at hreplaceable
  simp [ClassProperty.replaceable, ClassProperty.configurable] at hreplaceable

theorem Declared.requirements_eq (h : definition.Declared declaration)
    (hrealised : declaration.realised guest state none = .ok objects) {required other : String}
    (hrequired : required ∈ definition.requirements) (hother : other ∈ definition.requirements) :
    required = other := by
  obtain ⟨hcheck, -⟩ := ClassDeclaration.realised_eq_ok hrealised
  rw [h.requirements] at hcheck
  have hstate : ∀ required ∈ definition.requirements, state = some required := by
    intro required hmem
    have hone := Fallible.forM_eq_ok_iff.mp hcheck required hmem
    unfold HostState.check at hone
    split at hone
    next heq => exact heq
    next => cases hone
  exact Option.some.inj ((hstate _ hrequired).symm.trans (hstate _ hother))

/-- Members under other keys than those of the links are where they were installed. -/
theorem Declared.present (h : definition.Declared declaration)
    (hrealised : declaration.realised guest state none = .ok objects)
    (hprototype : ∀ member ∈ definition.members,
      member.prototypeKey ≠ some (.name "constructor"))
    (hstatics : ∀ item, .callable .staticMethod item (.name "prototype") ∉ definition.members)
    {member : ClassMember} (hmem : member ∈ definition.members) : member.Present guest objects := by
  obtain ⟨-, prototype, constructor, hinstall, hinstall', hlink, hlink'⟩ :=
    ClassDeclaration.realised_eq_ok hrealised
  obtain ⟨-, -, hconstructor'⟩ := Realiser.define_eq_ok.mp hlink
  obtain ⟨-, -, hprototype'⟩ := Realiser.define_eq_ok.mp hlink'
  apply ClassMember.present_of_instanceEntry
  · intro entry hentry
    obtain ⟨made, hmade, hmadeEntry⟩ :=
      h.prototype.installed hinstall (List.mem_filterMap.mpr ⟨member, hmem, hentry⟩)
    have hkey : entry.key ≠ .name "constructor" := by
      intro heq
      obtain ⟨key, hkey, hrender⟩ := ClassMember.exists_prototypeKey hentry
      rw [MemberKey.render_eq_name (hrender.trans heq)] at hkey
      exact hprototype member hmem hkey
    exact ⟨made, by simp only [hprototype', if_neg hkey, hmade], hmadeEntry⟩
  · intro entry hentry
    obtain ⟨made, hmade, hmadeEntry⟩ :=
      h.statics.installed hinstall' (List.mem_filterMap.mpr ⟨member, hmem, hentry⟩)
    have hkey : entry.key ≠ .name "prototype" := by
      intro heq
      obtain ⟨item, key, rfl, hrender, -⟩ | ⟨ident, key, rfl, hrender⟩ :=
        ClassMember.staticEntry_cases hentry
      · rw [MemberKey.render_eq_name (hrender.trans heq)] at hmem
        exact hstatics item hmem
      · rw [MemberKey.render_eq_name (hrender.trans heq)] at hmem
        exact h.not_constant_prototype hrealised ident hmem
    exact ⟨made, by simp only [hconstructor', if_neg hkey, hmade], hmadeEntry⟩

/-- Where nothing rules it out there is a guest in which the class is realised. -/
theorem Declared.exists_realised (h : definition.Declared declaration)
    (hconstant : ∀ ident, .constant ident (.name "prototype") ∉ definition.members)
    (hstates : ∀ state ∈ definition.requirements, ∀ other ∈ definition.requirements,
      state = other) :
    ∃ guest state objects, declaration.realised guest state none = .ok objects := by
  have hguest : Realiser.Obliging ⟨fun _ => none, fun _ => .ok .undefined, .closed⟩ :=
    ⟨fun _ => rfl, fun _ => ⟨.undefined, rfl⟩⟩
  refine ⟨⟨fun _ => none, fun _ => .ok .undefined, .closed⟩, definition.requirements.head?,
    ClassDeclaration.realised_ok hguest ?_ h.prototype.nodup h.statics.nodup ?_⟩
  · rw [h.requirements, Fallible.forM_eq_ok_iff]
    intro required hmem
    cases hrequirements : definition.requirements with
    | nil => simp [hrequirements] at hmem
    | cons first rest =>
        have heq := hstates first (by simp [hrequirements]) required hmem
        simp [HostState.check, heq]
  · intro prototype constructor hinstall hinstall'
    constructor
    · refine h.statics.configurable ?_ hinstall' rfl
      intro entry hmem hkey declaration writable enumerable configurable hproperty
      obtain ⟨member, hmember, hentry⟩ := List.mem_filterMap.mp hmem
      obtain ⟨item, key, -, -, hvalue⟩ | ⟨ident, key, rfl, hrender⟩ :=
        ClassMember.staticEntry_cases hentry
      · rw [hvalue] at hproperty
        cases hproperty
        rfl
      · rw [MemberKey.render_eq_name (hrender.trans hkey)] at hmember
        exact absurd hmember (hconstant ident)
    · refine h.prototype.configurable ?_ hinstall rfl
      intro entry hmem hkey declaration writable enumerable configurable hproperty
      obtain ⟨member, -, hentry⟩ := List.mem_filterMap.mp hmem
      exact ClassMember.configurable_of_instanceEntry hentry _ _ _ _ hproperty

/-- What a link has taken the place of is not there any more. -/
theorem Declared.not_present (h : declaration.realised guest state none = .ok objects) :
    (∀ member : ClassMember, member.prototypeKey = some (.name "constructor") →
      ¬ member.Present guest objects) ∧
    ∀ item,
      ¬ (ClassMember.callable .staticMethod item (.name "prototype")).Present guest objects := by
  obtain ⟨-, prototype, constructor, -, -, hlink, hlink'⟩ := ClassDeclaration.realised_eq_ok h
  obtain ⟨-, -, hconstructor⟩ := Realiser.define_eq_ok.mp hlink
  obtain ⟨-, -, hprototype⟩ := Realiser.define_eq_ok.mp hlink'
  constructor
  · intro member hkey
    unfold ClassMember.prototypeKey at hkey
    split at hkey <;> cases hkey <;> simp [ClassMember.Present, MemberKey.render, hprototype]
  · intro item
    simp [ClassMember.Present, MemberKey.render, hconstructor]

theorem not_keepsMembers {apply : Casing} {options : ClassOptions} {item : ItemImpl}
    (hnew : new apply options item = .ok definition)
    (hhook : ∀ ident, .hook ident ∉ definition.members) (hlinks : ¬ definition.LeavesLinks) :
    ¬ definition.KeepsMembers := by
  intro hkeeps
  simp only [LeavesLinks, not_or, not_exists, not_and, ne_eq, not_not] at hlinks
  obtain ⟨hconstant, hstates, hkeys⟩ := hlinks
  have hdeclared := declared hnew hhook fun _ ns => ns
  obtain ⟨guest, state, objects, hrealised⟩ := hdeclared.exists_realised hconstant hstates
  obtain ⟨hprototype, hstatics⟩ := Declared.not_present hrealised
  refine hkeys ?_ ?_
  · intro member hmem hkey
    exact hprototype member hkey (hkeeps _ _ _ _ hrealised member hmem)
  · intro item hmem
    exact hstatics item (hkeeps _ _ _ _ hrealised _ hmem)

/-- The members of an accepted impl are all on the class whenever it is realised, exactly if none of
them is where the class defines its links (or realising it always fails). -/
theorem keepsMembers_iff {apply : Casing} {options : ClassOptions} {item : ItemImpl}
    (hnew : new apply options item = .ok definition)
    (hhook : ∀ ident, .hook ident ∉ definition.members) :
    definition.KeepsMembers ↔ definition.LeavesLinks := by
  constructor
  · intro hkeeps
    by_contra hlinks
    exact not_keepsMembers hnew hhook hlinks hkeeps
  · intro hlinks hooks guest state objects hrealised member hmem
    have hdeclared := declared hnew hhook hooks
    obtain ⟨ident, hconstant⟩ | ⟨state, hstate, other, hother, hne⟩ | ⟨hprototype, hstatics⟩ :=
      hlinks
    · exact absurd hconstant (hdeclared.not_constant_prototype hrealised ident)
    · exact absurd (hdeclared.requirements_eq hrealised hstate hother) hne
    · exact hdeclared.present hrealised hprototype hstatics hmem

/-- A method `fn ident(&self) -> …` with a helper attribute that names one role. -/
def exported (role : ClassRole) (receiver : ReceiverSyntax) (parameters : List ParameterRole)
    (ident : String) : ImplItem :=
  .method (some ⟨[role], none, none⟩)
    ⟨ident, receiver, parameters, false, false, false, .written, false⟩

def counter : ItemImpl :=
  ⟨"Counter", [exported .method .shared [] "increment", exported .staticMethod .none [] "zero"]⟩

theorem keepsMembers_iff_counter :
    ∃ definition, new (fun _ ident => ident) ⟨none, none⟩ counter = .ok definition ∧
      (definition.KeepsMembers ↔ definition.LeavesLinks) :=
  ⟨_, rfl,
    keepsMembers_iff (rfl : new (fun _ ident => ident) ⟨none, none⟩ counter = _) (by simp)⟩

/-- A class with a method called `constructor`. -/
def shadowed : ItemImpl := ⟨"Builder", [exported .method .shared [] "constructor"]⟩

theorem not_keepsMembers_shadowed :
    ∃ definition, new (fun _ ident => ident) ⟨none, none⟩ shadowed = .ok definition ∧
      (∀ ident, .hook ident ∉ definition.members) ∧ ¬ definition.KeepsMembers := by
  refine ⟨_, rfl, by simp,
    not_keepsMembers (rfl : new (fun _ ident => ident) ⟨none, none⟩ shadowed = _) (by simp) ?_⟩
  simp [LeavesLinks, requirementsOf, ClassMember.stateTypes, Callable.stateTypes,
    ClassMember.prototypeKey, Naming.member]

end HostClassDefinition

end GuestJs
