import GuestJs.Macros.HostClass
import GuestJs.Proof.Installation

/-!
# The entries of a host class

What each member of an impl adds to the namespaces of the emitted declaration. The registries of the
macro keep the entries of each object apart, so that merging them loses none.
-/

namespace GuestJs

open Results

/-! ### Entries that do not conflict -/

/-- What one statement of the emitted code adds to a namespace: an ordinary property, or one half of
an accessor. -/
inductive Half : Registration → PropertyDeclaration → Prop
  | data (declaration : Declaration) (writable enumerable configurable : Bool) :
      Half .data (.value declaration writable enumerable configurable)
  | get (get : FunctionDeclaration) : Half .get (.getter get)
  | set (set : FunctionDeclaration) : Half .set (.setter set)

structure Entry where
  key : PropertyKey
  registration : Registration
  property : PropertyDeclaration
  half : Half registration property

/-- The registry admits the one after the other. -/
def Entry.Compatible (first second : Entry) : Prop :=
  first.key = second.key →
    first.registration ≠ second.registration ∧ first.registration ≠ .data ∧
      second.registration ≠ .data

/-- A declared property has all that an entry asks for. -/
def Entry.KeptIn (entry : Entry) (declared : PropertyDeclaration) : Prop :=
  match entry.property, declared with
  | .accessor get set enumerable configurable, .accessor get' set' enumerable' configurable' =>
      (get.isSome → get' = get) ∧ (set.isSome → set' = set) ∧ enumerable' = enumerable ∧
        configurable' = configurable
  | property, declared => declared = property

/-- A declared property has nothing but what entries under its key ask for. -/
def Sourced (entries : List Entry) (key : PropertyKey) : PropertyDeclaration → Prop
  | .value declaration writable enumerable configurable =>
      ∃ entry ∈ entries, entry.key = key ∧ entry.registration = .data ∧
        entry.property = .value declaration writable enumerable configurable
  | .accessor get set enumerable configurable =>
      (get.isSome ∨ set.isSome) ∧ enumerable = false ∧ configurable = true ∧
      (get.isSome → ∃ entry ∈ entries, entry.key = key ∧ entry.registration = .get) ∧
      (set.isSome → ∃ entry ∈ entries, entry.key = key ∧ entry.registration = .set)

def NamespaceDeclaration.ofEntries (entries : List Entry) : NamespaceDeclaration :=
  entries.foldl (fun ns entry => ns.property entry.key entry.property) .new

structure Merged (entries : List Entry) (ns : NamespaceDeclaration) : Prop where
  nodup : (ns.properties.map Prod.fst).Nodup
  kept : ∀ entry ∈ entries, ∃ declared, ns.lookup entry.key = some declared ∧ entry.KeptIn declared
  sourced : ∀ key declared, ns.lookup key = some declared → Sourced entries key declared

theorem merged_new : Merged [] .new := by
  refine ⟨by simp [NamespaceDeclaration.new], by simp, ?_⟩
  intro key declared h
  rw [NamespaceDeclaration.lookup_new] at h
  cases h

theorem Entry.KeptIn.completed {entry : Entry} {declared : PropertyDeclaration}
    {get set : FunctionDeclaration} (h : entry.KeptIn declared)
    (hhalf : declared = .setter set ∨ declared = .getter get) :
    entry.KeptIn (.accessor (some get) (some set) false true) := by
  obtain ⟨key, registration, property, half⟩ := entry
  cases half with
  | data => obtain rfl | rfl := hhalf <;> cases h
  | get get' =>
      obtain rfl | rfl := hhalf
      · simp [Entry.KeptIn, PropertyDeclaration.getter, PropertyDeclaration.setter] at h
      · simpa [Entry.KeptIn, PropertyDeclaration.getter] using h
  | set set' =>
      obtain rfl | rfl := hhalf
      · simpa [Entry.KeptIn, PropertyDeclaration.setter] using h
      · simp [Entry.KeptIn, PropertyDeclaration.getter, PropertyDeclaration.setter] at h

/-- An entry that may follow the others completes an accessor if its key is there already. -/
theorem Sourced.merge {entries : List Entry} {entry : Entry} {declared : PropertyDeclaration}
    (h : Sourced entries entry.key declared)
    (hcompatible : ∀ earlier ∈ entries, earlier.Compatible entry) :
    ∃ get set, declared.merge entry.property = .accessor (some get) (some set) false true ∧
      ((entry.registration = .get ∧ entry.property = .getter get ∧ declared = .setter set) ∨
        (entry.registration = .set ∧ entry.property = .setter set ∧ declared = .getter get)) := by
  obtain ⟨key, registration, property, half⟩ := entry
  cases declared with
  | value declaration writable enumerable configurable =>
      obtain ⟨earlier, hmem, hkey, hdata, -⟩ := h
      exact absurd hdata (hcompatible earlier hmem hkey).2.1
  | accessor get set enumerable configurable =>
      obtain ⟨hsome, rfl, rfl, hget, hset⟩ := h
      have hother : ∀ role, (∃ earlier ∈ entries, earlier.key = key ∧ earlier.registration = role) →
          role ≠ registration ∧ registration ≠ .data := by
        rintro role ⟨earlier, hmem, hkey, rfl⟩
        exact ⟨(hcompatible earlier hmem hkey).1, (hcompatible earlier hmem hkey).2.2⟩
      cases half with
      | data =>
          obtain hsome | hsome := hsome
          · exact absurd rfl (hother _ (hget hsome)).2
          · exact absurd rfl (hother _ (hset hsome)).2
      | get get' =>
          cases get with
          | some _ => exact absurd rfl (hother _ (hget rfl)).1
          | none =>
              cases set with
              | none => simp at hsome
              | some set => exact ⟨get', set, rfl, .inl ⟨rfl, rfl, rfl⟩⟩
      | set set' =>
          cases set with
          | some _ => exact absurd rfl (hother _ (hset rfl)).1
          | none =>
              cases get with
              | none => simp at hsome
              | some get => exact ⟨get, set', rfl, .inr ⟨rfl, rfl, rfl⟩⟩

theorem Entry.keptIn_self (entry : Entry) : entry.KeptIn entry.property := by
  obtain ⟨key, registration, property, half⟩ := entry
  cases half <;> simp [Entry.KeptIn, PropertyDeclaration.getter, PropertyDeclaration.setter]

theorem Entry.sourced_self (entry : Entry) : Sourced [entry] entry.key entry.property := by
  obtain ⟨key, registration, property, half⟩ := entry
  cases half <;> simp [Sourced, PropertyDeclaration.getter, PropertyDeclaration.setter]

theorem Sourced.mono {entries entries' : List Entry} (hsub : entries ⊆ entries')
    {key : PropertyKey} {declared : PropertyDeclaration} (h : Sourced entries key declared) :
    Sourced entries' key declared := by
  cases declared with
  | value declaration writable enumerable configurable =>
      obtain ⟨entry, hmem, hrest⟩ := h
      exact ⟨entry, hsub hmem, hrest⟩
  | accessor get set enumerable configurable =>
      obtain ⟨hsome, henumerable, hconfigurable, hget, hset⟩ := h
      refine ⟨hsome, henumerable, hconfigurable, fun h => ?_, fun h => ?_⟩
      · obtain ⟨entry, hmem, hrest⟩ := hget h
        exact ⟨entry, hsub hmem, hrest⟩
      · obtain ⟨entry, hmem, hrest⟩ := hset h
        exact ⟨entry, hsub hmem, hrest⟩

theorem Merged.property {entries : List Entry} {ns : NamespaceDeclaration} {entry : Entry}
    (h : Merged entries ns) (hcompatible : ∀ earlier ∈ entries, earlier.Compatible entry) :
    Merged (entries ++ [entry]) (ns.property entry.key entry.property) := by
  refine ⟨NamespaceDeclaration.nodup_property h.nodup _ _, ?_, ?_⟩
  · intro kept hmem
    rw [NamespaceDeclaration.lookup_property]
    obtain hmem | hlast := List.mem_append.mp hmem
    · obtain ⟨declared, hdeclared, hkept⟩ := h.kept kept hmem
      by_cases hkey : kept.key = entry.key
      · obtain ⟨get, set, hmerge, hhalves⟩ :=
          (hkey ▸ h.sourced _ _ hdeclared).merge hcompatible
        refine ⟨_, by rw [if_pos hkey, ← hkey, hdeclared], ?_⟩
        rw [Option.map_some, Option.getD_some, hmerge]
        exact hkept.completed (hhalves.imp (·.2.2) (·.2.2))
      · exact ⟨declared, by rw [if_neg hkey, hdeclared], hkept⟩
    · obtain rfl := List.mem_singleton.mp hlast
      rw [if_pos rfl]
      cases hpresent : ns.lookup kept.key with
      | none => exact ⟨_, rfl, kept.keptIn_self⟩
      | some declared =>
          obtain ⟨get, set, hmerge, hhalves⟩ := (h.sourced _ _ hpresent).merge hcompatible
          refine ⟨_, rfl, ?_⟩
          rw [Option.map_some, Option.getD_some, hmerge]
          exact kept.keptIn_self.completed (hhalves.symm.imp (·.2.1) (·.2.1))
  · intro key declared hdeclared
    rw [NamespaceDeclaration.lookup_property] at hdeclared
    split at hdeclared
    next hkey =>
      subst hkey
      cases hpresent : ns.lookup entry.key with
      | none =>
          rw [hpresent] at hdeclared
          obtain rfl := Option.some.inj hdeclared
          exact entry.sourced_self.mono (by simp)
      | some present =>
          have hsourced := h.sourced _ _ hpresent
          obtain ⟨get, set, hmerge, hhalves⟩ := hsourced.merge hcompatible
          rw [hpresent, Option.map_some, Option.getD_some, hmerge] at hdeclared
          obtain rfl := Option.some.inj hdeclared
          refine ⟨.inl rfl, rfl, rfl, fun _ => ?_, fun _ => ?_⟩
          · obtain ⟨hrole, -, -⟩ | ⟨-, -, rfl⟩ := hhalves
            · exact ⟨entry, by simp, rfl, hrole⟩
            · obtain ⟨earlier, hmem, hearlier⟩ := hsourced.2.2.2.1 rfl
              exact ⟨earlier, by simp [hmem], hearlier⟩
          · obtain ⟨-, -, rfl⟩ | ⟨hrole, -, -⟩ := hhalves
            · obtain ⟨earlier, hmem, hearlier⟩ := hsourced.2.2.2.2 rfl
              exact ⟨earlier, by simp [hmem], hearlier⟩
            · exact ⟨entry, by simp, rfl, hrole⟩
    next => exact (h.sourced key declared hdeclared).mono (by simp)

theorem merged_ofEntries {entries : List Entry} (h : entries.Pairwise Entry.Compatible) :
    Merged entries (.ofEntries entries) := by
  have hfrom : ∀ later earlier ns, Merged earlier ns →
      (earlier ++ later).Pairwise Entry.Compatible →
      Merged (earlier ++ later)
        (later.foldl (fun ns entry => ns.property entry.key entry.property) ns) := by
    intro later
    induction later with
    | nil =>
        intro earlier ns hmerged _
        rwa [List.append_nil]
    | cons entry later ih =>
        intro earlier ns hmerged hpairwise
        have hcompatible : ∀ first ∈ earlier, first.Compatible entry := by
          intro first hfirst
          exact (List.pairwise_append.mp hpairwise).2.2 first hfirst entry List.mem_cons_self
        rw [List.append_cons] at hpairwise ⊢
        exact ih _ _ (hmerged.property hcompatible) hpairwise
  exact hfrom entries [] .new merged_new h

/-! ### What the macro accepts -/

theorem MemberKey.render_injective {first second : MemberKey} (h : first.render = second.render) :
    first = second := by
  cases first <;> cases second <;> simp_all [MemberKey.render]

namespace ClassMember

/-- What a member adds to the prototype. -/
def instanceEntry : ClassMember → Option Entry
  | .callable .method item key =>
      some ⟨key.render, .data, _, .data (.function ⟨item.ident, false⟩) true false true⟩
  | .callable .asyncMethod item key =>
      some ⟨key.render, .data, _, .data (.function ⟨item.ident, true⟩) true false true⟩
  | .callable .get item key => some ⟨key.render, .get, _, .get ⟨item.ident, false⟩⟩
  | .callable .set item key => some ⟨key.render, .set, _, .set ⟨item.ident, false⟩⟩
  | _ => none

/-- What a member adds to the constructor. -/
def staticEntry : ClassMember → Option Entry
  | .callable .staticMethod item key =>
      some ⟨key.render, .data, _, .data (.function ⟨item.ident, item.asynchronous⟩) true false true⟩
  | .constant ident key => some ⟨key.render, .data, _, .data (.value ident) false false false⟩
  | _ => none

end ClassMember

/-- A registry knows the keys of all entries, and no two of them conflict. -/
structure MemberRegistry.Covers (registry : MemberRegistry) (entries : List Entry) : Prop where
  known : ∀ entry ∈ entries, ∃ key, (key, entry.registration) ∈ registry.keys ∧
    key.render = entry.key
  compatible : entries.Pairwise Entry.Compatible

theorem MemberRegistry.insert_eq_ok {registry registry' : MemberRegistry} {key : MemberKey}
    {role : Registration} (h : registry.insert key role = .ok registry') :
    registry'.keys = registry.keys ++ [(key, role)] ∧
      ∀ previous, (key, previous) ∈ registry.keys →
        previous ≠ role ∧ previous ≠ .data ∧ role ≠ .data := by
  rw [MemberRegistry.insert] at h
  split at h
  next => cases h
  next hany =>
    cases h
    refine ⟨rfl, fun previous hmem => ?_⟩
    simp only [List.any_eq_true, not_exists, not_and] at hany
    simpa [and_assoc] using hany _ hmem

theorem MemberRegistry.Covers.insert {registry registry' : MemberRegistry} {entries : List Entry}
    {key : MemberKey} {role : Registration} (h : registry.Covers entries)
    (hinsert : registry.insert key role = .ok registry') :
    registry'.Covers entries ∧
      ∀ entry : Entry, entry.key = key.render → entry.registration = role →
        registry'.Covers (entries ++ [entry]) := by
  obtain ⟨hkeys, hfree⟩ := MemberRegistry.insert_eq_ok hinsert
  have hknown : ∀ entry ∈ entries, ∃ key, (key, entry.registration) ∈ registry'.keys ∧
      key.render = entry.key := by
    intro entry hentry
    obtain ⟨known, hmem, hrender⟩ := h.known entry hentry
    exact ⟨known, by rw [hkeys]; exact List.mem_append_left _ hmem, hrender⟩
  refine ⟨⟨hknown, h.compatible⟩, fun entry hkey hrole => ⟨?_, ?_⟩⟩
  · intro known hmem
    obtain hmem | hlast := List.mem_append.mp hmem
    · exact hknown known hmem
    · obtain rfl := List.mem_singleton.mp hlast
      exact ⟨key, by rw [hkeys, hrole]; exact List.mem_append_right _ List.mem_cons_self, hkey.symm⟩
  · refine List.pairwise_append.mpr ⟨h.compatible, List.pairwise_singleton _ _, ?_⟩
    intro earlier hearlier last hlast hsame
    obtain rfl := List.mem_singleton.mp hlast
    obtain ⟨known, hmem, hrender⟩ := h.known earlier hearlier
    obtain rfl : known = key := MemberKey.render_injective (by rw [hrender, hsame, hkey])
    exact hrole ▸ hfree _ hmem

structure Collected.Admitted (collected : Collected) : Prop where
  prototype : collected.prototype.Covers (collected.members.filterMap ClassMember.instanceEntry)
  statics : collected.statics.Covers (collected.members.filterMap ClassMember.staticEntry)

namespace HostClassDefinition

theorem collect_cases {apply : Casing} {rename : Option RenameRule}
    {collected collected' : Collected} {item : ImplItem}
    (h : collect apply rename collected item = .ok collected') :
    collected' = collected ∨
    (∃ ident, collected' = { collected with members := collected.members ++ [.hook ident] }) ∨
    (∃ role callable key, collectCallable collected role callable key = .ok collected') ∨
    ∃ ident key statics, collected.statics.insert key .data = .ok statics ∧
      collected' =
        { collected with members := collected.members ++ [.constant ident key], statics } := by
  cases item with
  | method helpers signature =>
      cases helpers with
      | none => exact .inl (Except.ok.inj h).symm
      | some options =>
          obtain ⟨role, hrole, h⟩ := bind_eq_ok.mp h
          split at h
          next =>
            obtain ⟨hook, hhook, h⟩ := bind_eq_ok.mp h
            obtain ⟨ident, rfl⟩ : ∃ ident, hook = .hook ident := by
              simp only [NamespaceHook.new] at hhook
              grind
            exact .inr (.inl ⟨ident, (pure_eq_ok.mp h).symm⟩)
          next => cases h
          next =>
            obtain ⟨key, -, h⟩ := bind_eq_ok.mp h
            obtain ⟨callable, -, h⟩ := bind_eq_ok.mp h
            obtain ⟨-, -, h⟩ := bind_eq_ok.mp h
            obtain ⟨-, -, h⟩ := bind_eq_ok.mp h
            exact .inr (.inr (.inl ⟨role, callable, key, h⟩))
  | const helpers ident =>
      cases helpers with
      | none => exact .inl (Except.ok.inj h).symm
      | some options =>
          obtain ⟨role, -, h⟩ := bind_eq_ok.mp h
          split at h
          next => cases h
          next =>
            obtain ⟨-, -, h⟩ := bind_eq_ok.mp h
            obtain ⟨key, -, h⟩ := bind_eq_ok.mp h
            obtain ⟨statics, hstatics, h⟩ := bind_eq_ok.mp h
            exact .inr (.inr (.inr ⟨ident, key, statics, hstatics, (pure_eq_ok.mp h).symm⟩))

theorem admitted_collectCallable {collected collected' : Collected} (h : collected.Admitted)
    {role : ClassRole} {callable : Callable} {key : MemberKey}
    (hcollect : collectCallable collected role callable key = .ok collected') :
    collected'.Admitted := by
  obtain ⟨hprototype, hstatics⟩ := h
  cases role with
  | constructor =>
      obtain rfl := Except.ok.inj hcollect
      constructor
      · simpa [List.filterMap_cons, ClassMember.instanceEntry] using hprototype
      · simpa [List.filterMap_cons, ClassMember.staticEntry] using hstatics
  | staticMethod =>
      obtain ⟨statics, hinsert, hcollect⟩ := bind_eq_ok.mp hcollect
      obtain rfl := pure_eq_ok.mp hcollect
      constructor
      · simpa [List.filterMap_cons, ClassMember.instanceEntry] using hprototype
      · simpa [List.filterMap_cons, ClassMember.staticEntry] using
          (hstatics.insert hinsert).2 _ rfl rfl
  | _ =>
      obtain ⟨prototype, hinsert, hcollect⟩ := bind_eq_ok.mp hcollect
      obtain rfl := pure_eq_ok.mp hcollect
      constructor
      · first
          | simpa [List.filterMap_cons, ClassMember.instanceEntry] using
              (hprototype.insert hinsert).2 _ rfl rfl
          | simpa [List.filterMap_cons, ClassMember.instanceEntry] using
              (hprototype.insert hinsert).1
      · simpa [List.filterMap_cons, ClassMember.staticEntry] using hstatics

theorem admitted_collect {apply : Casing} {rename : Option RenameRule}
    {collected collected' : Collected} {item : ImplItem} (h : collected.Admitted)
    (hcollect : collect apply rename collected item = .ok collected') : collected'.Admitted := by
  obtain rfl | ⟨ident, rfl⟩ | ⟨role, callable, key, hcallable⟩ |
    ⟨ident, key, statics, hinsert, rfl⟩ := collect_cases hcollect
  · exact h
  · constructor
    · simpa [List.filterMap_cons, ClassMember.instanceEntry] using h.prototype
    · simpa [List.filterMap_cons, ClassMember.staticEntry] using h.statics
  · exact admitted_collectCallable h hcallable
  · constructor
    · simpa [List.filterMap_cons, ClassMember.instanceEntry] using h.prototype
    · simpa [List.filterMap_cons, ClassMember.staticEntry] using
        (h.statics.insert hinsert).2 _ rfl rfl

/-- The entries of an accepted impl do not conflict, on either object. -/
theorem new_compatible {apply : Casing} {options : ClassOptions} {item : ItemImpl}
    {definition : HostClassDefinition} (h : new apply options item = .ok definition) :
    (definition.members.filterMap ClassMember.instanceEntry).Pairwise Entry.Compatible ∧
      (definition.members.filterMap ClassMember.staticEntry).Pairwise Entry.Compatible := by
  obtain ⟨collected, hcollected, hnew⟩ := bind_eq_ok.mp h
  obtain rfl := pure_eq_ok.mp hnew
  have hempty : Collected.Admitted ⟨[], .new, .new, false⟩ :=
    ⟨⟨by simp, .nil⟩, ⟨by simp, .nil⟩⟩
  have hadmitted := foldlM_invariant (fun _ _ _ => admitted_collect) hempty hcollected
  exact ⟨hadmitted.prototype.compatible, hadmitted.statics.compatible⟩

/-! ### The emitted declaration -/

/-- The statements of members without a hook put their entries into the two namespaces. -/
theorem render_entries (hooks : ClassMember.Hooks) {members : List ClassMember}
    (hhook : ∀ ident, .hook ident ∉ members) (declaration : ClassDeclaration)
    (ns : NamespaceDeclaration) :
    let built := members.foldl (fun built member => member.render hooks built) (declaration, ns)
    built.1.prototype = (members.filterMap ClassMember.instanceEntry).foldl
        (fun ns entry => ns.property entry.key entry.property) declaration.prototype ∧
      built.2 = (members.filterMap ClassMember.staticEntry).foldl
        (fun ns entry => ns.property entry.key entry.property) ns ∧
      built.1.requirements = declaration.requirements ∧ built.1.statics = declaration.statics := by
  induction members generalizing declaration ns with
  | nil => exact ⟨rfl, rfl, rfl, rfl⟩
  | cons member members ih =>
      have hrest : ∀ ident, ClassMember.hook ident ∉ members := fun ident hmem =>
        hhook ident (List.mem_cons_of_mem _ hmem)
      simp only [List.foldl_cons]
      have hmember : ∀ ident, member ≠ .hook ident := fun ident heq =>
        hhook ident (heq ▸ List.mem_cons_self)
      cases member with
      | hook ident => exact absurd rfl (hmember ident)
      | constant ident key => exact ih hrest _ _
      | callable role callable key =>
          cases role with
          | staticMethod =>
              obtain ⟨body, hasReceiver, parameters, asynchronous⟩ := callable
              cases asynchronous with
              | true => exact ih hrest _ _
              | false => exact ih hrest _ _
          | _ => exact ih hrest _ _

theorem instanceEntry_of_isStatic {member : ClassMember} (h : member.isStatic = true) :
    member.instanceEntry = none := by
  unfold ClassMember.isStatic at h
  split at h <;> first | rfl | cases h

theorem staticEntry_of_not_isStatic {member : ClassMember} (h : member.isStatic = false) :
    member.staticEntry = none := by
  unfold ClassMember.staticEntry
  split <;> first | rfl | cases h

/-- Emitting the members of the prototype first keeps the order of the entries on each object. -/
theorem filterMap_split (members : List ClassMember) :
    (members.filter (!·.isStatic) ++ members.filter (·.isStatic)).filterMap
        ClassMember.instanceEntry = members.filterMap ClassMember.instanceEntry ∧
      (members.filter (!·.isStatic) ++ members.filter (·.isStatic)).filterMap
        ClassMember.staticEntry = members.filterMap ClassMember.staticEntry := by
  have hinstance : ∀ member : ClassMember,
      (if (!member.isStatic) = true then member.instanceEntry else none) = member.instanceEntry ∧
        (if member.isStatic = true then member.instanceEntry else none) = none := by
    intro member
    cases hstatic : member.isStatic with
    | true => simp [instanceEntry_of_isStatic hstatic]
    | false => simp
  have hstatics : ∀ member : ClassMember,
      (if (!member.isStatic) = true then member.staticEntry else none) = none ∧
        (if member.isStatic = true then member.staticEntry else none) = member.staticEntry := by
    intro member
    cases hstatic : member.isStatic with
    | true => simp
    | false => simp [staticEntry_of_not_isStatic hstatic]
  rw [List.filterMap_append, List.filterMap_append, List.filterMap_filter, List.filterMap_filter,
    List.filterMap_filter, List.filterMap_filter]
  simp only [fun member => (hinstance member).1, fun member => (hinstance member).2,
    fun member => (hstatics member).1, fun member => (hstatics member).2]
  simp

theorem foldl_require (required : List String) (declaration : ClassDeclaration) :
    required.foldl ClassDeclaration.require declaration =
      { declaration with requirements := declaration.requirements ++ required } := by
  induction required generalizing declaration with
  | nil => simp
  | cons state required ih => simp [ih, ClassDeclaration.require]

theorem declaration_eq {definition : HostClassDefinition} (hooks : ClassMember.Hooks)
    (hhook : ∀ ident, .hook ident ∉ definition.members) :
    (definition.declaration hooks).prototype =
        .ofEntries (definition.members.filterMap ClassMember.instanceEntry) ∧
      (definition.declaration hooks).statics =
        .ofEntries (definition.members.filterMap ClassMember.staticEntry) ∧
      (definition.declaration hooks).requirements = definition.requirements := by
  have hhook' : ∀ ident, .hook ident ∉
      definition.members.filter (!·.isStatic) ++ definition.members.filter (·.isStatic) := by
    intro ident hmem
    simp only [List.mem_append, List.mem_filter] at hmem
    exact hhook ident (hmem.elim (·.1) (·.1))
  obtain ⟨hinstances, hstatics⟩ := filterMap_split definition.members
  have hentries := render_entries hooks hhook' (definition.requirements.foldl
    ClassDeclaration.require (.new definition.name)) .new
  rw [hinstances, hstatics] at hentries
  rw [declaration]
  generalize List.foldl (fun built member => ClassMember.render hooks member built) _ _ = built
    at hentries ⊢
  obtain ⟨declared, ns⟩ := built
  obtain ⟨hprototype, hns, hrequirements, hunset⟩ := hentries
  simp only [foldl_require] at hprototype hns hrequirements hunset ⊢
  cases hany : definition.members.any (·.isStatic) with
  | true => exact ⟨hprototype, hns, hrequirements⟩
  | false =>
      have hnone : definition.members.filterMap ClassMember.staticEntry = [] := by
        rw [List.filterMap_eq_nil_iff]
        intro member hmem
        exact staticEntry_of_not_isStatic (by simpa using List.any_eq_false.mp hany member hmem)
      exact ⟨hprototype, by rw [hnone]; exact hunset, hrequirements⟩

end HostClassDefinition

end GuestJs
