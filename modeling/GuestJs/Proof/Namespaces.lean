import GuestJs.Host.Namespaces
import GuestJs.Library.Loops
import GuestJs.Proof.Installation

/-!
# What a namespace declares and installs

The properties of a namespace are the merged declarations of its keys. All of them are realised
before the first is defined, so a failure among them is the end of the installation, in the state
that realising has led to.
-/

namespace GuestJs.Declarations

open QuickJs (Engine GuestCall Answer Session)

variable {E : Engine}

namespace PropertyDeclaration

/-- A value replaces whatever was declared before it. -/
theorem fold_value (values : List (PropertyDeclaration E)) (declaration : Declaration E)
    (writable enumerable configurable : Bool) :
    Merged.fold merge (values ++ [.value declaration writable enumerable configurable]) =
      some (.value declaration writable enumerable configurable) := by
  rw [Merged.fold_concat]
  cases Merged.fold merge values with
  | none => rfl
  | some held => cases held <;> rfl

theorem merge_getter_setter (held : PropertyDeclaration E) (get set : FunctionDeclaration) :
    (held.merge (getter get)).merge (setter set) = .accessor (some get) (some set) false true := by
  cases held <;> rfl

theorem merge_setter_getter (held : PropertyDeclaration E) (get set : FunctionDeclaration) :
    (held.merge (setter set)).merge (getter get) = .accessor (some get) (some set) false true := by
  cases held <;> rfl

/-- A getter and a setter make one accessor, over whatever was declared before them. -/
theorem fold_getter_setter (values : List (PropertyDeclaration E)) (get set : FunctionDeclaration) :
    Merged.fold merge (values ++ [getter get, setter set]) =
        some (.accessor (some get) (some set) false true) ∧
      Merged.fold merge (values ++ [setter set, getter get]) =
        some (.accessor (some get) (some set) false true) := by
  rw [← List.singleton_append, ← List.append_assoc, Merged.fold_concat, Merged.fold_concat,
    ← List.singleton_append (x := setter set), ← List.append_assoc, Merged.fold_concat,
    Merged.fold_concat]
  cases Merged.fold merge values with
  | none => exact ⟨rfl, rfl⟩
  | some held =>
      exact ⟨congrArg some (merge_getter_setter held get set),
        congrArg some (merge_setter_getter held get set)⟩

end PropertyDeclaration

namespace NamespaceDeclaration

theorem properties_declared (declarations : List (PropertyKey × PropertyDeclaration E)) :
    (declared declarations).properties = Merged.declare PropertyDeclaration.merge declarations := by
  induction declarations using List.reverseRecOn with
  | nil => rfl
  | append_singleton declarations last ih =>
      rw [Merged.declare_concat, ← ih, declared, List.foldl_concat]
      rfl

/-- **Nothing is defined.** A property that cannot be realised ends the installation with its error
and in the state its realisation has left, whatever the target is. -/
theorem install_of_error {environment : GuestCall → Session E → Answer × Session E}
    {ns : NamespaceDeclaration E} {state : HostState} {session session' failed : Session E}
    {before after : List (PropertyKey × PropertyDeclaration E)}
    {entry : PropertyKey × PropertyDeclaration E} {realised : List (Value × Property)} {error : Error}
    (hentry : ns.properties = before ++ entry :: after)
    (hbefore : (before.mapM (realiseEntry state) session).resolve environment =
      (.ok realised, session'))
    (hfails : (realiseEntry state entry session').resolve environment = (.error error, failed))
    (target : Value) :
    (ns.install state target session).resolve environment = (.error error, failed) := by
  rw [install, hentry]
  exact Process.resolve_bind_of_error (Process.resolve_mapM_of_error hbefore hfails)

/-- **Declared properties.** The keys are those that were declared, once each and in the order of
their first declarations; what a key has is the fold of `merge` over its own declarations, in which a
value replaces what was there and a getter and a setter combine in either order; declarations of
different keys may change places. And where a property cannot be realised, after those before it have
been, the installation ends there: no target has anything defined on it. -/
theorem declared_merges (declarations : List (PropertyKey × PropertyDeclaration E)) :
    ((declared declarations).properties.map Prod.fst).Nodup ∧
    (declared declarations).properties.map Prod.fst = (declarations.map Prod.fst).eraseDups ∧
    (∀ key, (declared declarations).properties.lookup key =
      Merged.fold PropertyDeclaration.merge (Merged.own key declarations)) ∧
    (∀ (values : List (PropertyDeclaration E)) declaration writable enumerable configurable,
      Merged.fold PropertyDeclaration.merge
          (values ++ [.value declaration writable enumerable configurable]) =
        some (.value declaration writable enumerable configurable)) ∧
    (∀ (values : List (PropertyDeclaration E)) get set,
      Merged.fold PropertyDeclaration.merge (values ++ [.getter get, .setter set]) =
          some (.accessor (some get) (some set) false true) ∧
        Merged.fold PropertyDeclaration.merge (values ++ [.setter set, .getter get]) =
          some (.accessor (some get) (some set) false true)) ∧
    (∀ before first second after, declarations = before ++ first :: second :: after →
      first.1 ≠ second.1 → (declared declarations).properties.Perm
        (declared (before ++ second :: first :: after)).properties) ∧
    ∀ (environment : GuestCall → Session E → Answer × Session E) state before entry after,
      (declared declarations).properties = before ++ entry :: after →
      ∀ session session' failed realised error,
        (before.mapM (realiseEntry state) session).resolve environment = (.ok realised, session') →
        (realiseEntry state entry session').resolve environment = (.error error, failed) →
        ∀ target, ((declared declarations).install state target session).resolve environment =
          (.error error, failed) := by
  refine ⟨?_, ?_, ?_, PropertyDeclaration.fold_value, PropertyDeclaration.fold_getter_setter, ?_, ?_⟩
  · rw [properties_declared]
    exact Merged.nodup_declare declarations
  · rw [properties_declared]
    exact Merged.keys_declare declarations
  · intro key
    rw [properties_declared]
    exact Merged.lookup_declare declarations key
  · rintro before first second after rfl hne
    rw [properties_declared, properties_declared]
    exact Merged.declare_swap hne
  · intro environment state before entry after hentry session session' failed realised error hbefore
      hfails target
    exact install_of_error hentry hbefore hfails target

end NamespaceDeclaration

/-! ### The declarations of a class -/

variable {function : GuestJs.FunctionDeclaration → FunctionDeclaration}
  {item : String → Declaration E}

theorem PropertyDeclaration.ofClass_merge (held later : GuestJs.PropertyDeclaration) :
    (ofClass function item (held.merge later) : PropertyDeclaration E) =
      (ofClass function item held).merge (ofClass function item later) := by
  rcases held with ⟨_ | _, _, _, _⟩ | ⟨get, set, _, _⟩ <;>
    rcases later with ⟨_ | _, _, _, _⟩ | ⟨laterGet, laterSet, _, _⟩ <;> try rfl
  rcases laterGet with _ | _ <;> rcases laterSet with _ | _ <;> rfl

/-- A member of a class is declared as it is on any namespace. -/
theorem NamespaceDeclaration.ofClass_property (ns : GuestJs.NamespaceDeclaration) (key : PropertyKey)
    (property : GuestJs.PropertyDeclaration) :
    (ofClass function item (ns.property key property) : NamespaceDeclaration E) =
      (ofClass function item ns).property key (.ofClass function item property) := by
  refine congrArg NamespaceDeclaration.mk ?_
  rw [GuestJs.NamespaceDeclaration.property, GuestJs.NamespaceDeclaration.insert_eq_upsert]
  exact Merged.upsert_map PropertyDeclaration.ofClass_merge

end GuestJs.Declarations
