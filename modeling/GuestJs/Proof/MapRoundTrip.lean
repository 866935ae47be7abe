import GuestJs.Proof.Deserialization

/-!
# Maps with string keys, there and back

A map is made an object by assignments, and is read from the own keys of the object. The two agree on
every key but those that a prototype catches: of these the object knows nothing afterwards.
-/

namespace GuestJs.Marshal

open QuickJs Process

variable {E : Engine} {α : Type} {platform : Platform E} {R : Realm platform}

/-! ## Conversions that go there and back -/

/-- Nothing that is there changes, and no object gets a property of the name that it lacks. -/
structure Leaves (A : Absence R) (name : String) (s t : Session E) : Prop where
  onward : Onward R.toStore s t
  lacks : ∀ id, A.lacks s.heap id name → A.lacks t.heap id name

/-- The conversions of a type: a value that is converted comes back, whatever happens meanwhile to
what was there before. -/
structure RoundTrips (A : Absence R) (name : String) (environment : Environment E)
    (toGuest : α → Op E Value) (fromGuest : Value → Op E α) : Prop where
  leaves : ∀ a s value t, (toGuest a s).resolve environment = (.ok value, t) → Leaves A name s t
  back : ∀ a s, s.loans.settled = .ok () →
    (toGuest a).Resolves environment s fun value t => ∀ (changed : ObjectId → Prop) u,
      (∀ id, changed id → R.contents s.heap id ≠ none) → OnwardBut R.toStore changed t u →
      (fromGuest value).Resolves environment u fun found u' => found = a ∧ Onward R.toStore u u'

/-- Guest code gives no object a property of the name that it lacks. -/
def Spares (A : Absence R) (name : String) (environment : Environment E) : Prop :=
  ∀ query s id, A.lacks s.heap id name → A.lacks (environment query s).2.heap id name

/-- The map comes back from the object that is made of it. -/
def MapRoundTrips (environment : Environment E) (toGuest : α → Op E Value)
    (fromGuest : Value → Op E α) (entries : List (String × α)) (s : Session E) : Prop :=
  (mapToGuest toGuest entries).Resolves environment s fun object t =>
    (mapFromGuest fromGuest object).Resolves environment t fun found _ => found.Perm entries

variable {A : Absence R} {name : String} {environment : Environment E} {toGuest : α → Op E Value}
  {fromGuest : Value → Op E α} {s t u : Session E} {id : ObjectId}
  {properties : List (String × Value)} {entry : String × α} {entries : List (String × α)}

/-! ## Names that are assigned -/

/-- The value reads as the other, whatever more is done to the object. -/
def ReadsBack (R : Realm platform) (environment : Environment E) (fromGuest : Value → Op E α)
    (id : ObjectId) (t : Session E) (value : Value) (a : α) : Prop :=
  ∀ u, OnwardBut R.toStore (· = id) t u →
    (fromGuest value).Resolves environment u fun found u' => found = a ∧ Onward R.toStore u u'

theorem ReadsBack.onward {value : Value} {a : α} (h : ReadsBack R environment fromGuest id t value a)
    (hmove : OnwardBut R.toStore (· = id) t u) : ReadsBack R environment fromGuest id u value a :=
  fun _ hlast => h _ (hmove.trans hlast)

theorem resolves_putEntry (hround : RoundTrips A name environment toGuest fromGuest)
    (hsettled : s.loans.settled = .ok ())
    (hproperties : R.contents s.heap id = some (.record properties))
    (hcaught : ¬ R.caught s.heap entry.1) (hkey : entry.1 ∉ properties.map Prod.fst) :
    (putEntry toGuest (.object id) entry).Resolves environment s fun object t =>
      object = .object id ∧ OnwardBut R.toStore (· = id) s t ∧ ∃ value,
        R.contents t.heap id = some (.record (properties ++ [(entry.1, value)])) ∧
        ReadsBack R environment fromGuest id t value entry.2 := by
  refine resolves_bind.mpr ((yields_newString R entry.1).resolves.mono ?_)
  rintro _ s₁ ⟨rfl, hmove₁⟩
  have hproperties₁ := hmove₁.contents hproperties
  obtain ⟨value, s₂, hvalue, hback⟩ := hround.back entry.2 s₁ (hmove₁.settled hsettled)
  have hmove₂ : Onward R.toStore s₁ s₂ := (hround.leaves _ _ _ _ hvalue).onward
  have hmove : Onward R.toStore s s₂ := hmove₁.trans hmove₂
  have hset := yields_set R entry.1 value (hmove.settled hsettled)
    (hmove₂.contents hproperties₁) (mt (hmove.heap.caught entry.1).mp hcaught) hkey
  refine resolves_bind.mpr ⟨value, s₂, hvalue, resolves_bind.mpr (hset.resolves.mono ?_)⟩
  rintro _ t ⟨hcontents, hlast⟩
  refine resolves_pure.mpr ⟨rfl, hmove.but.trans hlast, value, hcontents, fun u hu => ?_⟩
  refine hback (· = id) u ?_ (hlast.trans hu)
  rintro _ rfl
  rw [hproperties₁]
  exact Option.some_ne_none _

/-- By induction on the entries: the object has the entries before, and gets those that are left. -/
theorem resolves_putEntries (hround : RoundTrips A name environment toGuest fromGuest)
    (hsettled : s.loans.settled = .ok ())
    (hproperties : R.contents s.heap id = some (.record properties))
    (hcaught : ∀ entry ∈ entries, ¬ R.caught s.heap entry.1)
    (hkeys : (properties.map Prod.fst ++ entries.map Prod.fst).Nodup) :
    (entries.foldlM (putEntry toGuest) (.object id)).Resolves environment s fun object t =>
      object = .object id ∧ OnwardBut R.toStore (· = id) s t ∧ ∃ added,
        R.contents t.heap id = some (.record (properties ++ added)) ∧
        List.Forall₂ (fun property entry => property.1 = entry.1 ∧
          ReadsBack R environment fromGuest id t property.2 entry.2) added entries := by
  induction entries generalizing s properties with
  | nil =>
      refine resolves_pure.mpr ⟨rfl, .refl, [], ?_, .nil⟩
      rwa [List.append_nil]
  | cons entry entries ih =>
      have hkey : entry.1 ∉ properties.map Prod.fst := fun hmem =>
        (List.nodup_append.mp hkeys).2.2 _ hmem _ List.mem_cons_self rfl
      rw [List.foldlM_cons]
      refine resolves_bind.mpr ((resolves_putEntry hround hsettled hproperties
        (hcaught _ List.mem_cons_self) hkey).mono ?_)
      rintro _ s₁ ⟨rfl, hmove, value, hcontents, hback⟩
      have hkeys₁ : ((properties ++ [(entry.1, value)]).map Prod.fst ++
          entries.map Prod.fst).Nodup := by
        rw [List.map_append, List.append_assoc]
        exact hkeys
      refine (ih (hmove.settled hsettled) hcontents
        (fun other hmem => mt (hmove.heap.caught other.1).mp
          (hcaught other (List.mem_cons_of_mem _ hmem))) hkeys₁).mono ?_
      rintro _ t ⟨rfl, hmove', added, hadded, hall⟩
      refine ⟨rfl, hmove.trans hmove', (entry.1, value) :: added, ?_,
        .cons ⟨rfl, hback.onward hmove'⟩ hall⟩
      rw [hadded, List.append_assoc, List.singleton_append]

theorem resolves_convertEntries {found : List (String × Value)}
    (h : List.Forall₂ (fun property entry => property.1 = entry.1 ∧
      ReadsBack R environment fromGuest id t property.2 entry.2) found entries)
    (hmove : OnwardBut R.toStore (· = id) t u) :
    ((found.map fun property => (Value.string property.1, property.2)).mapM
      (convertEntry stringFromGuest fromGuest)).Resolves environment u fun pairs _ =>
        pairs = entries := by
  induction h generalizing u with
  | nil => exact resolves_pure.mpr rfl
  | @cons property entry found entries hentry _ ih =>
      obtain ⟨hkey, hback⟩ := hentry
      rw [List.map_cons, List.mapM_cons]
      refine resolves_bind.mpr (resolves_bind.mpr
        ((yields_stringFromGuest R property.1).resolves.mono ?_))
      rintro _ u₁ ⟨rfl, hmove₁⟩
      have hmove₁ := hmove.trans hmove₁.but
      refine resolves_bind.mpr ((hback u₁ hmove₁).mono ?_)
      rintro _ u₂ ⟨rfl, hmove₂⟩
      refine resolves_pure.mpr (resolves_bind.mpr ((ih (hmove₁.trans hmove₂.but)).mono ?_))
      rintro _ _ rfl
      exact resolves_pure.mpr (by rw [hkey])

theorem mapRoundTrips_of_not_caught (hround : RoundTrips A name environment toGuest fromGuest)
    (hsettled : s.loans.settled = .ok ()) (hkeys : (entries.map Prod.fst).Nodup)
    (hcaught : ∀ entry ∈ entries, ¬ R.caught s.heap entry.1) :
    MapRoundTrips environment toGuest fromGuest entries s := by
  refine resolves_bind.mpr ((yields_newObject R).resolves.mono ?_)
  rintro _ s₁ ⟨id, rfl, hnew, hempty, hmove₁⟩
  refine (resolves_putEntries hround (hmove₁.settled hsettled) hempty
    (fun entry hmem => mt (hmove₁.heap.caught entry.1).mp (hcaught entry hmem)) hkeys).mono ?_
  rintro _ t ⟨rfl, hmove₂, added, hadded, hall⟩
  have hsame : added.map Prod.fst = entries.map Prod.fst :=
    Association.keys_eq_of_forall₂ (hall.imp fun _ _ h => h.1)
  have hread := yields_entries R (hmove₂.settled (hmove₁.settled hsettled)) hadded
    (by rw [List.nil_append, hsame]; exact hkeys)
  refine resolves_bind.mpr (hread.resolves.mono ?_)
  rintro _ u ⟨⟨found, hperm, rfl⟩, hmove₃⟩
  obtain ⟨entries', hentries', hperm'⟩ := List.perm_comp_forall₂ hperm hall
  refine resolves_bind.mpr ((resolves_convertEntries hentries' hmove₃.but).mono ?_)
  rintro _ _ rfl
  refine resolves_pure.mpr ?_
  rw [StdMap.collect, foldl_insert_of_nodup, List.nil_append]
  · exact hperm'
  · rw [List.nil_append]
    exact (hperm'.map Prod.fst).nodup_iff.mpr hkeys

/-! ## A name that is caught -/

theorem lacks_of_newString {text : String} {value : Value}
    (hrun : (newString text s).resolve environment = (.ok value, t))
    (h : A.lacks s.heap id name) : A.lacks t.heap id name := by
  obtain ⟨heap, hdone, -⟩ := R.newString s.heap text
  rw [newString, resolve_capture_ok, request_of_done hdone] at hrun
  cases hrun
  exact A.newString s.heap text _ heap id name hdone h

theorem resolve_settled_ok {a : Unit} :
    ((settled : Op E Unit) s).resolve environment = (.ok a, t) ↔
      s.loans.settled = .ok () ∧ s = t := by
  rw [settled, check_apply, Resumption.resolve, Prod.mk.injEq]

theorem lacks_of_set {other : String} {value : Value} {a : Unit}
    (hspares : Spares A name environment)
    (hother : other = name →
      R.caught s.heap name ∧ ∃ properties, R.contents s.heap id = some (.record properties))
    (hrun : (set (.object id) (.string other) value s).resolve environment = (.ok a, t))
    (h : A.lacks s.heap id name) : s.loans.settled = .ok () ∧ A.lacks t.heap id name := by
  obtain ⟨_, _, hsettled, hset⟩ := resolve_bind_ok.mp hrun
  obtain ⟨hloans, rfl⟩ := resolve_settled_ok.mp hsettled
  rw [resolve_capture_ok] at hset
  obtain ⟨_, _, hobject, hrequest⟩ := resolve_bind_ok.mp hset
  obtain ⟨rfl, rfl⟩ := resolve_pure_ok.mp hobject
  have hguarantees : (request (.set (.object id) (.string other) value) s).Guarantees
      (fun s s' => A.lacks s.heap id name → A.lacks s'.heap id name)
      (fun s _ s' => A.lacks s.heap id name → A.lacks s'.heap id name) s :=
    Resumption.Guarantees.zoom (R := fun h h' => A.lacks h id name → A.lacks h' id name)
      (Q := fun h _ h' => A.lacks h id name → A.lacks h' id name) (fun _ _ h => h)
      (fun _ _ _ h => h) (A.set s.heap id name other value hother)
  have hlast := hguarantees.resolve (I := fun s => A.lacks s.heap id name)
    (fun query s' h => hspares query s' id h) h
  rw [hrequest] at hlast
  exact ⟨hloans, hlast⟩

/-- An entry that is put under another name, or under one that is caught, leaves the name absent. -/
theorem lacks_of_putEntry (hround : RoundTrips A name environment toGuest fromGuest)
    (hspares : Spares A name environment)
    (hentry : entry.1 = name →
      R.caught s.heap name ∧ ∃ properties, R.contents s.heap id = some (.record properties))
    {object : Value}
    (hrun : (putEntry toGuest (.object id) entry s).resolve environment = (.ok object, t))
    (h : A.lacks s.heap id name) :
    s.loans.settled = .ok () ∧ object = .object id ∧ A.lacks t.heap id name := by
  obtain ⟨key, s₁, hkey, hrest⟩ := resolve_bind_ok.mp hrun
  obtain ⟨rfl, hmove₁⟩ := (yields_newString R entry.1).resolves.of_eq hkey
  obtain ⟨value, s₂, hvalue, hrest⟩ := resolve_bind_ok.mp hrest
  have hleaves := hround.leaves _ _ _ _ hvalue
  have hmove : Onward R.toStore s s₂ := hmove₁.trans hleaves.onward
  obtain ⟨_, s₃, hset, hlast⟩ := resolve_bind_ok.mp hrest
  obtain ⟨rfl, rfl⟩ := resolve_pure_ok.mp hlast
  have hentry₂ : entry.1 = name → R.caught s₂.heap name ∧
      ∃ properties, R.contents s₂.heap id = some (.record properties) := by
    intro heq
    obtain ⟨hcaught, properties, hproperties⟩ := hentry heq
    exact ⟨(hmove.heap.caught name).mpr hcaught, properties, hmove.contents hproperties⟩
  obtain ⟨hloans, hlacks⟩ := lacks_of_set hspares hentry₂ hset
    (hleaves.lacks id (lacks_of_newString hkey h))
  rw [hmove.loans] at hloans
  exact ⟨hloans, rfl, hlacks⟩

theorem lacks_of_putEntries (hround : RoundTrips A name environment toGuest fromGuest)
    (hspares : Spares A name environment) (hentries : ∀ entry ∈ entries, entry.1 ≠ name)
    {object : Value}
    (hrun : (entries.foldlM (putEntry toGuest) (.object id) s).resolve environment = (.ok object, t))
    (h : A.lacks s.heap id name) : object = .object id ∧ A.lacks t.heap id name := by
  induction entries generalizing s with
  | nil =>
      obtain ⟨rfl, rfl⟩ := resolve_pure_ok.mp hrun
      exact ⟨rfl, h⟩
  | cons entry entries ih =>
      rw [List.foldlM_cons] at hrun
      obtain ⟨_, s₁, hfirst, hrest⟩ := resolve_bind_ok.mp hrun
      have hne := hentries entry List.mem_cons_self
      obtain ⟨-, rfl, hlacks⟩ := lacks_of_putEntry hround hspares (fun heq => absurd heq hne) hfirst h
      exact ih (fun other hmem => hentries other (List.mem_cons_of_mem _ hmem)) hrest hlacks

/-- Of the names that are put, the object lacks in the end the one that is caught: by the time it is
put, the object is a record still, and afterwards the others do not bring it. -/
theorem lacks_of_filled (hround : RoundTrips A name environment toGuest fromGuest)
    (hspares : Spares A name environment) (hsettled : s.loans.settled = .ok ())
    (hempty : R.contents s.heap id = some (.record []))
    (hcaught : ∀ key, R.caught s.heap key ↔ key = name) (hkeys : (entries.map Prod.fst).Nodup)
    {object : Value}
    (hrun : (entries.foldlM (putEntry toGuest) (.object id) s).resolve environment =
      (.ok object, t)) :
    object = .object id ∧ A.lacks t.heap id name := by
  have hlacks : A.lacks s.heap id name := A.record _ _ _ _ hempty List.not_mem_nil
  by_cases hname : name ∈ entries.map Prod.fst
  · obtain ⟨entry, hentry, rfl⟩ := List.mem_map.mp hname
    obtain ⟨before, after, rfl⟩ := List.append_of_mem hentry
    rw [List.map_append, List.map_cons] at hkeys
    obtain ⟨hbefore, hrest, hapart⟩ := List.nodup_append.mp hkeys
    have hne : ∀ other ∈ before, other.1 ≠ entry.1 := fun other hmem =>
      hapart _ (List.mem_map_of_mem hmem) _ List.mem_cons_self
    have hne' : ∀ other ∈ after, other.1 ≠ entry.1 := fun other hmem heq =>
      (List.nodup_cons.mp hrest).1 (heq ▸ List.mem_map_of_mem hmem)
    rw [List.foldlM_append] at hrun
    obtain ⟨_, s₁, hfirst, hrun⟩ := resolve_bind_ok.mp hrun
    obtain ⟨rfl, hmove, added, hadded, hall⟩ := (resolves_putEntries hround hsettled hempty
      (fun other hmem => mt (hcaught other.1).mp (hne other hmem)) hbefore).of_eq hfirst
    have hsame : added.map Prod.fst = before.map Prod.fst :=
      Association.keys_eq_of_forall₂ (hall.imp fun _ _ h => h.1)
    have hlacks₁ : A.lacks s₁.heap id entry.1 := by
      refine A.record _ _ _ _ hadded ?_
      rw [List.nil_append, hsame]
      intro hmem
      obtain ⟨other, hother, heq⟩ := List.mem_map.mp hmem
      exact hne other hother heq
    rw [List.foldlM_cons] at hrun
    obtain ⟨_, s₂, hput, hlast⟩ := resolve_bind_ok.mp hrun
    have hcaught₁ : R.caught s₁.heap entry.1 :=
      (hmove.heap.caught entry.1).mpr ((hcaught entry.1).mpr rfl)
    obtain ⟨-, rfl, hlacks₂⟩ := lacks_of_putEntry hround hspares
      (fun _ => ⟨hcaught₁, _, hadded⟩) hput hlacks₁
    exact lacks_of_putEntries hround hspares hne' hlast hlacks₂
  · refine lacks_of_putEntries hround hspares (fun entry hmem heq => hname ?_) hrun hlacks
    rw [← heq]
    exact List.mem_map_of_mem hmem

/-- A name that the object lacks is not among the keys of the map that is read from it. -/
theorem not_mem_of_lacks {found : List (String × α)}
    (hrun : (mapFromGuest fromGuest (.object id) s).resolve environment = (.ok found, t))
    (h : A.lacks s.heap id name) :
    s.loans.settled = .ok () ∧ name ∉ found.map Prod.fst := by
  obtain ⟨entries, s₁, hread, hrest⟩ := resolve_bind_ok.mp hrun
  obtain ⟨pairs, s₂, hpairs, hcollect⟩ := resolve_bind_ok.mp hrest
  obtain ⟨rfl, rfl⟩ := resolve_pure_ok.mp hcollect
  cases hkind : kindOf E (.object id) with
  | object =>
      simp only [Entries.read, hkind] at hread
      obtain ⟨names, s₃, hnames, hentries⟩ := resolve_bind_ok.mp hread
      obtain ⟨_, _, hsettled, hkeys⟩ := resolve_bind_ok.mp hnames
      obtain ⟨hloans, rfl⟩ := resolve_settled_ok.mp hsettled
      rw [resolve_capture_ok] at hkeys
      obtain ⟨_, _, hobject, hrequest⟩ := resolve_bind_ok.mp hkeys
      obtain ⟨rfl, rfl⟩ := resolve_pure_ok.mp hobject
      obtain ⟨result, heap, hdone, hother⟩ := A.keys s.heap id name h
      rw [request_of_done hdone] at hrequest
      cases hrequest
      refine ⟨hloans, fun hmem => ?_⟩
      rw [StdMap.mem_keys_collect] at hmem
      obtain ⟨pair, hpair, rfl⟩ := List.mem_map.mp hmem
      obtain ⟨entry, hentry, _, _, hconvert⟩ := exists_of_mem_mapM hpairs hpair
      obtain ⟨key, hkey, _, _, hget⟩ := exists_of_mem_mapM hentries hentry
      obtain ⟨_, _, -, hpair'⟩ := resolve_bind_ok.mp hget
      obtain ⟨rfl, -⟩ := resolve_pure_ok.mp hpair'
      obtain ⟨text, _, htext, hvalue⟩ := resolve_bind_ok.mp hconvert
      obtain ⟨_, _, -, hentry'⟩ := resolve_bind_ok.mp hvalue
      obtain ⟨rfl, -⟩ := resolve_pure_ok.mp hentry'
      obtain ⟨symbol, rfl⟩ | ⟨other, rfl, hne⟩ := hother names rfl key hkey
      · exact absurd htext resolve_throw_ne_ok
      · exact hne ((yields_stringFromGuest R other).resolves.of_eq htext).1.symm
  | _ =>
      simp only [Entries.read, hkind] at hread
      exact absurd hread resolve_throw_ne_ok

/-- In a fresh realm a map comes back when no memory is lent and none of its keys is the one that
`Object.prototype` catches, and only then: unless guest code gives the object the property itself. -/
theorem map_roundTrips_iff (hround : RoundTrips A "__proto__" environment toGuest fromGuest)
    (hkeys : (entries.map Prod.fst).Nodup)
    (hfresh : ∀ key, R.caught s.heap key ↔ key = "__proto__") :
    (s.loans.settled = .ok () ∧ "__proto__" ∉ entries.map Prod.fst →
      MapRoundTrips environment toGuest fromGuest entries s) ∧
    (Spares A "__proto__" environment →
      (MapRoundTrips environment toGuest fromGuest entries s ↔
        s.loans.settled = .ok () ∧ "__proto__" ∉ entries.map Prod.fst)) := by
  have hback : s.loans.settled = .ok () ∧ "__proto__" ∉ entries.map Prod.fst →
      MapRoundTrips environment toGuest fromGuest entries s := by
    rintro ⟨hsettled, hproto⟩
    refine mapRoundTrips_of_not_caught hround hsettled hkeys fun entry hmem hcaught => hproto ?_
    rw [← (hfresh entry.1).mp hcaught]
    exact List.mem_map_of_mem hmem
  refine ⟨hback, fun hspares => ⟨?_, hback⟩⟩
  rintro ⟨object, t, hmake, found, u, hread, hperm⟩
  obtain ⟨_, s₁, hnew, hput⟩ := resolve_bind_ok.mp hmake
  obtain ⟨id, rfl, -, hempty, hmove₁⟩ := (yields_newObject R).resolves.of_eq hnew
  have hcaught : ∀ key, R.caught s₁.heap key ↔ key = "__proto__" := fun key =>
    (hmove₁.heap.caught key).trans (hfresh key)
  have hsettled : s₁.loans.settled = .ok () := by
    have hlacks : A.lacks s₁.heap id "__proto__" := A.record _ _ _ _ hempty List.not_mem_nil
    cases entries with
    | nil =>
        obtain ⟨rfl, rfl⟩ := resolve_pure_ok.mp hput
        exact (not_mem_of_lacks hread hlacks).1
    | cons entry entries =>
        rw [List.foldlM_cons] at hput
        obtain ⟨_, s₂, hfirst, -⟩ := resolve_bind_ok.mp hput
        exact (lacks_of_putEntry hround hspares
          (fun _ => ⟨(hcaught _).mpr rfl, _, hempty⟩) hfirst hlacks).1
  obtain ⟨rfl, hlacks⟩ := lacks_of_filled hround hspares hsettled hempty hcaught hkeys hput
  rw [hmove₁.loans] at hsettled
  refine ⟨hsettled, fun hmem => (not_mem_of_lacks hread hlacks).2 ?_⟩
  exact (hperm.map Prod.fst).mem_iff.mpr hmem

namespace PlainEngine

def boolToGuest (b : Bool) : Op engine Value := pure (.boolean b)

/-- A session with an `Object.prototype` as it is in a fresh realm. -/
def fresh : Session engine := session ⟨[], ["__proto__"], false⟩

theorem roundTrips_bool :
    RoundTrips absence "__proto__" quiet boolToGuest (boolFromGuest : Value → Op engine Bool) where
  leaves := by
    intro b s value t hrun
    obtain ⟨rfl, rfl⟩ := resolve_pure_ok.mp hrun
    exact ⟨.refl, fun _ h => h⟩
  back := fun b s _ => resolves_pure.mpr fun _ u _ _ => ⟨b, u, rfl, rfl, .refl⟩

/-- Keys that are integers, empty or the names of methods come back; with `__proto__` among them the
map does not. -/
theorem map_roundTrips_names :
    MapRoundTrips quiet boolToGuest boolFromGuest
        [("b", true), ("", false), ("7", true), ("toString", false)] fresh ∧
      ¬ MapRoundTrips quiet boolToGuest boolFromGuest [("b", true), ("__proto__", false)] fresh :=
  ⟨(map_roundTrips_iff roundTrips_bool (by decide) fun _ => List.mem_singleton).1
      ⟨rfl, by decide⟩,
    fun h => absurd (((map_roundTrips_iff roundTrips_bool (by decide) fun _ =>
      List.mem_singleton).2 fun _ _ _ hlacks => hlacks).mp h).2 (by decide)⟩

/-- The entry of `__proto__` is lost. -/
theorem not_mapRoundTrips_proto :
    ¬ MapRoundTrips quiet boolToGuest boolFromGuest [("__proto__", true)] fresh := by
  rintro ⟨object, t, hmake, found, u, hread, hperm⟩
  cases hmake
  cases hread
  cases hperm.length_eq

end PlainEngine

end GuestJs.Marshal
