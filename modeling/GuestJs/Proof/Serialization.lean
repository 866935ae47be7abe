import GuestJs.Library.Association
import GuestJs.Marshal.Encoding
import GuestJs.Marshal.Serializer
import GuestJs.Proof.Borrowing

/-!
# Serializing, in a realm

In a realm whose prototypes have no say in the names of a value, and with no memory lent, the
serializer makes the encoding of the value out of new objects and leaves everything else as it was.
-/

namespace GuestJs.Marshal

open QuickJs Process

variable {E : Engine} {α : Type} {platform : Platform E}

/-! ## Requests that end at once -/

theorem yields_request {p : Primitive α} {s : Session E} {a : α} {heap : E.Heap}
    {Q : α → Session E → Prop} (h : E.primitive p s.heap = .done (.ok a) heap)
    (hQ : Q a { s with heap }) : (request p).Yields s Q :=
  yields_of_eq (request_of_done h) hQ

theorem yields_capture {raw : Raw E α} {s : Session E} {Q : α → Session E → Prop}
    (h : raw.Yields s Q) : (capture raw).Yields s Q := by
  obtain ⟨a, t, hdone, hQ⟩ := yields_iff.mp h
  refine yields_of_eq (a := a) (t := t) ?_ hQ
  rw [capture, handle, hdone]
  rfl

theorem yields_settled {s : Session E} {Q : Unit → Session E → Prop}
    (hsettled : s.loans.settled = .ok ()) (hQ : Q () s) : (settled : Op E Unit).Yields s Q := by
  refine yields_of_eq (a := ()) (t := s) ?_ hQ
  rw [settled, check_apply, hsettled]

/-- From one session to a later one: plain data stays, but for what is being changed, and the table
of loans is the same. -/
structure OnwardBut (store : Store E) (changed : ObjectId → Prop) (s t : Session E) : Prop where
  heap : store.KeepsBut changed s.heap t.heap
  loans : t.loans = s.loans

abbrev Onward (store : Store E) (s t : Session E) : Prop := OnwardBut store (fun _ => False) s t

section Onward

variable {store : Store E} {changed : ObjectId → Prop} {s t u : Session E}

theorem OnwardBut.refl : OnwardBut store changed s s := ⟨.refl, rfl⟩

theorem OnwardBut.trans (hfirst : OnwardBut store changed s t)
    (hsecond : OnwardBut store changed t u) : OnwardBut store changed s u :=
  ⟨hfirst.heap.trans hsecond.heap, hsecond.loans.trans hfirst.loans⟩

theorem Onward.but (h : Onward store s t) : OnwardBut store changed s t :=
  ⟨h.heap.mono fun _ _ _ _ => not_false, h.loans⟩

theorem OnwardBut.settled (h : OnwardBut store changed s t) (hs : s.loans.settled = .ok ()) :
    t.loans.settled = .ok () := by rw [h.loans, hs]

/-- What is absent later was absent before, if the changes leave nothing absent. -/
theorem OnwardBut.absent_of_changed (h : OnwardBut store changed s t)
    (hchanged : ∀ id, changed id → store.contents t.heap id ≠ none) {id : ObjectId}
    (hid : store.contents t.heap id = none) : store.contents s.heap id = none := by
  by_contra hne
  obtain ⟨c, hc⟩ := Option.ne_none_iff_exists'.mp hne
  by_cases hch : changed id
  · exact hchanged id hch hid
  · rw [h.heap.contents id c hch hc] at hid
    cases hid

theorem OnwardBut.absent (h : Onward store s t) {id : ObjectId}
    (hid : store.contents t.heap id = none) : store.contents s.heap id = none :=
  h.absent_of_changed (fun _ hfalse => hfalse.elim) hid

theorem OnwardBut.contents (h : Onward store s t) {id : ObjectId} {c : Contents}
    (hc : store.contents s.heap id = some c) : store.contents t.heap id = some c :=
  h.heap.contents id c not_false hc

/-- Changes to an object that is new are no changes to what was there. -/
theorem OnwardBut.of_new {id : ObjectId} (hfirst : Onward store s t)
    (hsecond : OnwardBut store (· = id) t u) (hnew : store.contents s.heap id = none) :
    Onward store s u where
  heap := {
    contents := by
      intro other c _ hc
      have hne : other ≠ id := by
        rintro rfl
        rw [hnew] at hc
        cases hc
      exact hsecond.heap.contents other c hne (hfirst.contents hc)
    caught := fun key => (hsecond.heap.caught key).trans (hfirst.heap.caught key)
    catchesElements := hsecond.heap.catchesElements.trans hfirst.heap.catchesElements }
  loans := hsecond.loans.trans hfirst.loans

theorem Onward.holds {owns : ObjectId → Prop} {value : Value} {encoding : Encoding}
    (h : Onward store s t) (hvalue : Holds store owns s.heap value encoding) :
    Holds store owns t.heap value encoding :=
  hvalue.mono (fun _ howns => howns) fun _ _ _ hc => h.contents hc

theorem onward_of_keeps {heap : E.Heap} (h : store.Keeps s.heap heap) :
    Onward store s { s with heap } := ⟨h, rfl⟩

theorem yields_after {p : Op E α} {P : α → Session E → Prop} (hmove : Onward store s t)
    (h : p.Yields t fun a u => Onward store t u ∧ P a u) :
    p.Yields t fun a u => Onward store s u ∧ P a u :=
  h.mono fun _ _ hyields => ⟨hmove.trans hyields.1, hyields.2⟩

/-- A loop whose steps keep the plain data there is. -/
theorem yields_onward_mapM {β γ : Type} {store : Store E} {P : γ → β → Session E → Prop}
    {f : α → Op E β} {as : List α} {cs : List γ} {s : Session E}
    (hP : ∀ c b s t, P c b s → Onward store s t → P c b t)
    (hf : List.Forall₂ (fun a c => ∀ s', Onward store s s' →
      (f a).Yields s' fun b t => Onward store s' t ∧ P c b t) as cs) :
    (as.mapM f).Yields s fun bs t => Onward store s t ∧
      List.Forall₂ (fun c b => P c b t) cs bs :=
  yields_mapM (fun _ => OnwardBut.refl) (fun _ _ _ hfirst hsecond => hfirst.trans hsecond)
    (fun _ _ hmove hstep => hmove.trans hstep) hP hf OnwardBut.refl

end Onward

/-! ## Operations on plain data -/

section Operations

variable (R : Realm platform) {s : Session E}

theorem yields_newString (text : String) :
    (newString text).Yields s fun value t => value = .string text ∧ Onward R.toStore s t := by
  obtain ⟨heap, hdone, hkeeps⟩ := R.newString s.heap text
  exact yields_capture (yields_request hdone ⟨rfl, onward_of_keeps hkeeps⟩)

theorem yields_newObject :
    newObject.Yields s fun value t => ∃ id, value = .object id ∧
      R.contents s.heap id = none ∧ R.contents t.heap id = some (.record []) ∧
      Onward R.toStore s t := by
  obtain ⟨id, heap, hdone, hnew, hcontents, hkeeps⟩ := R.newObject s.heap
  exact yields_capture
    (yields_request hdone ⟨id, rfl, hnew, hcontents, onward_of_keeps hkeeps⟩)

theorem yields_newArray (items : List Value) (hcatches : ¬ R.catchesElements s.heap)
    (hlength : items.length < 2 ^ 32) :
    (newArray items).Yields s fun value t => ∃ id, value = .object id ∧
      R.contents s.heap id = none ∧ R.contents t.heap id = some (.elements items) ∧
      Onward R.toStore s t := by
  obtain ⟨id, heap, hdone, hnew, hcontents, hkeeps⟩ := R.newArray s.heap items hcatches hlength
  exact yields_capture
    (yields_request hdone ⟨id, rfl, hnew, hcontents, onward_of_keeps hkeeps⟩)

/-- A name that is not there yet is added to the properties. -/
theorem yields_set {id : ObjectId} {properties : List (String × Value)} (key : String)
    (value : Value) (hsettled : s.loans.settled = .ok ())
    (hcontents : R.contents s.heap id = some (.record properties))
    (hcaught : ¬ R.caught s.heap key) (hkey : key ∉ properties.map Prod.fst) :
    (set (.object id) (.string key) value).Yields s fun _ t =>
      R.contents t.heap id = some (.record (properties ++ [(key, value)])) ∧
      OnwardBut R.toStore (· = id) s t := by
  obtain ⟨heap, hdone, hset, hkeeps⟩ := R.set s.heap id properties key value hcontents hcaught
  rw [StdMap.insert, if_neg hkey] at hset
  refine yields_bind.mpr (yields_settled hsettled ?_)
  exact yields_capture (yields_bind.mpr (yields_pure.mpr
    (yields_request hdone ⟨hset, hkeeps, rfl⟩)))

theorem yields_bytesToGuest (bytes : List UInt8) :
    (bytesToGuest bytes).Yields s fun value t => Onward R.toStore s t ∧
      Holds R.toStore (fun id => R.contents s.heap id = none) t.heap value (.bytes bytes) := by
  obtain ⟨buffer, heap, hbuffer, hnew, hbytes, hkeeps⟩ := R.newArrayBuffer s.heap bytes
  refine yields_bind.mpr (yields_capture (yields_request hbuffer ?_))
  obtain ⟨view, heap', hview, hnew', hslots, hkeeps'⟩ := R.newTypedArray heap buffer bytes hbytes
  refine yields_capture (yields_request hview ⟨⟨hkeeps.trans hkeeps', rfl⟩, ?_⟩)
  have hfirst : Onward R.toStore s { s with heap } := onward_of_keeps hkeeps
  exact .bytes (hfirst.absent hnew') hnew hslots
    (hkeeps'.contents buffer _ not_false hbytes)

/-- A variant is an object of one property. -/
theorem yields_variant {name : String} {value : Value} {encoding : Encoding}
    {owns : ObjectId → Prop} (hsettled : s.loans.settled = .ok ()) (hcaught : ¬ R.caught s.heap name)
    (hvalue : Holds R.toStore owns s.heap value encoding) :
    (variant name value).Yields s fun object t => Onward R.toStore s t ∧
      Holds R.toStore (fun id => owns id ∨ R.contents s.heap id = none) t.heap object
        (tagged name encoding) := by
  refine yields_bind.mpr ((yields_newObject R).mono ?_)
  rintro _ s₁ ⟨id, rfl, hnew, hempty, hmove₁⟩
  refine yields_bind.mpr ((yields_newString R name).mono ?_)
  rintro _ s₂ ⟨rfl, hmove₂⟩
  have hmove := hmove₁.trans hmove₂
  have hset := yields_set R name value (hmove.settled hsettled)
    (hmove₂.contents hempty) (mt (hmove.heap.caught name).mp hcaught)
    List.not_mem_nil
  refine yields_bind.mpr (hset.mono ?_)
  rintro _ t ⟨hproperties, hkeeps⟩
  have honward : Onward R.toStore s t := hmove.of_new hkeeps hnew
  refine yields_pure.mpr ⟨honward, .object (Or.inr hnew) hproperties rfl ?_⟩
  intro pair hpair
  obtain rfl := List.mem_singleton.mp hpair
  exact (honward.holds hvalue).owned fun _ => Or.inl

end Operations

/-! ## The serializer -/

section Serialize

variable (R : Realm platform)

/-- The value was made of objects that were not there before. -/
def Written (s : Session E) (encoding : Encoding) (value : Value) (t : Session E) : Prop :=
  Onward R.toStore s t ∧
    Holds R.toStore (fun id => R.contents s.heap id = none) t.heap value encoding

variable {R}

theorem Written.after {s s' t : Session E} {encoding : Encoding} {value : Value}
    (h : Written R s' encoding value t) (hmove : Onward R.toStore s s') :
    Written R s encoding value t :=
  ⟨hmove.trans h.1, h.2.owned fun _ hid => hmove.absent hid⟩

theorem Written.before {s t u : Session E} {encoding : Encoding} {value : Value}
    (h : Written R s encoding value t) (hmove : Onward R.toStore t u) :
    Written R s encoding value u :=
  ⟨h.1.trans hmove, hmove.holds h.2⟩

theorem yields_variant_written {s s' : Session E} {name : String} {value : Value}
    {encoding : Encoding} (hsettled : s.loans.settled = .ok ()) (hcaught : ¬ R.caught s.heap name)
    (hvalue : Written R s encoding value s') :
    (variant name value).Yields s' (Written R s (tagged name encoding)) := by
  have hyields := yields_variant R (hvalue.1.settled hsettled)
    (mt (hvalue.1.heap.caught name).mp hcaught) hvalue.2
  refine hyields.mono ?_
  rintro object t ⟨hmove, hobject⟩
  refine ⟨hvalue.1.trans hmove, hobject.owned ?_⟩
  rintro id (hid | hid)
  · exact hid
  · exact hvalue.1.absent hid

theorem toGuest_of_safe {type : IntegerType} {n : Int} (hsafe : n.natAbs ≤ maxSafeInteger) :
    (type.toGuest n : Op E Value) = pure (.number (.finite n)) := by
  have hround : Rounding.nearest 53 n = n := by
    refine Rounding.nearest_of_lt ?_
    simp only [maxSafeInteger] at hsafe
    omega
  unfold IntegerType.toGuest
  cases type.isNarrow with
  | true => rfl
  | false => simp only [hround, if_pos hsafe]

theorem yields_serialize_scalar {s : Session E} {value : Scalar}
    (hvalue : Writable R.toStore s.heap (.scalar value)) :
    value.serialize.Yields s (Written R s value.encoding) := by
  have htext : ∀ text, (newString text).Yields s (Written R s (.text text)) := fun text =>
    (yields_newString R text).mono (by
      rintro _ t ⟨rfl, hmove⟩
      exact ⟨hmove, .text text⟩)
  cases value with
  | bool b => exact yields_pure.mpr ⟨.refl, .bool b⟩
  | integer type n =>
      rw [Scalar.serialize, toGuest_of_safe (hvalue.safe type n rfl)]
      exact yields_pure.mpr ⟨.refl, .integer n⟩
  | wide signed n => exact absurd rfl (hvalue.narrow signed n)
  | float number => exact yields_pure.mpr ⟨.refl, .float number⟩
  | char c => exact htext _
  | string text => exact htext text
  | bytes content => exact yields_bytesToGuest R content
  | unit => exact yields_pure.mpr ⟨.refl, .undefined⟩
  | unitStruct => exact yields_pure.mpr ⟨.refl, .undefined⟩
  | none => exact yields_pure.mpr ⟨.refl, .null⟩
  | unitVariant name => exact htext name

/-! ### Items -/

theorem serializeItems_eq (array : ArraySerializer) (values : List Datum) :
    (serializeItems array values : Op E ArraySerializer) =
      (fun items => ⟨array.items ++ items⟩) <$> values.mapM Datum.serialize := by
  induction values generalizing array with
  | nil => simp [serializeItems]
  | cons value values ih =>
      simp only [serializeItems, ArraySerializer.serializeElement, List.mapM_cons, ih,
        map_eq_pure_bind, bind_assoc, pure_bind, List.append_assoc, List.singleton_append]

theorem yields_serializeItems {s : Session E} {values : List Datum}
    (hvalues : ∀ value ∈ values, ∀ s', Onward R.toStore s s' →
      value.serialize.Yields s' (Written R s' value.encoding)) :
    (serializeItems .new values).Yields s fun array t => Onward R.toStore s t ∧
      List.Forall₂ (fun value item => Written R s value.encoding item t) values array.items := by
  have hloop : (values.mapM Datum.serialize).Yields s fun items t => Onward R.toStore s t ∧
      List.Forall₂ (fun value item => Written R s value.encoding item t) values items := by
    refine yields_onward_mapM (fun _ _ _ _ hitem hmove => hitem.before hmove)
      (List.forall₂_same.mpr ?_)
    intro value hmem s' hmove
    exact (hvalues value hmem s' hmove).mono fun item t hitem => ⟨hitem.1, hitem.after hmove⟩
  rw [serializeItems_eq, yields_map]
  exact hloop

/-- A new array of items that hold the encodings of the values. -/
theorem yields_finish_array {s s' : Session E} {values : List Datum} {array : ArraySerializer}
    (hmove : Onward R.toStore s s')
    (hitems : List.Forall₂ (fun value item => Written R s value.encoding item s') values array.items)
    (hcatches : ¬ R.catchesElements s.heap) (hlength : values.length < 2 ^ 32) :
    array.finish.Yields s' (Written R s (.array (values.map Datum.encoding))) := by
  have hnew := yields_newArray R array.items
    (mt hmove.heap.catchesElements.mp hcatches) (by rw [← hitems.length_eq]; exact hlength)
  refine hnew.mono ?_
  rintro _ t ⟨id, rfl, hid, hcontents, hlast⟩
  refine ⟨hmove.trans hlast, .array (hmove.absent hid) hcontents ?_ ?_⟩
  · rw [List.length_map, hitems.length_eq]
  · intro pair hpair
    have hheld : List.Forall₂ (Holds R.toStore (fun id => R.contents s.heap id = none) t.heap)
        array.items (values.map Datum.encoding) := by
      rw [List.forall₂_map_right_iff]
      exact hitems.flip.imp fun item value hitem => hlast.holds hitem.2
    exact (List.forall₂_iff_zip.mp hheld).2 hpair

/-! ### Fields -/

/-- The entries have been added to what the object held, each with a value made meanwhile. -/
structure Filled (R : Realm platform) (s s' : Session E) (id : ObjectId)
    (properties : List (String × Value)) (entries : List (String × Datum))
    (added : List (String × Value)) (t : Session E) : Prop where
  move : OnwardBut R.toStore (· = id) s' t
  contents : R.contents t.heap id = some (.record (properties ++ added))
  values : List.Forall₂ (fun property entry => property.1 = entry.1 ∧
    Holds R.toStore (fun other => R.contents s.heap other = none) t.heap property.2
      entry.2.encoding) added entries

theorem absent_of_filling {s s' : Session E} {id : ObjectId} {c : Contents}
    (hmove : OnwardBut R.toStore (· = id) s s') (hid : R.contents s'.heap id = some c)
    {other : ObjectId} (hother : R.contents s'.heap other = none) :
    R.contents s.heap other = none := by
  refine hmove.absent_of_changed ?_ hother
  rintro _ rfl hnone
  rw [hid] at hnone
  cases hnone

/-- What is made while an object is being filled is not made of that object. -/
theorem holds_of_filling {s s' t u : Session E} {id : ObjectId} {c : Contents} {value : Value}
    {encoding : Encoding} (hmove : OnwardBut R.toStore (· = id) s s')
    (hid : R.contents s'.heap id = some c)
    (hvalue : Holds R.toStore (fun other => R.contents s'.heap other = none) t.heap value encoding)
    (hlast : OnwardBut R.toStore (· = id) t u) :
    Holds R.toStore (fun other => R.contents s.heap other = none) u.heap value encoding := by
  refine hvalue.mono (fun other hother => absent_of_filling hmove hid hother)
    fun other c' hother hc => ?_
  refine hlast.heap.contents other c' ?_ hc
  rintro rfl
  rw [hid] at hother
  cases hother

theorem yields_serializeEntry {s s' : Session E} {id : ObjectId} {key : String} {value : Datum}
    {properties : List (String × Value)} {pending : Option Value}
    (hsettled : s.loans.settled = .ok ()) (hmove : OnwardBut R.toStore (· = id) s s')
    (hproperties : R.contents s'.heap id = some (.record properties))
    (hcaught : ¬ R.caught s.heap key) (hkey : key ∉ properties.map Prod.fst)
    (hvalue : ∀ s', OnwardBut R.toStore (· = id) s s' →
      value.serialize.Yields s' (Written R s' value.encoding)) :
    (ObjectSerializer.serializeEntry ⟨.object id, pending⟩ key value.serialize).Yields s'
      fun serializer t => ∃ property, serializer = ⟨.object id, none⟩ ∧
        Filled R s s' id properties [(key, value)] [(key, property)] t := by
  refine yields_bind.mpr (yields_bind.mpr ((yields_newString R key).mono ?_))
  rintro _ s₁ ⟨rfl, hmove₁⟩
  have hfirst : OnwardBut R.toStore (· = id) s s₁ := hmove.trans hmove₁.but
  have hproperties₁ := hmove₁.contents hproperties
  refine yields_pure.mpr (yields_bind.mpr ((hvalue s₁ hfirst).mono ?_))
  rintro property s₂ ⟨hmove₂, hholds⟩
  have hsecond : OnwardBut R.toStore (· = id) s s₂ := hfirst.trans hmove₂.but
  have hset := yields_set R key property (hsecond.settled hsettled)
    (hmove₂.contents hproperties₁) (mt (hsecond.heap.caught key).mp hcaught) hkey
  refine yields_bind.mpr (hset.mono ?_)
  rintro _ t ⟨hcontents, hlast⟩
  have hvalue : Holds R.toStore (fun other => R.contents s.heap other = none) t.heap property
      value.encoding := holds_of_filling hfirst hproperties₁ hholds hlast
  exact yields_pure.mpr ⟨property, rfl, hmove₁.but.trans (hmove₂.but.trans hlast), hcontents,
    .cons ⟨rfl, hvalue⟩ .nil⟩

/-- By induction on the entries: the object has the entries before, and gets those that are left. -/
theorem yields_serializeFields {s s' : Session E} {id : ObjectId}
    {entries : List (String × Datum)} {properties : List (String × Value)} (pending : Option Value)
    (hid : R.contents s.heap id ≠ none) (hsettled : s.loans.settled = .ok ())
    (hmove : OnwardBut R.toStore (· = id) s s')
    (hproperties : R.contents s'.heap id = some (.record properties))
    (hcaught : ∀ entry ∈ entries, ¬ R.caught s.heap entry.1)
    (hkeys : (properties.map Prod.fst ++ entries.map Prod.fst).Nodup)
    (hvalues : ∀ entry ∈ entries, ∀ s', OnwardBut R.toStore (· = id) s s' →
      entry.2.serialize.Yields s' (Written R s' entry.2.encoding)) :
    (serializeFields ⟨.object id, pending⟩ entries).Yields s' fun serializer t =>
      serializer.object = .object id ∧ ∃ added, Filled R s s' id properties entries added t := by
  induction entries generalizing s' properties pending with
  | nil =>
      refine yields_pure.mpr ⟨rfl, [], .refl, ?_, .nil⟩
      rwa [List.append_nil]
  | cons entry entries ih =>
      obtain ⟨key, value⟩ := entry
      have hkey : key ∉ properties.map Prod.fst := fun hmem =>
        (List.nodup_append.mp hkeys).2.2 key hmem key List.mem_cons_self rfl
      refine yields_bind.mpr ((yields_serializeEntry hsettled hmove hproperties
        (hcaught _ List.mem_cons_self) hkey (hvalues _ List.mem_cons_self)).mono ?_)
      rintro _ s₁ ⟨property, rfl, hentry⟩
      have hkeys₁ : ((properties ++ [(key, property)]).map Prod.fst ++
          entries.map Prod.fst).Nodup := by
        rw [List.map_append, List.append_assoc]
        exact hkeys
      refine (ih none (hmove.trans hentry.move) hentry.contents
        (fun other hmem => hcaught other (List.mem_cons_of_mem _ hmem)) hkeys₁
        (fun other hmem => hvalues other (List.mem_cons_of_mem _ hmem))).mono ?_
      rintro serializer t ⟨hobject, added, hrest⟩
      refine ⟨hobject, (key, property) :: added, hentry.move.trans hrest.move, ?_, ?_⟩
      · rw [hrest.contents, List.append_assoc, List.singleton_append]
      · obtain ⟨⟨-, hvalue⟩, -⟩ := List.forall₂_cons.mp hentry.values
        refine .cons ⟨rfl, hvalue.mono (fun _ hnew => hnew) fun other c hnew hc => ?_⟩ hrest.values
        refine hrest.move.heap.contents other c ?_ hc
        rintro rfl
        exact hid hnew

/-- A new object with the encodings of the entries. -/
theorem yields_object {s : Session E} (entries : List (String × Datum))
    (hsettled : s.loans.settled = .ok ()) (hcaught : ∀ entry ∈ entries, ¬ R.caught s.heap entry.1)
    (hkeys : (entries.map Prod.fst).Nodup)
    (hvalues : ∀ entry ∈ entries, ∀ s' id, OnwardBut R.toStore (· = id) s s' →
      entry.2.serialize.Yields s' (Written R s' entry.2.encoding)) :
    (ObjectSerializer.new >>= fun serializer => serializeFields serializer entries).Yields s
      fun serializer t => Written R s
        (.object (entries.map fun entry => (entry.1, entry.2.encoding))) serializer.object t := by
  refine yields_bind.mpr (yields_bind.mpr ((yields_newObject R).mono ?_))
  rintro _ s₁ ⟨id, rfl, hnew, hempty, hmove₁⟩
  have hpresent : R.contents s₁.heap id ≠ none := by
    rw [hempty]
    exact Option.some_ne_none _
  have hfields := yields_serializeFields none hpresent (hmove₁.settled hsettled) .refl hempty
    (fun entry hmem => mt (hmove₁.heap.caught entry.1).mp (hcaught entry hmem)) hkeys
    (fun entry hmem s' hmove => hvalues entry hmem s' id (hmove₁.but.trans hmove))
  refine yields_pure.mpr (hfields.mono ?_)
  rintro serializer t ⟨hobject, added, hfilled⟩
  rw [hobject]
  refine ⟨hmove₁.of_new hfilled.move hnew, .object hnew hfilled.contents ?_ ?_⟩
  · rw [List.map_map]
    exact Association.keys_eq_of_forall₂ (hfilled.values.imp fun _ _ h => h.1)
  · intro pair hpair
    have hheld : List.Forall₂ (fun property encoding =>
        Holds R.toStore (fun other => R.contents s.heap other = none) t.heap property.2 encoding.2)
        added (entries.map fun entry => (entry.1, entry.2.encoding)) := by
      rw [List.forall₂_map_right_iff]
      exact hfilled.values.imp fun property entry h =>
        h.2.owned fun _ hother => hmove₁.absent hother
    exact (List.forall₂_iff_zip.mp hheld).2 hpair

/-! ### Values -/

theorem Writable.onward {s t : Session E} {changed : ObjectId → Prop} {part : Datum}
    (h : Writable R.toStore s.heap part) (hmove : OnwardBut R.toStore changed s t) :
    Writable R.toStore t.heap part where
  safe := h.safe
  narrow := h.narrow
  labels := fun label hlabel => mt (hmove.heap.caught label).mp (h.labels label hlabel)
  elements := fun form values hpart =>
    (h.elements form values hpart).imp_left (mt hmove.heap.catchesElements.mp)

theorem yields_serialize (datum : Datum) {s : Session E} (hsettled : s.loans.settled = .ok ())
    (hparts : ∀ part, part.Within datum → Writable R.toStore s.heap part ∧ part.DistinctKeys) :
    datum.serialize.Yields s (Written R s datum.encoding) := by
  induction datum using Datum.children_induction generalizing s with
  | h datum ih =>
      have hchild : ∀ child ∈ datum.children, ∀ s' changed, OnwardBut R.toStore changed s s' →
          child.serialize.Yields s' (Written R s' child.encoding) := by
        intro child hmem s' changed hmove
        refine ih child hmem (hmove.settled hsettled) fun part hpart => ?_
        obtain ⟨hwritable, hkeys⟩ := hparts part (.child hmem hpart)
        exact ⟨hwritable.onward hmove, hkeys⟩
      obtain ⟨hwritable, hkeys⟩ := hparts datum .self
      cases datum with
      | scalar value => exact yields_serialize_scalar hwritable
      | wrapper form value =>
          refine yields_bind.mpr ((hchild value List.mem_cons_self s (fun _ => False) .refl).mono ?_)
          intro object t hobject
          cases form with
          | some => exact yields_pure.mpr hobject
          | newtypeStruct => exact yields_pure.mpr hobject
          | newtypeVariant name =>
              exact yields_variant_written hsettled (hwritable.labels name List.mem_cons_self)
                hobject
      | items form values =>
          obtain ⟨hcatches, hlength⟩ := hwritable.elements form values rfl
          have hitems := yields_serializeItems fun value (hmem : value ∈ values) s' hmove =>
            hchild value hmem s' _ hmove
          have harray : (serializeItems .new values >>= ArraySerializer.finish).Yields s
              (Written R s (.array (encodings values))) := by
            rw [encodings_eq_map]
            refine yields_bind.mpr (hitems.mono ?_)
            rintro array s' ⟨hmove, hheld⟩
            exact yields_finish_array hmove hheld hcatches hlength
          cases form with
          | seq => exact harray
          | tuple => exact harray
          | tupleStruct => exact harray
          | tupleVariant name =>
              refine yields_bind.mpr ((yields_bind.mp harray).mono fun array s' hfinish => ?_)
              exact yields_bind.mpr (hfinish.mono fun object t hobject =>
                yields_variant_written hsettled (hwritable.labels name List.mem_cons_self) hobject)
      | fields form entries =>
          have hcaught : ∀ entry ∈ entries, entry.1 ∈ (Datum.fields form entries).labels := by
            intro entry hmem
            have hkey : entry.1 ∈ entries.map Prod.fst := List.mem_map_of_mem hmem
            cases form with
            | map => exact hkey
            | struct => exact hkey
            | structVariant name => exact List.mem_cons_of_mem _ hkey
          have hobject := yields_object entries hsettled
            (fun entry hmem => hwritable.labels entry.1 (hcaught entry hmem))
            (hkeys form entries rfl) fun entry hmem s' id hmove =>
              hchild entry.2 (List.mem_map_of_mem hmem) s' _ hmove
          rw [Datum.serialize, ← bind_assoc, Datum.encoding, fieldEncodings_eq_map]
          refine yields_bind.mpr (hobject.mono fun serializer s' hwritten => ?_)
          cases form with
          | map => exact yields_pure.mpr hwritten
          | struct => exact yields_pure.mpr hwritten
          | structVariant name =>
              exact yields_bind.mpr (yields_pure.mpr (yields_variant_written hsettled
                (hwritable.labels name List.mem_cons_self) hwritten))

end Serialize

end GuestJs.Marshal
