import GuestJs.Proof.RoundTrip

/-!
# The direct conversions, there and back

The direct conversion into a guest asks the engine for the same things as the serializer. What either
makes is read by the direct conversion as the value, except that an option of nothing is nothing.
-/

namespace GuestJs.Marshal

open QuickJs Process

variable {E : Engine} {platform : Platform E}

/-! ## Into the guest -/

theorem mapM_congr_mem {α β : Type} {f g : α → Op E β} {as : List α} (h : ∀ a ∈ as, f a = g a) :
    as.mapM f = as.mapM g := by
  induction as with
  | nil => rfl
  | cons a as ih =>
      obtain ⟨ha, has⟩ := List.forall_mem_cons.mp h
      rw [List.mapM_cons, List.mapM_cons, ha, ih has]

theorem serializeFields_eq (object : Value) (entries : List (String × Datum)) :
    (serializeFields ⟨object, none⟩ entries : Op E ObjectSerializer) =
      (fun object => ⟨object, none⟩) <$> entries.foldlM (putEntry Datum.serialize) object := by
  induction entries generalizing object with
  | nil => simp [serializeFields]
  | cons entry entries ih =>
      obtain ⟨key, value⟩ := entry
      simp only [serializeFields, ObjectSerializer.serializeEntry, ObjectSerializer.serializeKey,
        ObjectSerializer.serializeValue, List.foldlM_cons, putEntry, map_eq_pure_bind, bind_assoc,
        pure_bind, ih]

theorem foldlM_congr_mem {α β : Type} {f g : β → α → Op E β} {as : List α} (b : β)
    (h : ∀ b, ∀ a ∈ as, f b a = g b a) : as.foldlM f b = as.foldlM g b := by
  induction as generalizing b with
  | nil => rfl
  | cons a as ih =>
      rw [List.foldlM_cons, List.foldlM_cons, h b a List.mem_cons_self]
      exact congrArg _ (funext fun b => ih b fun b a hmem => h b a (List.mem_cons_of_mem _ hmem))

namespace Native

theorem toGuestEach_eq_map (elements : List Native) :
    (toGuestEach elements : List (Datum → Op E Value)) = elements.map toGuest := by
  induction elements with
  | nil => rfl
  | cons element elements ih => rw [toGuestEach, ih, List.map_cons]

/-- The direct conversion of a value and the one through serde make the same requests in the same
order. -/
theorem toGuest_eq_serialize {type : Native} {datum : Datum} (h : type.Has datum) :
    (type.toGuest datum : Op E Value) = datum.serialize := by
  induction h with
  | bool b => rfl
  | integer hn => rfl
  | char c => rfl
  | string text => rfl
  | none inner => rfl
  | some hvalue ih =>
      rw [toGuest, ih, Datum.serialize]
      exact (bind_pure _).symm
  | vec hvalues ih | array hvalues ih =>
      rw [toGuest, vecToGuest, mapM_congr_mem ih, Datum.serialize, serializeItems_eq]
      simp only [map_eq_pure_bind, bind_assoc, pure_bind]
      rfl
  | @tuple elements values hlength hvalues ih =>
      have heach : ((toGuestEach elements : List (Datum → Op E Value)).zip values).mapM
          (fun pair => pair.1 pair.2) = values.mapM Datum.serialize := by
        rw [toGuestEach_eq_map, List.zip_map_left, List.mapM_map, ← List.map_snd_zip hlength.ge,
          List.mapM_map, List.map_snd_zip hlength.ge]
        exact mapM_congr_mem ih
      rw [toGuest, tupleToGuest, heach, Datum.serialize, serializeItems_eq]
      simp only [map_eq_pure_bind, bind_assoc, pure_bind]
      rfl
  | map hkeys hentries ih =>
      rw [toGuest, mapToGuest, Datum.serialize]
      simp only [ObjectSerializer.new, bind_assoc, pure_bind, serializeFields_eq]
      refine congrArg (newObject >>= ·) (funext fun object => ?_)
      rw [map_eq_pure_bind, bind_assoc, foldlM_congr_mem object fun object entry hmem => ?_]
      · simp only [pure_bind]
        exact (bind_pure _).symm
      · rw [putEntry, putEntry, ih entry hmem]

end Native

/-! ## Out of the guest -/

mutual

/-- The value with every option of nothing made nothing. -/
def Datum.flattened : Datum → Datum
  | .scalar value => .scalar value
  | .wrapper .some value => if value.isNullish then .scalar .none else .wrapper .some value.flattened
  | .wrapper form value => .wrapper form value.flattened
  | .items form values => .items form (flattenedItems values)
  | .fields form entries => .fields form (flattenedFields entries)

def flattenedItems : List Datum → List Datum
  | [] => []
  | value :: values => value.flattened :: flattenedItems values

def flattenedFields : List (String × Datum) → List (String × Datum)
  | [] => []
  | (key, value) :: entries => (key, value.flattened) :: flattenedFields entries

end

theorem flattenedItems_eq_map (values : List Datum) :
    flattenedItems values = values.map Datum.flattened := by
  induction values with
  | nil => rfl
  | cons value values ih => rw [flattenedItems, List.map_cons, ih]

theorem flattenedFields_eq_map (entries : List (String × Datum)) :
    flattenedFields entries = entries.map fun entry => (entry.1, entry.2.flattened) := by
  induction entries with
  | nil => rfl
  | cons entry entries ih => rw [flattenedFields, List.map_cons, ih]

/-- No option in the value is of nothing. -/
def Datum.IsFlat (datum : Datum) : Prop :=
  ∀ (part value : Datum), part.Within datum → part = .wrapper .some value → value.isNullish = false

theorem Datum.IsFlat.flattened_eq {datum : Datum} (h : datum.IsFlat) : datum.flattened = datum := by
  induction datum using Datum.children_induction with
  | h datum ih =>
      have hchild : ∀ child ∈ datum.children, child.flattened = child := fun child hmem =>
        ih child hmem fun part value hpart => h part value (.child hmem hpart)
      cases datum with
      | scalar value => rfl
      | wrapper form value =>
          have hvalue := hchild value List.mem_cons_self
          cases form with
          | some =>
              rw [Datum.flattened, h _ value .self rfl, if_neg Bool.false_ne_true, hvalue]
          | newtypeStruct => rw [Datum.flattened, hvalue]; nofun
          | newtypeVariant name => rw [Datum.flattened, hvalue]; nofun
      | items form values =>
          rw [Datum.flattened, flattenedItems_eq_map]
          exact congrArg _ ((List.map_congr_left hchild).trans (List.map_id values))
      | fields form entries =>
          rw [Datum.flattened, flattenedFields_eq_map]
          refine congrArg _ ((List.map_congr_left fun entry hmem => ?_).trans (List.map_id entries))
          rw [hchild entry.2 (List.mem_map_of_mem hmem)]
          rfl

namespace Native

variable {R : Realm platform} {s : Session E} {owns : ObjectId → Prop} {value : Value}

theorem encoding_of_nullish {type : Native} {datum : Datum} (h : type.Has datum)
    (hnullish : datum.isNullish = true) : datum.encoding = .null := by
  induction h with
  | none inner => rfl
  | some hvalue ih => exact ih hnullish
  | _ => cases hnullish

/-- What holds the encoding of the value, the type reads as the value, flattened. -/
def Reads (R : Realm platform) (type : Native) (datum : Datum) : Prop :=
  ∀ (s : Session E) (owns : ObjectId → Prop) (value : Value), s.loans.settled = .ok () →
    Holds R.toStore owns s.heap value datum.encoding →
    (type.fromGuest platform value).Yields s fun found t =>
      Onward R.toStore s t ∧ datum.flattened.Same found

theorem Reads.readsAs {type : Native} {datum : Datum} (h : Reads R type datum)
    (hsettled : s.loans.settled = .ok ())
    (hvalue : Holds R.toStore owns s.heap value datum.encoding) :
    ReadsAs R s (type.fromGuest platform) value datum.flattened :=
  fun s' hmove => h s' owns value (hmove.settled hsettled) (hmove.holds hvalue)

theorem fromGuestEach_eq_map (elements : List Native) :
    fromGuestEach platform elements = elements.map (fromGuest platform) := by
  induction elements with
  | nil => rfl
  | cons element elements ih => rw [fromGuestEach, ih, List.map_cons]

theorem yields_integerFromGuest {type : IntegerType} {n : Int} (hn : type.Contains n)
    (hsafe : n.natAbs ≤ maxSafeInteger) (s : Session E) :
    (type.fromGuest (.number (.finite n)) : Op E Int).Yields s fun found t =>
      found = n ∧ Onward R.toStore s t := by
  have hread : (i64FromGuest (.number (.finite n)) : Op E Int) = pure n := by
    simp only [i64FromGuest, kindOf]
    refine asI64_of_range ?_ ?_ <;> simp only [maxSafeInteger] at hsafe <;> omega
  cases type
  case i64 =>
      rw [IntegerType.fromGuest, hread]
      exact yields_pure.mpr ⟨rfl, .refl⟩
  all_goals
    simp only [IntegerType.fromGuest, hread, pure_bind, if_pos hn]
    exact yields_pure.mpr ⟨rfl, .refl⟩

theorem yields_charFromGuest (c : Char) (s : Session E) :
    (charFromGuest platform (.string (String.singleton c))).Yields s fun found t =>
      found = c ∧ Onward R.toStore s t := by
  refine yields_bind.mpr ((yields_stringFromGuest R (String.singleton c)).mono ?_)
  rintro _ t ⟨rfl, hmove⟩
  have hsingle : singleChar (String.singleton c) = some c := by simp [singleChar]
  simp only [hsingle]
  exact yields_pure.mpr ⟨rfl, hmove⟩

theorem yields_vecFromGuest {reader : Value → Op E Datum} {values : List Datum} {id : ObjectId}
    {items : List Value} (hsettled : s.loans.settled = .ok ())
    (hcontents : R.contents s.heap id = some (.elements items)) (hlength : values.length < 2 ^ 32)
    (hitems : List.Forall₂ (ReadsAs R s reader) items values) :
    (vecFromGuest reader (.object id)).Yields s fun found t =>
      Onward R.toStore s t ∧ List.Forall₂ Datum.Same values found := by
  refine yields_bind.mpr ((yields_elements R hsettled hcontents (by rwa [hitems.length_eq])).mono ?_)
  rintro _ t ⟨rfl, hmove⟩
  exact yields_after hmove (yields_onward_mapM (fun _ _ _ _ hsame _ => hsame)
    (hitems.imp fun _ _ hread => hread.onward hmove))

theorem yields_tupleFromGuest {readers : List (Value → Op E Datum)} {values : List Datum}
    {id : ObjectId} {items : List Value} (hsettled : s.loans.settled = .ok ())
    (hcontents : R.contents s.heap id = some (.elements items)) (hlength : values.length < 2 ^ 32)
    (hcount : readers.length = values.length) (hcount' : items.length = values.length)
    (hitems : List.Forall₂ (fun (pair : (Value → Op E Datum) × Value) value =>
      ReadsAs R s pair.1 pair.2 value) (readers.zip items) values) :
    (tupleFromGuest readers (.object id)).Yields s fun found t =>
      Onward R.toStore s t ∧ List.Forall₂ Datum.Same values found := by
  refine yields_bind.mpr ((yields_elements R hsettled hcontents (by rwa [hcount'])).mono ?_)
  rintro _ t ⟨rfl, hmove⟩
  rw [Elements.exact, if_pos (hcount'.trans hcount.symm), pure_bind]
  exact yields_after hmove (yields_onward_mapM (fun _ _ _ _ hsame _ => hsame)
    (hitems.imp fun _ _ hread => hread.onward hmove))

theorem yields_mapFromGuest {reader : Value → Op E Datum} {entries : List (String × Datum)}
    {id : ObjectId} {properties : List (String × Value)} (hsettled : s.loans.settled = .ok ())
    (hcontents : R.contents s.heap id = some (.record properties))
    (hkeys : (entries.map Prod.fst).Nodup)
    (hentries : List.Forall₂ (fun property entry => property.1 = entry.1 ∧
      ReadsAs R s reader property.2 entry.2) properties entries) :
    (mapFromGuest reader (.object id)).Yields s fun found t =>
      Onward R.toStore s t ∧ Datum.Same (.fields .map entries) (.fields .map found) := by
  have hsameKeys : properties.map Prod.fst = entries.map Prod.fst :=
    Association.keys_eq_of_forall₂ (hentries.imp fun _ _ h => h.1)
  refine yields_bind.mpr ((yields_entries R hsettled hcontents (by rwa [hsameKeys])).mono ?_)
  rintro _ s' ⟨⟨found, hperm, rfl⟩, hmove⟩
  obtain ⟨entries', hentries', hperm'⟩ := List.perm_comp_forall₂ hperm hentries
  have hloop : ((found.map fun property => (Value.string property.1, property.2)).mapM
      (convertEntry stringFromGuest reader)).Yields s' fun pairs t =>
        Onward R.toStore s' t ∧ List.Forall₂ SameEntry entries' pairs := by
    refine yields_onward_mapM (fun _ _ _ _ hsame _ => hsame) ?_
    rw [List.forall₂_map_left_iff]
    refine hentries'.imp ?_
    rintro property entry ⟨hkey, hread⟩ s₁ hmove₁
    refine yields_bind.mpr ((yields_stringFromGuest R property.1).mono ?_)
    rintro _ s₂ ⟨rfl, hmove₂⟩
    refine yields_bind.mpr ((hread s₂ (hmove.trans (hmove₁.trans hmove₂))).mono ?_)
    rintro datum t ⟨hlast, hsame⟩
    exact yields_pure.mpr ⟨hmove₂.trans hlast, hkey.symm, hsame⟩
  refine yields_bind.mpr (hloop.mono ?_)
  rintro pairs t ⟨hmove', hpairs⟩
  have hcollect : StdMap.collect pairs = pairs := by
    refine foldl_insert_of_nodup ?_
    rw [List.nil_append, ← keys_of_sameEntry hpairs]
    exact (hperm'.map Prod.fst).nodup_iff.mpr hkeys
  rw [hcollect]
  exact yields_pure.mpr ⟨hmove.trans hmove', same_fields hkeys hperm' hpairs⟩

theorem optionFromGuest_of_kind {α : Type} {inner : Value → Op E α}
    (h : kindOf E value ≠ .undefined ∧ kindOf E value ≠ .null) :
    optionFromGuest inner value = some <$> inner value := by
  unfold optionFromGuest
  split
  · next hkind => exact absurd hkind h.1
  · next hkind => exact absurd hkind h.2
  · rfl

theorem readsAs_items {element : Native} {items : List Value} {values : List Datum}
    (hsettled : s.loans.settled = .ok ())
    (hitems : List.Forall₂ (fun item value => Holds R.toStore owns s.heap item value.encoding) items
      values) (hreads : ∀ value ∈ values, Reads R element value) :
    List.Forall₂ (ReadsAs R s (element.fromGuest platform)) items (values.map Datum.flattened) := by
  rw [List.forall₂_map_right_iff]
  refine List.forall₂_iff_zip.mpr ⟨hitems.length_eq, fun hpair => ?_⟩
  have hmem := (List.of_mem_zip hpair).2
  exact (hreads _ hmem).readsAs hsettled ((List.forall₂_iff_zip.mp hitems).2 hpair)

/-- By induction on the value: each layer is read with the parts that its encoding holds. -/
theorem reads_of_has {type : Native} {datum : Datum} (h : type.Has datum)
    (hreadable : ∀ part, Datum.Within part datum → Readable part) : Reads R type datum := by
  induction h with
  | bool b =>
      intro s owns value hsettled hvalue
      cases hvalue
      exact yields_scalar (f := .bool) (yields_of_eq (a := b) (t := s) rfl ⟨rfl, .refl⟩)
  | @integer type n hn =>
      intro s owns value hsettled hvalue
      cases hvalue
      exact yields_scalar (f := .integer type)
        (yields_integerFromGuest hn ((hreadable _ .self).safe type n rfl) s)
  | char c =>
      intro s owns value hsettled hvalue
      cases hvalue
      exact yields_scalar (f := .char) (yields_charFromGuest c s)
  | string text =>
      intro s owns value hsettled hvalue
      cases hvalue
      exact yields_scalar (f := .string) (yields_stringFromGuest R text)
  | none inner =>
      intro s owns value hsettled hvalue
      cases hvalue
      exact yields_of_eq (t := s) rfl ⟨.refl, .scalar _⟩
  | @some inner content hcontent ih =>
      intro s owns value hsettled hvalue
      cases hnullish : content.isNullish with
      | true =>
          have hencoding : (Datum.wrapper .some content).encoding = .null :=
            encoding_of_nullish (.some hcontent) hnullish
          rw [hencoding] at hvalue
          cases hvalue
          rw [Datum.flattened, hnullish, if_pos rfl]
          exact yields_of_eq (t := s) rfl ⟨.refl, .scalar _⟩
      | false =>
          have hencoding := encoding_of_not_nullish content hnullish
          have hread := ih (fun part hpart => hreadable part (.child List.mem_cons_self hpart)) s owns
            value hsettled hvalue
          rw [Datum.flattened, hnullish, if_neg Bool.false_ne_true, fromGuest, optionFromGuest_of_kind
            (kindOf_of_holds hvalue hencoding.1 hencoding.2)]
          refine Process.yields_map.mpr (Process.yields_map.mpr (hread.mono ?_))
          exact fun _ _ hfound => ⟨hfound.1, .wrapper hfound.2⟩
  | @vec element values hvalues ih =>
      intro s owns value hsettled hvalue
      obtain ⟨id, items, rfl, hcontents, hitems⟩ := exists_items hvalue
      rw [Datum.flattened, flattenedItems_eq_map]
      refine yields_items (yields_vecFromGuest hsettled hcontents ?_ ?_)
      · rw [List.length_map]
        exact (hreadable _ .self).length _ _ rfl
      · exact readsAs_items hsettled hitems fun value hmem => ih value hmem fun part hpart =>
          hreadable part (.child hmem hpart)
  | @array element values hvalues ih =>
      intro s owns value hsettled hvalue
      obtain ⟨id, items, rfl, hcontents, hitems⟩ := exists_items hvalue
      have hlength : (values.map Datum.flattened).length < 2 ^ 32 := by
        rw [List.length_map]
        exact (hreadable _ .self).length _ _ rfl
      have hread := yields_vecFromGuest hsettled hcontents hlength <| readsAs_items hsettled hitems
        fun value hmem => ih value hmem fun part hpart => hreadable part (.child hmem hpart)
      rw [Datum.flattened, flattenedItems_eq_map]
      refine yields_items (yields_bind.mpr (hread.mono ?_))
      rintro found t ⟨hmove, hsame⟩
      have hcount : found.length = values.length := by rw [← hsame.length_eq, List.length_map]
      rw [Elements.exact, if_pos hcount]
      exact yields_pure.mpr ⟨hmove, hsame⟩
  | @tuple elements values hlength hvalues ih =>
      intro s owns value hsettled hvalue
      obtain ⟨id, items, rfl, hcontents, hitems⟩ := exists_items hvalue
      have hreaders : List.Forall₂ (fun reader value => ∀ item,
          Holds R.toStore owns s.heap item value.encoding →
            ReadsAs R s reader item value.flattened)
          (elements.map (fromGuest platform)) values := by
        rw [List.forall₂_map_left_iff]
        refine List.forall₂_iff_zip.mpr ⟨hlength, fun {element value} hpair item hitem => ?_⟩
        refine (ih (element, value) hpair fun part hpart => ?_).readsAs hsettled hitem
        exact hreadable part (.child (List.of_mem_zip hpair).2 hpart)
      rw [Datum.flattened, flattenedItems_eq_map, fromGuest, fromGuestEach_eq_map]
      refine yields_items (yields_tupleFromGuest hsettled hcontents ?_ ?_ ?_ ?_)
      · rw [List.length_map]
        exact (hreadable _ .self).length _ _ rfl
      · rw [List.length_map, List.length_map, hlength]
      · rw [List.length_map, hitems.length_eq]
      · rw [List.forall₂_map_right_iff]
        exact (forall₂_zip hreaders hitems).imp fun pair value h => h.1 pair.2 h.2
  | @map element entries hkeys hentries ih =>
      intro s owns value hsettled hvalue
      obtain ⟨id, properties, rfl, hcontents, hproperties⟩ := exists_properties hvalue
      rw [Datum.flattened, flattenedFields_eq_map, fromGuest]
      have hkeys' : ((entries.map fun entry => (entry.1, entry.2.flattened)).map Prod.fst).Nodup := by
        rw [List.map_map]
        exact hkeys
      refine Process.yields_map.mpr (yields_mapFromGuest hsettled hcontents hkeys' ?_)
      rw [List.forall₂_map_right_iff]
      refine List.forall₂_iff_zip.mpr ⟨hproperties.length_eq, fun {property entry} hpair => ?_⟩
      have hmem := (List.of_mem_zip hpair).2
      obtain ⟨hkey, hheld⟩ := (List.forall₂_iff_zip.mp hproperties).2 hpair
      refine ⟨hkey, (ih entry hmem fun part hpart => ?_).readsAs hsettled hheld⟩
      exact hreadable part (.child (List.mem_map_of_mem hmem) hpart)

theorem Has.distinctKeys {type : Native} {datum part : Datum} (h : type.Has datum)
    (hpart : part.Within datum) : part.DistinctKeys := by
  induction h with
  | some hvalue ih =>
      cases hpart with
      | self => exact nofun
      | child hchild hpart =>
          obtain rfl := List.mem_singleton.mp hchild
          exact ih hpart
  | vec hvalues ih | array hvalues ih =>
      cases hpart with
      | self => exact nofun
      | child hchild hpart => exact ih _ hchild hpart
  | tuple hlength hvalues ih =>
      cases hpart with
      | self => exact nofun
      | @child child _ hchild hpart =>
          obtain ⟨element, hpair⟩ := exists_of_mem_zip (P := fun pair => pair ∈ List.zip _ _) hlength
            (fun _ hpair => hpair) hchild
          exact ih (element, child) hpair hpart
  | map hkeys hentries ih =>
      cases hpart with
      | self =>
          rintro form entries ⟨⟩
          exact hkeys
      | child hchild hpart =>
          obtain ⟨entry, hentry, rfl⟩ := List.mem_map.mp hchild
          exact ih entry hentry hpart
  | _ =>
      cases hpart with
      | self => exact nofun
      | child hchild _ => cases hchild

/-- **There and back by the direct conversions.** Into the guest they do what the serializer does,
request for request, so the outcome is the same whatever the guest does. In a realm, with no memory
lent, a value whose names and elements no prototype catches comes back as it was, but that an option
of nothing is nothing: with no such option in it, it is the same value. -/
theorem native_round_trip {type : Native} {datum : Datum} (h : type.Has datum) :
    (type.toGuest datum : Op E Value) = datum.serialize ∧
    ∀ (R : Realm platform) (s : Session E),
      (∀ part, Datum.Within part datum → Writable R.toStore s.heap part) → s.loans.settled = .ok () →
      ∃ value t, type.toGuest datum s = .done (.ok value) t ∧
        ∃ found u, type.fromGuest platform value t = .done (.ok found) u ∧
          datum.flattened.Same found ∧ (datum.IsFlat → datum.Same found) := by
  refine ⟨toGuest_eq_serialize h, fun R s hwritable hsettled => ?_⟩
  have hwritten := yields_serialize datum hsettled fun part hpart =>
    ⟨hwritable part hpart, h.distinctKeys hpart⟩
  obtain ⟨value, t, hdone, hmove, hvalue⟩ := yields_iff.mp hwritten
  have hread := reads_of_has h (fun part hpart => (hwritable part hpart).readable) t _ value
    (hmove.settled hsettled) hvalue
  obtain ⟨found, u, hfound, -, hsame⟩ := yields_iff.mp hread
  refine ⟨value, t, ?_, found, u, hfound, hsame, fun hflat => ?_⟩
  · rw [toGuest_eq_serialize h, hdone]
  · rwa [hflat.flattened_eq] at hsame

end Native

namespace PlainEngine

/-- A list with an option of nothing in it. -/
def doubtful : Datum := .items .seq [.wrapper .some (.scalar .none)]

theorem writable_doubtful {part : Datum} (hpart : part.Within doubtful) :
    Writable realm.toStore empty.heap part := by
  cases hpart with
  | self =>
      refine ⟨nofun, nofun, nofun, ?_⟩
      rintro _ _ ⟨⟩
      exact ⟨Bool.false_ne_true, by decide⟩
  | child hchild hpart =>
      obtain rfl := List.mem_singleton.mp hchild
      cases hpart with
      | self => exact ⟨nofun, nofun, nofun, nofun⟩
      | child hchild hpart =>
          obtain rfl := List.mem_singleton.mp hchild
          cases hpart with
          | self => exact ⟨nofun, nofun, nofun, nofun⟩
          | child hchild _ => cases hchild

theorem native_round_trip_doubtful :
    ∃ value t, (Native.vec (.option (.option .bool))).toGuest doubtful empty = .done (.ok value) t ∧
      ∃ found u, (Native.vec (.option (.option .bool))).fromGuest PlainEngine.platform value t =
          .done (.ok found) u ∧
        (Datum.items .seq [.scalar .none]).Same found ∧ (doubtful.IsFlat → doubtful.Same found) :=
  (Native.native_round_trip (.vec fun _ hvalue => List.mem_singleton.mp hvalue ▸
    .some (.none .bool))).2 realm empty (fun _ hpart => writable_doubtful hpart) rfl

end PlainEngine

end GuestJs.Marshal
