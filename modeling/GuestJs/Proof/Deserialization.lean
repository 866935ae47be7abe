import GuestJs.Library.Association
import GuestJs.Proof.Agreement
import GuestJs.Proof.LoanTable
import GuestJs.Proof.Serialization

/-!
# Deserializing, in a realm

A guest value that holds the encoding of a value of a type is read as that value, by the conversion of
the type. Reading makes strings for the names it asks for, and leaves everything else as it was.
-/

namespace GuestJs.Marshal

open QuickJs Process

variable {E : Engine} {α : Type} {platform : Platform E}

/-- What is read without loss: integers that are safe, and arrays of a length arrays have. -/
structure Readable (part : Datum) : Prop where
  safe : ∀ type n, part = .scalar (.integer type n) → n.natAbs ≤ maxSafeInteger
  length : ∀ form values, part = .items form values → values.length < 2 ^ 32

theorem Writable.readable {store : Store E} {heap : E.Heap} {part : Datum}
    (h : Writable store heap part) : Readable part :=
  ⟨h.safe, fun form values hpart => (h.elements form values hpart).2⟩

/-! ## Kinds -/

section Kinds

variable {R : Realm platform} {owns : ObjectId → Prop} {heap : E.Heap} {value : Value}

theorem kindOf_of_contents {id : ObjectId} {c : Contents} (h : R.contents heap id = some c) :
    kindOf E (.object id) = c.kind := R.kind heap id c h

theorem kindOf_of_holds {encoding : Encoding} (h : Holds R.toStore owns heap value encoding)
    (hundefined : encoding ≠ .undefined) (hnull : encoding ≠ .null) :
    kindOf E value ≠ .undefined ∧ kindOf E value ≠ .null := by
  cases h with
  | undefined => exact absurd rfl hundefined
  | null => exact absurd rfl hnull
  | bytes hview hbuffer hslots hbytes => simp [kindOf_of_contents hslots, Contents.kind]
  | array hid hitems hlength hall => simp [kindOf_of_contents hitems, Contents.kind]
  | object hid hproperties hkeys hall => simp [kindOf_of_contents hproperties, Contents.kind]
  | _ => simp [kindOf]

theorem encoding_of_not_nullish (datum : Datum) (h : datum.isNullish = false) :
    datum.encoding ≠ .undefined ∧ datum.encoding ≠ .null := by
  induction datum using Datum.children_induction with
  | h datum ih =>
      cases datum with
      | scalar value => cases value <;> simp_all [Datum.isNullish, Datum.encoding, Scalar.encoding]
      | wrapper form value =>
          have hvalue := ih value List.mem_cons_self
          cases form with
          | some => exact hvalue h
          | newtypeStruct => exact hvalue h
          | newtypeVariant name => simp [Datum.encoding, WrapperForm.encoding, tagged]
      | items form values => cases form <;> simp [Datum.encoding, ItemsForm.encoding, tagged]
      | fields form entries => cases form <;> simp [Datum.encoding, FieldsForm.encoding, tagged]

end Kinds

/-! ## Operations on plain data -/

section Operations

variable (R : Realm platform) {s : Session E}

theorem yields_stringFromGuest (text : String) :
    (stringFromGuest (.string text)).Yields s fun found t =>
      found = text ∧ Onward R.toStore s t := by
  obtain ⟨heap, hdone, hkeeps⟩ := R.toCString s.heap text
  have hrequest : (request (.toCString (.string text)) : Raw E (Option String)).Yields s
      fun found t => found = some text ∧ Onward R.toStore s t :=
    yields_request hdone ⟨rfl, onward_of_keeps hkeeps⟩
  refine yields_bind.mpr ((yields_capture hrequest).mono ?_)
  rintro _ t ⟨rfl, hmove⟩
  exact yields_pure.mpr ⟨rfl, hmove⟩

theorem yields_get {object key value : Value} {id : ObjectId} (hobject : object = .object id)
    (hsettled : s.loans.settled = .ok ())
    (h : ∃ heap, E.primitive (.get (.object id) key) s.heap = .done (.ok value) heap ∧
      R.toStore.Keeps s.heap heap) :
    (get object key).Yields s fun found t => found = value ∧ Onward R.toStore s t := by
  obtain ⟨heap, hdone, hkeeps⟩ := h
  subst hobject
  refine yields_bind.mpr (yields_settled hsettled ?_)
  exact yields_capture (yields_bind.mpr (yields_pure.mpr
    (yields_request hdone ⟨rfl, onward_of_keeps hkeeps⟩)))

theorem asI64_of_range {n : Int} (hmin : -2 ^ 63 ≤ n) (hmax : n < 2 ^ 63) :
    (asI64 (.number (.finite n)) : Op E Int) = pure n := by
  rw [asI64, Rat.num_intCast, if_pos ⟨Rat.den_intCast n, hmin, hmax⟩]

theorem usize_fromGuest_of_lt {n : Nat} (h : n < 2 ^ 32) :
    (IntegerType.usize.fromGuest (.number (.finite (n : Int))) : Op E Int) = pure (n : Int) := by
  have hcontains : IntegerType.usize.Contains n := by
    simp only [IntegerType.Contains, IntegerType.min, IntegerType.max]
    omega
  simp only [IntegerType.fromGuest, i64FromGuest, kindOf]
  rw [asI64_of_range (by omega) (by omega), pure_bind, if_pos hcontains]

theorem usize_toGuest_of_lt {n : Nat} (h : n < 2 ^ 32) :
    (IntegerType.usize.toGuest n : Op E Value) = pure (.number (.finite (n : Int))) := by
  refine toGuest_of_safe ?_
  simp only [maxSafeInteger]
  omega

theorem eq_of_forall₂_range {items found : List α}
    (h : List.Forall₂ (fun index item => items[index]? = some item) (List.range items.length)
      found) :
    found = items := by
  obtain ⟨hlength, hitem⟩ := List.forall₂_iff_get.mp h
  rw [List.length_range] at hlength
  refine List.ext_getElem hlength.symm fun index hfound hitems => ?_
  have hindex := hitem index (by rwa [List.length_range]) hfound
  rw [List.get_eq_getElem, List.getElem_range, List.getElem?_eq_getElem hitems] at hindex
  exact (Option.some.inj hindex).symm

theorem yields_elements {id : ObjectId} {items : List Value}
    (hsettled : s.loans.settled = .ok ()) (hcontents : R.contents s.heap id = some (.elements items))
    (hlength : items.length < 2 ^ 32) :
    (Elements.read (.object id)).Yields s fun found t => found = items ∧ Onward R.toStore s t := by
  have hkind : kindOf E (.object id) = .array := kindOf_of_contents hcontents
  simp only [Elements.read, hkind]
  refine yields_bind.mpr ((yields_newString R "length").mono ?_)
  rintro _ s₁ ⟨rfl, hmove₁⟩
  have hcontents₁ := hmove₁.contents hcontents
  refine yields_bind.mpr ((yields_get R rfl (hmove₁.settled hsettled)
    (R.getLength s₁.heap id items hcontents₁)).mono ?_)
  rintro _ s₂ ⟨rfl, hmove₂⟩
  have hmove : Onward R.toStore s s₂ := hmove₁.trans hmove₂
  rw [usize_fromGuest_of_lt hlength, pure_bind, Int.toNat_natCast]
  have hloop : ((List.range items.length).mapM fun (index : Nat) => do
      let key ← IntegerType.usize.toGuest index
      get (.object id) key).Yields s₂ fun found t => Onward R.toStore s₂ t ∧
        List.Forall₂ (fun index item => items[index]? = some item) (List.range items.length)
          found := by
    refine yields_onward_mapM (fun _ _ _ _ hitem _ => hitem) (List.forall₂_same.mpr ?_)
    intro index hindex s' hmove'
    have hlt : index < items.length := List.mem_range.mp hindex
    have hget := yields_get R rfl ((hmove.trans hmove').settled hsettled)
      (R.getElement s'.heap id items index items[index]
        ((hmove.trans hmove').contents hcontents) (List.getElem?_eq_getElem hlt))
    rw [usize_toGuest_of_lt (by omega), pure_bind]
    refine hget.mono ?_
    rintro _ t ⟨rfl, hstep⟩
    exact ⟨hstep, List.getElem?_eq_getElem hlt⟩
  refine hloop.mono ?_
  rintro found t ⟨hmove', hfound⟩
  exact ⟨eq_of_forall₂_range hfound, hmove.trans hmove'⟩

/-- The entries come in an order of the engine's own. -/
theorem yields_entries {id : ObjectId} {properties : List (String × Value)}
    (hsettled : s.loans.settled = .ok ())
    (hcontents : R.contents s.heap id = some (.record properties))
    (hkeys : (properties.map Prod.fst).Nodup) :
    (Entries.read (.object id)).Yields s fun entries t =>
      (∃ found : List (String × Value), found.Perm properties ∧
        entries = found.map fun property => (.string property.1, property.2)) ∧
      Onward R.toStore s t := by
  have hkind : kindOf E (.object id) = .object := kindOf_of_contents hcontents
  simp only [Entries.read, hkind]
  obtain ⟨names, heap, hdone, hperm, hkeeps⟩ := R.keys s.heap id properties hcontents
  obtain ⟨found, rfl, hfound⟩ := Association.exists_perm_of_keys hperm
  have hlist : (keys (.object id)).Yields s fun keys t =>
      keys = (found.map Prod.fst).map Value.string ∧ Onward R.toStore s t := by
    refine yields_bind.mpr (yields_settled hsettled ?_)
    exact yields_capture (yields_bind.mpr (yields_pure.mpr
      (yields_request hdone ⟨rfl, onward_of_keeps hkeeps⟩)))
  refine yields_bind.mpr (hlist.mono ?_)
  rintro _ s₁ ⟨rfl, hmove⟩
  have hloop : (((found.map Prod.fst).map Value.string).mapM fun key => do
      let value ← get (.object id) key
      pure (key, value)).Yields s₁ fun entries t => Onward R.toStore s₁ t ∧
        List.Forall₂ (fun (property : String × Value) entry =>
          entry = (Value.string property.1, property.2)) found entries := by
    refine yields_onward_mapM (fun _ _ _ _ hentry _ => hentry) ?_
    rw [List.forall₂_map_left_iff, List.forall₂_map_left_iff]
    refine List.forall₂_same.mpr fun property hmem s' hmove' => ?_
    have hlookup : properties.lookup property.1 = some property.2 :=
      Association.lookup_of_mem hkeys (hfound.mem_iff.mp hmem)
    have hget := yields_get R rfl ((hmove.trans hmove').settled hsettled)
      (R.getProperty s'.heap id properties property.1 property.2
        ((hmove.trans hmove').contents hcontents) hlookup)
    refine yields_bind.mpr (hget.mono ?_)
    rintro _ t ⟨rfl, hstep⟩
    exact yields_pure.mpr ⟨hstep, rfl⟩
  refine hloop.mono ?_
  rintro entries t ⟨hmove', hentries⟩
  refine ⟨⟨found, hfound, ?_⟩, hmove.trans hmove'⟩
  rw [← List.forall₂_eq_eq_eq, List.forall₂_map_right_iff]
  exact hentries.flip

/-! ### Bytes -/

theorem drop_of_granted {s t : Session E} {kind : BorrowKind} {window : Window} {data size : Nat}
    {bytes : Bytes} (h : Granted s kind window data size bytes t) :
    bytes.drop t.loans = s.loans := by
  cases h with
  | empty hrange hmutable hempty => rfl
  | loan hrange hmutable hempty hlend => exact Loans.release_of_lend hlend

theorem heap_of_granted {s t : Session E} {kind : BorrowKind} {window : Window} {data size : Nat}
    {bytes : Bytes} (h : Granted s kind window data size bytes t) : t.heap = s.heap := by
  cases h <;> rfl

/-- A reader of a whole buffer gets it when nothing is lent. -/
theorem exists_granted (hsettled : s.loans.settled = .ok ()) (buffer : Value) (data size : Nat) :
    ∃ bytes t, Granted s .shared ⟨buffer, 0, size⟩ data size bytes t ∧
      bytes.window.byteLength = size ∧ (size ≠ 0 → bytes.address = data) := by
  have hrange : 0 + size ≤ size := (Nat.zero_add size).le
  by_cases hempty : size = 0
  · exact ⟨_, _, .empty hrange nofun hempty, rfl, fun hne => absurd hempty hne⟩
  · have hlend : ∃ loans, s.loans.lend ⟨"ArrayBuffer", data⟩ .shared = .ok loans := by
      simp [Loans.lend, Loans.settled_eq_ok_iff.mp hsettled]
    obtain ⟨loans, hlend⟩ := hlend
    exact ⟨_, _, .loan hrange nofun hempty hlend, rfl, fun _ => rfl⟩

theorem yields_bufferRange {view buffer : ObjectId} {bytes : List UInt8}
    (hview : R.contents s.heap view = some (.view buffer bytes.length))
    (hbuffer : R.contents s.heap buffer = some (.buffer bytes)) :
    (bufferRange (.object view)).Yields s fun window t =>
      window = ⟨.object buffer, 0, bytes.length⟩ ∧ Onward R.toStore s t := by
  have hkind : kindOf E (.object view) = .typedArray := kindOf_of_contents hview
  have hkind' : kindOf E (.object buffer) = .arrayBuffer := kindOf_of_contents hbuffer
  have hslots : ∀ s', Onward R.toStore s s' →
      (request (.typedArrayBuffer (.object view)) : Raw E (Value × Nat × Nat)).Yields s'
        fun slots t => slots = (.object buffer, 0, bytes.length) ∧ Onward R.toStore s t := by
    intro s' hmove
    obtain ⟨heap, hdone, hkeeps⟩ := R.typedArrayBuffer s'.heap view buffer bytes.length
      (hmove.contents hview)
    exact yields_request hdone ⟨rfl, hmove.trans (onward_of_keeps hkeeps)⟩
  simp only [bufferRange, hkind, QuickJs.buffer, viewRange, byteOffset, byteLength]
  refine yields_bind.mpr (yields_capture (yields_map.mpr ((hslots s .refl).mono ?_)))
  rintro _ s₁ ⟨rfl, hmove₁⟩
  simp only [hkind']
  refine yields_bind.mpr (yields_capture (yields_map.mpr ((hslots s₁ hmove₁).mono ?_)))
  rintro _ s₂ ⟨rfl, hmove₂⟩
  refine yields_bind.mpr (yields_capture (yields_map.mpr ((hslots s₂ hmove₂).mono ?_)))
  rintro _ t ⟨rfl, hmove⟩
  exact yields_pure.mpr ⟨rfl, hmove⟩

/-- The slice has the bytes, and giving it back leaves nothing lent. -/
theorem yields_fromGuestRef {view buffer : ObjectId} {bytes : List UInt8}
    (hsettled : s.loans.settled = .ok ())
    (hview : R.contents s.heap view = some (.view buffer bytes.length))
    (hbuffer : R.contents s.heap buffer = some (.buffer bytes)) :
    (fromGuestRef u8Element (.object view)).Yields s fun slice t =>
      R.toStore.Keeps s.heap t.heap ∧ slice.drop t.loans = s.loans ∧
        platform.bytes t.heap slice.address slice.window.byteLength = bytes := by
  have hkind : kindOf E (.object view) = .typedArray := kindOf_of_contents hview
  have hkind' : kindOf E (.object buffer) = .arrayBuffer := kindOf_of_contents hbuffer
  simp only [fromGuestRef, borrowElements, hkind]
  refine yields_bind.mpr (yields_bind.mpr ((yields_bufferRange R hview hbuffer).mono ?_))
  rintro _ s₁ ⟨rfl, hmove⟩
  obtain ⟨data, heap, hdone, hbytes, hkeeps⟩ := R.arrayBuffer s₁.heap buffer bytes
    (hmove.contents hbuffer)
  refine yields_bind.mpr (yields_capture ?_)
  rw [arrayBuffer_of_kind hkind']
  refine yields_request hdone ?_
  obtain ⟨slice, t, hgranted, hlength, haddress⟩ :=
    exists_granted (s := { s₁ with heap }) (hmove.settled hsettled) (.object buffer) data
      bytes.length
  refine yields_of_eq hgranted.grant_eq ?_
  have hcheck : u8Element.check slice.address slice.window.byteLength = .ok () := by
    simp [Element.check, u8Element, Nat.mod_one]
  have hread : platform.bytes heap slice.address slice.window.byteLength = bytes := by
    rw [hlength]
    by_cases hempty : bytes.length = 0
    · rw [List.length_eq_zero_iff.mp hempty]
      exact List.length_eq_zero_iff.mp (platform.length_bytes heap slice.address 0)
    · rw [haddress hempty, hbytes]
  rw [hcheck]
  refine yields_pure.mpr ⟨?_, ?_, ?_⟩
  · rw [heap_of_granted hgranted]
    exact hmove.heap.trans hkeeps
  · rw [drop_of_granted hgranted]
    exact hmove.loans
  · rw [heap_of_granted hgranted]
    exact hread

theorem yields_bytes {view buffer : ObjectId} {bytes : List UInt8}
    (hsettled : s.loans.settled = .ok ())
    (hview : R.contents s.heap view = some (.view buffer bytes.length))
    (hbuffer : R.contents s.heap buffer = some (.buffer bytes)) :
    (deserializeAny (bytesVisitor platform) (.object view)).Yields s fun found t =>
      found = bytes ∧ Onward R.toStore s t := by
  have hkind : kindOf E (.object view) = .typedArray := kindOf_of_contents hview
  simp only [deserializeAny, hkind, visitBorrowed]
  refine yields_bind.mpr ((yields_fromGuestRef R hsettled hview hbuffer).mono ?_)
  rintro slice s₁ ⟨hkeeps, hdrop, hbytes⟩
  refine yields_of_eq (a := bytes) (t := { s₁ with loans := slice.drop s₁.loans }) ?_
    ⟨rfl, hkeeps, hdrop⟩
  rw [← hbytes]
  rfl

/-! ## What a visitor is handed -/

theorem yields_visitStr {visitor : Visitor platform α} {text : String} {Q : α → Session E → Prop}
    (h : ∀ t, Onward R.toStore s t → (visitor.visitStr text).Yields t Q) :
    (deserializeAny visitor (.string text)).Yields s Q := by
  refine yields_bind.mpr ((yields_stringFromGuest R text).mono ?_)
  rintro _ t ⟨rfl, hmove⟩
  exact h t hmove

theorem yields_visitSeq {visitor : Visitor platform α} {id : ObjectId} {items : List Value}
    {Q : α → Session E → Prop} (hsettled : s.loans.settled = .ok ())
    (hcontents : R.contents s.heap id = some (.elements items)) (hlength : items.length < 2 ^ 32)
    (h : ∀ t, Onward R.toStore s t → (visitor.visitSeq ⟨items⟩).Yields t Q) :
    (deserializeAny visitor (.object id)).Yields s Q := by
  have hkind : kindOf E (.object id) = .array := kindOf_of_contents hcontents
  simp only [deserializeAny, hkind]
  refine yields_bind.mpr ((yields_elements R hsettled hcontents hlength).mono ?_)
  rintro _ t ⟨rfl, hmove⟩
  exact h t hmove

theorem yields_visitMap {visitor : Visitor platform α} {id : ObjectId}
    {properties : List (String × Value)} {Q : α → Session E → Prop}
    (hsettled : s.loans.settled = .ok ())
    (hcontents : R.contents s.heap id = some (.record properties))
    (hkeys : (properties.map Prod.fst).Nodup)
    (h : ∀ (found : List (String × Value)) t, found.Perm properties → Onward R.toStore s t →
      (visitor.visitMap (.new (found.map fun property => (.string property.1, property.2)))).Yields
        t Q) :
    (deserializeAny visitor (.object id)).Yields s Q := by
  have hkind : kindOf E (.object id) = .object := kindOf_of_contents hcontents
  simp only [deserializeAny, hkind]
  refine yields_bind.mpr ((yields_entries R hsettled hcontents hkeys).mono ?_)
  rintro _ t ⟨⟨found, hperm, rfl⟩, hmove⟩
  exact h found t hperm hmove

/-! ### Scalars -/

theorem yields_bool (b : Bool) :
    (deserializeAny (boolVisitor platform) (.boolean b)).Yields s fun found t =>
      found = b ∧ Onward R.toStore s t :=
  yields_of_eq (a := b) (t := s) rfl ⟨rfl, .refl⟩

theorem isSafeInteger_intCast {n : Int} (hsafe : n.natAbs ≤ maxSafeInteger) :
    isSafeInteger (.finite n) = true := by
  have hrange : IntegerType.i64.Contains n := by
    simp only [maxSafeInteger, IntegerType.Contains, IntegerType.min, IntegerType.max] at *
    omega
  refine isSafeInteger_iff.mpr ⟨n, ?_, hsafe⟩
  rw [whole, Rat.num_intCast, if_pos ⟨Rat.den_intCast n, hrange⟩]

theorem asInteger_intCast {n : Int} (hsafe : n.natAbs ≤ maxSafeInteger) :
    asInteger (.finite n) = n := by
  simp only [asInteger, Rat.num_intCast, Rat.den_intCast, Nat.cast_one, Int.tdiv_one,
    IntegerType.min, IntegerType.max, maxSafeInteger] at *
  omega

theorem visitI64_of_contains {type : IntegerType} {n : Int} (hn : type.Contains n) :
    (integerVisitor platform type).visitI64 n = pure n := by
  cases type
  case i64 => rfl
  all_goals exact if_pos hn

theorem yields_integer {type : IntegerType} {n : Int} (hn : type.Contains n)
    (hsafe : n.natAbs ≤ maxSafeInteger) :
    (deserializeAny (integerVisitor platform type) (.number (.finite n))).Yields s fun found t =>
      found = n ∧ Onward R.toStore s t := by
  have hread : deserializeAny (integerVisitor platform type) (.number (.finite n)) s =
      visitNumber (integerVisitor platform type) (.finite n) s := rfl
  refine yields_of_eq (a := n) (t := s) ?_ ⟨rfl, .refl⟩
  rw [hread, visitNumber, isSafeInteger_intCast hsafe]
  simp only [asInteger_intCast hsafe, visitI64_of_contains hn]
  rfl

theorem yields_char (c : Char) :
    (deserializeAny (charVisitor platform) (.string (String.singleton c))).Yields s fun found t =>
      found = c ∧ Onward R.toStore s t := by
  refine yields_visitStr R fun t hmove => ?_
  have hsingle : singleChar (String.singleton c) = some c := by simp [singleChar]
  simp only [charVisitor, hsingle]
  exact yields_pure.mpr ⟨rfl, hmove⟩

theorem yields_string (text : String) :
    (deserializeAny (stringVisitor platform) (.string text)).Yields s fun found t =>
      found = text ∧ Onward R.toStore s t :=
  yields_visitStr R fun _ hmove => yields_pure.mpr ⟨rfl, hmove⟩

end Operations

/-! ## Items -/

section Items

variable {R : Realm platform} {s : Session E}

/-- From this session on, the reader makes the value of the guest value. -/
def ReadsAs (R : Realm platform) (s : Session E) (reader : Value → Op E Datum) (value : Value)
    (datum : Datum) : Prop :=
  ∀ s', Onward R.toStore s s' →
    (reader value).Yields s' fun found t => Onward R.toStore s' t ∧ datum.Same found

theorem ReadsAs.onward {s' : Session E} {reader : Value → Op E Datum} {value : Value}
    {datum : Datum} (h : ReadsAs R s reader value datum) (hmove : Onward R.toStore s s') :
    ReadsAs R s' reader value datum :=
  fun _ hstep => h _ (hmove.trans hstep)

theorem forall₂_zip {A B C : Type} {P : A → C → Prop} {Q : B → C → Prop} {as : List A} {bs : List B}
    {cs : List C} (hP : List.Forall₂ P as cs) (hQ : List.Forall₂ Q bs cs) :
    List.Forall₂ (fun pair c => P pair.1 c ∧ Q pair.2 c) (as.zip bs) cs := by
  induction hP generalizing bs with
  | nil =>
      cases hQ
      exact .nil
  | cons ha _ ih =>
      cases hQ with
      | cons hb hrest => exact .cons ⟨ha, hb⟩ (ih hrest)

theorem takeEach_eq {expected : String} {count : Nat} {elements : List (Value → Op E α)}
    {items : List Value} (hlength : elements.length ≤ items.length) :
    takeEach expected count elements ⟨items⟩ =
      (elements.zip items).mapM fun pair => pair.1 pair.2 := by
  induction elements generalizing count items with
  | nil => rw [takeEach, List.zip_nil_left, List.mapM_nil]
  | cons element elements ih =>
      cases items with
      | nil => simp at hlength
      | cons item items =>
          rw [takeEach, List.zip_cons_cons, List.mapM_cons]
          simp only [ArrayAccess.nextElementSeed, bind_assoc, pure_bind,
            ih (Nat.le_of_succ_le_succ hlength)]

/-- An array whose elements are read as the values, all by one reader. -/
theorem yields_vec {id : ObjectId} {items : List Value} {reader : Value → Op E Datum}
    {values : List Datum} (hsettled : s.loans.settled = .ok ())
    (hcontents : R.contents s.heap id = some (.elements items)) (hlength : values.length < 2 ^ 32)
    (hitems : List.Forall₂ (ReadsAs R s reader) items values) :
    (deserializeAny (vecVisitor platform reader) (.object id)).Yields s fun found t =>
      Onward R.toStore s t ∧ List.Forall₂ Datum.Same values found := by
  refine yields_visitSeq R hsettled hcontents (by rwa [hitems.length_eq]) fun s' hmove => ?_
  simp only [vecVisitor, ArrayAccess.sizeHint, takeAll_eq]
  have hloop : (items.mapM reader).Yields s' fun found t =>
      Onward R.toStore s' t ∧ List.Forall₂ Datum.Same values found :=
    yields_onward_mapM (fun _ _ _ _ hsame _ => hsame)
      (hitems.imp fun _ _ hread => hread.onward hmove)
  exact yields_after hmove hloop

/-- An array whose elements are read as the values, each by its own reader. -/
theorem yields_each {id : ObjectId} {items : List Value} {readers : List (Value → Op E Datum)}
    {values : List Datum} {expecting expected : String} (hsettled : s.loans.settled = .ok ())
    (hcontents : R.contents s.heap id = some (.elements items)) (hlength : values.length < 2 ^ 32)
    (hcount : readers.length = values.length) (hcount' : items.length = values.length)
    (hitems : List.Forall₂ (fun (pair : (Value → Op E Datum) × Value) value =>
      ReadsAs R s pair.1 pair.2 value) (readers.zip items) values) :
    (deserializeAny (eachVisitor platform expecting expected readers) (.object id)).Yields s
      fun found t => Onward R.toStore s t ∧ List.Forall₂ Datum.Same values found := by
  refine yields_visitSeq R hsettled hcontents (by rwa [hcount']) fun s' hmove => ?_
  simp only [eachVisitor]
  rw [takeEach_eq (by omega)]
  have hloop : ((readers.zip items).mapM fun (pair : (Value → Op E Datum) × Value) =>
      pair.1 pair.2).Yields s' fun found t =>
        Onward R.toStore s' t ∧ List.Forall₂ Datum.Same values found :=
    yields_onward_mapM (fun _ _ _ _ hsame _ => hsame)
      (hitems.imp fun _ _ hread => hread.onward hmove)
  exact yields_after hmove hloop

theorem same_items {form : ItemsForm} {values found : List Datum}
    (h : List.Forall₂ Datum.Same values found) :
    Datum.Same (.items form values) (.items form found) :=
  .items h.length_eq fun _ hpair => (List.forall₂_iff_zip.mp h).2 hpair

end Items

/-! ## Entries -/

section Entries

variable {R : Realm platform} {s : Session E}

/-- The entry has been read, under its key. -/
def SameEntry (entry found : String × Datum) : Prop := entry.1 = found.1 ∧ entry.2.Same found.2

theorem keys_of_sameEntry {entries found : List (String × Datum)}
    (h : List.Forall₂ SameEntry entries found) : entries.map Prod.fst = found.map Prod.fst :=
  Association.keys_eq_of_forall₂ (h.imp fun _ _ hsame => hsame.1)

/-- Entries in another order make the same map. -/
theorem same_fields {form : FieldsForm} {entries entries' found : List (String × Datum)}
    (hkeys : (entries.map Prod.fst).Nodup) (hperm : entries'.Perm entries)
    (h : List.Forall₂ SameEntry entries' found) :
    Datum.Same (.fields form entries) (.fields form found) := by
  have hfound : (entries.map Prod.fst).Perm (found.map Prod.fst) := by
    rw [← keys_of_sameEntry h]
    exact (hperm.map Prod.fst).symm
  refine .fields hfound fun key value value' hvalue hvalue' => ?_
  obtain ⟨value'', hvalue'', hsame⟩ :=
    Association.exists_of_forall₂ h (hperm.mem_iff.mpr hvalue)
  rwa [Association.value_unique (hfound.nodup_iff.mp hkeys) hvalue' hvalue'']

theorem foldl_insert_of_nodup {map entries : List (String × α)}
    (hkeys : ((map ++ entries).map Prod.fst).Nodup) :
    entries.foldl (fun map entry => StdMap.insert map entry.1 entry.2) map = map ++ entries := by
  induction entries generalizing map with
  | nil => rw [List.foldl_nil, List.append_nil]
  | cons entry entries ih =>
      have hkey : entry.1 ∉ map.map Prod.fst := by
        rw [List.map_append] at hkeys
        exact fun hmem => (List.nodup_append.mp hkeys).2.2 _ hmem _ List.mem_cons_self rfl
      rw [List.foldl_cons, StdMap.insert, if_neg hkey, ih, List.append_assoc, List.singleton_append]
      rwa [List.append_assoc, List.singleton_append]

theorem yields_mapVisitor {id : ObjectId} {properties : List (String × Value)}
    {reader : Value → Op E Datum} {entries : List (String × Datum)}
    (hsettled : s.loans.settled = .ok ())
    (hcontents : R.contents s.heap id = some (.record properties))
    (hkeys : (entries.map Prod.fst).Nodup)
    (hentries : List.Forall₂ (fun property entry => property.1 = entry.1 ∧
      ReadsAs R s reader property.2 entry.2) properties entries) :
    (deserializeAny (mapVisitor platform reader) (.object id)).Yields s fun found t =>
      Onward R.toStore s t ∧ Datum.Same (.fields .map entries) (.fields .map found) := by
  have hsameKeys : properties.map Prod.fst = entries.map Prod.fst :=
    Association.keys_eq_of_forall₂ (hentries.imp fun _ _ h => h.1)
  refine yields_visitMap R hsettled hcontents (by rwa [hsameKeys]) fun found s' hperm hmove => ?_
  obtain ⟨entries', hentries', hperm'⟩ := List.perm_comp_forall₂ hperm hentries
  have hloop : ((found.map fun property => (Value.string property.1, property.2)).mapM
      (convertEntry (deserializeAny (stringVisitor platform)) reader)).Yields s' fun pairs t =>
        Onward R.toStore s' t ∧ List.Forall₂ SameEntry entries' pairs := by
    refine yields_onward_mapM (fun _ _ _ _ hsame _ => hsame) ?_
    rw [List.forall₂_map_left_iff]
    refine hentries'.imp ?_
    rintro property entry ⟨hkey, hread⟩ s₁ hmove₁
    refine yields_bind.mpr ((yields_string R property.1).mono ?_)
    rintro _ s₂ ⟨rfl, hmove₂⟩
    refine yields_bind.mpr ((hread s₂ (hmove.trans (hmove₁.trans hmove₂))).mono ?_)
    rintro datum t ⟨hlast, hsame⟩
    exact yields_pure.mpr ⟨hmove₂.trans hlast, hkey.symm, hsame⟩
  have hcollect : ∀ pairs, List.Forall₂ SameEntry entries' pairs →
      pairs.foldl (fun map entry => StdMap.insert map entry.1 entry.2) [] = pairs := by
    intro pairs hpairs
    refine foldl_insert_of_nodup ?_
    rw [List.nil_append, ← keys_of_sameEntry hpairs]
    exact (hperm'.map Prod.fst).nodup_iff.mpr hkeys
  simp only [mapVisitor, ObjectAccess.sizeHint, ObjectAccess.new, takeEntries_eq]
  refine Process.yields_map.mpr (hloop.mono ?_)
  rintro pairs t ⟨hmove', hpairs⟩
  rw [hcollect pairs hpairs]
  exact ⟨hmove.trans hmove', same_fields hkeys hperm' hpairs⟩

theorem yields_takeField {ignore : Value → Op E Unit} {found : List (String × Datum)}
    {key : String} {seed : Seed E} {value : Value} {datum : Datum} {rest : List (Value × Value)}
    (hkey : key ∉ found.map Prod.fst)
    (hread : ReadsAs R s seed.deserialize value datum) :
    (takeField ignore found (some (key, seed)) ⟨rest, some value⟩).Yields s fun taken t =>
      Onward R.toStore s t ∧ ∃ datum', datum.Same datum' ∧
        taken = (found ++ [(key, datum')], ⟨rest, none⟩) := by
  simp only [takeField, if_neg hkey, ObjectAccess.nextValueSeed, bind_assoc, pure_bind]
  refine yields_bind.mpr ((hread s .refl).mono ?_)
  rintro datum' t ⟨hmove, hsame⟩
  exact yields_pure.mpr ⟨hmove, datum', hsame, rfl⟩

/-- By induction on the properties: every key is that of a field, and of one not yet found. -/
theorem yields_takeFields {fields : List (String × Seed E)} (ignore : Value → Op E Unit)
    {properties : List (String × Value)} {entries : List (String × Datum)}
    (found : List (String × Datum)) (pending : Option Value) {s' : Session E}
    (hfields : (fields.map Prod.fst).Nodup)
    (hentries : List.Forall₂ (fun property entry => property.1 = entry.1 ∧
      ∃ seed, (property.1, seed) ∈ fields ∧ ReadsAs R s seed.deserialize property.2 entry.2)
      properties entries)
    (hkeys : (found.map Prod.fst ++ entries.map Prod.fst).Nodup) (hmove : Onward R.toStore s s') :
    (takeEntries (deserializeAny (fieldVisitor platform fields)) (takeField ignore)
        properties.length found
        ⟨properties.map fun property => (.string property.1, property.2), pending⟩).Yields s'
      fun taken t => Onward R.toStore s' t ∧ ∃ added, taken = found ++ added ∧
        List.Forall₂ SameEntry entries added := by
  induction hentries generalizing s' found pending with
  | nil => exact yields_pure.mpr ⟨.refl, [], (List.append_nil found).symm, .nil⟩
  | @cons property entry properties entries hentry _ ih =>
      obtain ⟨key, value⟩ := property
      obtain ⟨_, datum⟩ := entry
      obtain ⟨rfl, seed, hseed, hread⟩ := hentry
      have hkey : key ∉ found.map Prod.fst := fun hmem =>
        (List.nodup_append.mp hkeys).2.2 key hmem key List.mem_cons_self rfl
      have hname : (deserializeAny (fieldVisitor platform fields) (.string key)).Yields s'
          fun field t => field = some (key, seed) ∧ Onward R.toStore s' t := by
        refine yields_visitStr R fun t hmove' => yields_pure.mpr ⟨?_, hmove'⟩
        exact Association.find?_of_mem hfields hseed
      rw [List.length_cons, takeEntries, List.map_cons]
      simp only [ObjectAccess.nextKeySeed, bind_assoc, pure_bind]
      refine yields_bind.mpr (hname.mono ?_)
      rintro _ s₁ ⟨rfl, hmove₁⟩
      refine yields_bind.mpr ((yields_takeField hkey
        (hread.onward (hmove.trans hmove₁))).mono ?_)
      rintro _ s₂ ⟨hmove₂, datum', hsame, rfl⟩
      have hkeys' : ((found ++ [(key, datum')]).map Prod.fst ++ entries.map Prod.fst).Nodup := by
        rw [List.map_append, List.append_assoc]
        exact hkeys
      have hrest : Onward R.toStore s' s₂ := hmove₁.trans hmove₂
      refine (ih _ none hkeys' (hmove.trans hrest)).mono ?_
      rintro taken t ⟨hlast, added, rfl, hadded⟩
      refine ⟨hrest.trans hlast, (key, datum') :: added, ?_, .cons ⟨rfl, hsame⟩ hadded⟩
      rw [List.append_assoc, List.singleton_append]

/-- Every field has been found, so none is missing. -/
theorem settleFields_of_found {fields : List (String × Seed E)}
    {entries found : List (String × Datum)} (hkeys : fields.map Prod.fst = entries.map Prod.fst)
    (hfound : ∀ entry ∈ entries, ∃ value, found.lookup entry.1 = some value ∧ entry.2.Same value) :
    ∃ settled, settleFields fields found = .ok settled ∧
      List.Forall₂ SameEntry entries settled := by
  induction fields generalizing entries with
  | nil =>
      obtain rfl := List.map_eq_nil_iff.mp hkeys.symm
      exact ⟨[], rfl, .nil⟩
  | cons field fields ih =>
      obtain ⟨name, seed⟩ := field
      cases entries with
      | nil => cases hkeys
      | cons entry entries =>
          obtain ⟨hname, hrest⟩ := List.cons.inj hkeys
          obtain ⟨value, hlookup, hsame⟩ := hfound entry List.mem_cons_self
          obtain ⟨settled, hsettled, hall⟩ :=
            ih hrest fun other hmem => hfound other (List.mem_cons_of_mem _ hmem)
          refine ⟨(name, value) :: settled, ?_, .cons ⟨hname.symm, hsame⟩ hall⟩
          have hlookup' : found.lookup name = some value := by rwa [show name = entry.1 from hname]
          unfold settleFields at hsettled ⊢
          simp only [List.mapM_cons, hlookup', hsettled]
          rfl

/-- An object whose properties are read as the entries, each by the field of its name. -/
theorem yields_structVisitor {id : ObjectId} {properties : List (String × Value)}
    {fields : List (String × Seed E)} {ignore : Value → Op E Unit}
    {entries : List (String × Datum)} {expecting : String} {form : FieldsForm}
    (hsettled : s.loans.settled = .ok ())
    (hcontents : R.contents s.heap id = some (.record properties))
    (hfields : (fields.map Prod.fst).Nodup) (hkeys : fields.map Prod.fst = entries.map Prod.fst)
    (hentries : List.Forall₂ (fun property entry => property.1 = entry.1 ∧
      ∃ seed, (property.1, seed) ∈ fields ∧ ReadsAs R s seed.deserialize property.2 entry.2)
      properties entries) :
    (deserializeAny (structVisitor platform expecting ignore fields) (.object id)).Yields s
      fun found t => Onward R.toStore s t ∧
        Datum.Same (.fields form entries) (.fields form found) := by
  have hentryKeys : (entries.map Prod.fst).Nodup := hkeys ▸ hfields
  have hsameKeys : properties.map Prod.fst = entries.map Prod.fst :=
    Association.keys_eq_of_forall₂ (hentries.imp fun _ _ h => h.1)
  refine yields_visitMap R hsettled hcontents (by rwa [hsameKeys]) fun found s' hperm hmove => ?_
  obtain ⟨entries', hentries', hperm'⟩ := List.perm_comp_forall₂ hperm hentries
  have hkeys' : (entries'.map Prod.fst).Nodup := (hperm'.map Prod.fst).nodup_iff.mpr hentryKeys
  have htake := yields_takeFields ignore [] none hfields hentries' hkeys' hmove
  simp only [structVisitor, ObjectAccess.sizeHint, ObjectAccess.new, List.length_map]
  refine yields_bind.mpr (htake.mono ?_)
  rintro taken t ⟨hmove', _, rfl, hadded⟩
  have hfound : ∀ entry ∈ entries, ∃ value, taken.lookup entry.1 = some value ∧
      entry.2.Same value := by
    rintro ⟨key, datum⟩ hmem
    obtain ⟨value, hvalue, hsame⟩ :=
      Association.exists_of_forall₂ hadded (hperm'.mem_iff.mpr hmem)
    refine ⟨value, Association.lookup_of_mem ?_ hvalue, hsame⟩
    rwa [← keys_of_sameEntry hadded]
  obtain ⟨settled, hsettle, hall⟩ := settleFields_of_found hkeys hfound
  rw [hsettle]
  exact yields_pure.mpr ⟨hmove.trans hmove', same_fields hentryKeys (.refl entries) hall⟩

end Entries

/-! ## All types -/

section Types

variable {Id : Type} {types : Id → Shape Id} {R : Realm platform} {s : Session E} {depth : Nat}
  {owns : ObjectId → Prop} {value : Value}

/-- To this depth, the type reads the value from whatever holds its encoding. -/
def ReadAt (R : Realm platform) (types : Id → Shape Id) (depth : Nat) (id : Id) (datum : Datum) :
    Prop :=
  ∀ (s : Session E) (owns : ObjectId → Prop) (value : Value), s.loans.settled = .ok () →
    Holds R.toStore owns s.heap value datum.encoding →
    (deserialize platform types depth id value).Yields s fun found t =>
      Onward R.toStore s t ∧ datum.Same found

theorem ReadAt.readsAs {id : Id} {datum : Datum} (h : ReadAt R types depth id datum)
    (hsettled : s.loans.settled = .ok ())
    (hvalue : Holds R.toStore owns s.heap value datum.encoding) :
    ReadsAs R s (deserialize platform types depth id) value datum :=
  fun s' hmove => h s' owns value (hmove.settled hsettled) (hmove.holds hvalue)

theorem exists_items {values : List Datum}
    (h : Holds R.toStore owns s.heap value (.array (encodings values))) :
    ∃ id items, value = .object id ∧ R.contents s.heap id = some (.elements items) ∧
      List.Forall₂ (fun item value => Holds R.toStore owns s.heap item value.encoding) items
        values := by
  rw [encodings_eq_map] at h
  cases h with
  | @array id items _ hid hitems hlength hall =>
      refine ⟨id, items, rfl, hitems, ?_⟩
      rw [← List.forall₂_map_right_iff]
      exact List.forall₂_iff_zip.mpr ⟨hlength, fun hpair => hall _ hpair⟩

theorem exists_properties {entries : List (String × Datum)}
    (h : Holds R.toStore owns s.heap value (.object (fieldEncodings entries))) :
    ∃ id properties, value = .object id ∧ R.contents s.heap id = some (.record properties) ∧
      List.Forall₂ (fun property entry => property.1 = entry.1 ∧
        Holds R.toStore owns s.heap property.2 entry.2.encoding) properties entries := by
  rw [fieldEncodings_eq_map] at h
  cases h with
  | @object id properties _ hid hproperties hkeys hall =>
      refine ⟨id, properties, rfl, hproperties, ?_⟩
      have hall' := Association.forall₂_of_keys hkeys hall
      rwa [List.forall₂_map_right_iff] at hall'

theorem exists_tagged {name : String} {encoding : Encoding}
    (h : Holds R.toStore owns s.heap value (tagged name encoding)) :
    ∃ id content, value = .object id ∧ R.contents s.heap id = some (.record [(name, content)]) ∧
      Holds R.toStore owns s.heap content encoding := by
  unfold tagged at h
  cases h with
  | @object id properties _ hid hproperties hkeys hall =>
      cases Association.forall₂_of_keys hkeys hall with
      | @cons property _ rest _ hproperty hrest =>
          obtain ⟨_, content⟩ := property
          obtain ⟨rfl, hcontent⟩ := hproperty
          cases hrest
          exact ⟨id, content, rfl, hproperties, hcontent⟩

theorem yields_scalar {f : α → Scalar} {p : Op E α} {a : α}
    (h : p.Yields s fun found t => found = a ∧ Onward R.toStore s t) :
    ((fun a => Datum.scalar (f a)) <$> p).Yields s fun found t =>
      Onward R.toStore s t ∧ (Datum.scalar (f a)).Same found := by
  refine Process.yields_map.mpr (h.mono ?_)
  rintro _ t ⟨rfl, hmove⟩
  exact ⟨hmove, .scalar _⟩

theorem yields_wrapper {form : WrapperForm} {p : Op E Datum} {datum : Datum}
    (h : p.Yields s fun found t => Onward R.toStore s t ∧ datum.Same found) :
    (Datum.wrapper form <$> p).Yields s fun found t =>
      Onward R.toStore s t ∧ (Datum.wrapper form datum).Same found :=
  Process.yields_map.mpr (h.mono fun _ _ hfound => ⟨hfound.1, .wrapper hfound.2⟩)

theorem yields_items {form : ItemsForm} {p : Op E (List Datum)} {values : List Datum}
    (h : p.Yields s fun found t => Onward R.toStore s t ∧ List.Forall₂ Datum.Same values found) :
    (Datum.items form <$> p).Yields s fun found t =>
      Onward R.toStore s t ∧ (Datum.items form values).Same found :=
  Process.yields_map.mpr (h.mono fun _ _ hfound => ⟨hfound.1, same_items hfound.2⟩)

/-- A tuple, whatever it is called, is read from an array of its values. -/
theorem yields_elements_of {elements : List Id} {values : List Datum} {expecting expected : String}
    (hsettled : s.loans.settled = .ok ()) (hlength : values.length < 2 ^ 32)
    (helements : List.Forall₂ (ReadAt R types depth) elements values)
    (hvalue : Holds R.toStore owns s.heap value (.array (encodings values))) :
    (deserializeAny (eachVisitor platform expecting expected
      (elements.map (deserialize platform types depth))) value).Yields s fun found t =>
        Onward R.toStore s t ∧ List.Forall₂ Datum.Same values found := by
  obtain ⟨id, items, rfl, hcontents, hitems⟩ := exists_items hvalue
  refine yields_each hsettled hcontents hlength ?_ hitems.length_eq ?_
  · rw [List.length_map, helements.length_eq]
  · have hreaders : List.Forall₂ (fun reader value => ∀ item,
        Holds R.toStore owns s.heap item value.encoding → ReadsAs R s reader item value)
        (elements.map (deserialize platform types depth)) values := by
      rw [List.forall₂_map_left_iff]
      exact helements.imp fun id value hread item => hread.readsAs hsettled
    exact (forall₂_zip hreaders hitems).imp fun pair value h => h.1 pair.2 h.2

/-- A part of a type as the layer around it has it. -/
def seedAt (platform : Platform E) (types : Id → Shape Id) (depth : Nat) (id : Id) : Seed E :=
  ⟨deserialize platform types depth id, (types id).missing⟩

theorem deserialize_succ (id : Id) (value : Value) :
    deserialize platform types (depth + 1) id value =
      ((types id).mapParts (seedAt platform types depth)).deserialize platform
        (ignoredAny platform depth) value := rfl

/-- A struct, or what a variant has of one, is read from an object of its entries. -/
theorem yields_fields_of {fields : List (String × Id)} {entries : List (String × Datum)}
    {expecting : String} {ignore : Value → Op E Unit} {form : FieldsForm}
    (hsettled : s.loans.settled = .ok ()) (hnames : (fields.map Prod.fst).Nodup)
    (hfields : List.Forall₂ (fun field entry => field.1 = entry.1 ∧
      ReadAt R types depth field.2 entry.2) fields entries)
    (hvalue : Holds R.toStore owns s.heap value (.object (fieldEncodings entries))) :
    (Datum.fields form <$> deserializeAny (structVisitor platform expecting ignore
      (fields.map fun field => (field.1, seedAt platform types depth field.2))) value).Yields s
        fun found t => Onward R.toStore s t ∧ (Datum.fields form entries).Same found := by
  obtain ⟨id, properties, rfl, hcontents, hproperties⟩ := exists_properties hvalue
  have hseeds : (fields.map fun field => (field.1, seedAt platform types depth field.2)).map
      Prod.fst = fields.map Prod.fst := by
    rw [List.map_map]
    rfl
  have hentries : List.Forall₂ (fun entry field => entry.1 = field.1 ∧
      ReadAt R types depth field.2 entry.2) entries fields :=
    hfields.flip.imp fun entry field h => ⟨h.1.symm, h.2⟩
  refine Process.yields_map.mpr (yields_structVisitor hsettled hcontents ?_ ?_ ?_)
  · rwa [hseeds]
  · rw [hseeds]
    exact Association.keys_eq_of_forall₂ (hfields.imp fun _ _ h => h.1)
  · refine List.forall₂_iff_zip.mpr ⟨hproperties.length_eq, fun {property entry} hpair => ?_⟩
    obtain ⟨hkey, hheld⟩ := (List.forall₂_iff_zip.mp hproperties).2 hpair
    obtain ⟨part, hpart, hread⟩ := Association.exists_of_forall₂
      (Q := fun datum part => ReadAt R types depth part datum) hentries (List.of_mem_zip hpair).2
    refine ⟨hkey, seedAt platform types depth part, ?_, hread.readsAs hsettled hheld⟩
    rw [hkey]
    exact List.mem_map_of_mem hpart

theorem visitStr_variant {variants : List (String × VariantShape (Seed E))} {name : String}
    {shape : VariantShape (Seed E)} (hnames : (variants.map Prod.fst).Nodup)
    (hvariant : (name, shape) ∈ variants) :
    (variantVisitor platform variants).visitStr name = pure (name, shape) := by
  simp only [variantVisitor, Association.find?_of_mem hnames hvariant]

theorem yields_unitVariant {enum name : String} {ignore : Value → Op E Unit}
    {variants : List (String × VariantShape (Seed E))} (hnames : (variants.map Prod.fst).Nodup)
    (hvariant : (name, .unit) ∈ variants) :
    (deserializeEnum (enumVisitor platform enum ignore variants) (.string name)).Yields s
      fun found t => Onward R.toStore s t ∧ (Datum.scalar (.unitVariant name)).Same found := by
  refine yields_bind.mpr ((yields_stringFromGuest R name).mono ?_)
  rintro _ t ⟨rfl, hmove⟩
  simp only [enumVisitor, visitStr_variant hnames hvariant, pure_bind, readUnitOnly]
  exact yields_pure.mpr ⟨hmove, .scalar _⟩

/-- An object of one property is a variant, and the property has its content. -/
theorem yields_readVariant {enum name : String} {ignore : Value → Op E Unit}
    {variants : List (String × VariantShape (Seed E))} {shape : VariantShape (Seed E)}
    {encoding : Encoding} {Q : Datum → Session E → Prop} (hsettled : s.loans.settled = .ok ())
    (hnames : (variants.map Prod.fst).Nodup) (hvariant : (name, shape) ∈ variants)
    (hvalue : Holds R.toStore owns s.heap value (tagged name encoding))
    (hcontent : ∀ content t, Onward R.toStore s t → Holds R.toStore owns t.heap content encoding →
      (readVariant platform enum ignore name content shape).Yields t Q) :
    (deserializeEnum (enumVisitor platform enum ignore variants) value).Yields s Q := by
  obtain ⟨id, content, rfl, hcontents, hheld⟩ := exists_tagged hvalue
  have hkind : kindOf E (.object id) = .object := kindOf_of_contents hcontents
  simp only [deserializeEnum, hkind]
  refine yields_bind.mpr ((yields_entries R hsettled hcontents (List.nodup_singleton name)).mono ?_)
  rintro _ s₁ ⟨⟨found, hperm, rfl⟩, hmove₁⟩
  obtain rfl := List.perm_singleton.mp hperm
  refine yields_bind.mpr (yields_pure.mpr (yields_bind.mpr (yields_visitStr R fun t hmove₂ => ?_)))
  rw [visitStr_variant hnames hvariant]
  have hmove : Onward R.toStore s t := hmove₁.trans hmove₂
  exact yields_pure.mpr (hcontent content t hmove (hmove.holds hheld))

theorem deserializeOption_of_kind {visitor : Visitor platform α}
    (h : kindOf E value ≠ .undefined ∧ kindOf E value ≠ .null) :
    deserializeOption visitor value = visitor.visitSome value := by
  unfold deserializeOption
  split
  · next hkind => exact absurd hkind h.1
  · next hkind => exact absurd hkind h.2
  · rfl

theorem map_seedAt (elements : List Id) :
    (elements.map (seedAt platform types depth)).map Seed.deserialize =
      elements.map (deserialize platform types depth) := by
  rw [List.map_map]
  rfl

theorem readAt_each {elements : List Id} {values : List Datum}
    (hparts : ∀ part child, child ∈ values → Admits types part child →
      ReadAt R types depth part child) (hlength : elements.length = values.length)
    (hvalues : ∀ pair ∈ elements.zip values, Admits types pair.1 pair.2) :
    List.Forall₂ (ReadAt R types depth) elements values :=
  List.forall₂_iff_zip.mpr ⟨hlength, fun hpair =>
    hparts _ _ (List.of_mem_zip hpair).2 (hvalues _ hpair)⟩

theorem readAt_fields {fields : List (String × Id)} {entries : List (String × Datum)}
    (hparts : ∀ part child, child ∈ entries.map Prod.snd → Admits types part child →
      ReadAt R types depth part child) (hkeys : fields.map Prod.fst = entries.map Prod.fst)
    (hentries : ∀ pair ∈ fields.zip entries, Admits types pair.1.2 pair.2.2) :
    List.Forall₂ (fun field entry => field.1 = entry.1 ∧ ReadAt R types depth field.2 entry.2)
      fields entries :=
  Association.forall₂_of_keys hkeys fun pair hpair =>
    hparts _ _ (List.mem_map_of_mem (List.of_mem_zip hpair).2) (hentries pair hpair)

/-- The variants as the layer around them has them, under the same names. -/
theorem nodup_variants {variants : List (String × VariantShape Id)}
    (h : (variants.map Prod.fst).Nodup) :
    ((variants.map fun variant => (variant.1, variant.2.mapParts (seedAt platform types depth))).map
      Prod.fst).Nodup := by
  rw [List.map_map]
  exact h

theorem mem_variants {variants : List (String × VariantShape Id)} {name : String}
    {shape : VariantShape Id} (h : (name, shape) ∈ variants) :
    (name, shape.mapParts (seedAt platform types depth)) ∈
      variants.map fun variant => (variant.1, variant.2.mapParts (seedAt platform types depth)) :=
  List.mem_map_of_mem (f := fun variant : String × VariantShape Id =>
    (variant.1, variant.2.mapParts (seedAt platform types depth))) h

/-- One layer of a type reads one layer of a value, if the types of the parts read the parts. -/
theorem readAt_succ {id : Id} {datum : Datum} (h : Admits types id datum)
    (hreadable : Readable datum)
    (hparts : ∀ part child, child ∈ datum.children → Admits types part child →
      ReadAt R types depth part child) : ReadAt R types (depth + 1) id datum := by
  intro s owns value hsettled hvalue
  rw [deserialize_succ]
  cases h with
  | bool htype b =>
      cases hvalue
      rw [htype]
      exact yields_scalar (yields_bool R b)
  | @integer _ type htype n hn =>
      cases hvalue
      rw [htype]
      exact yields_scalar (f := .integer type) (yields_integer R hn (hreadable.safe type n rfl))
  | char htype c =>
      cases hvalue
      rw [htype]
      exact yields_scalar (yields_char R c)
  | string htype text =>
      cases hvalue
      rw [htype]
      exact yields_scalar (yields_string R text)
  | bytes htype bytes =>
      cases hvalue with
      | bytes hview hbuffer hslots hbytes =>
          rw [htype]
          exact yields_scalar (yields_bytes R hsettled hslots hbytes)
  | unit htype =>
      cases hvalue
      rw [htype]
      exact yields_of_eq (t := s) rfl ⟨.refl, .scalar _⟩
  | unitStruct htype =>
      cases hvalue
      rw [htype]
      exact yields_of_eq (t := s) rfl ⟨.refl, .scalar _⟩
  | none htype =>
      cases hvalue
      rw [htype]
      exact yields_of_eq (t := s) rfl ⟨.refl, .scalar _⟩
  | @some _ inner content htype hcontent hnullish =>
      have hencoding := encoding_of_not_nullish content hnullish
      have hread := hparts inner content List.mem_cons_self hcontent s owns value hsettled hvalue
      rw [htype]
      simp only [Shape.mapParts, Shape.deserialize,
        deserializeOption_of_kind (kindOf_of_holds hvalue hencoding.1 hencoding.2), optionVisitor]
      refine Process.yields_map.mpr (Process.yields_map.mpr (hread.mono ?_))
      exact fun _ _ hfound => ⟨hfound.1, .wrapper hfound.2⟩
  | @newtypeStruct _ inner name content htype hcontent =>
      rw [htype]
      exact yields_wrapper (hparts inner content List.mem_cons_self hcontent s owns value hsettled
        hvalue)
  | @seq _ element values htype hvalues =>
      obtain ⟨id, items, rfl, hcontents, hitems⟩ := exists_items hvalue
      rw [htype]
      refine yields_items (yields_vec hsettled hcontents (hreadable.length _ _ rfl) ?_)
      refine List.forall₂_iff_zip.mpr ⟨hitems.length_eq, fun hpair => ?_⟩
      have hmem := (List.of_mem_zip hpair).2
      exact (hparts element _ hmem (hvalues _ hmem)).readsAs hsettled
        ((List.forall₂_iff_zip.mp hitems).2 hpair)
  | @tuple _ elements values htype hlength hvalues =>
      rw [htype]
      simp only [Shape.mapParts, Shape.deserialize, tupleVisitor, map_seedAt]
      exact yields_items (yields_elements_of hsettled (hreadable.length _ _ rfl)
        (readAt_each hparts hlength hvalues) hvalue)
  | @array _ element values htype hvalues =>
      have helements : List.Forall₂ (ReadAt R types depth)
          (List.replicate values.length element) values := by
        refine readAt_each hparts List.length_replicate fun pair hpair => ?_
        have hmem := List.of_mem_zip hpair
        rw [List.eq_of_mem_replicate hmem.1]
        exact hvalues _ hmem.2
      have hreaders :
          List.replicate values.length (seedAt platform types depth element).deserialize =
            (List.replicate values.length element).map (deserialize platform types depth) := by
        rw [List.map_replicate]
        rfl
      rw [htype]
      simp only [Shape.mapParts, Shape.deserialize, arrayVisitor, hreaders]
      exact yields_items (yields_elements_of hsettled (hreadable.length _ _ rfl) helements hvalue)
  | @tupleStruct _ name elements values htype hlength hvalues =>
      rw [htype]
      simp only [Shape.mapParts, Shape.deserialize, fieldsVisitor, map_seedAt]
      exact yields_items (yields_elements_of hsettled (hreadable.length _ _ rfl)
        (readAt_each hparts hlength hvalues) hvalue)
  | @map _ element entries htype hkeys hentries =>
      obtain ⟨id, properties, rfl, hcontents, hproperties⟩ := exists_properties hvalue
      rw [htype]
      refine Process.yields_map.mpr (yields_mapVisitor hsettled hcontents hkeys ?_)
      refine List.forall₂_iff_zip.mpr ⟨hproperties.length_eq, fun {property entry} hpair => ?_⟩
      obtain ⟨hkey, hheld⟩ := (List.forall₂_iff_zip.mp hproperties).2 hpair
      have hmem := (List.of_mem_zip hpair).2
      exact ⟨hkey, (hparts element entry.2 (List.mem_map_of_mem hmem)
        (hentries entry hmem)).readsAs hsettled hheld⟩
  | @struct _ name fields entries htype hnames hkeys hentries =>
      rw [htype]
      exact yields_fields_of hsettled hnames (readAt_fields hparts hkeys hentries) hvalue
  | @unitVariant _ enum name variants htype hnames hvariant =>
      cases hvalue
      rw [htype]
      exact yields_unitVariant (nodup_variants hnames) (mem_variants hvariant)
  | @newtypeVariant _ inner enum name variants content htype hnames hvariant hcontent =>
      rw [htype]
      refine yields_readVariant hsettled (nodup_variants hnames) (mem_variants hvariant) hvalue
        fun object t hmove hheld => ?_
      have hread := hparts inner content List.mem_cons_self hcontent t owns object
        (hmove.settled hsettled) hheld
      exact yields_after hmove (yields_wrapper hread)
  | @tupleVariant _ enum name variants elements values htype hnames hvariant hlength hvalues =>
      rw [htype]
      refine yields_readVariant hsettled (nodup_variants hnames) (mem_variants hvariant) hvalue
        fun object t hmove hheld => ?_
      simp only [VariantShape.mapParts, readVariant, fieldsVisitor, map_seedAt]
      exact yields_after hmove (yields_items (yields_elements_of (hmove.settled hsettled)
        (hreadable.length _ _ rfl) (readAt_each hparts hlength hvalues) hheld))
  | @structVariant _ enum name variants fields entries htype hnames hvariant hfields hkeys hentries =>
      rw [htype]
      refine yields_readVariant hsettled (nodup_variants hnames) (mem_variants hvariant) hvalue
        fun object t hmove hheld => ?_
      exact yields_after hmove (yields_fields_of (hmove.settled hsettled) hfields
        (readAt_fields hparts hkeys hentries) hheld)

theorem readAt_of_admits {id : Id} {datum : Datum} (h : Admits types id datum)
    (hreadable : ∀ part, part.Within datum → Readable part) (hdepth : sizeOf datum ≤ depth) :
    ReadAt R types depth id datum := by
  induction depth generalizing id datum with
  | zero => cases datum <;> simp at hdepth
  | succ depth ih =>
      refine readAt_succ h (hreadable datum .self) fun part child hchild hpart => ?_
      have hlt := Datum.sizeOf_lt_of_mem_children hchild
      exact ih hpart (fun inner hinner => hreadable inner (.child hchild hinner)) (by omega)

end Types

end GuestJs.Marshal
