import GuestJs.Proof.Deserialization

/-!
# There and back

What the serializer makes of a value is read as the value again. A value with an integer that a
double cannot be trusted with, at whatever depth, is not serialized at all.
-/

namespace GuestJs.Marshal

open QuickJs Process

variable {E : Engine} {α β : Type} {platform : Platform E}

/-! ## Parts of values of a type -/

section Parts

variable {Id : Type} {types : Id → Shape Id}

theorem exists_of_mem_zip {as : List α} {bs : List β} {P : α × β → Prop}
    (hlength : as.length = bs.length) (h : ∀ pair ∈ as.zip bs, P pair) {b : β} (hb : b ∈ bs) :
    ∃ a, P (a, b) := by
  rw [← List.map_snd_zip hlength.ge] at hb
  obtain ⟨⟨a, _⟩, hpair, rfl⟩ := List.mem_map.mp hb
  exact ⟨a, h _ hpair⟩

theorem Admits.child {id : Id} {datum child : Datum} (h : Admits types id datum)
    (hchild : child ∈ datum.children) : ∃ part, Admits types part child := by
  have hfields : ∀ {fields : List (String × Id)} {entries : List (String × Datum)},
      fields.map Prod.fst = entries.map Prod.fst →
      (∀ pair ∈ fields.zip entries, Admits types pair.1.2 pair.2.2) →
      ∀ entry ∈ entries, ∃ part, Admits types part entry.2 := by
    intro fields entries hkeys hentries entry hentry
    have hlength : fields.length = entries.length := by
      simpa only [List.length_map] using congrArg List.length hkeys
    obtain ⟨field, hfield⟩ := exists_of_mem_zip (P := fun pair => Admits types pair.1.2 pair.2.2)
      hlength hentries hentry
    exact ⟨field.2, hfield⟩
  cases h with
  | some htype hvalue hnullish | newtypeStruct htype hvalue
  | newtypeVariant htype hnames hvariant hvalue =>
      obtain rfl := List.mem_singleton.mp hchild
      exact ⟨_, hvalue⟩
  | seq htype hvalues | array htype hvalues => exact ⟨_, hvalues _ hchild⟩
  | tuple htype hlength hvalues | tupleStruct htype hlength hvalues
  | tupleVariant htype hnames hvariant hlength hvalues =>
      exact exists_of_mem_zip (P := fun pair => Admits types pair.1 pair.2) hlength hvalues hchild
  | map htype hkeys hentries =>
      obtain ⟨entry, hentry, rfl⟩ := List.mem_map.mp hchild
      exact ⟨_, hentries entry hentry⟩
  | struct htype hnames hkeys hentries
  | structVariant htype hnames hvariant hdistinct hkeys hentries =>
      obtain ⟨entry, hentry, rfl⟩ := List.mem_map.mp hchild
      exact hfields hkeys hentries entry hentry
  | _ => cases hchild

theorem Admits.distinctKeys {id : Id} {datum : Datum} (h : Admits types id datum) :
    datum.DistinctKeys := by
  rintro form entries rfl
  cases h with
  | map htype hkeys hentries => exact hkeys
  | struct htype hnames hkeys hentries => rwa [← hkeys]
  | structVariant htype hnames hvariant hfields hkeys hentries => rwa [← hkeys]

theorem Admits.within {id : Id} {datum part : Datum} (h : Admits types id datum)
    (hpart : part.Within datum) : part.DistinctKeys := by
  induction hpart generalizing id with
  | self => exact h.distinctKeys
  | child hchild _ ih =>
      obtain ⟨inner, hinner⟩ := h.child hchild
      exact ih hinner

end Parts

/-! ## Values that are not serialized -/

section Refusal

variable {environment : Environment E} {s t : Session E} {value : Value}

theorem resolve_mapM_mem {f : α → Op E β} {as : List α} {bs : List β}
    (h : (as.mapM f s).resolve environment = (.ok bs, t)) {a : α} (ha : a ∈ as) :
    ∃ s' b t', (f a s').resolve environment = (.ok b, t') := by
  induction as generalizing s bs with
  | nil => cases ha
  | cons first as ih =>
      obtain ⟨b, s', bs', hfirst, hrest, -⟩ := resolve_mapM_cons_ok.mp h
      cases ha with
      | head => exact ⟨s, b, s', hfirst⟩
      | tail _ ha => exact ih hrest ha

theorem resolve_serializeFields_mem {serializer serializer' : ObjectSerializer}
    {entries : List (String × Datum)}
    (h : (serializeFields serializer entries s).resolve environment = (.ok serializer', t))
    {entry : String × Datum} (hentry : entry ∈ entries) :
    ∃ s' value t', (entry.2.serialize s').resolve environment = (.ok value, t') := by
  induction entries generalizing s serializer with
  | nil => cases hentry
  | cons first entries ih =>
      obtain ⟨next, s', hfirst, hrest⟩ := resolve_bind_ok.mp h
      cases hentry with
      | head =>
          obtain ⟨_, s₁, hkey, hset⟩ := resolve_bind_ok.mp hfirst
          obtain ⟨key, _, -, hpure⟩ := resolve_bind_ok.mp hkey
          obtain ⟨rfl, rfl⟩ := resolve_pure_ok.mp hpure
          obtain ⟨value, t', hvalue, -⟩ := resolve_bind_ok.mp hset
          exact ⟨_, value, t', hvalue⟩
      | tail _ hentry => exact ih hrest hentry

/-- Whatever is serialized has its parts serialized on the way. -/
theorem resolve_serialize_child {datum child : Datum} (hchild : child ∈ datum.children)
    (h : (datum.serialize s).resolve environment = (.ok value, t)) :
    ∃ s' value' t', (child.serialize s').resolve environment = (.ok value', t') := by
  cases datum with
  | scalar value => cases hchild
  | wrapper form content =>
      obtain rfl := List.mem_singleton.mp hchild
      obtain ⟨content', s', hcontent, -⟩ := resolve_bind_ok.mp h
      exact ⟨s, content', s', hcontent⟩
  | items form values =>
      obtain ⟨array, s', harray, -⟩ := resolve_bind_ok.mp h
      rw [serializeItems_eq, resolve_map_ok] at harray
      obtain ⟨items, hitems, -⟩ := harray
      exact resolve_mapM_mem hitems hchild
  | fields form entries =>
      obtain ⟨entry, hentry, rfl⟩ := List.mem_map.mp hchild
      obtain ⟨serializer, s', -, hrest⟩ := resolve_bind_ok.mp h
      obtain ⟨filled, s'', hfields, -⟩ := resolve_bind_ok.mp hrest
      exact resolve_serializeFields_mem hfields hentry

/-- An integer of more than 64 bits, or one that is no safe integer. -/
def OutOfRange (part : Datum) : Prop :=
  (∃ signed n, part = .scalar (.wide signed n)) ∨
    ∃ type n, part = .scalar (.integer type n) ∧ type.Contains n ∧ maxSafeInteger < n.natAbs

/-- A type every value of which is a double has safe integers only. -/
theorem natAbs_le_of_narrow {type : IntegerType} {n : Int} (hnarrow : type.isNarrow = true)
    (hcontains : type.Contains n) : n.natAbs ≤ maxSafeInteger := by
  cases type
  case i64 => cases hnarrow
  case isize => cases hnarrow
  case u64 => cases hnarrow
  case usize => cases hnarrow
  all_goals
    simp only [IntegerType.Contains, IntegerType.min, IntegerType.max, maxSafeInteger] at *
    omega

theorem OutOfRange.not_serialized {part : Datum} (h : OutOfRange part) :
    (part.serialize s).resolve environment ≠ (.ok value, t) := by
  obtain ⟨signed, n, rfl⟩ | ⟨type, n, rfl, hcontains, hunsafe⟩ := h
  · exact resolve_throw_ne_ok
  · cases hnarrow : type.isNarrow with
    | true =>
        have hsafe := natAbs_le_of_narrow hnarrow hcontains
        omega
    | false =>
        have hlarge : 2 ^ 53 ≤ n.natAbs := by
          simp only [maxSafeInteger] at hunsafe
          omega
        have hround : 2 ^ 53 ≤ (Rounding.nearest 53 n).natAbs :=
          Rounding.le_natAbs_nearest (by omega) hlarge
        have hrefused : ¬ (Rounding.nearest 53 n).natAbs ≤ maxSafeInteger := by
          simp only [maxSafeInteger]
          omega
        simp only [Datum.serialize, Scalar.serialize, IntegerType.toGuest, hnarrow, if_neg hrefused]
        exact resolve_throw_ne_ok

theorem not_serialized_of_within {datum part : Datum} (hpart : part.Within datum)
    (h : OutOfRange part) : (datum.serialize s).resolve environment ≠ (.ok value, t) := by
  induction hpart generalizing s value t with
  | self => exact h.not_serialized
  | child hchild _ ih =>
      intro hserialize
      obtain ⟨_, _, _, hserialize'⟩ := resolve_serialize_child hchild hserialize
      exact ih hserialize'

end Refusal

/-- Values whose names and elements no prototype catches come back as they were; values with integers
out of range do not get there. -/
theorem serde_round_trip {Id : Type} (types : Id → Shape Id) (R : Realm platform) :
    (∀ id datum (s : Session E), Admits types id datum →
      (∀ part, part.Within datum → Writable R.toStore s.heap part) → s.loans.settled = .ok () →
      ∃ value t, datum.serialize s = .done (.ok value) t ∧ ∃ depth, ∀ fuel, depth ≤ fuel →
        ∃ found u, deserialize platform types fuel id value t = .done (.ok found) u ∧
          datum.Same found) ∧
    ∀ (environment : Environment E) datum part s value t, part.Within datum → OutOfRange part →
      (datum.serialize s).resolve environment ≠ (.ok value, t) := by
  refine ⟨fun id datum s hadmits hwritable hsettled => ?_,
    fun environment datum part s value t hpart hout => not_serialized_of_within hpart hout⟩
  have hwritten := yields_serialize datum hsettled fun part hpart =>
    ⟨hwritable part hpart, hadmits.within hpart⟩
  obtain ⟨value, t, hdone, hmove, hvalue⟩ := yields_iff.mp hwritten
  refine ⟨value, t, hdone, sizeOf datum, fun fuel hfuel => ?_⟩
  have hread := readAt_of_admits hadmits (fun part hpart => (hwritable part hpart).readable) hfuel
    t _ value (hmove.settled hsettled) hvalue
  obtain ⟨found, u, hfound, -, hsame⟩ := yields_iff.mp hread
  exact ⟨found, u, hfound, hsame⟩

namespace PlainEngine

/-- The types of the examples: a flag, a record that has one, a list of them, and a drawing, whose
figures have names. -/
inductive Name where
  | flag
  | record
  | list
  | number
  | scale
  | figure
  | figures
  | drawing

def shape : Name → Shape Name
  | .flag => .bool
  | .record => .struct "Record" [("flag", .flag)]
  | .list => .seq .flag
  | .number => .integer .u64
  | .scale => .option .number
  | .figure =>
      .enum "Figure" [("Point", .unit), ("Circle", .struct [("radius", .number)]),
        ("Square", .newtype .number)]
  | .figures => .map .figure
  | .drawing => .struct "Drawing" [("figures", .figures), ("scale", .scale), ("grid", .scale)]

def flag : Datum := .scalar (.bool true)

def record : Datum := .fields .struct [("flag", flag)]

def flags (count : Nat) : Datum := .items .seq (List.replicate count flag)

def number (n : Int) : Datum := .scalar (.integer .u64 n)

def figures : List (String × Datum) :=
  [("origin", .scalar (.unitVariant "Point")),
    ("wheel", .fields (.structVariant "Circle") [("radius", number 5)]),
    ("box", .wrapper (.newtypeVariant "Square") (number 8))]

/-- A drawing of three figures that has a scale and no grid. -/
def drawing (scale : Int) : Datum :=
  .fields .struct [("figures", .fields .map figures), ("scale", .wrapper .some (number scale)),
    ("grid", .scalar .none)]

theorem admits_record : Admits shape .record record := by
  refine .struct rfl (List.nodup_singleton "flag") rfl fun pair hpair => ?_
  obtain rfl := List.mem_singleton.mp hpair
  exact .bool rfl true

theorem admits_flags (count : Nat) : Admits shape .list (flags count) := by
  refine .seq rfl fun value hvalue => ?_
  rw [List.eq_of_mem_replicate hvalue]
  exact .bool rfl true

theorem admits_number {n : Int} (hn : IntegerType.u64.Contains n) :
    Admits shape .number (number n) := by
  have htype : shape .number = .integer .u64 := rfl
  exact .integer htype hn

theorem admits_figures : Admits shape .figures (.fields .map figures) := by
  refine .map rfl (by decide) ?_
  rintro entry (_ | ⟨_, _ | ⟨_, _ | ⟨_, ⟨⟩⟩⟩⟩)
  · exact .unitVariant rfl (by decide) (.head _)
  · refine .structVariant rfl (by decide) (.tail _ (.head _)) (by decide) rfl fun pair hpair => ?_
    obtain rfl := List.mem_singleton.mp hpair
    exact admits_number (by decide)
  · exact .newtypeVariant rfl (by decide) (.tail _ (.tail _ (.head _))) (admits_number (by decide))

theorem admits_drawing {scale : Int} (hscale : IntegerType.u64.Contains scale) :
    Admits shape .drawing (drawing scale) := by
  refine .struct rfl (by decide) rfl ?_
  rintro pair (_ | ⟨_, _ | ⟨_, _ | ⟨_, ⟨⟩⟩⟩⟩)
  · exact admits_figures
  · exact .some rfl (admits_number hscale) rfl
  · exact .none rfl

def empty : Session engine := session ⟨[], [], false⟩

def lent : Session engine :=
  { empty with
    loans := Loans.empty.insert ⟨"ArrayBuffer", 8⟩ (.shared 1) Loans.positive_one }

/-- Nothing is caught in an empty heap. -/
theorem writable_parts {datum : Datum} (hitems : ∀ form values, datum ≠ .items form values)
    (hsafe : ∀ type n, datum = .scalar (.integer type n) → n.natAbs ≤ maxSafeInteger)
    (hnarrow : ∀ signed n, datum ≠ .scalar (.wide signed n))
    (hchildren : ∀ child ∈ datum.children, ∀ part, part.Within child →
      Writable realm.toStore empty.heap part) :
    ∀ part, part.Within datum → Writable realm.toStore empty.heap part := by
  intro part hpart
  cases hpart with
  | self =>
      exact ⟨hsafe, hnarrow, fun label _ hcaught => List.not_mem_nil hcaught,
        fun form values h => absurd h (hitems form values)⟩
  | child hchild hpart => exact hchildren _ hchild part hpart

theorem writable_number {n : Int} (hn : n.natAbs ≤ maxSafeInteger) :
    ∀ part, part.Within (number n) → Writable realm.toStore empty.heap part :=
  writable_parts nofun (by rintro _ _ ⟨⟩; exact hn) nofun nofun

/-- A value with nothing but a number inside. -/
theorem writable_around {datum : Datum} {n : Int} (hchildren : datum.children = [number n])
    (hitems : ∀ form values, datum ≠ .items form values) (hn : n.natAbs ≤ maxSafeInteger) :
    ∀ part, part.Within datum → Writable realm.toStore empty.heap part := by
  have hscalar : ∀ value, datum ≠ .scalar value := by
    rintro value rfl
    cases hchildren
  refine writable_parts hitems (fun _ _ h => absurd h (hscalar _)) (fun _ _ => hscalar _) ?_
  rw [hchildren]
  exact List.forall_mem_singleton.mpr (writable_number hn)

theorem writable_figures : ∀ part, part.Within (.fields .map figures) →
    Writable realm.toStore empty.heap part := by
  refine writable_parts nofun nofun nofun ?_
  rintro child (_ | ⟨_, _ | ⟨_, _ | ⟨_, ⟨⟩⟩⟩⟩)
  · exact writable_parts nofun nofun nofun nofun
  · exact writable_around rfl nofun (by decide)
  · exact writable_around rfl nofun (by decide)

theorem writable_drawing {scale : Int} (hscale : scale.natAbs ≤ maxSafeInteger) :
    ∀ part, part.Within (drawing scale) → Writable realm.toStore empty.heap part := by
  refine writable_parts nofun nofun nofun ?_
  rintro child (_ | ⟨_, _ | ⟨_, _ | ⟨_, ⟨⟩⟩⟩⟩)
  · exact writable_figures
  · exact writable_around rfl nofun hscale
  · exact writable_parts nofun nofun nofun nofun

/-- A drawing makes the journey, unless its scale is out of range. -/
theorem serde_round_trip_record :
    (∃ value t, (drawing 2).serialize empty = .done (.ok value) t ∧ ∃ depth, ∀ fuel, depth ≤ fuel →
      ∃ found u,
        deserialize PlainEngine.platform shape fuel .drawing value t = .done (.ok found) u ∧
          (drawing 2).Same found) ∧
      ∀ value t, ((drawing (2 ^ 53)).serialize empty).resolve quiet ≠ (.ok value, t) :=
  ⟨(serde_round_trip shape realm).1 .drawing (drawing 2) empty (admits_drawing (by decide))
      (writable_drawing (by decide)) rfl,
    fun value t => (serde_round_trip shape realm).2 quiet (drawing (2 ^ 53)) (number (2 ^ 53)) empty
      value t (.child (.tail _ (.head _)) (.child (.head _) .self))
      (Or.inr ⟨.u64, 2 ^ 53, rfl, by decide, by decide⟩)⟩

theorem serializeItems_flags (count : Nat) (s : Session engine) :
    (serializeItems .new (List.replicate count flag) : Op engine ArraySerializer) s =
      .done (.ok ⟨List.replicate count (.boolean true)⟩) s := by
  have hloop : ((List.replicate count flag).mapM Datum.serialize : Op engine (List Value)) =
      pure (List.replicate count (.boolean true)) := by
    induction count with
    | zero => rfl
    | succ count ih =>
        rw [List.replicate_succ, List.mapM_cons, ih]
        rfl
  rw [serializeItems_eq, hloop]
  rfl

/-- No array has as many elements. -/
theorem resolve_flags_of_le {count : Nat} (hcount : 2 ^ 32 ≤ count) :
    (((flags count).serialize empty).resolve quiet).1 = .error (.engine "not available") := by
  have hrefused : reply (.newArray (List.replicate count (.boolean true))) ⟨[], [], false⟩ =
      none := by
    rw [reply, List.length_replicate, if_pos hcount]
  have hprimitive : engine.primitive (.newArray (List.replicate count (.boolean true))) empty.heap =
      .done (.error (.other "not available")) ⟨[], [], false⟩ := by
    show primitive _ ⟨[], [], false⟩ = _
    rw [primitive, hrefused]
  have hserialize : (flags count).serialize empty =
      (newArray (List.replicate count (.boolean true)) : Op engine Value) empty := by
    rw [flags, Datum.serialize, bind_of_ok (serializeItems_flags count _)]
    rfl
  rw [hserialize, newArray, capture, handle, request_of_done hprimitive]
  rfl

/-- While memory is lent nothing is assigned; a name that a prototype catches is lost, and so are
elements; and there are lists that are too long. -/
theorem journeys_that_fail :
    (Admits shape .record record ∧ ∀ count, Admits shape .list (flags count)) ∧
      ((record.serialize lent).resolve quiet).1 = .error (.borrow .shared "ArrayBuffer") ∧
      (∃ value t, (record.serialize (session ⟨[], ["flag"], false⟩)).resolve quiet =
          (.ok value, t) ∧ ∀ depth,
        ((deserialize PlainEngine.platform shape (depth + 1) .record value t).resolve quiet).1 =
          .error (missingField "flag")) ∧
      (∃ value t, ((flags 1).serialize (session ⟨[], [], true⟩)).resolve quiet = (.ok value, t) ∧
        ∀ depth,
          ((deserialize PlainEngine.platform shape (depth + 1) .list value t).resolve quiet).1 =
            .ok (flags 0)) ∧
      (((flags (2 ^ 32)).serialize empty).resolve quiet).1 = .error (.engine "not available") :=
  ⟨⟨admits_record, admits_flags⟩, rfl, ⟨_, _, rfl, fun _ => rfl⟩, ⟨_, _, rfl, fun _ => rfl⟩,
    resolve_flags_of_le (Nat.le_refl _)⟩

end PlainEngine

end GuestJs.Marshal
