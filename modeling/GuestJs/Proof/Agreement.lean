import GuestJs.Marshal.Native
import GuestJs.Marshal.PlainEngine
import GuestJs.Proof.Borrowing

/-!
# The two conversions of a type

A type of the standard library converts from a guest value by itself and through serde. The two
accept the same values and give the same results, but for three kinds of positions: where an integer
is to be read from an integral double beyond the safe integers, where a text is to be read from a
buffer, and where an array is longer than the tuple that is read from it.
-/

namespace GuestJs.Marshal

open QuickJs Process

variable {E : Engine} {α β : Type} {platform : Platform E} {environment : Environment E}

theorem resolve_visitNumber_ok {visitor : Visitor platform α} {number : Number}
    {s t : Session E} {a : α} :
    (visitNumber visitor number s).resolve environment = (.ok a, t) ↔
      (isSafeInteger number = true ∧
        (visitor.visitI64 (asInteger number) s).resolve environment = (.ok a, t)) ∨
      (isSafeInteger number = false ∧
        (visitor.visitF64 number s).resolve environment = (.ok a, t)) := by
  unfold visitNumber
  cases isSafeInteger number <;> simp

theorem resolve_visitBorrowed_ok {value : Value} {visit : List UInt8 → Op E α} {s t : Session E}
    {a : α} :
    (visitBorrowed platform value visit s).resolve environment = (.ok a, t) ↔
      ∃ bytes s' s'', (fromGuestRef u8Element value s).resolve environment = (.ok bytes, s') ∧
        (visit (platform.bytes s'.heap bytes.address bytes.window.byteLength) s').resolve
          environment = (.ok a, s'') ∧
        { s'' with loans := bytes.drop s''.loans } = t := by
  have hget : ∀ s' : Session E, ((MonadState.get : Op E (Session E)) s') = .done (.ok s') s' :=
    fun _ => rfl
  have hmodify : ∀ (f : Session E → Session E) (s' : Session E),
      ((modify f : Op E PUnit) s') = .done (.ok ⟨⟩) (f s') := fun _ _ => rfl
  simp only [visitBorrowed, resolve_bind_ok, resolve_handle_ok, resolve_pure_ok, hget, hmodify,
    Resumption.resolve, throw_apply, Prod.mk.injEq, Except.ok.injEq, reduceCtorEq, false_and,
    and_false, exists_false, or_false]
  constructor
  · rintro ⟨bytes, s', hbytes, _, _, ⟨rfl, rfl⟩, _, s'', hvisit, _, _, ⟨-, rfl⟩, rfl, rfl⟩
    exact ⟨bytes, s', s'', hbytes, hvisit, rfl⟩
  · rintro ⟨bytes, s', s'', hbytes, hvisit, rfl⟩
    exact ⟨bytes, s', hbytes, s', s', ⟨rfl, rfl⟩, a, s'', hvisit, ⟨⟩, _, ⟨trivial, rfl⟩, rfl, rfl⟩

/-- A visitor of sequences accepts arrays only. -/
theorem resolve_deserializeAny_seq_ok {expecting : String} {visitSeq : ArrayAccess → Op E α}
    {value : Value} {s t : Session E} {a : α} :
    (deserializeAny ({ expecting, visitSeq } : Visitor platform α) value s).resolve environment =
        (.ok a, t) ↔
      ∃ items s', (Elements.read value s).resolve environment = (.ok items, s') ∧
        (visitSeq ⟨items⟩ s').resolve environment = (.ok a, t) := by
  cases hkind : kindOf E value
  case array => simp only [deserializeAny, hkind, resolve_bind_ok]
  all_goals
    simp [deserializeAny, Elements.read, hkind, resolve_bind_ok, Resumption.resolve,
      resolve_visitNumber_ok, resolve_visitBorrowed_ok]

/-- A visitor of maps accepts objects only. -/
theorem resolve_deserializeAny_map_ok {expecting : String} {visitMap : ObjectAccess → Op E α}
    {value : Value} {s t : Session E} {a : α} :
    (deserializeAny ({ expecting, visitMap } : Visitor platform α) value s).resolve environment =
        (.ok a, t) ↔
      ∃ entries s', (Entries.read value s).resolve environment = (.ok entries, s') ∧
        (visitMap (.new entries) s').resolve environment = (.ok a, t) := by
  cases hkind : kindOf E value
  case object => simp only [deserializeAny, hkind, resolve_bind_ok]
  all_goals
    simp [deserializeAny, Entries.read, hkind, resolve_bind_ok, Resumption.resolve,
      resolve_visitNumber_ok, resolve_visitBorrowed_ok]

theorem resolve_bool_ok {value : Value} {s t : Session E} {b : Bool} :
    (deserializeAny (boolVisitor platform) value s).resolve environment = (.ok b, t) ↔
      (boolFromGuest value s).resolve environment = (.ok b, t) := by
  cases hkind : kindOf E value
  all_goals
    simp [deserializeAny, boolFromGuest, boolVisitor, hkind, resolve_bind_ok, Resumption.resolve,
      resolve_visitNumber_ok, resolve_visitBorrowed_ok]

theorem resolve_char_ok {value : Value} {s t : Session E} {c : Char} :
    (deserializeAny (charVisitor platform) value s).resolve environment = (.ok c, t) ↔
      (charFromGuest platform value s).resolve environment = (.ok c, t) := by
  cases hkind : kindOf E value
  case string =>
    simp only [deserializeAny, charFromGuest, hkind, resolve_bind_ok]
    refine exists_congr fun text => exists_congr fun s' => and_congr_right fun _ => ?_
    simp only [charVisitor]
    cases singleChar text <;> simp [Resumption.resolve]
  all_goals
    simp [deserializeAny, charFromGuest, stringFromGuest, charVisitor, hkind, resolve_bind_ok,
      Resumption.resolve, resolve_visitNumber_ok, resolve_visitBorrowed_ok]

/-! ## Texts -/

/-- What is here for a text is no buffer of UTF-8. -/
def TextOnly (platform : Platform E) (environment : Environment E) (value : Value)
    (s : Session E) : Prop :=
  ∀ bytes t, (fromGuestRef u8Element value s).resolve environment = (.ok bytes, t) →
    utf8 (platform.bytes t.heap bytes.address bytes.window.byteLength) = none

theorem resolve_string_ok {value : Value} {s t : Session E} {text : String}
    (htext : TextOnly platform environment value s) :
    (deserializeAny (stringVisitor platform) value s).resolve environment = (.ok text, t) ↔
      (stringFromGuest value s).resolve environment = (.ok text, t) := by
  have hbytes : (visitBorrowed platform value (stringVisitor platform).visitBytes s).resolve
      environment ≠ (.ok text, t) := by
    intro h
    obtain ⟨bytes, s', s'', hborrow, hvisit, -⟩ := resolve_visitBorrowed_ok.mp h
    simp [stringVisitor, htext bytes s' hborrow, Resumption.resolve] at hvisit
  cases hkind : kindOf E value
  case arrayBuffer => simpa [deserializeAny, stringFromGuest, hkind, Resumption.resolve] using hbytes
  case typedArray => simpa [deserializeAny, stringFromGuest, hkind, Resumption.resolve] using hbytes
  case dataView => simpa [deserializeAny, stringFromGuest, hkind, Resumption.resolve] using hbytes
  all_goals
    simp [deserializeAny, stringFromGuest, stringVisitor, hkind, resolve_bind_ok,
      Resumption.resolve, resolve_visitNumber_ok]

/-! ## Integers -/

/-- The integer a number is, if it is one that fits 64 bits. -/
def whole : Number → Option Int
  | .finite q => if q.den = 1 ∧ IntegerType.i64.Contains q.num then some q.num else none
  | .negativeZero => some 0
  | .infinity _ | .nan => none

/-- An integral double that the type can hold, and that is no safe integer. -/
def IsWide (type : IntegerType) (value : Value) : Prop :=
  ∃ number n, value = .number number ∧ whole number = some n ∧ maxSafeInteger < n.natAbs ∧
    type.Contains n

theorem contains_of_whole {number : Number} {n : Int} (h : whole number = some n) :
    IntegerType.i64.Contains n := by
  cases number with
  | finite q =>
      obtain ⟨⟨-, hcontains⟩, rfl⟩ :
          (q.den = 1 ∧ IntegerType.i64.Contains q.num) ∧ q.num = n := by simpa [whole] using h
      exact hcontains
  | negativeZero =>
      obtain rfl := Option.some.inj h
      decide
  | infinity negative => cases h
  | nan => cases h

theorem isSafeInteger_iff {number : Number} :
    isSafeInteger number = true ↔ ∃ n, whole number = some n ∧ n.natAbs ≤ maxSafeInteger := by
  cases number with
  | finite q =>
      have hrange : q.num.natAbs ≤ maxSafeInteger → IntegerType.i64.Contains q.num := by
        simp only [maxSafeInteger, IntegerType.Contains, IntegerType.min, IntegerType.max]
        omega
      simp only [isSafeInteger, whole, Bool.decide_and, Bool.and_eq_true, decide_eq_true_eq,
        Option.ite_none_right_eq_some, Option.some.injEq]
      constructor
      · rintro ⟨hden, hsafe⟩
        exact ⟨q.num, ⟨⟨hden, hrange hsafe⟩, rfl⟩, hsafe⟩
      · rintro ⟨n, ⟨⟨hden, -⟩, rfl⟩, hsafe⟩
        exact ⟨hden, hsafe⟩
  | negativeZero => simp [isSafeInteger, whole, maxSafeInteger]
  | infinity negative => simp [isSafeInteger, whole]
  | nan => simp [isSafeInteger, whole]

theorem asInteger_of_whole {number : Number} {n : Int} (h : whole number = some n) :
    asInteger number = n := by
  cases number with
  | finite q =>
      obtain ⟨⟨hden, hmin, hmax⟩, rfl⟩ :
          (q.den = 1 ∧ IntegerType.i64.Contains q.num) ∧ q.num = n := by simpa [whole] using h
      rw [asInteger, hden, Nat.cast_one, Int.tdiv_one]
      omega
  | negativeZero => exact Option.some.inj h
  | infinity negative => cases h
  | nan => cases h

theorem resolve_asI64_number_ok {number : Number} {n : Int} {s t : Session E} :
    ((asI64 (.number number) : Op E Int) s).resolve environment = (.ok n, t) ↔
      whole number = some n ∧ s = t := by
  cases number with
  | finite q =>
      have hrange : -2 ^ 63 ≤ q.num ∧ q.num < 2 ^ 63 ↔ IntegerType.i64.Contains q.num := by
        simp only [IntegerType.Contains, IntegerType.min, IntegerType.max]
        omega
      simp only [asI64, whole, hrange]
      split <;> simp [Resumption.resolve]
  | negativeZero => simp [asI64, whole, Resumption.resolve]
  | infinity negative => simp [asI64, whole, Resumption.resolve]
  | nan => simp [asI64, whole, Resumption.resolve]

theorem resolve_visitInteger_ok {type : IntegerType} {n m : Int} {s t : Session E} :
    ((integerVisitor platform type).visitI64 n s).resolve environment = (.ok m, t) ↔
      (type = .i64 ∨ type.Contains n) ∧ n = m ∧ s = t := by
  have hguard : ((if type.Contains n then pure n
      else throw (invalidValue platform (.signed n) type.toString) : Op E Int) s).resolve
        environment = (.ok m, t) ↔ type.Contains n ∧ n = m ∧ s = t := by
    split <;> simp [Resumption.resolve, *]
  cases type
  case i64 => simp [integerVisitor, Resumption.resolve]
  all_goals simpa [integerVisitor] using hguard

theorem resolve_fromGuest_integer_ok {type : IntegerType} {value : Value} {m : Int}
    {s t : Session E} :
    (type.fromGuest value s).resolve environment = (.ok m, t) ↔
      (i64FromGuest value s).resolve environment = (.ok m, t) ∧
        (type = .i64 ∨ type.Contains m) := by
  have hguard : ((do
      let integer ← i64FromGuest value
      if type.Contains integer then pure integer
      else throw (.conversion type.toString (toString integer)) : Op E Int) s).resolve
        environment = (.ok m, t) ↔
      (i64FromGuest value s).resolve environment = (.ok m, t) ∧ type.Contains m := by
    rw [resolve_bind_ok]
    constructor
    · rintro ⟨n, s', hn, hrest⟩
      split at hrest
      · next hcontains =>
          obtain ⟨rfl, rfl⟩ := resolve_pure_ok.mp hrest
          exact ⟨hn, hcontains⟩
      · exact absurd hrest resolve_throw_ne_ok
    · rintro ⟨hm, hcontains⟩
      exact ⟨m, t, hm, by rw [if_pos hcontains]; exact resolve_pure_ok.mpr ⟨rfl, rfl⟩⟩
  cases type
  case i64 => simp [IntegerType.fromGuest]
  all_goals simpa [IntegerType.fromGuest] using hguard

theorem resolve_integer_ok {type : IntegerType} {value : Value} {s t : Session E} {n : Int}
    (hwide : ¬ IsWide type value) :
    (deserializeAny (integerVisitor platform type) value s).resolve environment = (.ok n, t) ↔
      (type.fromGuest value s).resolve environment = (.ok n, t) := by
  rw [resolve_fromGuest_integer_ok]
  cases hkind : kindOf E value
  case bigint =>
    simp only [deserializeAny, hkind, resolve_bind_ok, resolve_visitInteger_ok]
    constructor
    · rintro ⟨m, s', hm, haccepts, rfl, rfl⟩
      exact ⟨hm, haccepts⟩
    · rintro ⟨hn, haccepts⟩
      exact ⟨n, t, hn, haccepts, rfl, rfl⟩
  case number =>
    simp only [deserializeAny, i64FromGuest, f64FromGuest, hkind, resolve_bind_ok]
    cases value with
    | number number =>
        rw [resolve_asI64_number_ok]
        constructor
        · rintro ⟨found, s', hfound, hvisit⟩
          rw [asF64, resolve_capture_ok, resolve_pure_ok] at hfound
          obtain ⟨rfl, rfl⟩ := hfound
          obtain ⟨hsafe, hvisit⟩ | ⟨-, hrefused⟩ := resolve_visitNumber_ok.mp hvisit
          · obtain ⟨m, hm, -⟩ := isSafeInteger_iff.mp hsafe
            rw [asInteger_of_whole hm, resolve_visitInteger_ok] at hvisit
            obtain ⟨haccepts, rfl, rfl⟩ := hvisit
            exact ⟨⟨hm, rfl⟩, haccepts⟩
          · exact absurd hrefused resolve_throw_ne_ok
        · rintro ⟨⟨hn, rfl⟩, haccepts⟩
          -- The number is safe: as a wide one it would be an integer the type can hold.
          have hsafe : isSafeInteger number = true := by
            refine isSafeInteger_iff.mpr ⟨n, hn, Int.not_lt.mp fun hlt => hwide ?_⟩
            refine ⟨number, n, rfl, hn, hlt, ?_⟩
            rcases haccepts with rfl | hcontains
            · exact contains_of_whole hn
            · exact hcontains
          refine ⟨number, s, ?_, resolve_visitNumber_ok.mpr (Or.inl ⟨hsafe, ?_⟩)⟩
          · rw [asF64, resolve_capture_ok, resolve_pure_ok]
            exact ⟨rfl, rfl⟩
          · rw [asInteger_of_whole hn, resolve_visitInteger_ok]
            exact ⟨haccepts, rfl, rfl⟩
    | bigint m => cases hkind
    | _ => simp [asF64, asI64, mistyped, resolve_capture_ok, Resumption.resolve]
  all_goals
    simp [deserializeAny, i64FromGuest, integerVisitor, hkind, resolve_bind_ok,
      Resumption.resolve, resolve_visitBorrowed_ok]

/-! ## Collections -/

theorem takeAll_eq (element : Value → Op E α) (items : List Value) :
    takeAll element items.length ⟨items⟩ = items.mapM element := by
  induction items with
  | nil => rfl
  | cons item items ih =>
      rw [List.length_cons, takeAll, List.mapM_cons, ← ih]
      simp only [ArrayAccess.nextElementSeed, bind_assoc, pure_bind]

/-- Each type takes an element, and elements beyond the types are left alone. -/
theorem resolve_takeEach_ok {expected : String} {count : Nat} {elements : List (Value → Op E α)}
    {items : List Value} {as : List α} {s t : Session E} :
    (takeEach expected count elements ⟨items⟩ s).resolve environment = (.ok as, t) ↔
      elements.length ≤ items.length ∧
        ((elements.zip items).mapM (fun pair => pair.1 pair.2) s).resolve environment =
          (.ok as, t) := by
  induction elements generalizing count items as s t with
  | nil => simp [takeEach]
  | cons element elements ih =>
      cases items with
      | nil => simp [takeEach, ArrayAccess.nextElementSeed, Resumption.resolve]
      | cons item items =>
          simp only [takeEach, ArrayAccess.nextElementSeed, bind_assoc, pure_bind, resolve_bind_ok,
            resolve_pure_ok, ih, List.zip_cons_cons, resolve_mapM_cons_ok, List.length_cons,
            Nat.add_le_add_iff_right]
          constructor
          · rintro ⟨a, s', ha, as', t', ⟨hlength, has⟩, rfl, rfl⟩
            exact ⟨hlength, a, s', as', ha, has, rfl⟩
          · rintro ⟨hlength, a, s', as', ha, has, rfl⟩
            exact ⟨a, s', ha, as', t, ⟨hlength, has⟩, rfl, rfl⟩

theorem takeEntries_eq (key : Value → Op E String) (element : Value → Op E α)
    (entries : List (Value × Value)) (found : List (String × α)) (pending : Option Value) :
    takeEntries key (takeValue element) entries.length found ⟨entries, pending⟩ =
      (fun pairs => pairs.foldl (fun map entry => StdMap.insert map entry.1 entry.2) found) <$>
        entries.mapM (convertEntry key element) := by
  induction entries generalizing found pending with
  | nil => rfl
  | cons entry entries ih =>
      rw [List.length_cons, takeEntries, List.mapM_cons]
      simp only [ObjectAccess.nextKeySeed, takeValue, ObjectAccess.nextValueSeed, convertEntry, ih,
        bind_assoc, pure_bind, List.foldl_cons, map_eq_pure_bind]

/-! ## All types -/

section Undisputed

variable (platform : Platform E) (environment : Environment E)

mutual

/-- Wherever the value is read on behalf of the type, what is there for an integer is no wide one,
what is there for a text is no buffer of UTF-8, and an array is no longer than the tuple. -/
def Undisputed : Native → Value → Session E → Prop
  | .bool, _, _ | .char, _, _ => True
  | .integer type, value, _ => ¬ IsWide type value
  | .string, value, s => TextOnly platform environment value s
  | .option inner, value, s =>
      kindOf E value ≠ .undefined → kindOf E value ≠ .null → Undisputed inner value s
  | .vec element, value, s =>
      ∀ items s', (Elements.read value s).resolve environment = (.ok items, s') →
        Along environment (element.fromGuest platform) (Undisputed element) items s'
  | .tuple elements, value, s =>
      ∀ items s', (Elements.read value s).resolve environment = (.ok items, s') →
        items.length ≤ elements.length ∧ UndisputedEach elements items s'
  | .array length element, value, s =>
      ∀ items s', (Elements.read value s).resolve environment = (.ok items, s') →
        items.length ≤ length ∧
          Along environment (element.fromGuest platform) (Undisputed element) items s'
  | .map element, value, s =>
      ∀ entries s', (Entries.read value s).resolve environment = (.ok entries, s') →
        Along environment (convertEntry stringFromGuest (element.fromGuest platform))
          (fun entry s => TextOnly platform environment entry.1 s ∧
            ∀ key s', (stringFromGuest entry.1 s).resolve environment = (.ok key, s') →
              Undisputed element entry.2 s') entries s'

def UndisputedEach : List Native → List Value → Session E → Prop
  | type :: types, item :: items, s =>
      Undisputed type item s ∧
        ∀ datum s', (type.fromGuest platform item s).resolve environment = (.ok datum, s') →
          UndisputedEach types items s'
  | _, _, _ => True

end

end Undisputed

theorem resolve_exact_ok {length : Nat} {items found : List α} {s t : Session E} :
    ((Elements.exact length items : Op E (List α)) s).resolve environment = (.ok found, t) ↔
      items.length = length ∧ items = found ∧ s = t := by
  unfold Elements.exact
  split <;> simp [Resumption.resolve, *]

theorem mapM_zip_replicate {length : Nat} {f : Value → Op E α} {items : List Value}
    (h : items.length ≤ length) :
    ((List.replicate length f).zip items).mapM (fun pair => pair.1 pair.2) = items.mapM f := by
  induction items generalizing length with
  | nil => rw [List.zip_nil_right, List.mapM_nil, List.mapM_nil]
  | cons item items ih =>
      obtain ⟨rest, rfl⟩ : ∃ rest, length = rest + 1 := Nat.exists_eq_add_one.mpr (by
        rw [List.length_cons] at h
        omega)
      rw [List.replicate_succ, List.zip_cons_cons, List.mapM_cons, List.mapM_cons,
        ih (Nat.le_of_succ_le_succ h)]

theorem length_fromGuestEach (types : List Native) :
    (Native.fromGuestEach platform types).length = types.length := by
  induction types with
  | nil => rfl
  | cons type types ih => rw [Native.fromGuestEach, List.length_cons, List.length_cons, ih]

theorem length_deserializeEach (types : List Native) :
    (Native.deserializeEach platform types).length = types.length := by
  induction types with
  | nil => rfl
  | cons type types ih => rw [Native.deserializeEach, List.length_cons, List.length_cons, ih]

/-- The conversions that agree on every element agree on the elements together. -/
theorem resolve_vec_ok {f g : Value → Op E α} {P : Value → Session E → Prop} {value : Value}
    {s t : Session E} {as : List α}
    (hP : ∀ item s, P item s → ∀ a t, (f item s).resolve environment = (.ok a, t) ↔
      (g item s).resolve environment = (.ok a, t))
    (halong : ∀ items s', (Elements.read value s).resolve environment = (.ok items, s') →
      Along environment g P items s') :
    (deserializeAny (vecVisitor platform f) value s).resolve environment = (.ok as, t) ↔
      (vecFromGuest g value s).resolve environment = (.ok as, t) := by
  rw [vecVisitor, resolve_deserializeAny_seq_ok, vecFromGuest, resolve_bind_ok]
  refine exists_congr fun items => exists_congr fun s' => and_congr_right fun hread => ?_
  rw [ArrayAccess.sizeHint, takeAll_eq]
  exact resolve_mapM_congr hP (halong items s' hread) as t

theorem resolve_array_ok {f g : Value → Op E α} {P : Value → Session E → Prop} {length : Nat}
    {value : Value} {s t : Session E} {as : List α}
    (hP : ∀ item s, P item s → ∀ a t, (f item s).resolve environment = (.ok a, t) ↔
      (g item s).resolve environment = (.ok a, t))
    (halong : ∀ items s', (Elements.read value s).resolve environment = (.ok items, s') →
      items.length ≤ length ∧ Along environment g P items s') :
    (deserializeAny (arrayVisitor platform length f) value s).resolve environment = (.ok as, t) ↔
      (arrayFromGuest length g value s).resolve environment = (.ok as, t) := by
  rw [arrayVisitor, eachVisitor, resolve_deserializeAny_seq_ok]
  simp only [arrayFromGuest, vecFromGuest, resolve_bind_ok, resolve_exact_ok, resolve_takeEach_ok,
    List.length_replicate]
  constructor
  · rintro ⟨items, s', hread, hle, has⟩
    obtain ⟨hlength, hitems⟩ := halong items s' hread
    rw [mapM_zip_replicate hlength, resolve_mapM_congr hP hitems] at has
    have has' := length_of_mapM has
    exact ⟨as, t, ⟨items, s', hread, has⟩, by omega, rfl, rfl⟩
  · rintro ⟨as', t', ⟨items, s', hread, has⟩, hlength', rfl, rfl⟩
    obtain ⟨hlength, hitems⟩ := halong items s' hread
    have has' := length_of_mapM has
    refine ⟨items, s', hread, by omega, ?_⟩
    rw [mapM_zip_replicate hlength, resolve_mapM_congr hP hitems]
    exact has

theorem resolve_tuple_ok {fs gs : List (Value → Op E α)} {value : Value} {s t : Session E}
    {as : List α}
    (heach : ∀ items s', (Elements.read value s).resolve environment = (.ok items, s') →
      items.length ≤ gs.length ∧ fs.length = gs.length ∧ ∀ as t,
        ((fs.zip items).mapM (fun pair => pair.1 pair.2) s').resolve environment = (.ok as, t) ↔
        ((gs.zip items).mapM (fun pair => pair.1 pair.2) s').resolve environment = (.ok as, t)) :
    (deserializeAny (tupleVisitor platform fs) value s).resolve environment = (.ok as, t) ↔
      (tupleFromGuest gs value s).resolve environment = (.ok as, t) := by
  rw [tupleVisitor, eachVisitor, resolve_deserializeAny_seq_ok]
  simp only [tupleFromGuest, resolve_bind_ok, resolve_exact_ok, resolve_takeEach_ok]
  constructor
  · rintro ⟨items, s', hread, hle, has⟩
    obtain ⟨hlength, hcount, hiff⟩ := heach items s' hread
    exact ⟨items, s', hread, items, s', ⟨by omega, rfl, rfl⟩, (hiff as t).mp has⟩
  · rintro ⟨items, s', hread, _, _, ⟨hlength, rfl, rfl⟩, has⟩
    obtain ⟨-, hcount, hiff⟩ := heach items s' hread
    exact ⟨items, s', hread, by omega, (hiff as t).mpr has⟩

theorem resolve_map_of_ok {f g : Value → Op E α} {P : Value → Session E → Prop} {value : Value}
    {s t : Session E} {found : List (String × α)}
    (hP : ∀ item s, P item s → ∀ a t, (f item s).resolve environment = (.ok a, t) ↔
      (g item s).resolve environment = (.ok a, t))
    (halong : ∀ entries s', (Entries.read value s).resolve environment = (.ok entries, s') →
      Along environment (convertEntry stringFromGuest g)
        (fun entry s => TextOnly platform environment entry.1 s ∧
          ∀ key s', (stringFromGuest entry.1 s).resolve environment = (.ok key, s') →
            P entry.2 s') entries s') :
    (deserializeAny (mapVisitor platform f) value s).resolve environment = (.ok found, t) ↔
      (mapFromGuest g value s).resolve environment = (.ok found, t) := by
  rw [mapVisitor, resolve_deserializeAny_map_ok]
  simp only [mapFromGuest, resolve_bind_ok, resolve_pure_ok, ObjectAccess.sizeHint,
    ObjectAccess.new, takeEntries_eq, resolve_map_ok]
  refine exists_congr fun entries => exists_congr fun s' => ?_
  have hentry : ∀ entry s, (TextOnly platform environment entry.1 s ∧
      ∀ key s', (stringFromGuest entry.1 s).resolve environment = (.ok key, s') →
        P entry.2 s') → ∀ pair t,
      (convertEntry (deserializeAny (stringVisitor platform)) f entry s).resolve environment =
          (.ok pair, t) ↔
        (convertEntry stringFromGuest g entry s).resolve environment = (.ok pair, t) := by
    rintro entry s ⟨htext, hvalue⟩ pair t
    simp only [convertEntry, resolve_bind_ok, resolve_string_ok htext]
    refine exists_congr fun key => exists_congr fun s' => and_congr_right fun hkey => ?_
    simp only [hP entry.2 s' (hvalue key s' hkey)]
  constructor
  · rintro ⟨hread, pairs, hpairs, rfl⟩
    exact ⟨hread, pairs, t, (resolve_mapM_congr hentry (halong entries s' hread) pairs t).mp hpairs,
      rfl, rfl⟩
  · rintro ⟨hread, pairs, _, hpairs, rfl, rfl⟩
    exact ⟨hread, pairs, (resolve_mapM_congr hentry (halong entries s' hread) pairs _).mpr hpairs,
      rfl⟩

theorem resolve_option_ok {f g : Value → Op E α} {value : Value} {s t : Session E} {a : Option α}
    (hinner : kindOf E value ≠ .undefined → kindOf E value ≠ .null → ∀ a t,
      (f value s).resolve environment = (.ok a, t) ↔
        (g value s).resolve environment = (.ok a, t)) :
    (deserializeOption (optionVisitor platform f) value s).resolve environment = (.ok a, t) ↔
      (optionFromGuest g value s).resolve environment = (.ok a, t) := by
  cases hkind : kindOf E value
  case undefined => simp only [deserializeOption, optionFromGuest, optionVisitor, hkind]
  case null => simp only [deserializeOption, optionFromGuest, optionVisitor, hkind]
  all_goals
    have hinner' := hinner (by rw [hkind]; decide) (by rw [hkind]; decide)
    simp only [deserializeOption, optionFromGuest, optionVisitor, hkind, resolve_map_ok, hinner']

mutual

theorem resolve_deserialize_ok (type : Native) {value : Value} {s : Session E}
    (h : Undisputed platform environment type value s) (datum : Datum) (t : Session E) :
    (type.deserialize platform value s).resolve environment = (.ok datum, t) ↔
      (type.fromGuest platform value s).resolve environment = (.ok datum, t) := by
  cases type with
  | bool => simp only [Native.deserialize, Native.fromGuest, resolve_map_ok, resolve_bool_ok]
  | integer type =>
      simp only [Native.deserialize, Native.fromGuest, resolve_map_ok, resolve_integer_ok h]
  | char => simp only [Native.deserialize, Native.fromGuest, resolve_map_ok, resolve_char_ok]
  | string => simp only [Native.deserialize, Native.fromGuest, resolve_map_ok, resolve_string_ok h]
  | option inner =>
      simp only [Native.deserialize, Native.fromGuest, resolve_map_ok]
      refine exists_congr fun a => and_congr_left fun _ => resolve_option_ok fun hne hne' => ?_
      exact resolve_deserialize_ok inner (h hne hne')
  | vec element =>
      simp only [Native.deserialize, Native.fromGuest, resolve_map_ok]
      refine exists_congr fun as => and_congr_left fun _ => ?_
      exact resolve_vec_ok (fun item s hitem => resolve_deserialize_ok element hitem) h
  | tuple elements =>
      simp only [Native.deserialize, Native.fromGuest, resolve_map_ok]
      refine exists_congr fun as => and_congr_left fun _ => resolve_tuple_ok fun items s' hread => ?_
      obtain ⟨hlength, heach⟩ := h items s' hread
      refine ⟨?_, ?_, resolve_deserializeEach_ok elements heach⟩
      · rwa [length_fromGuestEach]
      · rw [length_deserializeEach, length_fromGuestEach]
  | array length element =>
      simp only [Native.deserialize, Native.fromGuest, resolve_map_ok]
      refine exists_congr fun as => and_congr_left fun _ => ?_
      exact resolve_array_ok (fun item s hitem => resolve_deserialize_ok element hitem) h
  | map element =>
      simp only [Native.deserialize, Native.fromGuest, resolve_map_ok]
      refine exists_congr fun as => and_congr_left fun _ => ?_
      exact resolve_map_of_ok (fun item s hitem => resolve_deserialize_ok element hitem) h

theorem resolve_deserializeEach_ok (types : List Native) {items : List Value} {s : Session E}
    (h : UndisputedEach platform environment types items s) (data : List Datum)
    (t : Session E) :
    (((Native.deserializeEach platform types).zip items).mapM (fun pair => pair.1 pair.2)
        s).resolve environment = (.ok data, t) ↔
      (((Native.fromGuestEach platform types).zip items).mapM (fun pair => pair.1 pair.2)
        s).resolve environment = (.ok data, t) := by
  cases types with
  | nil => rfl
  | cons type types =>
      cases items with
      | nil => simp only [List.zip_nil_right, resolve_mapM_nil_ok]
      | cons item items =>
          simp only [Native.deserializeEach, Native.fromGuestEach, List.zip_cons_cons,
            resolve_mapM_cons_ok, resolve_deserialize_ok type h.1]
          refine exists_congr fun datum => exists_congr fun s' => exists_congr fun data' =>
            and_congr_right fun hdatum => and_congr_left fun _ => ?_
          exact resolve_deserializeEach_ok types (h.2 datum s' hdatum) data' t

end

/-- The conversion through serde gives what the conversion of the type gives, and when it does, but
where a value is disputed. -/
theorem serde_agrees (platform : Platform E) (environment : Environment E) (type : Native)
    {value : Value} {s : Session E} (h : Undisputed platform environment type value s)
    (datum : Datum) (t : Session E) :
    (type.deserialize platform value s).resolve environment = (.ok datum, t) ↔
      (type.fromGuest platform value s).resolve environment = (.ok datum, t) :=
  resolve_deserialize_ok type h datum t

namespace PlainEngine

/-- There are no guest functions to call. -/
def quiet : Environment engine := fun _ s => (.ok .undefined, s)

def holding (cells : List Contents) : Session engine := session ⟨cells, [], false⟩

/-- A tuple of an integer and a text, read from an array of the two. -/
theorem serde_agrees_pair :
    ((Native.tuple [.integer .i64, .string]).deserialize PlainEngine.platform (.object 1)
        (holding [.elements [.number (.finite 1), .string "a"]])).resolve quiet =
      (.ok (.items .tuple [.scalar (.integer .i64 1), .scalar (.string "a")]),
        holding [.elements [.number (.finite 1), .string "a"]]) := by
  refine (serde_agrees PlainEngine.platform quiet (.tuple [.integer .i64, .string]) ?_ _ _).mpr rfl
  intro items s' hread
  have hitems : (Elements.read (.object 1)
      (holding [.elements [.number (.finite 1), .string "a"]])).resolve quiet =
      (.ok [.number (.finite 1), .string "a"],
        holding [.elements [.number (.finite 1), .string "a"]]) := rfl
  rw [hitems] at hread
  cases hread
  refine ⟨Nat.le_refl 2, ?_, fun _ s' _ => ⟨?_, fun _ _ _ => trivial⟩⟩
  · rintro ⟨number, n, hnumber, hwhole, hlt, -⟩
    cases hnumber
    cases hwhole
    exact absurd hlt (by decide)
  · rintro bytes t hborrow
    cases hborrow

/-- The three disputes: an integral double beyond the safe integers is an `i64` for the conversion of
the type only, an array that is too long is a tuple for serde only, and a buffer of UTF-8 is a text
for serde only. -/
theorem disputes :
    (((Native.integer .i64).fromGuest PlainEngine.platform (.number (.finite 9007199254740992))
          (holding [])).resolve quiet).1 = .ok (.scalar (.integer .i64 9007199254740992)) ∧
      (((Native.integer .i64).deserialize PlainEngine.platform (.number (.finite 9007199254740992))
          (holding [])).resolve quiet).1 =
        .error (.conversion "i64" "floating point `9007199254740992.0`") ∧
      (((Native.tuple [.bool]).fromGuest PlainEngine.platform (.object 1)
          (holding [.elements [.boolean true, .boolean false]])).resolve quiet).1 =
        .error (.conversion "array of length 1" "array of length 2") ∧
      (((Native.tuple [.bool]).deserialize PlainEngine.platform (.object 1)
          (holding [.elements [.boolean true, .boolean false]])).resolve quiet).1 =
        .ok (.items .tuple [.scalar (.bool true)]) ∧
      ((Native.string.fromGuest PlainEngine.platform (.object 2)
          (holding [.buffer [0x6f, 0x6b]])).resolve quiet).1 =
        .error (.conversion "string" "ArrayBuffer") ∧
      ((Native.string.deserialize PlainEngine.platform (.object 2)
          (holding [.buffer [0x6f, 0x6b]])).resolve quiet).1 = .ok (.scalar (.string "ok")) :=
  ⟨rfl, rfl, rfl, rfl, rfl, rfl⟩

end PlainEngine

end GuestJs.Marshal
