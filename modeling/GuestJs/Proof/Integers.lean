import GuestJs.Proof.Serialization
import GuestJs.QuickJs.Bigints
import GuestJs.QuickJs.TinyEngine

/-!
# Integers are converted exactly

A guest number or a bigint is read as an integer through 64 bits: what fits them is read as it is,
and nothing else is read at all. An integer is written as a double, and one a double may not hold
exactly is refused.
-/

namespace GuestJs.Marshal

open QuickJs Process

variable {E : Engine}

theorem bmod_eq_self_iff {n : Int} : n.bmod (2 ^ 64) = n ↔ IntegerType.i64.Contains n := by
  have hlow := Int.le_bmod (x := n) (m := 2 ^ 64) (by decide)
  have hhigh := Int.bmod_lt (x := n) (m := 2 ^ 64) (by decide)
  simp only [IntegerType.Contains, IntegerType.min, IntegerType.max]
  constructor
  · intro heq
    rw [heq] at hlow hhigh
    omega
  · rintro ⟨hmin, hmax⟩
    exact Int.bmod_eq_of_le (by omega) (by omega)

theorem capture_of_done {α : Type} {p : Primitive α} {s : Session E} {a : α} {heap : E.Heap}
    (h : E.primitive p s.heap = .done (.ok a) heap) :
    capture (request p) s = .done (.ok a) { s with heap } := by
  rw [capture, handle, request_of_done h]
  rfl

/-- The 64 bits of a bigint are made a bigint again, and have to be the same. -/
theorem asI64_bigint (hbigints : Bigints E) (n : Int) (s : Session E) :
    ∃ t, (asI64 (.bigint n) : Op E Int) s =
      .done (if IntegerType.i64.Contains n then .ok n
        else .error (.conversion "i64" "bigint out of range")) t := by
  obtain ⟨h, hbits⟩ := hbigints.toBigint64 n s.heap
  obtain ⟨h', hagain⟩ := hbigints.newBigint (n.bmod (2 ^ 64)) h
  refine ⟨{ s with heap := h' }, ?_⟩
  rw [asI64, bind_of_ok (capture_of_done hbits), newBigint,
    bind_of_ok (capture_of_done (s := { s with heap := h }) hagain)]
  by_cases hcontains : IntegerType.i64.Contains n
  · have heq := bmod_eq_self_iff.mpr hcontains
    rw [if_pos hcontains, heq]
    simp [same]
  · have hne : n ≠ n.bmod (2 ^ 64) := fun heq => hcontains (bmod_eq_self_iff.mp heq.symm)
    have hdiffers : same (.bigint n) (.bigint (n.bmod (2 ^ 64))) = false :=
      decide_eq_false fun heq => hne (Value.bigint.inj heq)
    rw [if_neg hcontains]
    simp only [hdiffers, throw_apply]

theorem asI64_finite (q : Rat) (s : Session E) :
    ∃ result, (asI64 (.number (.finite q)) : Op E Int) s = .done result s ∧
      ∀ n, result = .ok n ↔ q = n ∧ IntegerType.i64.Contains n := by
  have hrange : -2 ^ 63 ≤ q.num ∧ q.num < 2 ^ 63 ↔ IntegerType.i64.Contains q.num := by
    simp only [IntegerType.Contains, IntegerType.min, IntegerType.max]
    omega
  by_cases hwhole : q.den = 1 ∧ IntegerType.i64.Contains q.num
  · have hq : q = q.num := (Rat.den_eq_one_iff q).mp hwhole.1 |>.symm
    refine ⟨.ok q.num, by simp only [asI64, hrange, if_pos hwhole, pure_apply], fun n => ?_⟩
    constructor
    · rintro ⟨⟩
      exact ⟨hq, hwhole.2⟩
    · rintro ⟨rfl, -⟩
      rw [Rat.num_intCast]
  · refine ⟨.error (.conversion "i64" (E.typeName (.number (.finite q)))),
      by simp only [asI64, hrange, if_neg hwhole, throw_apply], fun n => ?_⟩
    simp only [reduceCtorEq, false_iff]
    rintro ⟨rfl, hn⟩
    exact hwhole ⟨Rat.den_intCast n, by rwa [Rat.num_intCast]⟩

/-- What is read as 64 bits is the number the value is, if they can hold it. -/
theorem i64FromGuest_done (hbigints : Bigints E) (value : Value) (s : Session E) :
    ∃ result t, i64FromGuest value s = .done result t ∧
      ∀ n : Int, result = .ok n ↔ value.numeric = some (n : Rat) ∧ IntegerType.i64.Contains n := by
  cases value with
  | number number =>
      cases number with
      | finite q =>
          obtain ⟨result, hdone, hresult⟩ := asI64_finite q s
          exact ⟨result, s, hdone, fun n => by rw [hresult, Value.numeric, Option.some.injEq]⟩
      | negativeZero =>
          refine ⟨.ok 0, s, rfl, fun n => ?_⟩
          simp only [Except.ok.injEq, Value.numeric, Option.some.injEq]
          constructor
          · rintro rfl
            exact ⟨rfl, by decide⟩
          · rintro ⟨hzero, -⟩
            exact_mod_cast hzero
      | infinity negative => exact ⟨_, s, rfl, by simp [Value.numeric]⟩
      | nan => exact ⟨_, s, rfl, by simp [Value.numeric]⟩
  | bigint m =>
      obtain ⟨t, hdone⟩ := asI64_bigint hbigints m s
      refine ⟨_, t, hdone, fun n => ?_⟩
      simp only [Value.numeric, Option.some.injEq, Rat.intCast_inj]
      split
      · next hm =>
          simp only [Except.ok.injEq]
          constructor
          · rintro rfl
            exact ⟨rfl, hm⟩
          · exact fun h => h.1
      · next hm =>
          simp only [reduceCtorEq, false_iff]
          rintro ⟨rfl, hn⟩
          exact hm hn
  | object id =>
      have hrefused : ∃ e, i64FromGuest (.object id) s = .done (.error e) s := by
        unfold i64FromGuest
        cases kindOf E (.object id) <;> exact ⟨_, rfl⟩
      obtain ⟨e, he⟩ := hrefused
      exact ⟨_, s, he, by simp [Value.numeric]⟩
  | _ => exact ⟨_, s, rfl, by simp [Value.numeric]⟩

theorem fromGuest_done (hbigints : Bigints E) (type : IntegerType) (value : Value)
    (s : Session E) :
    ∃ result t, type.fromGuest value s = .done result t ∧
      ∀ n : Int, result = .ok n ↔
        value.numeric = some (n : Rat) ∧ IntegerType.i64.Contains n ∧ type.Contains n := by
  obtain ⟨result, t, hdone, hresult⟩ := i64FromGuest_done hbigints value s
  by_cases htype : type = .i64
  · subst htype
    exact ⟨result, t, hdone, fun n => by rw [hresult n, and_self]⟩
  · have hthrough : type.fromGuest value = (do
        let integer ← i64FromGuest value
        if type.Contains integer then pure integer
        else throw (.conversion type.toString (toString integer)) : Op E Int) := by
      cases type
      case i64 => exact absurd rfl htype
      all_goals rfl
    cases result with
    | error error =>
        refine ⟨.error error, t, by rw [hthrough, bind_of_error hdone], fun n => ?_⟩
        simp only [reduceCtorEq, false_iff, not_and]
        exact fun hn hfits _ => nomatch (hresult n).mpr ⟨hn, hfits⟩
    | ok m =>
        obtain ⟨hm, hfits⟩ := (hresult m).mp rfl
        have hsame : ∀ n : Int, value.numeric = some (n : Rat) → m = n := fun n hn =>
          Rat.intCast_inj.mp (Option.some.inj (hm.symm.trans hn))
        rw [hthrough, bind_of_ok hdone]
        by_cases hcontains : type.Contains m
        · refine ⟨.ok m, t, by rw [if_pos hcontains, pure_apply], fun n => ?_⟩
          rw [Except.ok.injEq]
          constructor
          · rintro rfl
            exact ⟨hm, hfits, hcontains⟩
          · exact fun h => hsame n h.1
        · refine ⟨_, t, by rw [if_neg hcontains, throw_apply], fun n => ?_⟩
          simp only [reduceCtorEq, false_iff]
          rintro ⟨hn, -, hn'⟩
          exact hcontains (hsame n hn ▸ hn')

theorem safe_of_isNarrow {type : IntegerType} (hnarrow : type.isNarrow = true) {n : Int}
    (hn : type.Contains n) : n.natAbs ≤ maxSafeInteger := by
  cases type <;>
    simp only [IntegerType.isNarrow, reduceCtorEq, IntegerType.Contains, IntegerType.min,
      IntegerType.max, maxSafeInteger] at hnarrow hn ⊢ <;>
    omega

/-- An integer is written exactly when a double holds it beyond doubt. -/
theorem toGuest_ok_iff (type : IntegerType) {n : Int} (hn : type.Contains n) (s : Session E) :
    (∃ value t, (type.toGuest n : Op E Value) s = .done (.ok value) t) ↔
      n.natAbs ≤ maxSafeInteger := by
  constructor
  · rintro ⟨value, t, hdone⟩
    by_contra hunsafe
    have hwide : 2 ^ 53 ≤ n.natAbs := by
      simp only [maxSafeInteger] at hunsafe
      omega
    have hround : 2 ^ 53 ≤ (Rounding.nearest 53 n).natAbs :=
      Rounding.le_natAbs_nearest (by decide) hwide
    have hnarrow : type.isNarrow = false := by
      by_contra hnarrow
      exact hunsafe (safe_of_isNarrow (Bool.eq_true_of_not_eq_false hnarrow) hn)
    have hrefused : ¬ (Rounding.nearest 53 n).natAbs ≤ maxSafeInteger := by
      simp only [maxSafeInteger]
      omega
    simp only [IntegerType.toGuest, hnarrow, if_neg hrefused, throw_apply] at hdone
    cases hdone
  · intro hsafe
    exact ⟨_, s, by rw [toGuest_of_safe hsafe, pure_apply]⟩

theorem contains_i64_of_safe {n : Int} (h : n.natAbs ≤ maxSafeInteger) :
    IntegerType.i64.Contains n := by
  simp only [maxSafeInteger, IntegerType.Contains, IntegerType.min, IntegerType.max] at *
  omega

/-- **Integers are converted exactly.** For every type of integers: a value of it is written exactly
when its absolute value is at most `2 ^ 53 - 1`, as every value of a type of 32 bits or less is, and
is then read back as it was; and what is read from a guest value is the integer that value is, while
every value that is an integer of the type and of 64 bits is read. -/
theorem integers_exact (hbigints : Bigints E) (type : IntegerType) :
    (∀ n, type.Contains n → (type.isNarrow = true → n.natAbs ≤ maxSafeInteger) ∧
      ∀ s : Session E,
        ((∃ value t, type.toGuest n s = .done (.ok value) t) ↔ n.natAbs ≤ maxSafeInteger) ∧
        ∀ value t, type.toGuest n s = .done (.ok value) t →
          ∀ s' : Session E, ∃ t', type.fromGuest value s' = .done (.ok n) t') ∧
    ∀ (value : Value) (s : Session E), ∃ result t, type.fromGuest value s = .done result t ∧
      (∀ n, result = .ok n → value.numeric = some (n : Rat)) ∧
      ∀ n : Int, value.numeric = some (n : Rat) → type.Contains n → -2 ^ 63 ≤ n → n < 2 ^ 63 →
        result = .ok n := by
  refine ⟨fun n hn => ⟨?_, fun s => ⟨toGuest_ok_iff type hn s, ?_⟩⟩, fun value s => ?_⟩
  · intro hnarrow
    exact safe_of_isNarrow hnarrow hn
  · intro value t hdone s'
    have hsafe := (toGuest_ok_iff type hn s).mp ⟨value, t, hdone⟩
    rw [toGuest_of_safe hsafe, pure_apply] at hdone
    cases hdone
    obtain ⟨result, t', hread, hresult⟩ :=
      fromGuest_done hbigints type (.number (.finite n)) s'
    have hok : result = .ok n := (hresult n).mpr ⟨rfl, contains_i64_of_safe hsafe, hn⟩
    exact ⟨t', by rw [hread, hok]⟩
  · obtain ⟨result, t, hread, hresult⟩ := fromGuest_done hbigints type value s
    refine ⟨result, t, hread, fun n hok => ((hresult n).mp hok).1, ?_⟩
    intro n hnumeric hcontains hmin hmax
    refine (hresult n).mpr ⟨hnumeric, ⟨hmin, ?_⟩, hcontains⟩
    exact Int.le_sub_one_of_lt hmax

/-- In an engine with bigints, a `u8` is read from a bigint, and from no bigint beyond 64 bits. -/
theorem integers_exact_u8 :
    ∃ result t, IntegerType.u8.fromGuest (E := TinyEngine.engine.withBigints) (.bigint 200)
        ⟨⟨.undefined, 8⟩, .empty, 0, 1, fun _ => none, none, 1⟩ = .done result t ∧
      result = .ok 200 := by
  obtain ⟨result, t, hdone, -, hread⟩ :=
    (integers_exact (bigints_withBigints TinyEngine.engine) .u8).2 (.bigint 200)
      ⟨⟨.undefined, 8⟩, .empty, 0, 1, fun _ => none, none, 1⟩
  exact ⟨result, t, hdone, hread 200 rfl (by decide) (by decide) (by decide)⟩

end GuestJs.Marshal
