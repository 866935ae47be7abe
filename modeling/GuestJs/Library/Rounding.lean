import Mathlib.Data.Nat.Init
import Mathlib.Data.Int.Order.Lemmas

/-!
# Integers at a fixed precision

The integer nearest to a given one among those with so many significant bits, ties going to the even
one: what a wide integer becomes as a binary float. Below the precision nothing changes, and what is
not below it stays so.
-/

namespace Rounding

/-- The integer nearest to `m / d`, the even one of two that are as near. -/
def divNearest (m d : Nat) : Nat :=
  if 2 * (m % d) < d then m / d
  else if d < 2 * (m % d) then m / d + 1
  else m / d + m / d % 2

theorem div_le_divNearest (m d : Nat) : m / d ≤ divNearest m d := by
  unfold divNearest
  split
  · exact Nat.le_refl _
  · split <;> omega

def natNearest (bits m : Nat) : Nat :=
  if m < 2 ^ bits then m
  else divNearest m (2 ^ (m.log2 + 1 - bits)) * 2 ^ (m.log2 + 1 - bits)

theorem natNearest_of_lt {bits m : Nat} (h : m < 2 ^ bits) : natNearest bits m = m := if_pos h

theorem le_natNearest {bits m : Nat} (hbits : 0 < bits) (h : 2 ^ bits ≤ m) :
    2 ^ bits ≤ natNearest bits m := by
  have hpos : m ≠ 0 := by
    have : 0 < 2 ^ bits := Nat.two_pow_pos bits
    omega
  have hlog : bits ≤ m.log2 := (Nat.le_log2 hpos).mpr h
  obtain ⟨excess, hexcess⟩ : ∃ excess, m.log2 = bits + excess := Nat.exists_eq_add_of_le hlog
  have hlow : m.log2 + 1 - bits = excess + 1 := by omega
  rw [natNearest, if_neg (Nat.not_lt.mpr h), hlow]
  have hquotient : 2 ^ (bits - 1) ≤ m / 2 ^ (excess + 1) := by
    rw [Nat.le_div_iff_mul_le (Nat.two_pow_pos _), ← Nat.pow_add]
    have hsum : bits - 1 + (excess + 1) = m.log2 := by omega
    rw [hsum]
    exact Nat.log2_self_le hpos
  calc 2 ^ bits = 2 ^ (bits - 1) * 2 ^ 1 := by rw [← Nat.pow_add, Nat.sub_add_cancel hbits]
    _ ≤ 2 ^ (bits - 1) * 2 ^ (excess + 1) :=
        Nat.mul_le_mul_left _ (Nat.pow_le_pow_right Nat.two_pos (Nat.le_add_left 1 excess))
    _ ≤ divNearest m (2 ^ (excess + 1)) * 2 ^ (excess + 1) :=
        Nat.mul_le_mul_right _ (hquotient.trans (div_le_divNearest m _))

/-- The integer nearest to `n` with no more than `bits` significant bits. -/
def nearest (bits : Nat) (n : Int) : Int := n.sign * natNearest bits n.natAbs

theorem nearest_of_lt {bits : Nat} {n : Int} (h : n.natAbs < 2 ^ bits) : nearest bits n = n := by
  rw [nearest, natNearest_of_lt h, Int.sign_mul_natAbs]

theorem le_natAbs_nearest {bits : Nat} {n : Int} (hbits : 0 < bits)
    (h : 2 ^ bits ≤ n.natAbs) :
    2 ^ bits ≤ (nearest bits n).natAbs := by
  have hne : n ≠ 0 := by
    have : 0 < 2 ^ bits := Nat.two_pow_pos bits
    omega
  rw [nearest, Int.natAbs_mul, Int.natAbs_sign_of_ne_zero hne, Nat.one_mul, Int.natAbs_natCast]
  exact le_natNearest hbits h

end Rounding
