import Mathlib.Algebra.Order.Ring.Int
import Mathlib.Data.Nat.Log

/-!
# Integers as doubles

A double has 53 bits of significand. `Double.ofInt` rounds an integer to the
nearest double, ties to even, without a bound on the exponent. An integer below
2^53 is a double itself, and rounding does not cross 2^53 from either side, so a
rounded value below it is the integer that was rounded.
-/

namespace Double

/-- The nearest double of a natural number, ties to even. -/
def ofNat (n : Nat) : Nat :=
  let ulp := 2 ^ (n.log2 - 52)
  let below := n / ulp
  if 2 * (n % ulp) < ulp ∨ 2 * (n % ulp) = ulp ∧ below % 2 = 0 then below * ulp
  else (below + 1) * ulp

def ofInt (n : Int) : Int := if n < 0 then -ofNat n.natAbs else ofNat n.natAbs

theorem ofNat_of_lt {n : Nat} (h : n < 2 ^ 53) : ofNat n = n := by
  have hlog : n.log2 - 52 = 0 := by
    by_cases hn : n = 0
    · simp [hn]
    · have := (Nat.log2_lt hn).mpr h
      omega
  simp [ofNat, hlog, Nat.mod_one]

theorem le_ofNat {n : Nat} (h : 2 ^ 53 ≤ n) : 2 ^ 53 ≤ ofNat n := by
  have hn : n ≠ 0 := by
    intro hzero
    simp [hzero] at h
  have hlog : 53 ≤ n.log2 := (Nat.le_log2 hn).mpr h
  have hsplit : 2 ^ 52 * 2 ^ (n.log2 - 52) = 2 ^ n.log2 := by
    rw [← Nat.pow_add]
    congr 1
    omega
  -- the significand has its leading bit, and rounding up only adds to it
  have hlead : 2 ^ 52 ≤ n / 2 ^ (n.log2 - 52) := by
    rw [Nat.le_div_iff_mul_le (Nat.two_pow_pos _), hsplit]
    exact Nat.log2_self_le hn
  have hbelow : 2 ^ 53 ≤ n / 2 ^ (n.log2 - 52) * 2 ^ (n.log2 - 52) :=
    calc 2 ^ 53 ≤ 2 ^ n.log2 := Nat.pow_le_pow_right (by omega) hlog
      _ = 2 ^ 52 * 2 ^ (n.log2 - 52) := hsplit.symm
      _ ≤ n / 2 ^ (n.log2 - 52) * 2 ^ (n.log2 - 52) := Nat.mul_le_mul_right _ hlead
  unfold ofNat
  dsimp only
  split
  · exact hbelow
  · exact Nat.le_trans hbelow (Nat.mul_le_mul_right _ (Nat.le_succ _))

variable {n : Int}

theorem ofInt_of_lt (hlow : -2 ^ 53 < n) (hhigh : n < 2 ^ 53) : ofInt n = n := by
  have habs := ofNat_of_lt (n := n.natAbs) (by omega)
  unfold ofInt
  split <;> omega

theorem le_ofInt (h : 2 ^ 53 ≤ n) : 2 ^ 53 ≤ ofInt n := by
  have habs := le_ofNat (n := n.natAbs) (by omega)
  unfold ofInt
  split <;> omega

theorem ofInt_le (h : n ≤ -2 ^ 53) : ofInt n ≤ -2 ^ 53 := by
  have habs := le_ofNat (n := n.natAbs) (by omega)
  unfold ofInt
  split <;> omega

end Double
