import Mathlib.Algebra.Order.Field.Power
import RecordWalk.Decimal.Basic
import RecordWalk.Proofs.Double.Rounding

/-!
# The value of a decimal decides its rounding

`Decimal.round` looks at the coefficient and the exponent, and cuts a calculation short when they
tell that the decimal is far beyond all finite magnitudes or far below the least one. Still it is
the nearest magnitude to the value (`round_nearest`), so decimals with one value round alike
(`round_congr`), however their digits are shared out between coefficient and exponent.
-/

namespace RecordWalk.Decimal

/-- The rational number that a decimal is. -/
def toRat (d : Decimal) : ℚ := d.coefficient * 10 ^ d.exponent

theorem toRat_shift (c k : ℕ) (e : ℤ) : toRat ⟨c * 10 ^ k, e⟩ = toRat ⟨c, e + k⟩ := by
  simp only [toRat]
  rw [zpow_add₀ (by norm_num), zpow_natCast]
  push_cast
  ring

theorem toRat_one (k : ℤ) : toRat ⟨1, k⟩ = 10 ^ k := by
  simp [toRat]

/-! ## The two shortcuts -/

theorem two_pow_le_of_le_log2 {c k e : ℕ} (hc : c ≠ 0) (h : k ≤ c.log2 + 3 * e) :
    2 ^ k ≤ c * 10 ^ e := by
  calc 2 ^ k ≤ 2 ^ (c.log2 + 3 * e) := Nat.pow_le_pow_right two_pos h
    _ = 2 ^ c.log2 * 8 ^ e := by rw [pow_add, pow_mul]; norm_num
    _ ≤ c * 10 ^ e := Nat.mul_le_mul (Nat.log2_self_le hc) (Nat.pow_le_pow_left (by norm_num) e)

theorem mul_two_pow_lt_of_log2_lt {c k e : ℕ} (h : c.log2 + k < 3 * e) : c * 2 ^ k < 10 ^ e := by
  calc c * 2 ^ k < 2 ^ (c.log2 + 1) * 2 ^ k :=
        Nat.mul_lt_mul_of_pos_right Nat.lt_log2_self (Nat.two_pow_pos k)
    _ = 2 ^ (c.log2 + k + 1) := by ring
    _ ≤ 2 ^ (3 * e) := Nat.pow_le_pow_right two_pos h
    _ = 8 ^ e := by rw [pow_mul]; norm_num
    _ ≤ 10 ^ e := Nat.pow_le_pow_left (by norm_num) e

theorem infinity_nearest {c e j k : ℕ} (hc : c ≠ 0) (h : j ≤ c.log2 + 3 * e)
    (hk : 2098 ≤ j + k) : Magnitude.infinity.Nearest (c * 10 ^ e * 2 ^ k) := by
  apply Magnitude.infinity_nearest
  have hle : (2 ^ j : ℚ) ≤ c * 10 ^ e := by exact_mod_cast two_pow_le_of_le_log2 hc h
  calc (2 ^ 2098 : ℚ) ≤ 2 ^ (j + k) := pow_le_pow_right₀ one_le_two hk
    _ = 2 ^ j * 2 ^ k := pow_add 2 j k
    _ ≤ c * 10 ^ e * 2 ^ k := by gcongr

theorem zero_nearest {c e k : ℕ} (h : c.log2 + (k + 1) < 3 * e) :
    Magnitude.zero.Nearest (c * (10 ^ e)⁻¹ * 2 ^ k) := by
  apply Magnitude.zero_nearest
  have hlt : (c * 2 ^ (k + 1) : ℚ) < 10 ^ e := by exact_mod_cast mul_two_pow_lt_of_log2_lt h
  calc 2 * ((c : ℚ) * (10 ^ e)⁻¹ * 2 ^ k) = c * 2 ^ (k + 1) / 10 ^ e := by ring
    _ < 1 := by rwa [div_lt_one (by positivity)]

/-! ## Rounding by value -/

/-- **A decimal rounds to the magnitude nearest to its value.** -/
theorem round_nearest (d : Decimal) : d.round.Nearest (d.toRat * 2 ^ 1074) := by
  obtain ⟨c, e⟩ := d
  unfold round toRat
  dsimp only
  split_ifs with hc
  · exact Magnitude.zero_nearest (by simp [hc])
  · cases e with
    | ofNat e =>
      dsimp only
      rw [Int.ofNat_eq_natCast, zpow_natCast]
      split_ifs with hbig
      · exact infinity_nearest hc hbig (by norm_num)
      · generalize 1074 = k
        have h := Magnitude.round_nearest (c * 10 ^ e * 2 ^ k) one_pos
        push_cast at h
        rw [div_one] at h
        rwa [Nat.shiftLeft_eq, Nat.pow_eq]
    | negSucc e =>
      dsimp only
      rw [zpow_negSucc]
      split_ifs with hsmall
      · exact zero_nearest (by omega)
      · generalize 1074 = k
        have h := Magnitude.round_nearest (c * 2 ^ k) (d := 10 ^ (e + 1)) (by positivity)
        push_cast at h
        rw [div_eq_mul_inv, mul_right_comm] at h
        rwa [Nat.shiftLeft_eq, Nat.pow_eq]

theorem round_eq {d : Decimal} {m : Magnitude} (h : m.Nearest (d.toRat * 2 ^ 1074)) :
    d.round = m :=
  d.round_nearest.unique h

theorem nearest_of_round_eq {d : Decimal} {m : Magnitude} (h : d.round = m) :
    m.Nearest (d.toRat * 2 ^ 1074) :=
  h ▸ d.round_nearest

theorem round_congr {d d' : Decimal} (h : d.toRat = d'.toRat) : d.round = d'.round :=
  round_eq (h ▸ d'.round_nearest)

/-- Rounding keeps the order. -/
theorem round_mono {d d' : Decimal} (h : d.toRat ≤ d'.toRat) : d.round.rank ≤ d'.round.rank :=
  d.round_nearest.rank_le d'.round_nearest (by gcongr)

/-- What lies between two decimals that round to one magnitude rounds to it, too. -/
theorem round_between {d d' d'' : Decimal} {m : Magnitude} (h : d.round = m) (h'' : d''.round = m)
    (hle : d.toRat ≤ d'.toRat) (hle' : d'.toRat ≤ d''.toRat) : d'.round = m :=
  round_eq ((nearest_of_round_eq h).between (nearest_of_round_eq h'') (by gcongr) (by gcongr))

end RecordWalk.Decimal
