import RecordWalk.Decimal.Layout
import RecordWalk.Proofs.Decimal.Value
import RecordWalk.Proofs.Digits

/-!
# Significant digits

Zeros at the end of the coefficient can be moved into the exponent, so they do not count as digits
of a decimal. A coefficient without them is *reduced*.

**Theorem (`exists_reduced`).** Every decimal but zero has the value of a reduced one, which has as
many digits as the decimal has significant ones.

A value has one reduced decimal only, so the number of significant digits is a matter of the value
(`significantDigits_congr`). The place of the point is, too: it tells between which powers of ten
the value lies (`toRat_lt_zpow_iff`).
-/

namespace RecordWalk.Decimal

/-- The number of digits up to the last one that is not zero. -/
def significantDigits (d : Decimal) : ℕ := (d.digits.reverse.dropWhile (· = '0')).length

/-- The coefficient does not end with a zero. -/
def Reduced (d : Decimal) : Prop := d.coefficient % 10 ≠ 0

theorem Reduced.coefficient_pos {d : Decimal} (h : d.Reduced) : 0 < d.coefficient := by
  unfold Reduced at h
  omega

theorem toRat_pos {d : Decimal} (h : 0 < d.coefficient) : 0 < d.toRat := by
  have hc : (0 : ℚ) < d.coefficient := by exact_mod_cast h
  exact mul_pos hc (by positivity)

/-! ## The last digit -/

theorem getLast?_digits (d : Decimal) :
    d.digits.getLast? = some (Nat.digitChar (d.coefficient % 10)) :=
  getLast?_toDigits d.coefficient

theorem Reduced.getLast?_digits_ne {d : Decimal} (h : d.Reduced) :
    d.digits.getLast? ≠ some '0' := by
  rw [d.getLast?_digits, ne_eq, Option.some.injEq, Nat.digitChar_eq_zero]
  exact h

theorem Reduced.significantDigits_eq {d : Decimal} (h : d.Reduced) :
    d.significantDigits = d.digits.length := by
  have hhead := h.getLast?_digits_ne
  have hdrop : d.digits.reverse.dropWhile (fun c => decide (c = '0')) = d.digits.reverse := by
    rw [← List.head?_reverse] at hhead
    cases hd : d.digits.reverse with
    | nil => rfl
    | cons c cs =>
      rw [hd] at hhead
      exact List.dropWhile_cons_of_neg (by simpa using hhead)
  rw [significantDigits, hdrop, List.length_reverse]

/-- A zero at the end does not count. -/
theorem significantDigits_mul_ten {c : ℕ} (hc : 0 < c) (e : ℤ) :
    significantDigits ⟨c * 10, e⟩ = significantDigits ⟨c, e + 1⟩ := by
  have hdigits : digits ⟨c * 10, e⟩ = digits ⟨c, e + 1⟩ ++ ['0'] := by
    show Nat.toDigits 10 (c * 10) = Nat.toDigits 10 c ++ ['0']
    rw [Nat.toDigits_of_base_le (by decide) (by omega), Nat.mul_div_cancel c (by decide),
      Nat.mul_mod_left]
    rfl
  rw [significantDigits, hdigits, List.reverse_append]
  rfl

/-! ## Reduced decimals -/

/-- **Every decimal but zero has a reduced form.** -/
theorem exists_reduced {d : Decimal} (hd : 0 < d.coefficient) :
    ∃ r : Decimal, r.Reduced ∧ r.toRat = d.toRat ∧ r.digits.length = d.significantDigits := by
  obtain ⟨c, e⟩ := d
  induction c using Nat.strongRecOn generalizing e with
  | ind c ih =>
    by_cases h : c % 10 = 0
    · obtain ⟨b, rfl⟩ : ∃ b, c = b * 10 := ⟨c / 10, by omega⟩
      have hb : 0 < b := by
        dsimp only at hd
        omega
      obtain ⟨r, hr, hvalue, hlength⟩ := ih b (by omega) (e + 1) hb
      refine ⟨r, hr, hvalue.trans ?_, hlength.trans (significantDigits_mul_ten hb e).symm⟩
      exact (toRat_shift b 1 e).symm
    · have hreduced : Reduced ⟨c, e⟩ := h
      exact ⟨⟨c, e⟩, hreduced, rfl, hreduced.significantDigits_eq.symm⟩

theorem exponent_le_of_toRat_eq {d d' : Decimal} (hd : d.Reduced) (h : d.toRat = d'.toRat) :
    d'.exponent ≤ d.exponent := by
  by_contra hlt
  obtain ⟨k, hk⟩ : ∃ k : ℕ, d'.exponent = d.exponent + (k + 1 : ℕ) :=
    ⟨(d'.exponent - d.exponent - 1).toNat, by omega⟩
  have hshift : d.toRat = toRat ⟨d'.coefficient * 10 ^ (k + 1), d.exponent⟩ := by
    rw [toRat_shift, ← hk, h]
  have hcoefficient : d.coefficient = d'.coefficient * 10 ^ (k + 1) := by
    unfold toRat at hshift
    have hten : (10 : ℚ) ^ d.exponent ≠ 0 := by positivity
    exact_mod_cast mul_right_cancel₀ hten hshift
  apply hd
  rw [hcoefficient, pow_succ, ← mul_assoc, Nat.mul_mod_left]

/-- A value has only one reduced decimal. -/
theorem Reduced.eq_of_toRat_eq {d d' : Decimal} (hd : d.Reduced) (hd' : d'.Reduced)
    (h : d.toRat = d'.toRat) : d = d' := by
  have hexponent : d.exponent = d'.exponent :=
    le_antisymm (exponent_le_of_toRat_eq hd' h.symm) (exponent_le_of_toRat_eq hd h)
  obtain ⟨c, e⟩ := d
  obtain ⟨c', e'⟩ := d'
  obtain rfl : e = e' := hexponent
  have hten : (10 : ℚ) ^ e ≠ 0 := by positivity
  have hcoefficient : c = c' := by exact_mod_cast mul_right_cancel₀ hten h
  rw [hcoefficient]

theorem significantDigits_congr {d d' : Decimal} (hd : 0 < d.coefficient)
    (h : d.toRat = d'.toRat) : d.significantDigits = d'.significantDigits := by
  have hd' : 0 < d'.coefficient := by
    apply Nat.pos_of_ne_zero
    intro h0
    have hpos := toRat_pos hd
    rw [h, toRat, h0, Nat.cast_zero, zero_mul] at hpos
    exact lt_irrefl 0 hpos
  obtain ⟨r, hr, hvalue, hlength⟩ := exists_reduced hd
  obtain ⟨r', hr', hvalue', hlength'⟩ := exists_reduced hd'
  obtain rfl : r = r' := hr.eq_of_toRat_eq hr' (by rw [hvalue, hvalue', h])
  rw [← hlength, hlength']

/-! ## Powers of ten -/

theorem digits_length_pos (d : Decimal) : 0 < d.digits.length :=
  Nat.length_toDigits_pos

/-- A value is below a power of ten exactly when its point is not beyond that power. -/
theorem toRat_lt_zpow_iff {d : Decimal} (hd : 0 < d.coefficient) (k : ℤ) :
    d.toRat < 10 ^ k ↔ d.point ≤ k := by
  have hlength := d.digits_length_pos
  have hone : (1 : ℚ) ≤ d.coefficient := by exact_mod_cast hd
  have hscale : d.toRat < 10 ^ k ↔ (d.coefficient : ℚ) < 10 ^ (k - d.exponent) := by
    rw [toRat, zpow_sub₀ (by norm_num), lt_div_iff₀ (by positivity)]
  rw [hscale, point]
  by_cases hk : k ≤ d.exponent
  · have hle : (10 : ℚ) ^ (k - d.exponent) ≤ 1 := zpow_le_one_of_nonpos₀ (by norm_num) (by omega)
    exact ⟨fun h => absurd (hone.trans_lt h) (not_lt.2 hle), fun h => by omega⟩
  · obtain ⟨n, hn⟩ : ∃ n : ℕ, k - d.exponent = (n + 1 : ℕ) :=
      ⟨(k - d.exponent - 1).toNat, by omega⟩
    have hdigits : d.digits.length ≤ n + 1 ↔ d.coefficient < 10 ^ (n + 1) :=
      Nat.length_toDigits_le_iff (by decide) (Nat.succ_pos n)
    rw [hn, zpow_natCast]
    have hcast : (d.coefficient : ℚ) < 10 ^ (n + 1) ↔ d.coefficient < 10 ^ (n + 1) := by norm_cast
    rw [hcast, ← hdigits]
    omega

end RecordWalk.Decimal
