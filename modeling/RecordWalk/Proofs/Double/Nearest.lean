import RecordWalk.Proofs.Decimal.Fewest
import RecordWalk.Proofs.Double.Read

/-!
# Decimal literals read as the nearest double

Rounding was described by boundaries: `Magnitude.Nearest` says between which two of them a number
lies. Here the boundaries are turned into distances. A number below the boundary of two magnitudes
is closer to the lower one, and only a number on the boundary is equally far from both; it goes to
the even rank, which is the one with the even significand.

The boundary above all finite magnitudes lies at `2 ^ 1024 - 2 ^ 970`, and the one below all
positive magnitudes at `2 ^ -1075`. Both belong to the far side, to infinity and to zero.

**Theorem (`read_nearest`).** A signed decimal literal of any length reads as the double that is
nearest to the number it denotes.
-/

namespace RecordWalk

/-! ## Distances -/

theorem abs_sub_le_of_two_mul_le {a b x : ℚ} (hab : a ≤ b) (hx : 2 * x ≤ a + b) :
    |a - x| ≤ |b - x| := by
  refine le_trans ?_ (le_abs_self (b - x))
  rw [abs_le]
  constructor <;> linarith

theorem abs_sub_le_of_le_two_mul {a b x : ℚ} (hab : a ≤ b) (hx : a + b ≤ 2 * x) :
    |b - x| ≤ |a - x| := by
  refine le_trans ?_ (neg_le_abs (a - x))
  rw [abs_le]
  constructor <;> linarith

/-- Only the number halfway between two others is equally far from both. -/
theorem two_mul_eq_of_abs_sub_eq {a b x : ℚ} (hab : a ≠ b) (h : |a - x| = |b - x|) :
    2 * x = a + b := by
  rcases abs_eq_abs.1 h with h | h
  · exact absurd (by linarith) hab
  · linarith

theorem rankSignificand_mod_two (r : ℕ) : rankSignificand r % 2 = r % 2 := by
  unfold rankSignificand rankScale
  omega

namespace Magnitude

variable {m : Magnitude} {x : ℚ}

theorem cast_rankUnits_le {r r' : ℕ} (h : r ≤ r') : (rankUnits r : ℚ) ≤ rankUnits r' := by
  exact_mod_cast rankUnits_strictMono.monotone h

/-- The boundary to any larger rank is not below the number. -/
theorem Nearest.two_mul_le (h : m.Nearest x) (hm : m.rank < topRank) {r : ℕ} (hr : m.rank < r) :
    2 * x ≤ rankUnits m.rank + rankUnits r := by
  have hle := (h.roundsAtMost hm).le
  have hnext := cast_rankUnits_le (Nat.succ_le_of_lt hr)
  linarith

/-- The boundary to any smaller rank is not above the number. -/
theorem Nearest.le_two_mul (h : m.Nearest x) {r : ℕ} (hr : r < m.rank) :
    (rankUnits r + rankUnits m.rank : ℚ) ≤ 2 * x := by
  obtain ⟨k, hk⟩ : ∃ k, m.rank = k + 1 := ⟨m.rank - 1, by omega⟩
  have hle := le_of_not_roundsAtMost (h.not_roundsAtMost hk)
  have hprev := cast_rankUnits_le (show r ≤ k by omega)
  rw [hk]
  linarith

/-- **No magnitude is closer than the nearest one.** -/
theorem Nearest.abs_sub_le (h : m.Nearest x) (hm : m.rank < topRank) (r : ℕ) :
    |(rankUnits m.rank : ℚ) - x| ≤ |(rankUnits r : ℚ) - x| := by
  rcases lt_trichotomy m.rank r with hlt | rfl | hgt
  · exact abs_sub_le_of_two_mul_le (cast_rankUnits_le hlt.le) (h.two_mul_le hm hlt)
  · exact le_rfl
  · exact abs_sub_le_of_le_two_mul (cast_rankUnits_le hgt.le) (h.le_two_mul hgt)

/-- **If another one is as close, the nearest one is even.** -/
theorem Nearest.even_of_abs_sub_eq (h : m.Nearest x) (hm : m.rank < topRank) {r : ℕ}
    (hr : m.rank ≠ r) (htie : |(rankUnits m.rank : ℚ) - x| = |(rankUnits r : ℚ) - x|) :
    m.rank % 2 = 0 := by
  have hne : (rankUnits m.rank : ℚ) ≠ rankUnits r := by
    exact_mod_cast rankUnits_strictMono.injective.ne hr
  have hhalf := two_mul_eq_of_abs_sub_eq hne htie
  rcases Nat.lt_or_gt_of_ne hr with hlt | hgt
  · -- The other one is above: the number is on the boundary that the nearest one has there.
    have hnext := cast_rankUnits_le (Nat.succ_le_of_lt hlt)
    rcases h.roundsAtMost hm with hbelow | ⟨-, heven⟩
    · linarith
    · exact heven
  · -- The other one is below: the number is on the boundary of the rank before, which is odd.
    obtain ⟨k, hk⟩ : ∃ k, m.rank = k + 1 := ⟨m.rank - 1, by omega⟩
    have hnot := h.not_roundsAtMost hk
    have hprev := cast_rankUnits_le (show r ≤ k by omega)
    have hboundary := le_of_not_roundsAtMost hnot
    rw [hk] at hhalf
    have hodd : k % 2 ≠ 0 := fun heven => hnot (Or.inr ⟨by linarith, heven⟩)
    omega

/-! ## The two ends -/

theorem rankUnits_topRank_pred : rankUnits (topRank - 1) + 2 ^ 2045 = 2 ^ 2098 := by
  have h : topRank - 1 = 2045 * 2 ^ 52 + (2 ^ 53 - 1) := rfl
  rw [h, rankUnits_add (Or.inr (by norm_num)) (by norm_num), ← Nat.succ_mul,
    show Nat.succ (2 ^ 53 - 1) = 2 ^ 53 from rfl, ← pow_add]

theorem Nearest.eq_infinity_iff (h : m.Nearest x) :
    m = .infinity ↔ 2 ^ 2098 - 2 ^ 2044 ≤ x := by
  have htop : topRank - 1 + 1 = topRank := rfl
  have hodd : (topRank - 1) % 2 = 1 := rfl
  have hlast := h (topRank - 1) (Nat.sub_one_lt_of_lt (Nat.succ_pos _))
  have hrank : m = .infinity ↔ ¬ m.rank ≤ topRank - 1 := by
    have hle := m.rank_le
    constructor
    · rintro rfl
      exact Nat.not_le_of_lt (Nat.sub_one_lt_of_lt (Nat.succ_pos _))
    · intro hnot
      exact eq_of_rank_eq (show m.rank = topRank by omega)
  have hsum : (rankUnits (topRank - 1) : ℚ) + rankUnits topRank = 2 * (2 ^ 2098 - 2 ^ 2044) := by
    have hpred : ((rankUnits (topRank - 1) + 2 ^ 2045 : ℕ) : ℚ) = (2 ^ 2098 : ℕ) := by
      rw [rankUnits_topRank_pred]
    have hpow : (2 : ℚ) ^ 2045 = 2 * 2 ^ 2044 := pow_succ' 2 2044
    rw [Nat.cast_add, Nat.cast_pow, Nat.cast_pow, Nat.cast_ofNat] at hpred
    rw [rankUnits_topRank, Nat.cast_pow, Nat.cast_ofNat]
    generalize (2 : ℚ) ^ 2098 = a at hpred ⊢
    generalize (2 : ℚ) ^ 2045 = b at hpred hpow
    generalize (2 : ℚ) ^ 2044 = c at hpow ⊢
    linarith
  rw [hrank, hlast, RoundsAtMost, htop, hsum, hodd]
  generalize (2 : ℚ) ^ 2098 - 2 ^ 2044 = a
  constructor
  · intro hnot
    have hlt : ¬ 2 * x < 2 * a := fun hlt => hnot (Or.inl hlt)
    linarith
  · rintro hle (hlt | ⟨-, hone⟩)
    · linarith
    · cases hone

theorem Nearest.eq_zero_iff (h : m.Nearest x) : m = .zero ↔ 2 * x ≤ 1 := by
  have hrank : m = .zero ↔ m.rank ≤ 0 := by
    constructor
    · rintro rfl
      exact le_rfl
    · intro hle
      exact eq_of_rank_eq (Nat.le_zero.1 hle)
  rw [hrank, h 0 (Nat.succ_pos _), RoundsAtMost, le_iff_lt_or_eq]
  simp

/-! ## In exact values -/

theorem abs_toRat_sub_mul (m : Magnitude) (q : ℚ) :
    |m.toRat - q| * 2 ^ 1074 = |(rankUnits m.rank : ℚ) - q * 2 ^ 1074| := by
  have hunits : m.toRat * 2 ^ 1074 = rankUnits m.rank := by
    rw [toRat, div_mul_cancel₀ _ (by positivity)]
    rfl
  have hpos : (0 : ℚ) < 2 ^ 1074 := by positivity
  rw [← hunits, ← sub_mul, abs_mul, abs_of_pos hpos]

theorem toRat_nonneg (m : Magnitude) : 0 ≤ m.toRat := by
  unfold toRat
  positivity

theorem toRat_zero : zero.toRat = 0 := by
  simp [toRat, units, zero]

theorem toRat_mono {m m' : Magnitude} (h : m.rank ≤ m'.rank) : m.toRat ≤ m'.toRat := by
  unfold toRat units
  have hunits := cast_rankUnits_le h
  gcongr

end Magnitude

/-- The number with a sign. -/
def signedRat (negative : Bool) (q : ℚ) : ℚ := if negative then -q else q

namespace Double

/-- The exact value of a finite double; infinity counts as `2 ^ 1024`, beyond all finite ones. -/
def toRat : Double → ℚ
  | nan => 0
  | signed s m => signedRat s m.toRat

theorem toRat_signed (s : Bool) (m : Magnitude) : (signed s m).toRat = signedRat s m.toRat := rfl

def IsFinite : Double → Prop
  | nan => False
  | signed _ m => m ≠ .infinity

/-- The integer significand. -/
def significand : Double → ℕ
  | nan => 0
  | signed _ m => rankSignificand m.rank

/-- The numeric order, in which the two zeros are equal. NaN has no place in it. -/
def Le (x y : Double) : Prop := x ≠ nan ∧ y ≠ nan ∧ x.toRat ≤ y.toRat

/-- No finite double is closer to the number, and if another value is as close, the significand is
even. -/
structure IsNearest (x : Double) (v : ℚ) : Prop where
  finite : x.IsFinite
  closest : ∀ y : Double, y.IsFinite → |x.toRat - v| ≤ |y.toRat - v|
  even : ∀ y : Double, y.IsFinite → y.toRat ≠ x.toRat → |x.toRat - v| = |y.toRat - v| →
    x.significand % 2 = 0

end Double

section

variable {m : Magnitude} {q : ℚ}

/-- No finite magnitude is closer to a number than the nearest one. -/
theorem Magnitude.Nearest.abs_toRat_sub_le (h : m.Nearest (q * 2 ^ 1074)) (hm : m ≠ .infinity)
    (m' : Magnitude) : |m.toRat - q| ≤ |m'.toRat - q| := by
  have hle := h.abs_sub_le (rank_lt_topRank hm) m'.rank
  rw [← abs_toRat_sub_mul, ← abs_toRat_sub_mul] at hle
  exact le_of_mul_le_mul_right hle (by positivity)

theorem Magnitude.Nearest.even_of_abs_toRat_sub_eq (h : m.Nearest (q * 2 ^ 1074))
    (hm : m ≠ .infinity) {m' : Magnitude} (hne : m'.toRat ≠ m.toRat)
    (htie : |m.toRat - q| = |m'.toRat - q|) : rankSignificand m.rank % 2 = 0 := by
  have hrank : m.rank ≠ m'.rank := fun heq => hne (by rw [eq_of_rank_eq heq])
  rw [rankSignificand_mod_two]
  refine h.even_of_abs_sub_eq (rank_lt_topRank hm) hrank ?_
  rw [← abs_toRat_sub_mul, ← abs_toRat_sub_mul, htie]

theorem signedRat_zero (s : Bool) : signedRat s 0 = 0 := by
  cases s <;> simp [signedRat]

theorem abs_signedRat_sub (s : Bool) (a q : ℚ) : |signedRat s a - signedRat s q| = |a - q| := by
  cases s with
  | false => rfl
  | true =>
    show |-a - -q| = |a - q|
    rw [neg_sub_neg, abs_sub_comm]

/-- With another sign a magnitude is farther away, or is zero. -/
theorem abs_signedRat_sub_of_ne {s t : Bool} (hst : t ≠ s) {a q : ℚ} (ha : 0 ≤ a) (hq : 0 ≤ q) :
    |signedRat t a - signedRat s q| = a + q := by
  cases s with
  | false =>
    obtain rfl : t = true := by simpa using hst
    show |-a - q| = a + q
    rw [← neg_add', abs_neg, abs_of_nonneg (add_nonneg ha hq)]
  | true =>
    obtain rfl : t = false := by simpa using hst
    show |a - -q| = a + q
    rw [sub_neg_eq_add, abs_of_nonneg (add_nonneg ha hq)]

theorem abs_sub_le_add {a q : ℚ} (ha : 0 ≤ a) (hq : 0 ≤ q) : |a - q| ≤ a + q := by
  rw [abs_le]
  constructor <;> linarith

/-- A double with the other sign is as close as the nearest magnitude only if it is zero. -/
theorem Magnitude.Nearest.toRat_eq_zero_of_tie (h : m.Nearest (q * 2 ^ 1074)) (hm : m ≠ .infinity)
    (hq : 0 ≤ q) {m' : Magnitude} (htie : |m.toRat - q| = m'.toRat + q) : m'.toRat = 0 := by
  have hzero := h.abs_toRat_sub_le hm .zero
  rw [toRat_zero, zero_sub, abs_neg, abs_of_nonneg hq, htie] at hzero
  exact le_antisymm (by linarith) m'.toRat_nonneg

/-- **The nearest magnitude with the sign of a number is the nearest double.** -/
theorem Magnitude.Nearest.isNearest (h : m.Nearest (q * 2 ^ 1074)) (hm : m ≠ .infinity) (hq : 0 ≤ q)
    (s : Bool) : (Double.signed s m).IsNearest (signedRat s q) := by
  have hown : |(Double.signed s m).toRat - signedRat s q| = |m.toRat - q| :=
    abs_signedRat_sub s m.toRat q
  refine ⟨hm, fun y hy => ?_, fun y hy hne htie => ?_⟩
  · rw [hown]
    cases y with
    | nan => exact absurd hy id
    | signed t m' =>
      refine (h.abs_toRat_sub_le hm m').trans ?_
      by_cases hst : t = s
      · exact hst ▸ (abs_signedRat_sub t m'.toRat q).ge
      · exact (abs_sub_le_add m'.toRat_nonneg hq).trans
          (abs_signedRat_sub_of_ne hst m'.toRat_nonneg hq).ge
  · rw [hown] at htie
    cases y with
    | nan => exact absurd hy id
    | signed t m' =>
      rw [Double.toRat_signed] at htie
      -- Whatever its sign is, the other double has the value of its magnitude with the sign `s`.
      have hsame : signedRat t m'.toRat = signedRat s m'.toRat := by
        by_cases hst : t = s
        · rw [hst]
        · rw [abs_signedRat_sub_of_ne hst m'.toRat_nonneg hq] at htie
          rw [h.toRat_eq_zero_of_tie hm hq htie, signedRat_zero, signedRat_zero]
      rw [hsame, abs_signedRat_sub] at htie
      refine h.even_of_abs_toRat_sub_eq hm (fun heq => hne ?_) htie
      rw [Double.toRat_signed, Double.toRat_signed, hsame, heq]

end

/-! ## Rounded decimals -/

namespace Decimal

theorem toRat_nonneg (d : Decimal) : 0 ≤ d.toRat := by
  unfold toRat
  positivity

theorem round_eq_infinity_iff (d : Decimal) :
    d.round = .infinity ↔ 2 ^ 1024 - 2 ^ 970 ≤ d.toRat := by
  have hscale : (2 ^ 1024 - 2 ^ 970 : ℚ) * 2 ^ 1074 = 2 ^ 2098 - 2 ^ 2044 := by
    rw [sub_mul, ← pow_add, ← pow_add]
  rw [d.round_nearest.eq_infinity_iff, ← hscale]
  exact mul_le_mul_iff_left₀ (by positivity)

theorem round_eq_zero_iff (d : Decimal) : d.round = .zero ↔ d.toRat ≤ 1 / 2 ^ 1075 := by
  have hscale : 2 * (d.toRat * 2 ^ 1074) = d.toRat * 2 ^ 1075 := by
    rw [pow_succ (2 : ℚ) 1074]
    generalize (2 : ℚ) ^ 1074 = a
    ring
  rw [d.round_nearest.eq_zero_iff, hscale, le_div_iff₀ (by positivity)]

theorem round_eq_zero {d : Decimal} (h : d.toRat = 0) : d.round = .zero := by
  rw [round_eq_zero_iff, h]
  positivity

end Decimal

namespace Double

open Numeral (DecimalText)

/-- A larger number with its sign does not round to a smaller double. -/
theorem le_of_signedRat_le {d d' : Decimal} {s s' : Bool}
    (h : signedRat s d.toRat ≤ signedRat s' d'.toRat) :
    (signed s d.round).Le (signed s' d'.round) := by
  refine ⟨by simp, by simp, ?_⟩
  rw [toRat_signed, toRat_signed]
  have hm := d.round.toRat_nonneg
  have hm' := d'.round.toRat_nonneg
  cases s with
  | false =>
    cases s' with
    | false => exact Magnitude.toRat_mono (Decimal.round_mono h)
    | true =>
      -- Nothing that is not negative is below a negative number, so both are zero.
      have hle : d.toRat ≤ -d'.toRat := h
      have hd := d.toRat_nonneg
      have hd' := d'.toRat_nonneg
      rw [Decimal.round_eq_zero (show d.toRat = 0 by linarith),
        Decimal.round_eq_zero (show d'.toRat = 0 by linarith), Magnitude.toRat_zero,
        signedRat_zero, signedRat_zero]
  | true =>
    cases s' with
    | false =>
      show -d.round.toRat ≤ d'.round.toRat
      linarith
    | true => exact neg_le_neg (Magnitude.toRat_mono (Decimal.round_mono (neg_le_neg_iff.1 h)))

theorem exists_read_eq_round {s : String} {negative : Bool} {q : ℚ}
    (h : DecimalText s negative q) :
    ∃ d : Decimal, d.toRat = q ∧ read s = signed negative d.round := by
  obtain ⟨d, hd, hvalue⟩ := h.exists_parse?
  refine ⟨d, hvalue, ?_⟩
  rw [read, hd]
  rfl

/-- **A decimal literal reads as the nearest double.** Let a text be a signed decimal literal
between blanks that denotes `q` up to its sign.

* It reads as a double of that sign. Below `2 ^ 1024 - 2 ^ 970` this is the finite double nearest to
  the number, with an even significand if two are equally near; from there on it is infinite.
* Up to `2 ^ -1075` it is zero.
* Any other literal that denotes a larger number does not read as a smaller double, and any other
  literal of that sign and that value reads as the same double. -/
theorem read_nearest {s : String} {negative : Bool} {q : ℚ} (h : DecimalText s negative q) :
    (∃ m, read s = signed negative m) ∧
      (q < 2 ^ 1024 - 2 ^ 970 → (read s).IsNearest (signedRat negative q)) ∧
      (2 ^ 1024 - 2 ^ 970 ≤ q → read s = signed negative .infinity) ∧
      (q ≤ 1 / 2 ^ 1075 → read s = signed negative .zero) ∧
      ∀ s' negative' q', DecimalText s' negative' q' →
        (signedRat negative q ≤ signedRat negative' q' → (read s).Le (read s')) ∧
        (negative' = negative → q' = q → read s' = read s) := by
  obtain ⟨d, rfl, hread⟩ := exists_read_eq_round h
  rw [hread]
  refine ⟨⟨_, rfl⟩, fun hlt => ?_, fun hle => ?_, fun hle => ?_, fun s' negative' q' h' => ?_⟩
  · have hfinite : d.round ≠ .infinity := mt d.round_eq_infinity_iff.1 (not_le.2 hlt)
    exact d.round_nearest.isNearest hfinite d.toRat_nonneg negative
  · rw [d.round_eq_infinity_iff.2 hle]
  · rw [d.round_eq_zero_iff.2 hle]
  · obtain ⟨d', rfl, hread'⟩ := exists_read_eq_round h'
    rw [hread']
    refine ⟨le_of_signedRat_le, ?_⟩
    rintro rfl hvalue
    rw [Decimal.round_congr hvalue]

/-- A negative number halfway between two doubles, with a point, a power and a blank. -/
theorem read_nearest_halfway :
    DecimalText " -900719925474099.3e1" true 9007199254740993 ∧
      (read " -900719925474099.3e1").IsNearest (signedRat true 9007199254740993) := by
  have hliteral : Decimal.Literal "900719925474099.3e1".toList 9007199254740993 := by
    have hmantissa : Decimal.Mantissa ("900719925474099".toList ++ '.' :: ['3']) _ :=
      .point (by decide) (by decide)
    have hpower : Decimal.Power ('e' :: ([] ++ ['1'])) _ := .mark (Or.inl rfl) .absent (by decide)
    have hwhole : digitsValue "900719925474099".toList = 900719925474099 := by decide
    have hthree : digitsValue ['3'] = 3 := rfl
    have hone : digitsValue ['1'] = 1 := rfl
    have h := Decimal.Literal.mk hmantissa hpower
    rw [hwhole, hthree, hone] at h
    norm_num at h
    exact h
  have htext : DecimalText " -900719925474099.3e1" true 9007199254740993 :=
    ⟨['-'], "900719925474099.3e1".toList, isTrimmed_iff.2 (by decide), .minus, hliteral⟩
  have hlow : (9007199254740993 : ℚ) < 2 ^ 1024 - 2 ^ 970 := by
    have hone : (1 : ℚ) ≤ 2 ^ 970 := one_le_pow₀ one_le_two
    have hpow : (2 : ℚ) ^ 1024 = 2 ^ 970 * 2 ^ 54 := pow_add 2 970 54
    rw [hpow]
    generalize (2 : ℚ) ^ 970 = a at hone
    linarith
  exact ⟨htext, (read_nearest htext).2.1 hlow⟩

/-- The even one of the two neighbours is chosen. A digit far behind the point tips the balance. -/
example : read " -900719925474099.3e1" = ofInt (-9007199254740992) ∧
    read "-9007199254740993.00000000000000000000000001" = ofInt (-9007199254740994) := by
  decide +kernel

end Double

end RecordWalk
