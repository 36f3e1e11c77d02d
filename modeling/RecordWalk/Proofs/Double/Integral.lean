import RecordWalk.Proofs.Double.Display
import RecordWalk.Proofs.Double.Natural
import RecordWalk.Value.Convert

/-!
# Integral values carry no fraction

Displaying never asks whether a number is an integer. The digits of the shortest decimal are laid
out around the point, and no point is written if all digits stand before it, that is, if the
exponent of the shortest decimal is not negative. That this is so for integers, and for nothing
else, is due to rounding:

* An integral magnitude is what its own numeral rounds to. The shortest decimal lies on no finer
  grid than that numeral, so it is a natural number, too.
* What a natural number rounds to is integral (`exists_toRat_ofNat`): up to `2 ^ 53` it is the
  number itself, and beyond that all magnitudes are integral.

**Theorem (`display_integral`).** Below `10 ^ 21` the display text of a finite double is a numeral
of digits with an optional minus exactly if the double is an integer. For an integer of up to
`2 ^ 53` it is the usual numeral.
-/

namespace RecordWalk

theorem toDigits_mul_ten_pow {n : ℕ} (hn : 0 < n) (k : ℕ) :
    Nat.toDigits 10 (n * 10 ^ k) = Nat.toDigits 10 n ++ List.replicate k '0' := by
  induction k with
  | zero => rw [pow_zero, mul_one, List.replicate_zero, List.append_nil]
  | succ k ih =>
    have hpos : 0 < n * 10 ^ k := by positivity
    have hstep := Nat.toDigits_append_toDigits (b := 10) (d := 0) (by decide) hpos (by decide)
    have hproduct : n * 10 ^ (k + 1) = 10 * (n * 10 ^ k) + 0 := by ring
    rw [hproduct, ← hstep, ih, List.replicate_succ', List.append_assoc]
    rfl

namespace Decimal

/-! ## Layouts without a point -/

/-- Up to 21 digits before the point, a layout has nothing but digits if all digits stand before the
point, and something else if not. -/
theorem Layout.whole_or {ds body : List Char} {p : ℤ} (h : Layout ds p body) (hds : IsDigits ds)
    (hp : p ≤ 21) :
    (ds.length ≤ p ∧ body = ds ++ List.replicate (p - ds.length).toNat '0') ∨
      (p < ds.length ∧ ∃ c ∈ body, c.isDigit = false) := by
  have hlength : 0 < ds.length := List.length_pos_iff.2 hds.1
  cases h with
  | @whole zeros _ =>
    refine Or.inl ⟨by omega, ?_⟩
    rw [add_sub_cancel_left, Int.toNat_natCast]
  | mixed => exact Or.inr ⟨by omega, '.', by simp, rfl⟩
  | fraction => exact Or.inr ⟨by omega, '.', by simp, rfl⟩
  | large => omega
  | small => exact Or.inr ⟨by omega, 'e', by simp, rfl⟩

theorem Layout.isDigits_iff {ds body : List Char} {p : ℤ} (h : Layout ds p body) (hds : IsDigits ds)
    (hp : p ≤ 21) : IsDigits body ↔ ds.length ≤ p := by
  rcases h.whole_or hds hp with ⟨hle, rfl⟩ | ⟨hlt, c, hc, hdigit⟩
  · refine iff_of_true ⟨by simp [hds.1], fun c hc => ?_⟩ hle
    exact (List.mem_append.1 hc).elim (hds.2 c) isDigit_of_mem_zeros
  · refine iff_of_false (fun hbody => ?_) (by omega)
    exact Bool.false_ne_true (hdigit.symm.trans (hbody.2 c hc))

/-- A decimal without a fraction rounds as the natural number that it is. -/
theorem round_natCast (c e : ℕ) : round ⟨c, e⟩ = Magnitude.ofNat (c * 10 ^ e) := by
  apply round_eq
  have hnearest := Magnitude.ofNat_nearest (c * 10 ^ e)
  rw [Nat.cast_mul, Nat.cast_pow] at hnearest
  exact hnearest

end Decimal

/-! ## Shortest decimals of integral magnitudes -/

namespace Magnitude

theorem toRat_eq_natCast_iff (m : Magnitude) (n : ℕ) : m.toRat = n ↔ m.units = n * 2 ^ 1074 := by
  rw [le_antisymm_iff, toRat_le_natCast_iff, natCast_le_toRat_iff, ← le_antisymm_iff]

theorem toRat_ofNat {n : ℕ} (hn : n ≤ 2 ^ 53) : (ofNat n).toRat = n := by
  have hunits := units_ofNat (w := 0) hn (Nat.zero_le _)
  rw [pow_zero, mul_one] at hunits
  exact (toRat_eq_natCast_iff _ n).2 hunits

/-- **What a natural number rounds to is integral.** -/
theorem exists_toRat_ofNat {n : ℕ} (htop : (ofNat n).rank < topRank) :
    ∃ k : ℕ, (ofNat n).toRat = k := by
  rcases Nat.le_total n (2 ^ 53) with hshort | hlong
  · exact ⟨n, toRat_ofNat hshort⟩
  · -- The binade has units of `1` or more.
    have hmost := ((ofNat_nearest n).roundsAtMost htop).le
    generalize ofNat n = m at hmost ⊢
    have hbinade : ∃ k, m.units = k * 2 ^ 1074 := by
      generalize 1074 = u at *
      have hle : 2 * (n * 2 ^ u) ≤ rankUnits m.rank + rankUnits (m.rank + 1) := by
        exact_mod_cast hmost
      have hmul : 2 ^ 53 * 2 ^ u ≤ n * 2 ^ u := Nat.mul_le_mul_right _ hlong
      obtain ⟨s, t, hs, hself, -⟩ := exists_binade (r := m.rank) (j := u) (by omega)
      refine ⟨t * 2 ^ (s - u), ?_⟩
      rw [units, hself, mul_assoc, ← pow_add, Nat.sub_add_cancel hs.le]
    obtain ⟨k, hk⟩ := hbinade
    exact ⟨k, (toRat_eq_natCast_iff m k).2 hk⟩

section

variable {m : Magnitude} (hm : 0 < m.rank) (htop : m.rank < topRank)

include hm htop

/-- **The shortest decimal has no fraction exactly if the magnitude has none.** -/
theorem exponent_shortest_nonneg_iff : 0 ≤ m.shortest.exponent ↔ ∃ n : ℕ, m.toRat = n := by
  have hround := round_shortest hm
  constructor
  · intro h
    obtain ⟨e, he⟩ := Int.eq_ofNat_of_zero_le h
    have hwhole := Decimal.round_natCast m.shortest.coefficient e
    rw [← he, hround] at hwhole
    rw [hwhole] at htop ⊢
    exact exists_toRat_ofNat htop
  · rintro ⟨n, hn⟩
    have hself : Decimal.round ⟨n, 0⟩ = m := by
      apply Decimal.round_eq
      have hnearest := m.nearest_units
      rw [(toRat_eq_natCast_iff m n).1 hn, Nat.cast_mul, Nat.cast_pow] at hnearest
      rw [Decimal.toRat, zpow_zero, mul_one]
      exact hnearest
    exact exponent_le_shortest hm htop hself

theorem point_shortest_le_iff : m.shortest.point ≤ 21 ↔ m.toRat < 10 ^ 21 := by
  have hpower : (Decimal.round ⟨1, 21⟩).toRat = (10 ^ 21 : ℕ) := by
    have hunits := units_ofNat (t := 5 ^ 21) (w := 21) (by norm_num) (by norm_num)
    have hten : (5 ^ 21 * 2 ^ 21 : ℕ) = 1 * 10 ^ 21 := by norm_num
    rw [hten] at hunits
    have hround : Decimal.round ⟨1, 21⟩ = ofNat (1 * 10 ^ 21) := Decimal.round_natCast 1 21
    rw [hround, toRat_eq_natCast_iff, hunits, one_mul]
  have hlt := lt_point_shortest_iff hm htop 21
  rw [← toRat_le_iff, hpower] at hlt
  rw [← not_lt, hlt, not_le]
  norm_cast

end

theorem ofNat_rank_pos {n : ℕ} (hn : 0 < n) (hle : n ≤ 2 ^ 53) : 0 < (ofNat n).rank := by
  apply rank_pos
  intro hzero
  have hvalue := toRat_ofNat hle
  rw [hzero, toRat_zero] at hvalue
  exact hn.ne (by exact_mod_cast hvalue)

theorem ofNat_rank_lt_topRank {n : ℕ} (hle : n ≤ 2 ^ 53) : (ofNat n).rank < topRank :=
  (ofNat_mono hle).trans_lt (by decide +kernel)

/-- **The shortest decimal of an integer of up to 53 bits is that integer.** -/
theorem exists_shortest_ofNat {n : ℕ} (hn : 0 < n) (hle : n ≤ 2 ^ 53) :
    ∃ c e : ℕ, (ofNat n).shortest = ⟨c, e⟩ ∧ c * 10 ^ e = n := by
  rcases hle.lt_or_eq with hlt | rfl
  · have hm := ofNat_rank_pos hn hle
    have htop := ofNat_rank_lt_topRank hle
    obtain ⟨e, he⟩ := Int.eq_ofNat_of_zero_le
      ((exponent_shortest_nonneg_iff hm htop).2 ⟨n, toRat_ofNat hle⟩)
    have hround := round_shortest hm
    generalize (ofNat n).shortest = d at he hround ⊢
    obtain ⟨c, e'⟩ := d
    obtain rfl : e' = e := he
    rw [Decimal.round_natCast] at hround
    have hsmall : c * 10 ^ e ≤ 2 ^ 53 := by
      by_contra hlarge
      have hmono := toRat_mono (ofNat_mono (Nat.le_of_not_le hlarge))
      rw [hround, toRat_ofNat le_rfl, toRat_ofNat hle] at hmono
      exact hlt.not_ge (by exact_mod_cast hmono)
    have hvalue := toRat_ofNat hsmall
    rw [hround, toRat_ofNat hle] at hvalue
    exact ⟨c, e, rfl, by exact_mod_cast hvalue.symm⟩
  · -- `2 ^ 53 + 1` rounds to `2 ^ 53`, too, and is no shorter.
    exact ⟨2 ^ 53, 0, by decide +kernel, rfl⟩

end Magnitude

/-! ## Display texts -/

namespace Double

/-- An optional minus and one or more digits. -/
def IsIntegerText (cs : List Char) : Prop :=
  ∃ sign ds, cs = sign ++ ds ∧ (sign = [] ∨ sign = ['-']) ∧ Decimal.IsDigits ds

theorem isIntegerText_signText_append (s : Bool) (m : Magnitude) :
    IsIntegerText (signText s ++ displayMagnitude m) ↔ Decimal.IsDigits (displayMagnitude m) := by
  obtain ⟨c, cs, hbody, hc, -⟩ := displayMagnitude_eq_cons m
  constructor
  · rintro ⟨sign, ds, htext, hsign, hds⟩
    -- Neither a digit nor a minus can be taken for the other.
    rcases hsign with rfl | rfl
    · cases s with
      | false =>
        have heq : displayMagnitude m = ds := htext
        rwa [heq]
      | true =>
        have hminus := hds.2 '-' (by rw [← List.nil_append ds, ← htext]; simp [signText])
        cases hminus
    · cases s with
      | false =>
        rw [hbody] at htext
        obtain ⟨rfl, -⟩ := List.cons.inj htext
        cases hc
      | true =>
        have heq : displayMagnitude m = ds := (List.cons.inj htext).2
        rwa [heq]
  · intro hbody
    refine ⟨signText s, _, rfl, ?_, hbody⟩
    cases s with
    | false => exact Or.inl rfl
    | true => exact Or.inr rfl

/-- A numeral of digits is displayed exactly for the integral magnitudes. -/
theorem isDigits_displayMagnitude_iff {m : Magnitude} (hm : 0 < m.rank) (htop : m.rank < topRank)
    (hlt : m.toRat < 10 ^ 21) : Decimal.IsDigits (displayMagnitude m) ↔ ∃ n : ℕ, m.toRat = n := by
  have hdigits := (Magnitude.reduced_shortest hm htop).isNumeral_digits.1
  have hpoint := (Magnitude.point_shortest_le_iff hm htop).2 hlt
  rw [(layout_displayMagnitude m).isDigits_iff hdigits hpoint,
    ← Magnitude.exponent_shortest_nonneg_iff hm htop, Decimal.point]
  omega

theorem displayMagnitude_ofNat {n : ℕ} (hn : 0 < n) (hle : n ≤ 2 ^ 53) :
    displayMagnitude (.ofNat n) = Nat.toDigits 10 n := by
  have hm := Magnitude.ofNat_rank_pos hn hle
  have htop := Magnitude.ofNat_rank_lt_topRank hle
  have hdigits := (Magnitude.reduced_shortest hm htop).isNumeral_digits.1
  have hpos := (Magnitude.reduced_shortest hm htop).coefficient_pos
  have hlayout := layout_displayMagnitude (.ofNat n)
  have hpoint : (Magnitude.ofNat n).shortest.point ≤ 21 := by
    rw [Magnitude.point_shortest_le_iff hm htop, Magnitude.toRat_ofNat hle]
    have hbound : n < 10 ^ 21 := hle.trans_lt (by norm_num)
    exact_mod_cast hbound
  obtain ⟨c, e, hshortest, hvalue⟩ := Magnitude.exists_shortest_ofNat hn hle
  rw [hshortest] at hdigits hpos hlayout hpoint
  have hplace : Decimal.point ⟨c, e⟩ - (Decimal.digits ⟨c, e⟩).length = e := by
    rw [Decimal.point, add_sub_cancel_left]
  rcases hlayout.whole_or hdigits hpoint with ⟨-, hbody⟩ | ⟨hlt, -⟩
  · rw [hbody, hplace, Int.toNat_natCast, ← hvalue, toDigits_mul_ten_pow hpos]
    rfl
  · omega

theorem abs_toRat_signed (s : Bool) (m : Magnitude) : |(signed s m).toRat| = m.toRat := by
  have hnonneg := m.toRat_nonneg
  cases s with
  | false => exact abs_of_nonneg hnonneg
  | true => exact (abs_neg _).trans (abs_of_nonneg hnonneg)

/-- A double is an integer if its magnitude is. -/
theorem exists_toRat_eq_intCast_iff (s : Bool) (m : Magnitude) :
    (∃ z : ℤ, (signed s m).toRat = z) ↔ ∃ n : ℕ, m.toRat = n := by
  constructor
  · rintro ⟨z, hz⟩
    refine ⟨z.natAbs, ?_⟩
    rw [Nat.cast_natAbs, Int.cast_abs, ← hz, abs_toRat_signed]
  · rintro ⟨n, hn⟩
    rw [toRat_signed, hn]
    cases s with
    | false => exact ⟨n, (Int.cast_natCast n).symm⟩
    | true => exact ⟨-n, by rw [Int.cast_neg, Int.cast_natCast]; rfl⟩

/-- **Integral values carry no fraction.** Below `10 ^ 21` the display text of a finite double is an
optional minus and digits exactly if the double is an integer. The display text of an integer of up
to `2 ^ 53` as a number value is its usual numeral. -/
theorem display_integral :
    (∀ x : Double, x.IsFinite → |x.toRat| < 10 ^ 21 →
      (IsIntegerText x.display.toList ↔ ∃ z : ℤ, x.toRat = z)) ∧
    ∀ i : ℤ, i.natAbs ≤ 2 ^ 53 → (Value.number (.ofInt i)).display = toString i := by
  constructor
  · intro x hfinite hlt
    cases x with
    | nan => exact hfinite.elim
    | signed s m =>
      rw [abs_toRat_signed] at hlt
      rw [exists_toRat_eq_intCast_iff]
      by_cases hzero : m = .zero
      · rw [display, if_pos hzero, hzero, Magnitude.toRat_zero]
        exact iff_of_true ⟨[], ['0'], rfl, Or.inl rfl, by simp [Decimal.IsDigits]⟩
          ⟨0, Nat.cast_zero.symm⟩
      · have htop := Magnitude.rank_lt_topRank hfinite
        rw [display, if_neg hzero, if_neg hfinite, String.toList_ofList,
          isIntegerText_signText_append,
          isDigits_displayMagnitude_iff (Magnitude.rank_pos hzero) htop hlt]
  · intro i hi
    show (ofInt i).display = toString i
    rcases Nat.eq_zero_or_pos i.natAbs with hzero | hpos
    · obtain rfl := Int.natAbs_eq_zero.1 hzero
      decide +kernel
    · have hne : Magnitude.ofNat i.natAbs ≠ .zero := fun h =>
        (Magnitude.ofNat_rank_pos hpos hi).ne' (congrArg Magnitude.rank h)
      have hfinite : Magnitude.ofNat i.natAbs ≠ .infinity := fun h =>
        (Magnitude.ofNat_rank_lt_topRank hi).ne (congrArg Magnitude.rank h)
      rw [ofInt, display, if_neg hne, if_neg hfinite, displayMagnitude_ofNat hpos hi,
        Int.toString_eq_repr, Int.repr_eq_if]
      by_cases hsign : 0 ≤ i
      · have htoNat : i.toNat = i.natAbs := by omega
        rw [if_pos hsign, htoNat, decide_eq_false (not_lt.2 hsign), Nat.repr_eq_ofList_toDigits]
        rfl
      · have htoNat : (-i).toNat = i.natAbs := by omega
        rw [if_neg hsign, htoNat, decide_eq_true (not_le.1 hsign), Nat.repr_eq_ofList_toDigits]
        apply String.toList_injective
        simp [signText]

/-- A negative integer beyond `2 ^ 53`, and the least one that has its usual numeral for sure. -/
theorem display_integral_large :
    let x : Double := .signed true (.ofNat (1 * 2 ^ 60))
    (x.IsFinite ∧ |x.toRat| < 10 ^ 21 ∧ IsIntegerText x.display.toList) ∧
      (-9007199254740992 : ℤ).natAbs ≤ 2 ^ 53 ∧
      (Value.number (.ofInt (-9007199254740992))).display = "-9007199254740992" := by
  intro x
  have hfinite : x.IsFinite := by
    show Magnitude.ofNat _ ≠ .infinity
    decide +kernel
  have hvalue : (Magnitude.ofNat (1 * 2 ^ 60)).toRat = (1 * 2 ^ 60 : ℕ) :=
    (Magnitude.toRat_eq_natCast_iff _ _).2 (Magnitude.units_ofNat (by norm_num) (by norm_num))
  have hlt : |x.toRat| < 10 ^ 21 := by
    rw [abs_toRat_signed, hvalue]
    norm_num
  have hinteger := (exists_toRat_eq_intCast_iff true _).2 ⟨_, hvalue⟩
  exact ⟨⟨hfinite, hlt, (display_integral.1 x hfinite hlt).2 hinteger⟩, by decide,
    display_integral.2 _ (by decide)⟩

/-- The shortest decimal of a large integer is another integer. -/
example : (ofInt (-1152921504606846976)).display = "-1152921504606847000" ∧
    (read "4503599627370495.5").display = "4503599627370495.5" := by
  decide +kernel

end Double

end RecordWalk
