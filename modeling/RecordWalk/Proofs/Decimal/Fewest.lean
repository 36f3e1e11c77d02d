import Mathlib.Tactic.IntervalCases
import RecordWalk.Proofs.Decimal.Shortest
import RecordWalk.Proofs.Decimal.Significant

/-!
# The shortest decimal has the fewest digits

The search goes from the coarsest grid to the finest and takes the first grid with a point in the
basin of a magnitude. So no decimal that rounds to the magnitude lies on a coarser grid
(`exponent_le_shortest`). All else is a consequence of this and of the order of decimals.

**Fewest.** A decimal on the same or a finer grid has as many digits at least, unless its point
comes earlier. Then a power of ten lies between the two, and rounds to the magnitude as they do. It
has a single digit, and is on the coarsest grid; so the shortest decimal has a single digit, too.

**Closest.** On its own grid the shortest decimal is the closest by construction. By the same
argument, a decimal with as many digits on a finer grid has a single digit and lies below a power of
ten that rounds to the magnitude. That a basin holds both happens for few magnitudes only, and
there the power of ten is the closer one (`abs_power_sub_le`).

**Theorem (`shortest_isShortest`).** Of all decimals that round to a positive finite magnitude, the
shortest one has the fewest significant digits, and of those with that many it is the closest.
-/

namespace RecordWalk

/-! ## Points of one grid -/

section

variable {i : Interval} {x step c c' : ℕ}

/-- No point of a grid lies strictly between the two that enclose `x`. -/
theorem le_or_ge_enclosing (x step c : ℕ) :
    c * step ≤ x / step * step ∨ (x / step + 1) * step ≤ c * step := by
  rcases Nat.lt_or_ge (x / step) c with h | h
  · exact Or.inr (Nat.mul_le_mul_right step h)
  · exact Or.inl (Nat.mul_le_mul_right step h)

/-- What the two enclosing points have to do with `x`. -/
theorem enclosing (x : ℕ) {step : ℕ} (hstep : 0 < step) :
    x / step * step + x % step = x ∧ x % step < step ∧
      (x / step + 1) * step = x / step * step + step := by
  refine ⟨?_, Nat.mod_lt x hstep, Nat.succ_mul _ _⟩
  rw [Nat.mul_comm]
  exact Nat.div_add_mod x step

/-- If any point of a grid lies in an interval around `x`, so does one of the two that enclose
`x`. -/
theorem gridPoint?_ne_none_of_contains (hstep : 0 < step) (hx : i.contains x = true)
    (hc : i.contains (c * step) = true) : gridPoint? i x step ≠ none := by
  obtain ⟨hdiv, hmod, hsucc⟩ := enclosing x hstep
  apply gridPoint?_ne_none
  rcases le_or_ge_enclosing x step c with hle | hge
  · exact Or.inl (Interval.contains_between hc hx hle (by omega))
  · exact Or.inr (Interval.contains_between hx hc (by omega) hge)

/-- Which of the two enclosing points is taken. -/
theorem gridPoint?_cases (h : gridPoint? i x step = some c) :
    (c = x / step ∧ (i.contains ((x / step + 1) * step) = true → 2 * (x % step) < step)) ∨
      (c = x / step + 1 ∧ (i.contains (x / step * step) = true → step ≤ 2 * (x % step))) := by
  unfold gridPoint? at h
  dsimp only at h
  split at h
  next hb ha =>
    split_ifs at h with hlt <;> obtain rfl := Option.some.inj h
    · exact Or.inl ⟨rfl, fun _ => hlt⟩
    · exact Or.inr ⟨rfl, fun _ => by omega⟩
  next _ ha =>
    obtain rfl := Option.some.inj h
    exact Or.inl ⟨rfl, fun h => absurd h (by simp [ha])⟩
  next hb _ =>
    obtain rfl := Option.some.inj h
    exact Or.inr ⟨rfl, fun h => absurd h (by simp [hb])⟩
  next => cases h

/-- The point that is taken is the closest of the grid in the interval. -/
theorem gridPoint?_closest (hstep : 0 < step) (h : gridPoint? i x step = some c)
    (hx : i.contains x = true) (hc' : i.contains (c' * step) = true) :
    ((c * step : ℕ) - x : ℤ).natAbs ≤ ((c' * step : ℕ) - x : ℤ).natAbs := by
  obtain ⟨hdiv, hmod, hsucc⟩ := enclosing x hstep
  rcases le_or_ge_enclosing x step c' with hle | hge
  · have hbelow := Interval.contains_between hc' hx hle (by omega)
    rcases gridPoint?_cases h with ⟨rfl, -⟩ | ⟨rfl, hhalf⟩
    · omega
    · have := hhalf hbelow
      omega
  · have habove := Interval.contains_between hx hc' (by omega) hge
    rcases gridPoint?_cases h with ⟨rfl, hhalf⟩ | ⟨rfl, -⟩
    · have := hhalf habove
      omega
    · omega

/-- No coarser grid has a point in the interval. -/
theorem le_coarsestPoint (hx : i.contains x = true) {j' : ℕ}
    (hc : i.contains (c * gridStep j') = true) {j : ℕ} (hj : j' ≤ j) :
    j' ≤ (coarsestPoint i x j).2 := by
  induction j with
  | zero => exact hj.trans (Nat.zero_le _)
  | succ j ih =>
    rw [coarsestPoint]
    split
    next => exact hj
    next hnone =>
      have hne : j' ≠ j + 1 := by
        rintro rfl
        exact gridPoint?_ne_none_of_contains (gridStep_pos _) hx hc hnone
      exact ih (by omega)

end

/-! ## Grid units -/

/-- A half unit is a little less than two and a half steps of the finest grid. -/
theorem gridStep_zero_bounds :
    247 * gridStep 0 ≤ 100 * 10 ^ gridFloor ∧ 100 * 10 ^ gridFloor ≤ 248 * gridStep 0 := by
  decide +kernel

theorem gridStep_add (i j : ℕ) : gridStep (i + j) = 10 ^ i * gridStep j := by
  rw [gridStep_eq, gridStep_eq, pow_add, mul_assoc]

/-- If `a` is about two and a half times `b`, the only power of ten times `b` that lies just above
one of the first nine multiples of `2 * a` is the first one, and it is close to `4 * a`. -/
theorem mul_le_of_few {a b t j : ℕ} (hlow : 247 * b ≤ 100 * a) (hhigh : 100 * a ≤ 248 * b)
    (ht : 1 ≤ t) (ht' : t ≤ 9) (hlt : 2 * t * a < 10 ^ j * b)
    (hle : 10 ^ j * b ≤ (2 * t + 1) * a) : 19 * (10 ^ j * b) ≤ 20 * (2 * t * a) := by
  have hfirst : 2 * a ≤ 2 * t * a := Nat.mul_le_mul_right a (by omega)
  have hlast : (2 * t + 1) * a ≤ 19 * a := Nat.mul_le_mul_right a (by omega)
  rcases j with _ | _ | j
  · omega
  · rw [zero_add, pow_one] at hlt hle ⊢
    interval_cases t <;> omega
  · have hten : 100 * b ≤ 10 ^ (j + 1 + 1) * b := by
      have hone : 1 ≤ 10 ^ j := Nat.one_le_pow _ _ (by norm_num)
      refine Nat.mul_le_mul_right b ?_
      rw [pow_succ, pow_succ]
      omega
    omega

theorem two_pow_le_ten_pow : 2 ^ 1024 ≤ 10 ^ 309 := by decide +kernel

namespace Magnitude

variable {m : Magnitude} {d : Decimal}

/-- The rational number that a finite magnitude is. -/
def toRat (m : Magnitude) : ℚ := m.units / 2 ^ 1074

theorem toRat_eq_div (c j : ℕ) : Decimal.toRat ⟨c, j - gridFloor⟩ =
    (c * gridStep j : ℕ) / (2 * 2 ^ 1074 * 10 ^ gridFloor) := by
  have h := toRat_grid c j
  generalize 1074 = k at h ⊢
  generalize gridFloor = g at h ⊢
  rw [eq_div_iff (by positivity)] at h ⊢
  push_cast
  linarith

theorem toRat_eq_gridUnits_div (m : Magnitude) :
    m.toRat = m.gridUnits / (2 * 2 ^ 1074 * 10 ^ gridFloor) := by
  rw [toRat, gridUnits_eq]
  generalize 1074 = k
  generalize gridFloor = g
  rw [div_eq_div_iff (by positivity) (by positivity)]
  push_cast
  ring

/-- Multiples of grid points and magnitudes are compared in grid units. -/
theorem mul_toRat_le_iff (m : Magnitude) (a b c j : ℕ) :
    (a * Decimal.toRat ⟨c, j - gridFloor⟩ ≤ b * m.toRat) ↔
      a * (c * gridStep j) ≤ b * m.gridUnits := by
  have hscale : (0 : ℚ) < 2 * 2 ^ 1074 * 10 ^ gridFloor := by positivity
  rw [toRat_eq_div, toRat_eq_gridUnits_div, ← mul_div_assoc, ← mul_div_assoc,
    div_le_div_iff_of_pos_right hscale]
  norm_cast

/-- Distances in grid units. -/
theorem abs_toRat_sub (m : Magnitude) (c j : ℕ) :
    |Decimal.toRat ⟨c, j - gridFloor⟩ - m.toRat| =
      ((c * gridStep j : ℕ) - m.gridUnits : ℤ).natAbs / (2 * 2 ^ 1074 * 10 ^ gridFloor) := by
  have hscale : (0 : ℚ) < 2 * 2 ^ 1074 * 10 ^ gridFloor := by positivity
  rw [toRat_eq_div, toRat_eq_gridUnits_div, ← sub_div, abs_div, abs_of_pos hscale,
    Nat.cast_natAbs]
  push_cast
  rfl

theorem basin_contains_self (hm : 0 < m.rank) : m.basin.contains m.gridUnits = true := by
  have hfloor : 0 < 10 ^ gridFloor := lt_trans (gridStep_pos 0) gridStep_zero_lt
  have hhi := m.add_le_basin_hi
  exact Interval.contains_iff.2 ⟨Or.inl (basin_lo_lt hm), Or.inl (by omega)⟩

theorem coefficient_pos_of_round (hm : 0 < m.rank) (hd : d.round = m) : 0 < d.coefficient := by
  apply Nat.pos_of_ne_zero
  intro h
  rw [Decimal.round, if_pos h] at hd
  rw [← hd] at hm
  exact lt_irrefl 0 hm

/-- A single digit on a finer grid is at most nine tenths of a power of ten. -/
theorem ten_mul_toRat_le {e : ℤ} (hlength : d.digits.length = 1) (hexponent : d.exponent < e) :
    10 * d.toRat ≤ 9 * Decimal.toRat ⟨1, e⟩ := by
  have hdigit : d.coefficient < 10 ^ 1 :=
    (Nat.length_toDigits_le_iff (by decide) one_pos).1 hlength.le
  have hcoefficient : (d.coefficient : ℚ) ≤ 9 := by
    exact_mod_cast (show d.coefficient ≤ 9 by omega)
  calc 10 * d.toRat = d.coefficient * 10 ^ (1 + d.exponent) := by
        rw [Decimal.toRat, zpow_one_add₀ (by norm_num)]
        ring
    _ ≤ 9 * 10 ^ e := by
        have hpower : (10 : ℚ) ^ (1 + d.exponent) ≤ 10 ^ e :=
          zpow_le_zpow_right₀ (by norm_num) (by omega)
        gcongr
    _ = 9 * Decimal.toRat ⟨1, e⟩ := by rw [Decimal.toRat_one]

section

variable (hm : 0 < m.rank) (htop : m.rank < topRank)

include hm htop

/-! ## The coarsest grid of a basin -/

/-- A grid point that rounds to a magnitude lies in its basin. -/
theorem basin_contains_of_round {c j : ℕ} (h : Decimal.round ⟨c, j - gridFloor⟩ = m) :
    m.basin.contains (c * gridStep j) = true := by
  have hnearest := Decimal.nearest_of_round_eq h
  obtain ⟨k, hk⟩ : ∃ k, m.rank = k + 1 := ⟨m.rank - 1, by omega⟩
  have hupper := hnearest.roundsAtMost htop
  have hlower := hnearest.not_roundsAtMost hk
  have hbelow : m.basin.lo = (rankUnits k + rankUnits (k + 1)) * 10 ^ gridFloor := by
    rw [basin_lo, units, hk, Nat.add_sub_cancel]
  rw [roundsAtMost_grid_iff, ← hbelow] at hlower
  rw [roundsAtMost_grid_iff] at hupper
  rw [Interval.contains_iff, basin_closed, basin_hi]
  exact ⟨by omega, hupper⟩

/-- No power of ten beyond the greatest finite magnitude divides what rounds to a finite one. -/
theorem exponent_le_of_round (hd : d.round = m) : d.exponent ≤ 308 := by
  have hc := coefficient_pos_of_round hm hd
  by_contra hlt
  obtain ⟨k, hk⟩ : ∃ k : ℕ, d.exponent = (k + 309 : ℕ) := ⟨(d.exponent - 309).toNat, by omega⟩
  have hbig : 2 ^ 1024 ≤ d.coefficient * 10 ^ k * 10 ^ 309 :=
    two_pow_le_ten_pow.trans (Nat.le_mul_of_pos_left _ (by positivity))
  have hvalue : (2 : ℚ) ^ (1024 + 1074) ≤ d.toRat * 2 ^ 1074 := by
    rw [Decimal.toRat, hk, zpow_natCast, pow_add, pow_add, ← mul_assoc]
    exact mul_le_mul_of_nonneg_right (by exact_mod_cast hbig) (by positivity)
  have hinfinity : d.round = infinity := Decimal.round_eq (infinity_nearest hvalue)
  rw [hd] at hinfinity
  rw [hinfinity] at htop
  exact lt_irrefl _ htop

/-- **No decimal that rounds to a magnitude lies on a coarser grid than the shortest one.** -/
theorem exponent_le_shortest (hd : d.round = m) : d.exponent ≤ m.shortest.exponent := by
  have hexponent := exponent_le_of_round hm htop hd
  obtain ⟨c, e⟩ := d
  show e ≤ ((coarsestPoint m.basin m.gridUnits gridCount).2 : ℤ) - gridFloor
  by_cases hlow : e ≤ -gridFloor
  · omega
  · obtain ⟨j, rfl⟩ : ∃ j : ℕ, e = j - gridFloor := ⟨(e + gridFloor).toNat, by omega⟩
    have hj : j ≤ gridCount := by
      simp only [gridCount, gridFloor] at hexponent ⊢
      omega
    have hle := le_coarsestPoint (basin_contains_self hm) (basin_contains_of_round hm htop hd) hj
    omega

/-! ## Fewest digits -/

theorem reduced_shortest : m.shortest.Reduced := by
  intro h
  obtain ⟨c, hc⟩ : ∃ c, m.shortest.coefficient = c * 10 ^ 1 :=
    ⟨m.shortest.coefficient / 10, by omega⟩
  have hvalue : Decimal.toRat ⟨c, m.shortest.exponent + (1 : ℕ)⟩ = m.shortest.toRat := by
    rw [← Decimal.toRat_shift, ← hc]
  have hround := (Decimal.round_congr hvalue).trans (round_shortest hm)
  have hle := exponent_le_shortest hm htop hround
  dsimp only at hle
  omega

/-- Where the point of a decimal that rounds to a magnitude comes earlier than that of the shortest
one, the shortest one has a single digit, and the power of ten of its grid rounds to the
magnitude. -/
theorem power_of_point_lt (hd : d.round = m) (hlt : d.point < m.shortest.point) :
    m.shortest.digits.length = 1 ∧ Decimal.round ⟨1, m.shortest.exponent⟩ = m := by
  have hshortest := round_shortest hm
  have hpos := coefficient_pos_of_round hm hd
  have hpos' := coefficient_pos_of_round hm hshortest
  have hbelow : d.toRat < 10 ^ (m.shortest.point - 1) :=
    (Decimal.toRat_lt_zpow_iff hpos _).2 (by omega)
  have habove : ¬ m.shortest.toRat < 10 ^ (m.shortest.point - 1) :=
    mt (Decimal.toRat_lt_zpow_iff hpos' _).1 (by omega)
  have hpower : Decimal.round ⟨1, m.shortest.point - 1⟩ = m := by
    apply Decimal.round_between hd hshortest
    · rw [Decimal.toRat_one]
      exact hbelow.le
    · rw [Decimal.toRat_one]
      exact not_lt.1 habove
  have hle : m.shortest.point - 1 ≤ m.shortest.exponent := exponent_le_shortest hm htop hpower
  have hlength := m.shortest.digits_length_pos
  have hpoint : m.shortest.point = m.shortest.digits.length + m.shortest.exponent := rfl
  have hexponent : m.shortest.point - 1 = m.shortest.exponent := by omega
  rw [hexponent] at hpower
  exact ⟨by omega, hpower⟩

theorem digits_length_le (hd : d.round = m) :
    m.shortest.digits.length ≤ d.digits.length := by
  have hexponent := exponent_le_shortest hm htop hd
  by_cases hlt : d.point < m.shortest.point
  · rw [(power_of_point_lt hm htop hd hlt).1]
    exact d.digits_length_pos
  · unfold Decimal.point at hlt
    omega

/-- **The point of the shortest decimal tells how a magnitude compares with powers of ten.** -/
theorem lt_point_shortest_iff (k : ℤ) :
    k < m.shortest.point ↔ (Decimal.round ⟨1, k⟩).rank ≤ m.rank := by
  have hshortest := round_shortest hm
  have hlt := Decimal.toRat_lt_zpow_iff (coefficient_pos_of_round hm hshortest) k
  constructor
  · intro h
    have hle : Decimal.toRat ⟨1, k⟩ ≤ m.shortest.toRat := by
      rw [Decimal.toRat_one]
      exact not_lt.1 (mt hlt.1 (by omega))
    have hmono := Decimal.round_mono hle
    rwa [hshortest] at hmono
  · intro h
    by_contra hpoint
    have hle : m.shortest.toRat ≤ Decimal.toRat ⟨1, k⟩ := by
      rw [Decimal.toRat_one]
      exact (hlt.2 (by omega)).le
    have hmono := Decimal.round_mono hle
    rw [hshortest] at hmono
    have hexponent : k ≤ m.shortest.exponent :=
      exponent_le_shortest hm htop (eq_of_rank_eq (le_antisymm h hmono))
    have hlength := m.shortest.digits_length_pos
    unfold Decimal.point at hpoint
    omega

/-! ## Closest -/

/-- On its grid, the shortest decimal is the closest. -/
theorem abs_shortest_sub_le {c : ℕ} (hc : Decimal.round ⟨c, m.shortest.exponent⟩ = m) :
    |m.shortest.toRat - m.toRat| ≤ |Decimal.toRat ⟨c, m.shortest.exponent⟩ - m.toRat| := by
  have hpoint := gridPoint?_coarsestPoint (basin_contains_finest hm) gridCount
  have hclosest := gridPoint?_closest (gridStep_pos _) hpoint (basin_contains_self hm)
    (basin_contains_of_round hm htop hc)
  unfold shortest
  dsimp only
  rw [abs_toRat_sub, abs_toRat_sub]
  have hcast := (Nat.cast_le (α := ℚ)).2 hclosest
  exact div_le_div_of_nonneg_right hcast (by positivity)

/-- A basin that holds a power of ten and at most nine tenths of it belongs to one of the first nine
magnitudes. -/
theorem units_le_nine {e : ℤ} (hpower : Decimal.round ⟨1, e⟩ = m) (hd : d.round = m)
    (hle : 10 * d.toRat ≤ 9 * 10 ^ e) :
    m.units ≤ 9 ∧ rankUnits (m.rank + 1) = m.units + 1 := by
  obtain ⟨r, hr⟩ : ∃ r, m.rank = r + 1 := ⟨m.rank - 1, by omega⟩
  have hupper := ((Decimal.nearest_of_round_eq hpower).roundsAtMost htop).le
  have hlower := le_of_not_roundsAtMost ((Decimal.nearest_of_round_eq hd).not_roundsAtMost hr)
  rw [Decimal.toRat_one] at hupper
  obtain ⟨s, t, hs, hself, hnext, hprev⟩ := rankUnits_neighbours hm
  rw [← hr] at hlower
  rw [show m.rank - 1 = r by omega] at hprev
  -- In the units of the binade, the basin reaches from `2 * t - 1` to `2 * t + 1`.
  have hratio : 10 * (rankUnits r + rankUnits m.rank) ≤
      9 * (rankUnits m.rank + rankUnits (m.rank + 1)) := by
    generalize 1074 = k at hupper hlower
    have hscale := mul_le_mul_of_nonneg_right hle (show (0 : ℚ) ≤ 2 * 2 ^ k by positivity)
    have hcast : (10 * (rankUnits r + rankUnits m.rank) : ℚ) ≤
        9 * (rankUnits m.rank + rankUnits (m.rank + 1)) := by linarith
    exact_mod_cast hcast
  have hmul : 2 * t * 2 ^ s ≤ 19 * 2 ^ s := by
    rw [hself, hnext] at hratio
    rw [Nat.add_mul] at hratio
    rw [Nat.mul_assoc]
    omega
  have ht : 2 * t ≤ 19 := Nat.le_of_mul_le_mul_right hmul (by positivity)
  obtain rfl : s = 0 := hs.resolve_right (by omega)
  rw [pow_zero, mul_one] at hself hnext
  rw [units, hself, hnext]
  exact ⟨by omega, rfl⟩

/-- A power of ten that rounds to a magnitude is closer to it than what is at most nine tenths of
that power and rounds to it, too. -/
theorem abs_power_sub_le {j : ℕ} (hpower : Decimal.round ⟨1, j - gridFloor⟩ = m)
    (hd : d.round = m)
    (hle : 10 * d.toRat ≤ 9 * Decimal.toRat ⟨1, j - gridFloor⟩) :
    |Decimal.toRat ⟨1, j - gridFloor⟩ - m.toRat| ≤ |d.toRat - m.toRat| := by
  have hpos : 0 < Decimal.toRat ⟨1, j - gridFloor⟩ := Decimal.toRat_pos one_pos
  rcases Nat.lt_or_ge m.gridUnits (gridStep j) with hlt | hge
  · -- The power lies above the magnitude: this happens for the second magnitude only.
    rw [Decimal.toRat_one] at hle
    obtain ⟨hnine, hnext⟩ := units_le_nine hm htop hpower hd hle
    have hunits : 0 < m.units := rankUnits_strictMono hm
    have hbasin := basin_contains_of_round hm htop hpower
    have hhi : gridStep j ≤ (2 * m.units + 1) * 10 ^ gridFloor := by
      rw [Interval.contains_iff, basin_hi, hnext, one_mul] at hbasin
      rw [two_mul, add_assoc]
      exact hbasin.2.elim le_of_lt fun h => h.1.le
    obtain ⟨hlow, hhigh⟩ := gridStep_zero_bounds
    have hstep : gridStep j = 10 ^ j * gridStep 0 := gridStep_add j 0
    rw [hstep, m.gridUnits_eq] at hlt
    rw [hstep] at hhi
    have hclose := mul_le_of_few hlow hhigh hunits hnine hlt hhi
    rw [← hstep, ← m.gridUnits_eq] at hclose
    have hvalue := (mul_toRat_le_iff m 19 20 1 j).2 (by rwa [one_mul])
    rw [← Decimal.toRat_one] at hle
    push_cast at hvalue
    rw [abs_of_nonpos (show d.toRat - m.toRat ≤ 0 by linarith)]
    exact abs_le.2 ⟨by linarith, by linarith⟩
  · have hvalue := (mul_toRat_le_iff m 1 1 1 j).2 (by rwa [one_mul, one_mul, one_mul])
    push_cast at hvalue
    rw [abs_of_nonpos (show d.toRat - m.toRat ≤ 0 by linarith)]
    exact abs_le.2 ⟨by linarith, by linarith⟩

theorem abs_shortest_sub_le_of_length (hd : d.round = m)
    (hlength : d.digits.length = m.shortest.digits.length) :
    |m.shortest.toRat - m.toRat| ≤ |d.toRat - m.toRat| := by
  rcases (exponent_le_shortest hm htop hd).eq_or_lt with heq | hlt
  · obtain ⟨c, e⟩ := d
    obtain rfl : e = m.shortest.exponent := heq
    exact abs_shortest_sub_le hm htop hd
  · have hpoint : d.point < m.shortest.point := by
      unfold Decimal.point
      omega
    obtain ⟨hone, hpower⟩ := power_of_point_lt hm htop hd hpoint
    calc |m.shortest.toRat - m.toRat|
        ≤ |Decimal.toRat ⟨1, m.shortest.exponent⟩ - m.toRat| := abs_shortest_sub_le hm htop hpower
      _ ≤ |d.toRat - m.toRat| :=
          abs_power_sub_le hm htop hpower hd (ten_mul_toRat_le (hlength.trans hone) hlt)

end

end Magnitude

/-- No decimal that rounds to the magnitude has fewer significant digits, and none with as many is
closer to it. -/
structure Decimal.IsShortest (d : Decimal) (m : Magnitude) : Prop where
  rounds : d.round = m
  fewest : ∀ d' : Decimal, d'.round = m → d.significantDigits ≤ d'.significantDigits
  closest : ∀ d' : Decimal, d'.round = m → d'.significantDigits = d.significantDigits →
    |d.toRat - m.toRat| ≤ |d'.toRat - m.toRat|

theorem Decimal.IsShortest.congr {d d' : Decimal} {m : Magnitude} (h : d.IsShortest m)
    (hd : 0 < d.coefficient) (hvalue : d.toRat = d'.toRat) : d'.IsShortest m := by
  have hdigits := significantDigits_congr hd hvalue
  refine ⟨(round_congr hvalue).symm.trans h.rounds, ?_, ?_⟩
  · rw [← hdigits]
    exact h.fewest
  · rw [← hdigits, ← hvalue]
    exact h.closest

/-- **The shortest decimal is the closest one with the fewest digits.** -/
theorem Magnitude.shortest_isShortest {m : Magnitude} (hm : 0 < m.rank) (htop : m.rank < topRank) :
    m.shortest.IsShortest m := by
  -- A competitor and its reduced form have the same value, and the same number of digits count.
  have hreduce (d : Decimal) (hd : d.round = m) : ∃ r : Decimal, r.round = m ∧
      r.toRat = d.toRat ∧ r.digits.length = d.significantDigits := by
    obtain ⟨r, -, hvalue, hlength⟩ := Decimal.exists_reduced (coefficient_pos_of_round hm hd)
    exact ⟨r, (Decimal.round_congr hvalue).trans hd, hvalue, hlength⟩
  have hdigits := (reduced_shortest hm htop).significantDigits_eq
  refine ⟨round_shortest hm, fun d hd => ?_, fun d hd hsame => ?_⟩
  · obtain ⟨r, hr, -, hlength⟩ := hreduce d hd
    rw [hdigits, ← hlength]
    exact digits_length_le hm htop hr
  · obtain ⟨r, hr, hvalue, hlength⟩ := hreduce d hd
    rw [← hvalue]
    exact abs_shortest_sub_le_of_length hm htop hr (by rw [hlength, hsame, hdigits])

end RecordWalk
