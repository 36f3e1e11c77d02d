import RecordWalk.Decimal.Shortest
import RecordWalk.Proofs.Decimal.Value

/-!
# The shortest decimal rounds back

The search for the shortest decimal of a magnitude looks for a grid point in the *basin* of the
magnitude. A point in the basin is a decimal to which the magnitude is nearest
(`nearest_of_basin_contains`), so it rounds back, whatever the grid. It remains that the search
finds one: the finest grid has its points closer together than the magnitude is to the boundary
above it, so the next point above the magnitude is still in the basin.
-/

namespace RecordWalk

/-! ## The search finds a point of the interval -/

theorem Interval.contains_iff {i : Interval} {x : ℕ} :
    i.contains x = true ↔ (i.lo < x ∨ i.lo = x ∧ i.closed = true) ∧
      (x < i.hi ∨ x = i.hi ∧ i.closed = true) := by
  unfold contains
  cases i.closed <;> simp [le_iff_lt_or_eq]

theorem Interval.contains_between {i : Interval} {x y z : ℕ} (hx : i.contains x = true)
    (hz : i.contains z = true) (hxy : x ≤ y) (hyz : y ≤ z) : i.contains y = true := by
  unfold contains at hx hz ⊢
  split_ifs at hx hz ⊢ with hclosed
  all_goals
    simp only [Bool.and_eq_true, decide_eq_true_eq] at hx hz ⊢
    omega

theorem gridPoint?_contains {i : Interval} {x step c : ℕ} (h : gridPoint? i x step = some c) :
    i.contains (c * step) = true := by
  unfold gridPoint? at h
  dsimp only at h
  split at h
  next hb ha =>
    split_ifs at h <;> obtain rfl := Option.some.inj h
    · exact hb
    · exact ha
  next hb _ =>
    obtain rfl := Option.some.inj h
    exact hb
  next _ ha =>
    obtain rfl := Option.some.inj h
    exact ha
  next => cases h

/-- One of the two points that enclose `x` is enough. -/
theorem gridPoint?_ne_none {i : Interval} {x step : ℕ}
    (h : i.contains (x / step * step) = true ∨ i.contains ((x / step + 1) * step) = true) :
    gridPoint? i x step ≠ none := by
  unfold gridPoint?
  dsimp only
  split <;> simp_all
  split_ifs <;> simp

/-- The point that the search settles for. -/
theorem gridPoint?_coarsestPoint {i : Interval} {x : ℕ}
    (h : i.contains ((x / gridStep 0 + 1) * gridStep 0) = true) (j : ℕ) :
    gridPoint? i x (gridStep (coarsestPoint i x j).2) = some (coarsestPoint i x j).1 := by
  induction j with
  | zero =>
    obtain ⟨c, hc⟩ := Option.ne_none_iff_exists'.1 (gridPoint?_ne_none (Or.inr h))
    rw [coarsestPoint, hc]
    rfl
  | succ j ih =>
    rw [coarsestPoint]
    split
    next c hc => exact hc
    next => exact ih

/-- If the finest grid has a point in the interval, the search finds a point in the interval. -/
theorem coarsestPoint_contains {i : Interval} {x : ℕ}
    (h : i.contains ((x / gridStep 0 + 1) * gridStep 0) = true) (j : ℕ) :
    i.contains ((coarsestPoint i x j).1 * gridStep (coarsestPoint i x j).2) = true :=
  gridPoint?_contains (gridPoint?_coarsestPoint h j)

/-! ## Basins -/

theorem gridStep_zero_lt : gridStep 0 < 10 ^ gridFloor := by decide +kernel

theorem gridStep_eq (j : ℕ) : gridStep j = 10 ^ j * 2 ^ (1074 + 1) := by
  have hshift (k : ℕ) : Nat.pow 10 j <<< (k + 1) = 10 ^ j * 2 ^ (k + 1) := Nat.shiftLeft_eq _ _
  exact hshift 1074

theorem gridStep_pos (j : ℕ) : 0 < gridStep j := by
  rw [gridStep_eq]
  positivity

/-- Grid points in units. -/
theorem toRat_grid (c j : ℕ) :
    2 * (Decimal.toRat ⟨c, j - gridFloor⟩ * 2 ^ 1074) = c * gridStep j / 10 ^ gridFloor := by
  rw [gridStep_eq]
  generalize 1074 = k
  generalize gridFloor = g
  simp only [Decimal.toRat]
  rw [zpow_sub₀ (by norm_num), zpow_natCast, zpow_natCast]
  push_cast
  ring

/-- The boundaries of ranks in grid units. -/
theorem roundsAtMost_grid_iff (r c j : ℕ) :
    RoundsAtMost r (Decimal.toRat ⟨c, j - gridFloor⟩ * 2 ^ 1074) ↔
      c * gridStep j < (rankUnits r + rankUnits (r + 1)) * 10 ^ gridFloor ∨
        c * gridStep j = (rankUnits r + rankUnits (r + 1)) * 10 ^ gridFloor ∧ r % 2 = 0 := by
  have hx := toRat_grid c j
  generalize gridFloor = g at hx ⊢
  have hg : (0 : ℚ) < 10 ^ g := by positivity
  unfold RoundsAtMost
  rw [hx, div_lt_iff₀ hg, div_eq_iff hg.ne']
  norm_cast

namespace Magnitude

theorem gridUnits_eq (m : Magnitude) : m.gridUnits = 2 * m.units * 10 ^ gridFloor := by
  rw [gridUnits, Nat.pow_eq]

theorem basin_lo (m : Magnitude) :
    m.basin.lo = (rankUnits (m.rank - 1) + m.units) * 10 ^ gridFloor := by
  rw [basin, Nat.pow_eq]

theorem basin_hi (m : Magnitude) :
    m.basin.hi = (m.units + rankUnits (m.rank + 1)) * 10 ^ gridFloor := by
  rw [basin, Nat.pow_eq]

theorem basin_closed (m : Magnitude) : m.basin.closed = true ↔ m.rank % 2 = 0 := by
  simp [basin]

/-- **A grid point in the basin of a magnitude rounds to it.** -/
theorem nearest_of_basin_contains {m : Magnitude} {c j : ℕ}
    (h : m.basin.contains (c * gridStep j) = true) :
    m.Nearest (Decimal.toRat ⟨c, j - gridFloor⟩ * 2 ^ 1074) := by
  rw [Interval.contains_iff, basin_closed] at h
  obtain ⟨hlo, hhi⟩ := h
  refine fun r _ => le_iff_roundsAtMost ?_ (fun k hk => ?_) r
  · rw [roundsAtMost_grid_iff]
    rwa [basin_hi] at hhi
  · have hbelow : m.basin.lo = (rankUnits k + rankUnits (k + 1)) * 10 ^ gridFloor := by
      rw [basin_lo, units, hk, Nat.add_sub_cancel]
    rw [roundsAtMost_grid_iff, ← hbelow]
    omega

/-- A basin begins below its magnitude. -/
theorem basin_lo_lt {m : Magnitude} (hm : 0 < m.rank) : m.basin.lo < m.gridUnits := by
  have hprev : rankUnits (m.rank - 1) < m.units := rankUnits_strictMono (by omega)
  have hfloor : 0 < 10 ^ gridFloor := lt_trans (gridStep_pos 0) gridStep_zero_lt
  rw [basin_lo, gridUnits_eq, two_mul]
  exact Nat.mul_lt_mul_of_pos_right (by omega) hfloor

/-- A basin goes on beyond its magnitude for at least half a unit. -/
theorem add_le_basin_hi (m : Magnitude) : m.gridUnits + 10 ^ gridFloor ≤ m.basin.hi := by
  have hnext : m.units + 1 ≤ rankUnits (m.rank + 1) := rankUnits_lt_succ m.rank
  calc m.gridUnits + 10 ^ gridFloor = (m.units + (m.units + 1)) * 10 ^ gridFloor := by
        rw [gridUnits_eq]
        ring
    _ ≤ (m.units + rankUnits (m.rank + 1)) * 10 ^ gridFloor :=
        Nat.mul_le_mul_right _ (Nat.add_le_add_left hnext m.units)
    _ = m.basin.hi := m.basin_hi.symm

/-- The next point of the finest grid above a magnitude is in its basin. -/
theorem basin_contains_finest {m : Magnitude} (hm : 0 < m.rank) :
    m.basin.contains ((m.gridUnits / gridStep 0 + 1) * gridStep 0) = true := by
  have hstep := gridStep_zero_lt
  have hdiv := Nat.div_add_mod m.gridUnits (gridStep 0)
  have hmod := Nat.mod_lt m.gridUnits (gridStep_pos 0)
  have hpoint : (m.gridUnits / gridStep 0 + 1) * gridStep 0 =
      gridStep 0 * (m.gridUnits / gridStep 0) + gridStep 0 := by ring
  have hlo := basin_lo_lt hm
  have hhi := m.add_le_basin_hi
  rw [hpoint, Interval.contains_iff]
  exact ⟨Or.inl (by omega), Or.inl (by omega)⟩

/-- **The shortest decimal of a positive magnitude rounds to it.** -/
theorem round_shortest {m : Magnitude} (hm : 0 < m.rank) : m.shortest.round = m :=
  Decimal.round_eq
    (nearest_of_basin_contains (coarsestPoint_contains (basin_contains_finest hm) gridCount))

end Magnitude

end RecordWalk
