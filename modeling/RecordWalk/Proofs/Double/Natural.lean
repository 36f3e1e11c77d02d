import RecordWalk.Proofs.Double.Nearest

/-!
# Natural numbers as doubles

`Magnitude.ofNat n` is the magnitude nearest to `n`. What arithmetic on such magnitudes comes to
follows from the boundaries between ranks.

**Binades.** In the units of its binade, a rank and the next one are `t` and `t + 1`. From
`2 ^ 53` units of `2 ^ j` on, a binade has units larger than `2 ^ j` (`exists_binade`).

**Exactness.** A magnitude is nearest to itself, and to what lies above it by less than half the way
to the next one (`nearest_add`). A number of 53 bits and some zeros is a magnitude (`units_ofNat`).

**Scaling.** A power of two moves all boundaries of normal magnitudes alike, so rounding and
scaling can change places, also where they lead to infinity (`ofNat_scale`).

**Absorption.** A number of more than 53 bits before the last digit is not changed by adding that
digit (`ofNat_add`).
-/

namespace RecordWalk

/-! ## Binades -/

/-- A rank and the next one, in units that are larger than `2 ^ j` if the boundary between them is
`2 ^ 53` times that or more. -/
theorem exists_binade {r j : ℕ} (h : 2 * (2 ^ 53 * 2 ^ j) ≤ rankUnits r + rankUnits (r + 1)) :
    ∃ s t, j < s ∧ rankUnits r = t * 2 ^ s ∧ rankUnits (r + 1) = (t + 1) * 2 ^ s := by
  obtain ⟨s, t, rfl, hs, ht⟩ := rank_eq r
  have hself := rankUnits_add hs ht.le
  have hnext : rankUnits (s * 2 ^ 52 + t + 1) = (t + 1) * 2 ^ s := by
    rw [add_assoc]
    exact rankUnits_add (hs.imp_right fun h => by omega) ht
  refine ⟨s, t, ?_, hself, hnext⟩
  by_contra hle
  have hpow : 2 ^ s ≤ 2 ^ j := Nat.pow_le_pow_right two_pos (Nat.le_of_not_lt hle)
  have hsum : t * 2 ^ s + (t + 1) * 2 ^ s = (2 * t + 1) * 2 ^ s := by ring
  have hmul : (2 * t + 1) * 2 ^ s ≤ (2 ^ 54 - 1) * 2 ^ j := Nat.mul_le_mul (by omega) hpow
  have hpos : 0 < 2 ^ j := Nat.two_pow_pos j
  rw [hself, hnext, hsum] at h
  omega

theorem rankUnits_firstNormal : rankUnits (2 ^ 52) = 2 ^ 52 := by
  have h := rankUnits_add (s := 0) (t := 2 ^ 52) (Or.inl rfl) (by norm_num)
  rwa [zero_mul, zero_add, pow_zero, mul_one] at h

/-- A power of two moves the ranks of normal magnitudes by whole binades. -/
theorem rankUnits_add_binades {r : ℕ} (hr : 2 ^ 52 ≤ r) (w : ℕ) :
    rankUnits (r + w * 2 ^ 52) = rankUnits r * 2 ^ w := by
  obtain ⟨s, t, rfl, hs, ht⟩ := rank_eq r
  have hfull : 2 ^ 52 ≤ t := by omega
  rw [add_right_comm, ← add_mul, rankUnits_add (Or.inr hfull) ht.le, rankUnits_add hs ht.le,
    pow_add, mul_assoc]

theorem roundsAtMost_add_binades {r : ℕ} (hr : 2 ^ 52 ≤ r) (w : ℕ) (x : ℚ) :
    RoundsAtMost (r + w * 2 ^ 52) (x * 2 ^ w) ↔ RoundsAtMost r x := by
  have hparity : (r + w * 2 ^ 52) % 2 = r % 2 := by omega
  have hpow : (0 : ℚ) < 2 ^ w := by positivity
  have hsum : (rankUnits (r + w * 2 ^ 52) + rankUnits (r + w * 2 ^ 52 + 1) : ℚ) =
      (rankUnits r + rankUnits (r + 1)) * 2 ^ w := by
    rw [add_right_comm, rankUnits_add_binades hr, rankUnits_add_binades (by omega)]
    push_cast
    ring
  unfold RoundsAtMost
  rw [hsum, hparity, ← mul_assoc, mul_lt_mul_iff_left₀ hpow, mul_left_inj' hpow.ne']

namespace Magnitude

variable {m : Magnitude}

/-! ## Exactness -/

theorem nearest_add {x : ℕ}
    (h : m.rank < topRank → rankUnits m.rank + 2 * x < rankUnits (m.rank + 1)) :
    m.Nearest (m.units + x) := by
  intro r hr
  refine ⟨fun hle => ?_, fun hx => ?_⟩
  · have hlt : ((rankUnits m.rank + 2 * x : ℕ) : ℚ) < rankUnits (m.rank + 1) := by
      exact_mod_cast h (lt_of_le_of_lt hle hr)
    have hself : RoundsAtMost m.rank (m.units + x) := by
      left
      push_cast at hlt
      rw [units]
      linarith
    exact hself.mono hle
  · by_contra hlt
    refine not_roundsAtMost_of_le ?_ hx
    have hle : rankUnits (r + 1) ≤ m.units := rankUnits_strictMono.monotone (by omega)
    exact_mod_cast hle.trans (Nat.le_add_right _ x)

/-- A magnitude is nearest to itself. -/
theorem nearest_units (m : Magnitude) : m.Nearest m.units := by
  have h := nearest_add (m := m) (x := 0) fun _ => rankUnits_lt_succ m.rank
  rwa [Nat.cast_zero, add_zero] at h

theorem round_one_nearest (n : ℕ) : (round n 1).Nearest n := by
  have h := round_nearest n one_pos
  rwa [Nat.cast_one, div_one] at h

theorem ofNat_nearest (n : ℕ) : (ofNat n).Nearest (n * 2 ^ 1074) := by
  rw [ofNat, Nat.shiftLeft_eq]
  generalize 1074 = k
  have h := round_one_nearest (n * 2 ^ k)
  push_cast at h
  exact h

theorem ofNat_mono {n k : ℕ} (h : n ≤ k) : (ofNat n).rank ≤ (ofNat k).rank := by
  refine (ofNat_nearest n).rank_le (ofNat_nearest k) ?_
  gcongr

/-- What is not above a number is not above the nearest magnitude, and the other way around. -/
theorem rank_le_ofNat {n : ℕ} (h : m.units ≤ n * 2 ^ 1074) : m.rank ≤ (ofNat n).rank :=
  m.nearest_units.rank_le (ofNat_nearest n) (by exact_mod_cast h)

theorem ofNat_rank_le {n : ℕ} (h : n * 2 ^ 1074 ≤ m.units) : (ofNat n).rank ≤ m.rank :=
  (ofNat_nearest n).rank_le m.nearest_units (by exact_mod_cast h)

/-- A number of 53 bits and some zeros is a magnitude. -/
theorem exists_rankUnits_eq {t : ℕ} (ht : t ≤ 2 ^ 53) (j : ℕ) : ∃ r, rankUnits r = t * 2 ^ j := by
  induction j generalizing t with
  | zero =>
    have h := rankUnits_add (s := 0) (Or.inl rfl) ht
    rw [zero_mul, zero_add] at h
    exact ⟨t, h⟩
  | succ j ih =>
    rcases Nat.lt_or_ge t (2 ^ 52) with hshort | hfull
    · obtain ⟨r, hr⟩ := ih (t := t * 2) (by omega)
      exact ⟨r, by rw [hr, pow_succ', mul_assoc]⟩
    · exact ⟨(j + 1) * 2 ^ 52 + t, rankUnits_add (Or.inr hfull) ht⟩

theorem units_ofNat {t w : ℕ} (ht : t ≤ 2 ^ 53) (hw : w ≤ 970) :
    (ofNat (t * 2 ^ w)).units = t * 2 ^ w * 2 ^ 1074 := by
  obtain ⟨r, hr⟩ := exists_rankUnits_eq ht (w + 1074)
  have hsmall : rankUnits r ≤ rankUnits topRank := by
    rw [hr, rankUnits_topRank]
    calc t * 2 ^ (w + 1074) ≤ 2 ^ 53 * 2 ^ (970 + 1074) :=
          Nat.mul_le_mul ht (Nat.pow_le_pow_right two_pos (by omega))
      _ ≤ 2 ^ 2098 := by decide +kernel
  rw [pow_add, ← mul_assoc] at hr
  let m : Magnitude := ⟨r, rankUnits_strictMono.le_iff_le.1 hsmall⟩
  have hle : (ofNat (t * 2 ^ w)).rank ≤ m.rank := ofNat_rank_le hr.ge
  have hge : m.rank ≤ (ofNat (t * 2 ^ w)).rank := rank_le_ofNat hr.le
  rw [eq_of_rank_eq (hle.antisymm hge)]
  exact hr

/-- Every number of units lies between two neighbouring magnitudes, the upper one of which may be
infinity. -/
theorem exists_enclosing (x : ℕ) :
    ∃ m m' : Magnitude, m'.rank = m.rank + 1 ∧ m.units ≤ x ∧ (x < m'.units ∨ m' = .infinity) := by
  have hnearest := round_one_nearest x
  generalize round x 1 = a at hnearest
  rcases Nat.lt_or_ge x a.units with hlt | hge
  · -- Rounded up: the rank before is not above the number.
    obtain ⟨k, hk⟩ : ∃ k, a.rank = k + 1 := Nat.exists_eq_succ_of_ne_zero fun hzero => by
      rw [units, hzero, rankUnits_zero] at hlt
      omega
    have hlow := le_of_not_roundsAtMost (hnearest.not_roundsAtMost hk)
    have hsum : rankUnits k + rankUnits (k + 1) ≤ 2 * x := by exact_mod_cast hlow
    have hstep := rankUnits_lt_succ k
    have hle := a.rank_le
    refine ⟨⟨k, by omega⟩, a, hk, ?_, Or.inl hlt⟩
    show rankUnits k ≤ x
    omega
  · rcases a.rank_le.lt_or_eq with hfinite | htop
    · -- Rounded down: the next rank is above the number.
      have hhigh := (hnearest.roundsAtMost hfinite).le
      have hsum : 2 * x ≤ rankUnits a.rank + rankUnits (a.rank + 1) := by exact_mod_cast hhigh
      have hstep := rankUnits_lt_succ a.rank
      refine ⟨a, ⟨a.rank + 1, hfinite⟩, rfl, hge, Or.inl ?_⟩
      show x < rankUnits (a.rank + 1)
      omega
    · have hprev : rankUnits (topRank - 1) ≤ a.units :=
        rankUnits_strictMono.monotone (by rw [htop]; exact Nat.sub_le _ _)
      exact ⟨⟨topRank - 1, Nat.sub_le _ _⟩, .infinity, rfl, hprev.trans hge, Or.inr rfl⟩

/-! ## In exact values -/

theorem toRat_le_iff {m m' : Magnitude} : m.toRat ≤ m'.toRat ↔ m.rank ≤ m'.rank := by
  unfold toRat units
  rw [div_le_div_iff_of_pos_right (by positivity), Nat.cast_le, rankUnits_strictMono.le_iff_le]

theorem toRat_le_natCast_iff (m : Magnitude) (n : ℕ) : m.toRat ≤ n ↔ m.units ≤ n * 2 ^ 1074 := by
  unfold toRat
  generalize 1074 = k
  rw [div_le_iff₀ (by positivity)]
  exact_mod_cast Iff.rfl

theorem natCast_le_toRat_iff (m : Magnitude) (n : ℕ) : n ≤ m.toRat ↔ n * 2 ^ 1074 ≤ m.units := by
  unfold toRat
  generalize 1074 = k
  rw [le_div_iff₀ (by positivity)]
  exact_mod_cast Iff.rfl

/-! ## Scaling -/

/-- The magnitude so many binades up, or infinity. -/
def addBinades (m : Magnitude) (w : ℕ) : Magnitude :=
  ⟨min (m.rank + w * 2 ^ 52) topRank, Nat.min_le_right _ _⟩

theorem Nearest.le_rank {x : ℚ} (h : m.Nearest x) (hx : 2 ^ 52 ≤ x) : 2 ^ 52 ≤ m.rank := by
  have hleast : (⟨2 ^ 52, by decide⟩ : Magnitude).Nearest (2 ^ 52 : ℕ) := by
    have hself := nearest_units ⟨2 ^ 52, by decide⟩
    rwa [units, rankUnits_firstNormal] at hself
  exact hleast.rank_le h (by exact_mod_cast hx)

theorem Nearest.addBinades {x : ℚ} (h : m.Nearest x) (hx : 2 ^ 52 ≤ x) (w : ℕ) :
    (m.addBinades w).Nearest (x * 2 ^ w) := by
  have hrank := h.le_rank hx
  intro r hr
  have hmin : (m.addBinades w).rank ≤ r ↔ m.rank + w * 2 ^ 52 ≤ r := by
    show min (m.rank + w * 2 ^ 52) topRank ≤ r ↔ _
    omega
  rw [hmin]
  rcases Nat.lt_or_ge r (2 ^ 52 + w * 2 ^ 52) with hlow | hhigh
  · -- Below the first normal rank that scaling leads to, neither side holds.
    have hle : rankUnits (r + 1) ≤ rankUnits (w * 2 ^ 52 + 2 ^ 52) :=
      rankUnits_strictMono.monotone (by omega)
    rw [rankUnits_add (Or.inr le_rfl) (by norm_num)] at hle
    have hx' : (rankUnits (r + 1) : ℚ) ≤ x * 2 ^ w :=
      calc (rankUnits (r + 1) : ℚ) ≤ 2 ^ 52 * 2 ^ w := by exact_mod_cast hle
        _ ≤ x * 2 ^ w := by gcongr
    exact ⟨fun hm => by omega, fun hm => absurd hm (not_roundsAtMost_of_le hx')⟩
  · obtain ⟨k, rfl⟩ : ∃ k, r = k + w * 2 ^ 52 := ⟨r - w * 2 ^ 52, by omega⟩
    rw [roundsAtMost_add_binades (by omega), ← h k (by omega)]
    omega

/-- **Rounding and scaling by a power of two can change places.** -/
theorem ofNat_scale {n : ℕ} (hn : 0 < n) (w : ℕ) :
    (ofNat n).scale (2 ^ w) = ofNat (n * 2 ^ w) := by
  have hnearest := ofNat_nearest n
  have hlarge : (2 ^ 52 : ℚ) ≤ n * 2 ^ 1074 := by
    have hone : (1 : ℚ) ≤ n := by exact_mod_cast hn
    calc (2 ^ 52 : ℚ) ≤ 2 ^ 1074 := pow_le_pow_right₀ one_le_two (by norm_num)
      _ = 1 * 2 ^ 1074 := (one_mul _).symm
      _ ≤ n * 2 ^ 1074 := by gcongr
  have hunits : (2 ^ 52 : ℚ) ≤ (ofNat n).units := by
    have hle := rankUnits_strictMono.monotone (hnearest.le_rank hlarge)
    rw [rankUnits_firstNormal] at hle
    exact_mod_cast hle
  have hscale : (ofNat n).scale (2 ^ w) = (ofNat n).addBinades w := by
    have hround := round_one_nearest ((ofNat n).units * 2 ^ w)
    push_cast at hround
    exact hround.unique ((ofNat n).nearest_units.addBinades hunits w)
  have hproduct := ofNat_nearest (n * 2 ^ w)
  push_cast at hproduct
  rw [mul_right_comm] at hproduct
  rw [hscale]
  exact (hnearest.addBinades hlarge w).unique hproduct

/-! ## Absorption -/

/-- **A small number added to a number of many bits is lost.** -/
theorem ofNat_add {n d w : ℕ} (hn : 2 ^ 53 * 2 ^ w ≤ n) (hd : d < 2 ^ w) :
    (ofNat n).add d = ofNat n := by
  have hnearest := ofNat_nearest n
  unfold add
  generalize ofNat n = m at hnearest ⊢
  generalize 1074 = k at hnearest ⊢
  have hround := round_one_nearest (m.units + d * 2 ^ k)
  rw [Nat.cast_add] at hround
  rw [Nat.shiftLeft_eq]
  refine hround.unique (nearest_add fun htop => ?_)
  -- The boundary above the magnitude is not below `n`, so the binade has large units.
  have hle : 2 * (n * 2 ^ k) ≤ rankUnits m.rank + rankUnits (m.rank + 1) := by
    exact_mod_cast (hnearest.roundsAtMost htop).le
  have hmany : 2 ^ 53 * 2 ^ (w + k) ≤ n * 2 ^ k := by
    rw [pow_add, ← mul_assoc]
    exact Nat.mul_le_mul_right _ hn
  obtain ⟨s, t, hs, hself, hnext⟩ := exists_binade (r := m.rank) (j := w + k) (by omega)
  have hdigit : d * 2 ^ k < 2 ^ w * 2 ^ k := Nat.mul_lt_mul_of_pos_right hd (Nat.two_pow_pos k)
  have hpow : 2 * 2 ^ (w + k) ≤ 2 ^ s := by
    rw [← pow_succ']
    exact Nat.pow_le_pow_right two_pos hs
  rw [pow_add] at hpow
  rw [Nat.add_one_mul] at hnext
  omega

end Magnitude

end RecordWalk
