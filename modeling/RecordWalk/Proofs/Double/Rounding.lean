import Mathlib.Algebra.Order.Field.Basic
import Mathlib.Data.Rat.Cast.Order
import Mathlib.Tactic.Linarith
import Mathlib.Tactic.NormNum
import Mathlib.Tactic.Ring
import RecordWalk.Double.Round

/-!
# Rounding is to the nearest magnitude

Between two neighbouring ranks lies a *boundary*, halfway between their magnitudes. A number on
the boundary goes to the even rank. `RoundsAtMost r x` says that `x` is not past the boundary
above rank `r`, for a rational number `x` of units. It gets weaker as `r` grows and as `x` gets
smaller, so it says all there is to say about rounding:

**Theorem (`nearestRank_le_iff`).** The rank computed for `n / d` is at most `r` exactly when
`n / d` rounds at most to `r`.

A magnitude is `Nearest` to `x` when its rank is the least one that `x` rounds at most to, with
infinity for what is past all boundaries. There is only one nearest magnitude, and
`Magnitude.round` gives it.

The proof of the theorem writes a rank as `s` binades and a significand `t`. Its magnitude is then
`t * 2 ^ s` units (`rankUnits_add`), also where a carry leads into the next binade. Rounding down
and rounding up are two cases for either boundary: in one the neighbour lies in the same binade, in
the other the quotient is on the far side of the rank itself.
-/

namespace RecordWalk

/-! ## The magnitudes of ranks -/

theorem rankUnits_eq_mul (r : ℕ) : rankUnits r = rankSignificand r * 2 ^ rankScale r :=
  Nat.shiftLeft_eq _ _

/-- `s` binades and a significand, which may be one more than the largest one of its binade. -/
theorem rankUnits_add {s t : ℕ} (hs : s = 0 ∨ 2 ^ 52 ≤ t) (ht : t ≤ 2 ^ 53) :
    rankUnits (s * 2 ^ 52 + t) = t * 2 ^ s := by
  rcases lt_or_eq_of_le ht with ht | rfl
  · have hscale : rankScale (s * 2 ^ 52 + t) = s := by
      unfold rankScale
      omega
    have hsig : rankSignificand (s * 2 ^ 52 + t) = t := by
      unfold rankSignificand
      omega
    rw [rankUnits_eq_mul, hsig, hscale]
  · have hscale : rankScale (s * 2 ^ 52 + 2 ^ 53) = s + 1 := by
      unfold rankScale
      omega
    have hsig : rankSignificand (s * 2 ^ 52 + 2 ^ 53) = 2 ^ 52 := by
      unfold rankSignificand
      omega
    rw [rankUnits_eq_mul, hsig, hscale]
    ring

/-- Every rank is its binades and a significand that fits. -/
theorem rank_eq (r : ℕ) : ∃ s t, r = s * 2 ^ 52 + t ∧ (s = 0 ∨ 2 ^ 52 ≤ t) ∧ t < 2 ^ 53 := by
  refine ⟨rankScale r, rankSignificand r, ?_⟩
  unfold rankSignificand rankScale
  omega

theorem rankUnits_lt_succ (r : ℕ) : rankUnits r < rankUnits (r + 1) := by
  obtain ⟨s, t, rfl, hs, ht⟩ := rank_eq r
  rw [add_assoc, rankUnits_add hs ht.le, rankUnits_add (hs.imp_right fun h => by omega) ht]
  exact Nat.mul_lt_mul_of_pos_right (Nat.lt_succ_self t) (Nat.two_pow_pos s)

theorem rankUnits_strictMono : StrictMono rankUnits :=
  strictMono_nat_of_lt_succ rankUnits_lt_succ

/-- A rank and its neighbours in the units of its binade. The rank before is nearer where a binade
begins. -/
theorem rankUnits_neighbours {r : ℕ} (hr : 0 < r) :
    ∃ s t, (s = 0 ∨ 2 ^ 52 ≤ t) ∧ rankUnits r = t * 2 ^ s ∧
      rankUnits (r + 1) = (t + 1) * 2 ^ s ∧ t * 2 ^ s ≤ rankUnits (r - 1) + 2 ^ s := by
  obtain ⟨s, t, rfl, hs, ht⟩ := rank_eq r
  have hnext : rankUnits (s * 2 ^ 52 + t + 1) = (t + 1) * 2 ^ s := by
    rw [add_assoc]
    exact rankUnits_add (hs.imp_right fun h => by omega) ht
  refine ⟨s, t, hs, rankUnits_add hs ht.le, hnext, ?_⟩
  by_cases hinner : s = 0 ∨ 2 ^ 52 ≤ t - 1
  · have hprev : rankUnits (s * 2 ^ 52 + t - 1) = (t - 1) * 2 ^ s := by
      rw [show s * 2 ^ 52 + t - 1 = s * 2 ^ 52 + (t - 1) by omega]
      exact rankUnits_add hinner (by omega)
    rw [hprev, ← Nat.succ_mul]
    exact Nat.mul_le_mul_right _ (by omega)
  · obtain ⟨k, rfl⟩ : ∃ k, s = k + 1 := ⟨s - 1, by omega⟩
    have hprev : rankUnits ((k + 1) * 2 ^ 52 + t - 1) = (2 ^ 53 - 1) * 2 ^ k := by
      rw [show (k + 1) * 2 ^ 52 + t - 1 = k * 2 ^ 52 + (2 ^ 53 - 1) by omega]
      exact rankUnits_add (Or.inr (by norm_num)) (by norm_num)
    rw [hprev, show t = 2 ^ 52 by omega, pow_succ]
    omega

@[simp] theorem rankUnits_zero : rankUnits 0 = 0 := rfl

@[simp] theorem rankUnits_one : rankUnits 1 = 1 := rfl

theorem rankUnits_topRank : rankUnits topRank = 2 ^ 2098 := by
  have h : topRank = 2046 * 2 ^ 52 + 2 ^ 52 := rfl
  rw [h, rankUnits_add (Or.inr le_rfl) (by norm_num), ← pow_add]

/-! ## Boundaries -/

/-- Not past the boundary above a rank; the boundary itself belongs to the even one of the two
ranks that it parts. -/
def RoundsAtMost (r : ℕ) (x : ℚ) : Prop :=
  2 * x < rankUnits r + rankUnits (r + 1) ∨
    2 * x = rankUnits r + rankUnits (r + 1) ∧ r % 2 = 0

theorem RoundsAtMost.succ {r : ℕ} {x : ℚ} (h : RoundsAtMost r x) : RoundsAtMost (r + 1) x := by
  have h₁ : (rankUnits r : ℚ) < rankUnits (r + 1) := by exact_mod_cast rankUnits_lt_succ r
  have h₂ : (rankUnits (r + 1) : ℚ) < rankUnits (r + 1 + 1) := by
    exact_mod_cast rankUnits_lt_succ (r + 1)
  left
  rcases h with h | ⟨h, -⟩ <;> linarith

theorem RoundsAtMost.mono {r r' : ℕ} {x : ℚ} (h : RoundsAtMost r x) (hr : r ≤ r') :
    RoundsAtMost r' x := by
  induction hr with
  | refl => exact h
  | step _ ih => exact ih.succ

theorem RoundsAtMost.anti {r : ℕ} {x y : ℚ} (h : RoundsAtMost r y) (hxy : x ≤ y) :
    RoundsAtMost r x := by
  rcases hxy.lt_or_eq with hlt | rfl
  · left
    rcases h with h | ⟨h, -⟩ <;> linarith
  · exact h

theorem RoundsAtMost.le {r : ℕ} {x : ℚ} (h : RoundsAtMost r x) :
    2 * x ≤ rankUnits r + rankUnits (r + 1) :=
  h.elim le_of_lt fun h => h.1.le

theorem le_of_not_roundsAtMost {r : ℕ} {x : ℚ} (h : ¬ RoundsAtMost r x) :
    (rankUnits r + rankUnits (r + 1) : ℚ) ≤ 2 * x :=
  not_lt.1 fun hlt => h (Or.inl hlt)

theorem not_roundsAtMost_of_le {r : ℕ} {x : ℚ} (h : (rankUnits (r + 1) : ℚ) ≤ x) :
    ¬ RoundsAtMost r x := by
  have hlt : (rankUnits r : ℚ) < rankUnits (r + 1) := by exact_mod_cast rankUnits_lt_succ r
  rintro (hx | ⟨hx, -⟩) <;> linarith

/-- The rank that `x` rounds to, by its own boundary and the one below. -/
theorem le_iff_roundsAtMost {R : ℕ} {x : ℚ} (hle : RoundsAtMost R x)
    (hge : ∀ r, R = r + 1 → ¬ RoundsAtMost r x) (r : ℕ) : R ≤ r ↔ RoundsAtMost r x := by
  refine ⟨hle.mono, fun h => ?_⟩
  by_contra hlt
  obtain ⟨k, hk⟩ : ∃ k, R = k + 1 := ⟨R - 1, by omega⟩
  exact hge k hk (h.mono (by omega))

/-! ## The computed rank -/

theorem roundHalfEven_cases (n d : ℕ) :
    (roundHalfEven n d = n / d ∧ (2 * (n % d) < d ∨ 2 * (n % d) = d ∧ n / d % 2 = 0)) ∨
      (roundHalfEven n d = n / d + 1 ∧
        (d < 2 * (n % d) ∨ 2 * (n % d) = d ∧ (n / d + 1) % 2 = 0)) := by
  simp only [roundHalfEven]
  split_ifs with hlt hgt
  · exact Or.inl ⟨rfl, Or.inl hlt⟩
  · exact Or.inr ⟨rfl, Or.inl hgt⟩
  · have heq : 2 * (n % d) = d := by omega
    rcases Nat.mod_two_eq_zero_or_one (n / d) with h | h
    · exact Or.inl ⟨by omega, Or.inr ⟨heq, h⟩⟩
    · exact Or.inr ⟨by omega, Or.inr ⟨heq, by omega⟩⟩

/-- The exact quotient is at most half above the rounded one, and just half only if that is
even. -/
theorem roundHalfEven_upper (n : ℕ) {d : ℕ} (hd : 0 < d) :
    2 * n < (2 * roundHalfEven n d + 1) * d ∨
      2 * n = (2 * roundHalfEven n d + 1) * d ∧ roundHalfEven n d % 2 = 0 := by
  have hn := Nat.div_add_mod n d
  have hr := Nat.mod_lt n hd
  have hmul (q : ℕ) : (2 * q + 1) * d = 2 * (d * q) + d := by ring
  rcases roundHalfEven_cases n d with ⟨ht, h⟩ | ⟨ht, h⟩
  · rw [ht, hmul]
    omega
  · rw [ht, hmul, Nat.mul_add]
    omega

/-- The exact quotient is at most half below the rounded one, and just half only if that is
even. -/
theorem roundHalfEven_lower (n : ℕ) {d : ℕ} (hd : 0 < d) :
    2 * roundHalfEven n d * d < 2 * n + d ∨
      2 * roundHalfEven n d * d = 2 * n + d ∧ roundHalfEven n d % 2 = 0 := by
  have hn := Nat.div_add_mod n d
  have hr := Nat.mod_lt n hd
  have hmul (q : ℕ) : 2 * q * d = 2 * (d * q) := by ring
  rcases roundHalfEven_cases n d with ⟨ht, h⟩ | ⟨ht, h⟩
  · rw [ht, hmul]
    omega
  · rw [ht, hmul, Nat.mul_add]
    omega

/-- Boundaries and a quotient, compared after multiplication with the divisor. -/
theorem roundsAtMost_div_iff (n : ℕ) {d : ℕ} (hd : 0 < d) (r : ℕ) :
    RoundsAtMost r (n / d) ↔ 2 * n < (rankUnits r + rankUnits (r + 1)) * d ∨
      2 * n = (rankUnits r + rankUnits (r + 1)) * d ∧ r % 2 = 0 := by
  have hd' : (0 : ℚ) < d := by exact_mod_cast hd
  unfold RoundsAtMost
  rw [← mul_div_assoc, div_lt_iff₀ hd', div_eq_iff hd'.ne']
  norm_cast

/-- `t` is the significand of `n / d` in the binade `s`, rounded from one that is full and fits. -/
structure IsRounded (n d s t : ℕ) : Prop where
  eq : t = roundHalfEven n (d * 2 ^ s)
  full : s = 0 ∨ 2 ^ 52 ≤ n / (d * 2 ^ s)
  fits : n / (d * 2 ^ s) < 2 ^ 53

theorem isRounded_surplusBits (n d : ℕ) :
    IsRounded n d (surplusBits n d) (roundHalfEven n (d * 2 ^ surplusBits n d)) := by
  have hdiv : n / (d * 2 ^ surplusBits n d) = n / d / 2 ^ surplusBits n d :=
    (Nat.div_div_eq_div_mul n d _).symm
  refine ⟨rfl, ?_, ?_⟩
  · rw [hdiv]
    rcases Nat.eq_zero_or_pos (surplusBits n d) with h | h
    · exact Or.inl h
    · right
      have hlog : (n / d).log2 = 52 + surplusBits n d := by
        unfold surplusBits at h ⊢
        omega
      have hq : n / d ≠ 0 := by
        intro h0
        rw [h0, Nat.log2_zero] at hlog
        omega
      rw [Nat.le_div_iff_mul_le (Nat.two_pow_pos _), ← pow_add, ← hlog]
      exact Nat.log2_self_le hq
  · rw [hdiv, Nat.div_lt_iff_lt_mul (Nat.two_pow_pos _), ← pow_add]
    refine Nat.lt_log2_self.trans_le (Nat.pow_le_pow_right two_pos ?_)
    unfold surplusBits
    omega

namespace IsRounded

variable {n d s t : ℕ}

/-- Rounding goes down to the whole part of the quotient or up to the next number. -/
theorem down_or_up (h : IsRounded n d s t) :
    t = n / (d * 2 ^ s) ∨ t = n / (d * 2 ^ s) + 1 := by
  have hlow := div_le_roundHalfEven n (d * 2 ^ s)
  have hhigh := roundHalfEven_le n (d * 2 ^ s)
  rw [← h.eq] at hlow hhigh
  omega

/-- Also what was rounded up to the next binade has the magnitude of its significand. -/
theorem rankUnits_eq (h : IsRounded n d s t) : rankUnits (s * 2 ^ 52 + t) = t * 2 ^ s := by
  have hfits := h.fits
  rcases h.down_or_up with ht | ht
  · exact rankUnits_add (h.full.imp_right fun hf => by omega) (by omega)
  · exact rankUnits_add (h.full.imp_right fun hf => by omega) (by omega)

theorem roundsAtMost (h : IsRounded n d s t) (hd : 0 < d) :
    RoundsAtMost (s * 2 ^ 52 + t) (n / d) := by
  have hD : 0 < d * 2 ^ s := Nat.mul_pos hd (Nat.two_pow_pos s)
  have hfits := h.fits
  rw [roundsAtMost_div_iff n hd, h.rankUnits_eq]
  rcases h.down_or_up with hdown | hup
  · -- Rounded down: the next rank lies in the same binade, or begins the next one.
    have hnext : rankUnits (s * 2 ^ 52 + t + 1) = (t + 1) * 2 ^ s := by
      rw [add_assoc]
      exact rankUnits_add (h.full.imp_right fun hf => by omega) (by omega)
    have hsum : (t * 2 ^ s + (t + 1) * 2 ^ s) * d = (2 * t + 1) * (d * 2 ^ s) := by ring
    have hupper := roundHalfEven_upper n hD
    rw [← h.eq] at hupper
    rw [hnext, hsum]
    exact hupper.imp_right fun he => ⟨he.1, by omega⟩
  · -- Rounded up: the quotient lies below the rank itself.
    left
    have hn : n < t * (d * 2 ^ s) := (Nat.div_lt_iff_lt_mul hD).1 (by omega)
    have hmul := Nat.mul_le_mul_right d (rankUnits_lt_succ (s * 2 ^ 52 + t)).le
    have ht : t * (d * 2 ^ s) = t * 2 ^ s * d := by ring
    rw [h.rankUnits_eq] at hmul
    rw [Nat.add_mul]
    omega

theorem not_roundsAtMost (h : IsRounded n d s t) (hd : 0 < d) {r : ℕ}
    (hr : s * 2 ^ 52 + t = r + 1) : ¬ RoundsAtMost r (n / d) := by
  have hD : 0 < d * 2 ^ s := Nat.mul_pos hd (Nat.two_pow_pos s)
  have hfits := h.fits
  rcases h.down_or_up with hdown | hup
  · -- Rounded down: the quotient is at least the rank itself.
    apply not_roundsAtMost_of_le
    have hn : t * (d * 2 ^ s) ≤ n := (Nat.le_div_iff_mul_le hD).1 hdown.le
    have hd' : (0 : ℚ) < d := by exact_mod_cast hd
    have ht : t * 2 ^ s * d = t * (d * 2 ^ s) := by ring
    rw [← hr, h.rankUnits_eq, le_div_iff₀ hd']
    exact_mod_cast ht.le.trans hn
  · -- Rounded up: the rank before lies in the same binade.
    obtain ⟨q, hq⟩ : ∃ q, t = q + 1 := ⟨n / (d * 2 ^ s), hup⟩
    have hprev : rankUnits r = q * 2 ^ s := by
      rw [show r = s * 2 ^ 52 + q by omega]
      exact rankUnits_add (h.full.imp_right fun hf => by omega) (by omega)
    have hsum : (q * 2 ^ s + t * 2 ^ s) * d + d * 2 ^ s = 2 * t * (d * 2 ^ s) := by
      rw [hq]
      ring
    have hlower := roundHalfEven_lower n hD
    rw [← h.eq] at hlower
    rw [roundsAtMost_div_iff n hd, ← hr, h.rankUnits_eq, hprev]
    omega

end IsRounded

theorem nearestRank_eq (n d : ℕ) :
    nearestRank n d =
      surplusBits n d * 2 ^ 52 + roundHalfEven n (d * 2 ^ surplusBits n d) := by
  simp only [nearestRank, Nat.shiftLeft_eq]
  norm_num

/-- **The computed rank is the nearest one.** -/
theorem nearestRank_le_iff (n : ℕ) {d : ℕ} (hd : 0 < d) (r : ℕ) :
    nearestRank n d ≤ r ↔ RoundsAtMost r (n / d) := by
  have h := isRounded_surplusBits n d
  rw [nearestRank_eq]
  exact le_iff_roundsAtMost (h.roundsAtMost hd) (fun k hk => h.not_roundsAtMost hd hk) r

/-! ## The nearest magnitude -/

/-- The magnitude nearest to `x` units: its rank is the least one that `x` rounds at most to. -/
def Magnitude.Nearest (m : Magnitude) (x : ℚ) : Prop :=
  ∀ r < topRank, m.rank ≤ r ↔ RoundsAtMost r x

namespace Magnitude

theorem eq_of_rank_eq {m m' : Magnitude} (h : m.rank = m'.rank) : m = m' := by
  cases m
  cases m'
  congr

theorem rank_pos {m : Magnitude} (h : m ≠ .zero) : 0 < m.rank :=
  Nat.pos_of_ne_zero fun hrank => h (eq_of_rank_eq hrank)

theorem rank_lt_topRank {m : Magnitude} (h : m ≠ .infinity) : m.rank < topRank :=
  lt_of_le_of_ne m.rank_le fun hrank => h (eq_of_rank_eq hrank)

theorem Nearest.unique {m m' : Magnitude} {x : ℚ} (h : m.Nearest x) (h' : m'.Nearest x) :
    m = m' := by
  have hm := m.rank_le
  have hm' := m'.rank_le
  have hrank : m.rank = m'.rank := by
    rcases lt_trichotomy m.rank m'.rank with hlt | heq | hgt
    · have hle := (h' m.rank (by omega)).2 ((h m.rank (by omega)).1 le_rfl)
      omega
    · exact heq
    · have hle := (h m'.rank (by omega)).2 ((h' m'.rank (by omega)).1 le_rfl)
      omega
  exact eq_of_rank_eq hrank

/-- Not past the boundary above. -/
theorem Nearest.roundsAtMost {m : Magnitude} {x : ℚ} (h : m.Nearest x) (htop : m.rank < topRank) :
    RoundsAtMost m.rank x :=
  (h m.rank htop).1 le_rfl

/-- Past the boundary below. -/
theorem Nearest.not_roundsAtMost {m : Magnitude} {x : ℚ} (h : m.Nearest x) {r : ℕ}
    (hr : m.rank = r + 1) : ¬ RoundsAtMost r x := by
  intro hx
  have hm := m.rank_le
  have hle := (h r (by omega)).2 hx
  omega

/-- The nearest magnitudes are in the order of the numbers. -/
theorem Nearest.rank_le {m m' : Magnitude} {x y : ℚ} (h : m.Nearest x) (h' : m'.Nearest y)
    (hxy : x ≤ y) : m.rank ≤ m'.rank := by
  rcases m'.rank_le.lt_or_eq with hlt | heq
  · exact (h m'.rank hlt).2 (((h' m'.rank hlt).1 le_rfl).anti hxy)
  · exact heq ▸ m.rank_le

/-- The numbers that round to a magnitude have no gaps. -/
theorem Nearest.between {m : Magnitude} {x y z : ℚ} (hx : m.Nearest x) (hz : m.Nearest z)
    (hxy : x ≤ y) (hyz : y ≤ z) : m.Nearest y :=
  fun r hr => ⟨fun hm => ((hz r hr).1 hm).anti hyz, fun hy => (hx r hr).2 (hy.anti hxy)⟩

/-- **Rounding gives the nearest magnitude.** -/
theorem round_nearest (n : ℕ) {d : ℕ} (hd : 0 < d) : (round n d).Nearest (n / d) := by
  intro r hr
  rw [← nearestRank_le_iff n hd]
  change min (nearestRank n d) topRank ≤ r ↔ nearestRank n d ≤ r
  omega

theorem zero_nearest {x : ℚ} (h : 2 * x < 1) : zero.Nearest x := by
  intro r _
  have h0 : RoundsAtMost 0 x := by
    left
    simpa using h
  exact ⟨h0.mono, fun _ => Nat.zero_le r⟩

theorem infinity_nearest {x : ℚ} (h : 2 ^ 2098 ≤ x) : infinity.Nearest x := by
  intro r hr
  have hle : (rankUnits (r + 1) : ℚ) ≤ x := by
    have hmono := rankUnits_strictMono.monotone (Nat.succ_le_of_lt hr)
    rw [rankUnits_topRank] at hmono
    exact le_trans (by exact_mod_cast hmono) h
  refine ⟨fun hr' => ?_, fun hx => ?_⟩
  · exact absurd hr' (Nat.not_le_of_lt hr)
  · exact absurd hx (not_roundsAtMost_of_le hle)

end Magnitude

end RecordWalk
