import Mathlib.Data.List.Induction
import Mathlib.Data.Nat.Digits.Defs
import Mathlib.Data.Nat.Log
import RecordWalk.Proofs.Double.Natural

/-!
# Radix literals read faithfully

The digits of a radix literal are accumulated in doubles, with a rounding after each product and
each sum. As the bases are powers of two, it can be said in closed form what that comes to. Up to
the first digits that denote a number of more than 53 bits, all is exact. That number is rounded,
and from then on each product is exact and each sum is absorbed. So the digits behind those first
ones count as zeros:

**Theorem (`accumulate_eq`).** The magnitude of a list of digits that denotes `n` is the one nearest
to `r.kept n`, which is `n` with zeros for the digits that are not needed to exceed 53 bits.

`kept` is monotone, and is never below a double that is not above the number, since the digits that
it drops are smaller than the units of all doubles from there on. Hence the two main results.

**Theorem (`read_radix_faithful`).** A radix literal reads as the double that is equal to the number
it denotes, or else as one of the two doubles around it, and larger numbers do not read as smaller
doubles.

**Theorem (`read_radix_ne_decimal_iff`).** A radix literal and a decimal literal of the same number
read as different doubles exactly if the number is cut at a tie: with zeros for the dropped digits
it lies halfway between two doubles, the lower one of which is even. What tips the balance was
dropped.
-/

namespace RecordWalk

namespace Radix

variable (r : Radix)

/-! ## The numbers that digits denote -/

/-- The value of a digit: its place among the digits. -/
def digitOf (c : Char) : ℕ := "0123456789abcdef".toList.idxOf c.toLower

/-- The number that a list of digits denotes, the most significant digit first. -/
def number (cs : List Char) : ℕ := Nat.ofDigits r.base (cs.map digitOf).reverse

/-- The number of bits of a digit. -/
def width : Radix → ℕ
  | binary => 1
  | octal => 3
  | hexadecimal => 4

theorem base_eq : r.base = 2 ^ r.width := by
  cases r <;> rfl

theorem one_lt_base : 1 < r.base := by
  cases r <;> decide

theorem base_pos : 0 < r.base := Nat.zero_lt_of_lt r.one_lt_base

theorem base_pow (k : ℕ) : r.base ^ k = 2 ^ (r.width * k) := by
  rw [base_eq, pow_mul]

variable {r}

theorem digit?_eq_some {c : Char} (h : r.isDigit c = true) : r.digit? c = some (digitOf c) := by
  have hle (a b : Char) : a ≤ b ↔ a.toNat ≤ b.toNat := UInt32.le_iff_toNat_le
  -- The digits are ASCII characters, and those can be tried one by one.
  have hascii : c.toNat < 128 := by
    cases r with
    | binary | octal | hexadecimal =>
      simp only [isDigit, hle, Char.reduceToNat, Bool.or_eq_true, Bool.and_eq_true,
        decide_eq_true_eq] at h
      omega
  have hall : ∀ n < 128, r.isDigit (Char.ofNat n) = true →
      r.digit? (Char.ofNat n) = some (digitOf (Char.ofNat n)) := by
    cases r <;> decide +kernel
  have hc := hall c.toNat hascii
  rw [Char.ofNat_toNat] at hc
  exact hc h

theorem mapM_digit? {cs : List Char} (h : ∀ c ∈ cs, r.isDigit c = true) :
    cs.mapM r.digit? = some (cs.map digitOf) := by
  induction cs with
  | nil => rfl
  | cons c cs ih =>
    rw [List.forall_mem_cons] at h
    rw [List.mapM_cons, digit?_eq_some h.1, ih h.2]
    rfl

theorem digitOf_lt {c : Char} (h : r.isDigit c = true) : digitOf c < r.base := by
  have hdigit := digit?_eq_some h
  rw [digit?, Option.filter_eq_some_iff] at hdigit
  exact of_decide_eq_true hdigit.2

/-! ## The digits that are kept -/

variable (r)

/-- The number of digits behind the first ones that denote a number of more than 53 bits. -/
def surplusDigits (n : ℕ) : ℕ := Nat.log r.base (n / 2 ^ 53)

/-- The number with zeros for its surplus digits. -/
def kept (n : ℕ) : ℕ := n / r.base ^ r.surplusDigits n * r.base ^ r.surplusDigits n

theorem kept_le (n : ℕ) : r.kept n ≤ n := Nat.div_mul_le_self _ _

theorem lt_of_surplusDigits (n : ℕ) : n < 2 ^ 53 * r.base ^ (r.surplusDigits n + 1) := by
  have h := Nat.lt_pow_succ_log_self r.one_lt_base (n / 2 ^ 53)
  rwa [Nat.div_lt_iff_lt_mul (by norm_num), mul_comm] at h

variable {r} {n d : ℕ}

theorem surplusDigits_eq_iff (hn : 2 ^ 53 ≤ n) (k : ℕ) :
    r.surplusDigits n = k ↔ 2 ^ 53 * r.base ^ k ≤ n ∧ n < 2 ^ 53 * r.base ^ (k + 1) := by
  have hquotient : n / 2 ^ 53 ≠ 0 := by omega
  rw [surplusDigits, Nat.log_eq_iff (Or.inr ⟨r.one_lt_base, hquotient⟩),
    Nat.le_div_iff_mul_le (by norm_num), Nat.div_lt_iff_lt_mul (by norm_num), mul_comm (2 ^ 53),
    mul_comm (2 ^ 53)]

theorem kept_of_lt (h : n < 2 ^ 53 * r.base) : r.kept n = n := by
  have hzero : r.surplusDigits n = 0 := Nat.log_of_lt ((Nat.div_lt_iff_lt_mul (by norm_num)).2
    (by rwa [mul_comm]))
  rw [kept, hzero, pow_zero, Nat.div_one, mul_one]

theorem kept_of_lt_two_pow (h : n < 2 ^ 53) : r.kept n = n :=
  kept_of_lt (h.trans_le (Nat.le_mul_of_pos_right _ r.base_pos))

theorem two_pow_le_of_kept_ne (h : r.kept n ≠ n) : 2 ^ 53 ≤ n :=
  Nat.le_of_not_lt (mt kept_of_lt_two_pow h)

theorem le_kept (hn : 2 ^ 53 ≤ n) : 2 ^ 53 * r.base ^ r.surplusDigits n ≤ r.kept n := by
  have hle := ((r.surplusDigits_eq_iff hn _).1 rfl).1
  have hpos : 0 < r.base ^ r.surplusDigits n := Nat.pow_pos r.base_pos
  exact Nat.mul_le_mul_right _ ((Nat.le_div_iff_mul_le hpos).2 hle)

theorem append_lt (hd : d < r.base) : n * r.base + d < (n + 1) * r.base := by
  rw [Nat.add_one_mul]
  omega

/-- A digit behind the kept ones is dropped. -/
theorem kept_append (hn : 2 ^ 53 ≤ n) (hd : d < r.base) :
    r.kept (n * r.base + d) = r.kept n * r.base := by
  obtain ⟨hle, hlt⟩ := (r.surplusDigits_eq_iff hn _).1 rfl
  have hsurplus : r.surplusDigits (n * r.base + d) = r.surplusDigits n + 1 := by
    have hbase := Nat.le_mul_of_pos_right n r.base_pos
    rw [surplusDigits_eq_iff (by omega)]
    constructor
    · calc 2 ^ 53 * r.base ^ (r.surplusDigits n + 1)
          = 2 ^ 53 * r.base ^ r.surplusDigits n * r.base := by rw [pow_succ r.base, mul_assoc]
        _ ≤ n * r.base := Nat.mul_le_mul_right _ hle
        _ ≤ n * r.base + d := Nat.le_add_right _ _
    · calc n * r.base + d < (n + 1) * r.base := append_lt hd
        _ ≤ 2 ^ 53 * r.base ^ (r.surplusDigits n + 1) * r.base := Nat.mul_le_mul_right _ hlt
        _ = 2 ^ 53 * r.base ^ (r.surplusDigits n + 1 + 1) := by
          rw [pow_succ r.base (_ + 1), mul_assoc]
  have hdiv : (n * r.base + d) / r.base = n := by
    rw [mul_comm, Nat.mul_add_div r.base_pos, Nat.div_eq_of_lt hd, add_zero]
  rw [kept, hsurplus, pow_succ', ← Nat.div_div_eq_div_mul, hdiv, kept]
  ring

theorem kept_mono {k : ℕ} (h : n ≤ k) : r.kept n ≤ r.kept k := by
  have hsurplus : r.surplusDigits n ≤ r.surplusDigits k :=
    Nat.log_mono_right (Nat.div_le_div_right h)
  rcases hsurplus.lt_or_eq with hlt | heq
  · -- The larger number has more digits and keeps a number that the smaller one does not reach.
    have hk : 2 ^ 53 ≤ k := by
      by_contra hsmall
      have hzero : k / 2 ^ 53 = 0 := Nat.div_eq_of_lt (Nat.lt_of_not_le hsmall)
      have hnone : r.surplusDigits k = 0 := by rw [surplusDigits, hzero, Nat.log_zero_right]
      omega
    calc r.kept n ≤ n := r.kept_le n
      _ ≤ 2 ^ 53 * r.base ^ (r.surplusDigits n + 1) := (r.lt_of_surplusDigits n).le
      _ ≤ 2 ^ 53 * r.base ^ r.surplusDigits k :=
          Nat.mul_le_mul_left _ (Nat.pow_le_pow_right r.base_pos hlt)
      _ ≤ r.kept k := le_kept hk
  · rw [kept, heq, kept]
    exact Nat.mul_le_mul_right _ (Nat.div_le_div_right h)

/-! ## Accumulation -/

/-- One more digit of a number of at most 53 bits is added exactly. -/
theorem add_scale_of_lt (hn : n < 2 ^ 53) :
    ((Magnitude.ofNat n).scale r.base).add d = Magnitude.ofNat (n * r.base + d) := by
  have hscale : ((Magnitude.ofNat n).scale r.base) = Magnitude.ofNat (n * 2 ^ r.width) := by
    rcases Nat.eq_zero_or_pos n with rfl | hpos
    · rw [zero_mul]
      cases r <;> decide +kernel
    · rw [base_eq, Magnitude.ofNat_scale hpos]
  have hunits := Magnitude.units_ofNat hn.le (show r.width ≤ 970 by cases r <;> decide)
  rw [hscale, Magnitude.add, hunits, base_eq, Magnitude.ofNat, Nat.shiftLeft_eq, Nat.shiftLeft_eq,
    add_mul]

/-- One more digit of a number of more bits is absorbed. -/
theorem add_scale_of_le (hn : 2 ^ 53 ≤ n) (hd : d < r.base) :
    ((Magnitude.ofNat n).scale r.base).add d = Magnitude.ofNat (n * r.base) := by
  rw [base_eq] at hd ⊢
  rw [Magnitude.ofNat_scale (by omega), Magnitude.ofNat_add (Nat.mul_le_mul_right _ hn) hd]

/-- **Accumulating digits gives the magnitude nearest to the number that is kept.** -/
theorem accumulate_eq {ds : List ℕ} (hds : ∀ d ∈ ds, d < r.base) :
    r.accumulate ds = Magnitude.ofNat (r.kept (Nat.ofDigits r.base ds.reverse)) := by
  -- The last digit comes last, so the induction is on the list from its end.
  induction ds using List.reverseRecOn with
  | nil =>
    have hzero : r.kept 0 = 0 := Nat.le_zero.1 (r.kept_le 0)
    show Magnitude.zero = Magnitude.ofNat (r.kept 0)
    rw [hzero]
    decide +kernel
  | append_singleton ds d ih =>
    have hd : d < r.base := hds d (by simp)
    have ih := ih fun x hx => hds x (List.mem_append_left _ hx)
    have hstep : r.accumulate (ds ++ [d]) = ((r.accumulate ds).scale r.base).add d := by
      rw [accumulate, List.foldl_append]
      rfl
    have hnumber : Nat.ofDigits r.base (ds ++ [d]).reverse =
        Nat.ofDigits r.base ds.reverse * r.base + d := by
      rw [List.reverse_append, List.reverse_singleton, List.singleton_append, Nat.ofDigits_cons]
      ring
    rw [hstep, ih, hnumber]
    generalize Nat.ofDigits r.base ds.reverse = n
    rcases Nat.lt_or_ge n (2 ^ 53) with hlt | hge
    · have hnext : r.kept (n * r.base + d) = n * r.base + d :=
        kept_of_lt ((append_lt hd).trans_le (Nat.mul_le_mul_right _ hlt))
      rw [kept_of_lt_two_pow hlt, hnext, add_scale_of_lt hlt]
    · have hkept : 2 ^ 53 ≤ r.kept n :=
        (Nat.le_mul_of_pos_right _ (Nat.pow_pos r.base_pos)).trans (le_kept hge)
      rw [kept_append hge hd, add_scale_of_le hkept hd]

/-! ## Doubles around the number -/

/-- A multiple of what the last kept digit counts is not above what is kept if it is not above the
number. -/
theorem le_kept_mul {x u : ℕ} (hu : 0 < u) (hdvd : r.base ^ r.surplusDigits n * u ∣ x)
    (h : x ≤ n * u) : x ≤ r.kept n * u := by
  obtain ⟨q, hq⟩ := hdvd
  have hx : x = q * r.base ^ r.surplusDigits n * u := by
    rw [hq]
    ring
  rw [hx] at h ⊢
  have hle := Nat.le_of_mul_le_mul_right h hu
  have hquotient := (Nat.le_div_iff_mul_le (Nat.pow_pos r.base_pos)).2 hle
  exact Nat.mul_le_mul_right _ (Nat.mul_le_mul_right _ hquotient)

/-- What is not above the number is not above what is kept of it, rounded. -/
theorem rank_le_ofNat_kept {m : Magnitude} (h : m.units ≤ n * 2 ^ 1074) :
    m.rank ≤ (Magnitude.ofNat (r.kept n)).rank := by
  apply Magnitude.rank_le_ofNat
  generalize 1074 = k at h ⊢
  by_cases hkept : r.kept n = n
  · rwa [hkept]
  have hn := two_pow_le_of_kept_ne hkept
  rcases Nat.lt_or_ge m.units (2 ^ 53 * r.base ^ r.surplusDigits n * 2 ^ k) with hlow | hhigh
  · exact hlow.le.trans (Nat.mul_le_mul_right _ (le_kept hn))
  · -- From here on the units of a magnitude are those of a dropped digit, or larger.
    have hnext : m.units ≤ rankUnits (m.rank + 1) := (rankUnits_lt_succ m.rank).le
    rw [base_pow, mul_assoc, ← pow_add] at hhigh
    obtain ⟨s, t, hs, hself, -⟩ := exists_binade (r := m.rank)
      (j := r.width * r.surplusDigits n + k) (by rw [Magnitude.units] at hhigh hnext; omega)
    refine le_kept_mul (Nat.two_pow_pos k) ?_ h
    rw [Magnitude.units, hself, base_pow, ← pow_add]
    exact (pow_dvd_pow 2 hs.le).mul_left t

/-- What is not below the number is not below what is kept of it, rounded. -/
theorem ofNat_kept_rank_le {m : Magnitude} (h : n * 2 ^ 1074 ≤ m.units) :
    (Magnitude.ofNat (r.kept n)).rank ≤ m.rank :=
  Magnitude.ofNat_rank_le ((Nat.mul_le_mul_right _ (r.kept_le n)).trans h)

/-! ## Ties -/

/-- A boundary between what is kept and the number is what is kept. -/
theorem boundary_eq_kept {ρ k : ℕ} (hn : 2 ^ 53 ≤ n)
    (hlower : 2 * (r.kept n * 2 ^ k) ≤ rankUnits ρ + rankUnits (ρ + 1))
    (hupper : rankUnits ρ + rankUnits (ρ + 1) ≤ 2 * (n * 2 ^ k)) :
    rankUnits ρ + rankUnits (ρ + 1) = 2 * (r.kept n * 2 ^ k) := by
  have hbits : 2 ^ 53 * 2 ^ (r.width * r.surplusDigits n + k) ≤ r.kept n * 2 ^ k := by
    rw [pow_add, ← mul_assoc, ← base_pow]
    exact Nat.mul_le_mul_right _ (le_kept hn)
  obtain ⟨s, t, hs, hself, hnext⟩ := exists_binade (r := ρ)
    (j := r.width * r.surplusDigits n + k) (by omega)
  -- Half a unit of the binade is still a multiple of what a kept digit counts.
  obtain ⟨j, rfl⟩ : ∃ j, s = j + 1 := Nat.exists_eq_succ_of_ne_zero (by omega)
  have hboundary : rankUnits ρ + rankUnits (ρ + 1) = 2 * ((2 * t + 1) * 2 ^ j) := by
    rw [hself, hnext]
    ring
  have hdvd : r.base ^ r.surplusDigits n * 2 ^ k ∣ (2 * t + 1) * 2 ^ j := by
    rw [base_pow, ← pow_add]
    exact (pow_dvd_pow 2 (by omega)).mul_left _
  have hle := le_kept_mul (Nat.two_pow_pos k) hdvd (by omega)
  omega

/-- Rounding what is kept differs from rounding the number only if the former is a tie that goes
down. -/
theorem ofNat_kept_ne_iff :
    Magnitude.ofNat (r.kept n) ≠ Magnitude.ofNat n ↔
      r.kept n ≠ n ∧ ∃ ρ < topRank, ρ % 2 = 0 ∧
        rankUnits ρ + rankUnits (ρ + 1) = 2 * (r.kept n * 2 ^ 1074) := by
  have hkeptNearest := Magnitude.ofNat_nearest (r.kept n)
  have hnearest := Magnitude.ofNat_nearest n
  have hmono := Magnitude.ofNat_mono (r.kept_le n)
  generalize Magnitude.ofNat (r.kept n) = a at *
  generalize Magnitude.ofNat n = b at *
  constructor
  · intro hne
    have hlt : a.rank < b.rank := lt_of_le_of_ne hmono fun h => hne (Magnitude.eq_of_rank_eq h)
    have htop : a.rank < topRank := hlt.trans_le b.rank_le
    have hmost := hkeptNearest.roundsAtMost htop
    have hpast : ¬ RoundsAtMost a.rank (n * 2 ^ 1074) := fun h =>
      hlt.not_ge ((hnearest a.rank htop).2 h)
    have hkept : r.kept n ≠ n := fun h => hpast (h ▸ hmost)
    have hn := two_pow_le_of_kept_ne hkept
    refine ⟨hkept, a.rank, htop, ?_⟩
    generalize 1074 = k at *
    -- The boundary above `a` lies between what is kept and the number.
    have hlower : 2 * (r.kept n * 2 ^ k) ≤ rankUnits a.rank + rankUnits (a.rank + 1) := by
      exact_mod_cast hmost.le
    have hupper : rankUnits a.rank + rankUnits (a.rank + 1) ≤ 2 * (n * 2 ^ k) := by
      exact_mod_cast le_of_not_roundsAtMost hpast
    have heq := boundary_eq_kept hn hlower hupper
    rcases hmost with hbelow | ⟨-, heven⟩
    · have hbelow : 2 * (r.kept n * 2 ^ k) < rankUnits a.rank + rankUnits (a.rank + 1) := by
        exact_mod_cast hbelow
      omega
    · exact ⟨heven, heq⟩
  · rintro ⟨hkept, ρ, htop, heven, heq⟩ rfl
    generalize 1074 = k at *
    have htie : RoundsAtMost ρ (r.kept n * 2 ^ k) := Or.inr ⟨by exact_mod_cast heq.symm, heven⟩
    have hpast := ((hnearest ρ htop).1 ((hkeptNearest ρ htop).2 htie)).le
    have hle : 2 * (n * 2 ^ k) ≤ rankUnits ρ + rankUnits (ρ + 1) := by exact_mod_cast hpast
    have hmul : n * 2 ^ k ≤ r.kept n * 2 ^ k := by omega
    exact hkept ((r.kept_le n).antisymm (Nat.le_of_mul_le_mul_right hmul (Nat.two_pow_pos k)))

end Radix

namespace Magnitude

theorem units_infinity : infinity.units = 2 ^ 1024 * 2 ^ 1074 := by
  decide +kernel

theorem toRat_add_toRat_iff {m m' : Magnitude} {n : ℕ} :
    m.toRat + m'.toRat = 2 * n ↔ m.units + m'.units = 2 * (n * 2 ^ 1074) := by
  unfold toRat
  generalize 1074 = k
  rw [← add_div, div_eq_iff (by positivity), mul_assoc]
  exact_mod_cast Iff.rfl

/-- The first is less than the second, and no magnitude lies between them. -/
def Neighbours (m m' : Magnitude) : Prop :=
  m.toRat < m'.toRat ∧ ∀ y : Magnitude, y.toRat ≤ m.toRat ∨ m'.toRat ≤ y.toRat

theorem neighbours_iff {m m' : Magnitude} : m.Neighbours m' ↔ m'.rank = m.rank + 1 := by
  simp only [Neighbours, ← not_le, toRat_le_iff]
  have hle := m'.rank_le
  constructor
  · rintro ⟨hlt, hbetween⟩
    have hnext := hbetween ⟨m.rank + 1, by omega⟩
    simp only at hnext
    omega
  · intro hrank
    exact ⟨by omega, fun y => by omega⟩

end Magnitude

/-- Cut a number behind its first digits that denote a number of more than 53 bits. With zeros for
the digits behind them it lies halfway between two neighbours, the lower one of which has an even
significand, and those digits are not all zeros. -/
def Radix.CutAtTie (r : Radix) (n : ℕ) : Prop :=
  ∃ k, 2 ^ 53 ≤ n / r.base ^ k ∧ n / r.base ^ k < 2 ^ 53 * r.base ∧ n % r.base ^ k ≠ 0 ∧
    ∃ m m' : Magnitude, m.Neighbours m' ∧ (Double.signed false m).significand % 2 = 0 ∧
      m.toRat + m'.toRat = 2 * (n / r.base ^ k * r.base ^ k : ℕ)

theorem Radix.cutAtTie_iff {r : Radix} {n : ℕ} :
    r.CutAtTie n ↔ Magnitude.ofNat (r.kept n) ≠ Magnitude.ofNat n := by
  have hsplit (k : ℕ) := Nat.div_add_mod' n (r.base ^ k)
  have hbounds (k : ℕ) : 2 ^ 53 ≤ n / r.base ^ k ∧ n / r.base ^ k < 2 ^ 53 * r.base ↔
      2 ^ 53 * r.base ^ k ≤ n ∧ n < 2 ^ 53 * r.base ^ (k + 1) := by
    have hpos : 0 < r.base ^ k := Nat.pow_pos r.base_pos
    rw [Nat.le_div_iff_mul_le hpos, Nat.div_lt_iff_lt_mul hpos, mul_assoc, ← pow_succ']
  rw [ofNat_kept_ne_iff]
  constructor
  · rintro ⟨k, hlow, hhigh, hmod, m, m', hneighbours, heven, hsum⟩
    have hn : 2 ^ 53 ≤ n := hlow.trans (Nat.div_le_self _ _)
    obtain rfl := (surplusDigits_eq_iff hn k).2 ((hbounds k).1 ⟨hlow, hhigh⟩)
    have hrank := Magnitude.neighbours_iff.1 hneighbours
    have hle := m'.rank_le
    have hcut := hsplit (r.surplusDigits n)
    refine ⟨fun hkept => ?_, m.rank, by omega, ?_, ?_⟩
    · rw [kept] at hkept
      omega
    · rwa [← rankSignificand_mod_two]
    · rw [← hrank]
      exact Magnitude.toRat_add_toRat_iff.1 hsum
  · rintro ⟨hkept, ρ, htop, heven, heq⟩
    have hn := two_pow_le_of_kept_ne hkept
    obtain ⟨hlow, hhigh⟩ := (hbounds _).2 ((surplusDigits_eq_iff (r := r) hn _).1 rfl)
    have hcut := hsplit (r.surplusDigits n)
    refine ⟨r.surplusDigits n, hlow, hhigh, fun hmod => hkept ?_, ⟨ρ, htop.le⟩, ⟨ρ + 1, htop⟩,
      Magnitude.neighbours_iff.2 rfl, ?_, Magnitude.toRat_add_toRat_iff.2 heq⟩
    · rw [kept]
      omega
    · show rankSignificand ρ % 2 = 0
      rwa [rankSignificand_mod_two]

/-! ## Reading -/

namespace Numeral

/-- A radix literal between blanks, and the number that its digits denote. -/
def RadixText (s : String) (r : Radix) (n : ℕ) : Prop :=
  ∃ mark cs, IsTrimmed s.toList ('0' :: mark :: cs) ∧ mark ∈ r.marks ∧ cs ≠ [] ∧
    (∀ c ∈ cs, r.isDigit c = true) ∧ n = r.number cs

theorem RadixText.read_eq {s : String} {r : Radix} {n : ℕ} (h : RadixText s r n) :
    Double.read s = .signed false (.ofNat (r.kept n)) := by
  obtain ⟨mark, cs, htrimmed, hmark, hne, hdigits, rfl⟩ := h
  have hparse : parseTrimmed? ('0' :: mark :: cs) = some (radix r (cs.map Radix.digitOf)) := by
    simp only [parseTrimmed?, Radix.ofMark?_eq_some_iff.2 hmark, Radix.digits?,
      List.isEmpty_eq_false_iff.2 hne, Radix.mapM_digit? hdigits]
    rfl
  have hsmall : ∀ d ∈ cs.map Radix.digitOf, d < r.base := by
    rintro d hd
    obtain ⟨c, hc, rfl⟩ := List.mem_map.1 hd
    exact Radix.digitOf_lt (hdigits c hc)
  rw [Double.read, parse?_of_isTrimmed htrimmed, hparse]
  show Double.signed false (r.accumulate _) = _
  rw [Radix.accumulate_eq hsmall]
  rfl

end Numeral

namespace Double

open Numeral (RadixText DecimalText)

variable {s s' : String} {r : Radix} {n : ℕ}

theorem ofNat_kept_eq {m : Magnitude} (h : m.toRat = n) : Magnitude.ofNat (r.kept n) = m := by
  have hle := (m.toRat_le_natCast_iff n).1 h.le
  have hge := (m.natCast_le_toRat_iff n).1 h.ge
  apply Magnitude.eq_of_rank_eq
  exact (Radix.ofNat_kept_rank_le hge).antisymm (Radix.rank_le_ofNat_kept hle)

/-- **A radix literal reads faithfully.** Let a text be a radix literal between blanks that denotes
`n`, with any number of digits.

* It reads as a double that is not negative. If a finite double is equal to `n`, it reads as that
  value.
* A literal of the same radix and of any length that denotes no smaller number does not read as a
  smaller double.
* It reads as one of the two neighbours that enclose `n`, where infinity is the upper neighbour of
  the largest finite double.
* From `2 ^ 1024` on it reads as infinity. -/
theorem read_radix_faithful (h : RadixText s r n) :
    (∃ m, read s = signed false m) ∧
      (∀ x : Double, x.IsFinite → x.toRat = n → (read s).IsFinite ∧ (read s).toRat = n) ∧
      (∀ s' k, RadixText s' r k → n ≤ k → (read s).Le (read s')) ∧
      (∃ m m' : Magnitude, m.Neighbours m' ∧ m.toRat ≤ n ∧ (n < m'.toRat ∨ m' = .infinity) ∧
        (read s = signed false m ∨ read s = signed false m')) ∧
      (2 ^ 1024 ≤ n → read s = signed false .infinity) := by
  rw [h.read_eq]
  refine ⟨⟨_, rfl⟩, fun x hfinite hx => ?_, fun s' k h' hnk => ?_, ?_, fun hlarge => ?_⟩
  · cases x with
    | nan => exact hfinite.elim
    | signed negative m =>
      -- A negative zero is a zero, too.
      have hm : m.toRat = n := by
        cases negative with
        | false => exact hx
        | true =>
          have hneg : -m.toRat = n := hx
          have hnonneg := m.toRat_nonneg
          have hcast : (0 : ℚ) ≤ n := n.cast_nonneg
          linarith
      rw [ofNat_kept_eq hm]
      exact ⟨hfinite, hm⟩
  · rw [h'.read_eq]
    exact ⟨by simp, by simp, Magnitude.toRat_mono (Magnitude.ofNat_mono (Radix.kept_mono hnk))⟩
  · obtain ⟨m, m', hrank, hle, hlt⟩ := Magnitude.exists_enclosing (n * 2 ^ 1074)
    have hlower : m.rank ≤ (Magnitude.ofNat (r.kept n)).rank := Radix.rank_le_ofNat_kept hle
    have hupper : (Magnitude.ofNat (r.kept n)).rank ≤ m'.rank := by
      rcases hlt with hlt | rfl
      · exact Radix.ofNat_kept_rank_le hlt.le
      · exact Magnitude.rank_le _
    refine ⟨m, m', Magnitude.neighbours_iff.2 hrank, (m.toRat_le_natCast_iff n).2 hle,
      hlt.imp_left fun hlt => ?_, ?_⟩
    · rw [← not_le, Magnitude.toRat_le_natCast_iff]
      exact hlt.not_ge
    · rcases Nat.lt_or_ge m.rank (Magnitude.ofNat (r.kept n)).rank with hup | hdown
      · exact Or.inr (congrArg _ (Magnitude.eq_of_rank_eq (by omega)))
      · exact Or.inl (congrArg _ (Magnitude.eq_of_rank_eq (by omega)))
  · have hunits : Magnitude.infinity.units ≤ n * 2 ^ 1074 := by
      rw [Magnitude.units_infinity]
      exact Nat.mul_le_mul_right _ hlarge
    have hle := (Magnitude.ofNat (r.kept n)).rank_le
    exact congrArg _ (Magnitude.eq_of_rank_eq (hle.antisymm (Radix.rank_le_ofNat_kept hunits)))

/-- A hexadecimal literal of 58 bits between blanks, with zeros in front. -/
theorem read_radix_faithful_hexadecimal :
    RadixText "\t0X0020000000000001f " .hexadecimal (2 ^ 57 + 31) ∧
      ∃ m m' : Magnitude, m.Neighbours m' ∧ m.toRat ≤ (2 ^ 57 + 31 : ℕ) ∧
        ((2 ^ 57 + 31 : ℕ) < m'.toRat ∨ m' = .infinity) ∧
        (read "\t0X0020000000000001f " = signed false m ∨
          read "\t0X0020000000000001f " = signed false m') := by
  have htext : RadixText "\t0X0020000000000001f " .hexadecimal (2 ^ 57 + 31) :=
    ⟨'X', "0020000000000001f".toList, isTrimmed_iff.2 (by decide), by decide, by decide,
      List.all_eq_true.1 (by decide), by decide⟩
  exact ⟨htext, (read_radix_faithful htext).2.2.2.1⟩

/-! ## Radix literals and decimal literals -/

theorem read_decimal_eq (h : DecimalText s false n) : read s = signed false (.ofNat n) := by
  obtain ⟨d, hd, hread⟩ := exists_read_eq_round h
  have hnearest := d.round_nearest
  rw [hd] at hnearest
  rw [hread, hnearest.unique (Magnitude.ofNat_nearest n)]

/-- **A radix literal reads as another double than a decimal literal exactly if its number is cut at
a tie.** It never reads as the larger one of the two. -/
theorem read_radix_ne_decimal_iff (h : RadixText s r n) (h' : DecimalText s' false n) :
    (read s).Le (read s') ∧ (read s ≠ read s' ↔ r.CutAtTie n) := by
  rw [h.read_eq, read_decimal_eq h']
  refine ⟨⟨by simp, by simp, Magnitude.toRat_mono (Magnitude.ofNat_mono (r.kept_le n))⟩, ?_⟩
  rw [Radix.cutAtTie_iff, ne_eq, ne_eq, signed.injEq]
  simp

theorem radixText_tie : RadixText "0x200000000000011" .hexadecimal (2 ^ 57 + 17) :=
  ⟨'x', "200000000000011".toList, isTrimmed_iff.2 (by decide), by decide, by decide,
    List.all_eq_true.1 (by decide), by decide⟩

theorem decimalText_tie : DecimalText "144115188075855889" false (2 ^ 57 + 17 : ℕ) := by
  have hmantissa : Decimal.Mantissa "144115188075855889".toList _ := .whole (by decide)
  have hvalue : digitsValue "144115188075855889".toList = 2 ^ 57 + 17 := by decide
  have hliteral := Decimal.Literal.mk hmantissa .absent
  rw [hvalue, zpow_zero, mul_one] at hliteral
  exact ⟨[], _, isTrimmed_iff.2 (by decide), .absent, hliteral⟩

/-- Without its last digit the number lies halfway between `2 ^ 57` and `2 ^ 57 + 32`. -/
theorem read_radix_ne_decimal_tie :
    Radix.hexadecimal.CutAtTie (2 ^ 57 + 17) ∧
      read "0x200000000000011" ≠ read "144115188075855889" := by
  have hcut : Radix.hexadecimal.CutAtTie (2 ^ 57 + 17) :=
    ⟨1, by decide, by decide, by decide, .ofNat (2 ^ 57), .ofNat (2 ^ 57 + 32),
      Magnitude.neighbours_iff.2 (by decide +kernel), by decide +kernel,
      Magnitude.toRat_add_toRat_iff.2 (by decide +kernel)⟩
  exact ⟨hcut, (read_radix_ne_decimal_iff radixText_tie decimalText_tie).2.2 hcut⟩

/-- **The radix of a literal matters.** Two literals of the same number can read as different
doubles. -/
theorem exists_read_radix_ne_decimal :
    ¬ ∀ (s s' : String) (r : Radix) (n : ℕ),
      RadixText s r n → DecimalText s' false n → read s = read s' := by
  intro h
  exact absurd (h _ _ _ _ radixText_tie decimalText_tie) (by decide +kernel)

end Double

end RecordWalk
