/-!
# Doubles

A double is NaN or a sign with a magnitude. The magnitudes are numbered in increasing order: the
*rank* of a magnitude is its exponent field followed by its fraction field, read as one number.
Rank `0` is zero, the ranks below `topRank` are the finite magnitudes, and `topRank` is infinity.

**Exact values.** Every finite magnitude is a natural multiple of `2 ^ -1074`, the least positive
one. `units` is that multiple, so comparing, adding and rounding magnitudes is arithmetic on
natural numbers. Infinity counts as `2 ^ 1024`, where the next binade would begin.

**Bits.** `ofBits` and `toBits` are the 64-bit interchange form. All NaN patterns are one value.
-/

namespace RecordWalk

/-- The rank of infinity. -/
def topRank : Nat := 0x7ff0000000000000

/-- The binade of a rank, counted from the subnormal one; a binade has `2 ^ 52` ranks. -/
def rankScale (rank : Nat) : Nat := rank / 0x10000000000000 - 1

/-- The integer significand of a rank: below `2 ^ 52` for subnormal ranks, else below `2 ^ 53`. -/
def rankSignificand (rank : Nat) : Nat := rank - rankScale rank * 0x10000000000000

/-- The magnitude of a rank as a multiple of `2 ^ -1074`. -/
def rankUnits (rank : Nat) : Nat := rankSignificand rank <<< rankScale rank

/-- A finite or infinite magnitude. -/
structure Magnitude where
  rank : Nat
  rank_le : rank ≤ topRank
deriving DecidableEq

namespace Magnitude

def zero : Magnitude := ⟨0, Nat.zero_le _⟩

def infinity : Magnitude := ⟨topRank, Nat.le_refl _⟩

/-- The magnitude as a multiple of `2 ^ -1074`. -/
def units (m : Magnitude) : Nat := rankUnits m.rank

end Magnitude

/-- A double; the sign of a zero counts, the payload of a NaN does not. -/
inductive Double where
  | nan
  | signed (negative : Bool) (magnitude : Magnitude)
deriving DecidableEq

namespace Double

def zero : Double := signed false .zero

def negate : Double → Double
  | nan => nan
  | signed s m => signed (!s) m

/-- Numeric equality: NaN differs from everything, and the two zeros are equal. -/
def eq : Double → Double → Bool
  | signed s m, signed t n => m.rank == n.rank && (s == t || m.rank == 0)
  | _, _ => false

/-- The double with the given bits. -/
def ofBits (bits : UInt64) : Double :=
  if h : bits.toNat % 0x8000000000000000 ≤ topRank then
    signed (0x8000000000000000 ≤ bits.toNat) ⟨bits.toNat % 0x8000000000000000, h⟩
  else nan

/-- The bits of a double; of a NaN, the quiet one without payload. -/
def toBits : Double → UInt64
  | nan => 0x7ff8000000000000
  | signed s m => UInt64.ofNat (m.rank + if s then 0x8000000000000000 else 0)

/-- The bits of a double determine it. -/
@[simp] theorem ofBits_toBits (x : Double) : ofBits x.toBits = x := by
  cases x with
  | nan => decide
  | signed s m =>
    have h := m.rank_le
    have ht : topRank < 0x8000000000000000 := by decide
    have hb : (toBits (signed s m)).toNat = m.rank + if s then 0x8000000000000000 else 0 := by
      simp only [toBits, UInt64.toNat_ofNat']
      exact Nat.mod_eq_of_lt (by split <;> omega)
    have hm : (toBits (signed s m)).toNat % 0x8000000000000000 = m.rank := by
      rw [hb]
      cases s
      · rw [if_neg Bool.false_ne_true]
        omega
      · rw [if_pos rfl]
        omega
    have hs : decide (0x8000000000000000 ≤ (toBits (signed s m)).toNat) = s := by
      rw [hb]
      cases s
      · exact decide_eq_false (by rw [if_neg Bool.false_ne_true]; omega)
      · exact decide_eq_true (by rw [if_pos rfl]; omega)
    rw [ofBits, dif_pos (hm ▸ h), hs]
    congr 2

end Double

end RecordWalk
