import RecordWalk.Double.Basic

/-!
# Rounding to a double

`Magnitude.round n d` is the magnitude nearest to `n / d` units, where a unit is `2 ^ -1074`; of
two equally near ones it is the one with the even significand. Everything that makes doubles goes
through it: decimal literals, integers, and the digits of a radix literal.

The quotient is cut to 53 bits: `s` is the number of surplus bits, and the rounded significand is
added to `s` binades. A carry out of the significand is then the next rank by itself, and whatever
reaches `topRank` is infinite.
-/

namespace RecordWalk

/-- The natural number nearest to `n / d`; a half goes to the even neighbour. -/
def roundHalfEven (n d : Nat) : Nat :=
  let q := n / d
  let r := n % d
  if 2 * r < d then q
  else if d < 2 * r then q + 1
  else q + q % 2

/-- A multiple of the divisor is not changed. -/
theorem roundHalfEven_mul_self (q : Nat) {d : Nat} (h : 0 < d) : roundHalfEven (q * d) d = q := by
  simp [roundHalfEven, Nat.mul_div_cancel q h, h]

/-- The rounded quotient is one of the two that enclose the exact one. -/
theorem div_le_roundHalfEven (n d : Nat) : n / d ≤ roundHalfEven n d := by
  simp only [roundHalfEven]
  split
  · omega
  · split <;> omega

theorem roundHalfEven_le (n d : Nat) : roundHalfEven n d ≤ n / d + 1 := by
  simp only [roundHalfEven]
  split
  · omega
  · split <;> omega

/-- The number of bits of `n / d` beyond 53. -/
def surplusBits (n d : Nat) : Nat := (n / d).log2 - 52

/-- The rank nearest to `n / d` units, without an upper bound. -/
def nearestRank (n d : Nat) : Nat :=
  let s := surplusBits n d
  s * 0x10000000000000 + roundHalfEven n (d <<< s)

namespace Magnitude

/-- The magnitude nearest to `n / d` units. -/
def round (n d : Nat) : Magnitude := ⟨min (nearestRank n d) topRank, Nat.min_le_right _ _⟩

/-- The magnitude nearest to a natural number. -/
def ofNat (n : Nat) : Magnitude := round (n <<< 1074) 1

/-- The product with a natural number, rounded. -/
def scale (m : Magnitude) (k : Nat) : Magnitude := round (m.units * k) 1

/-- The sum with a natural number, rounded. -/
def add (m : Magnitude) (k : Nat) : Magnitude := round (m.units + k <<< 1074) 1

end Magnitude

/-- The double nearest to an integer. -/
def Double.ofInt (i : Int) : Double := signed (i < 0) (.ofNat i.natAbs)

end RecordWalk
