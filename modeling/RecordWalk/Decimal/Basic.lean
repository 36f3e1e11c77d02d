import RecordWalk.Double.Round

/-!
# Decimals

A decimal is `coefficient * 10 ^ exponent`, with a natural coefficient and an integer exponent.
`Decimal.round` is the nearest magnitude of a double.

Exponents may be astronomically large. A power of ten is at least as large as the power of eight
with the same exponent, so the bit length of the coefficient tells early that a decimal lies
beyond the largest finite double or below half the least positive one.
-/

namespace RecordWalk

/-- The number `coefficient * 10 ^ exponent`. -/
structure Decimal where
  coefficient : Nat
  exponent : Int
deriving DecidableEq

namespace Decimal

/-- The magnitude nearest to a decimal. -/
def round (d : Decimal) : Magnitude :=
  if d.coefficient = 0 then .zero
  else match d.exponent with
    | .ofNat e =>
      if 1024 ≤ d.coefficient.log2 + 3 * e then .infinity
      else .round ((d.coefficient * Nat.pow 10 e) <<< 1074) 1
    | .negSucc e =>
      if d.coefficient.log2 + 1076 ≤ 3 * (e + 1) then .zero
      else .round (d.coefficient <<< 1074) (Nat.pow 10 (e + 1))

end Decimal

end RecordWalk
