import RecordWalk.Decimal.Basic

/-!
# Writing decimals

A decimal is written with the digits of its coefficient, which say nothing about its size, and the
place of the point: `point` digits stand before it. `positional` fills up with zeros on either
side, `scientific` puts the point after the first digit and names the power of ten.
-/

namespace RecordWalk.Decimal

/-- The digits of the coefficient. -/
def digits (d : Decimal) : List Char := Nat.toDigits 10 d.coefficient

/-- The number of digits before the point; not positive for numbers below one. -/
def point (d : Decimal) : Int := d.digits.length + d.exponent

/-- Positional notation, with as many zeros as it takes. -/
def positional (d : Decimal) : List Char :=
  if d.point ≤ 0 then
    '0' :: '.' :: (List.replicate (-d.point).toNat '0' ++ d.digits)
  else if d.digits.length ≤ d.point then
    d.digits ++ List.replicate (d.point - d.digits.length).toNat '0'
  else
    d.digits.take d.point.toNat ++ '.' :: d.digits.drop d.point.toNat

/-- The power of ten of the first digit: `e`, its sign, and its numeral. -/
def powerMark (d : Decimal) : List Char :=
  'e' :: (if d.point ≤ 0 then '-' else '+') :: Nat.toDigits 10 (d.point - 1).natAbs

/-- Scientific notation: one digit, the others after a point, and the power of ten. -/
def scientific (d : Decimal) : List Char :=
  match d.digits with
  | [] => d.powerMark
  | [c] => c :: d.powerMark
  | c :: cs => c :: '.' :: (cs ++ d.powerMark)

end RecordWalk.Decimal
