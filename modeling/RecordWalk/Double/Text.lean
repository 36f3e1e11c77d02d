import RecordWalk.Decimal.Shortest
import RecordWalk.Decimal.Layout

/-!
# The text of doubles

Both texts of a double use its shortest decimal. The *display* text is positional from `1e-6` up
to `1e21` and scientific beyond; it writes both zeros `0`. The *debug* text is always positional,
keeps the sign of a zero, and abbreviates infinity.
-/

namespace RecordWalk.Double

/-- Positional notation is used while at most 21 digits stand before the point, and at most five
zeros follow it. -/
def positionalRange (point : Int) : Bool := -6 < point && point ≤ 21

def signText (negative : Bool) : List Char := if negative then ['-'] else []

/-- The display text of a positive finite magnitude. -/
def displayMagnitude (m : Magnitude) : List Char :=
  let d := m.shortest
  if positionalRange d.point then d.positional else d.scientific

/-- The display text. -/
def display : Double → String
  | nan => "NaN"
  | signed s m =>
    if m = .zero then "0"
    else if m = .infinity then String.ofList (signText s ++ "Infinity".toList)
    else String.ofList (signText s ++ displayMagnitude m)

/-- The debug text. -/
def debug : Double → String
  | nan => "NaN"
  | signed s m =>
    if m = .zero then String.ofList (signText s ++ ['0'])
    else if m = .infinity then String.ofList (signText s ++ "inf".toList)
    else String.ofList (signText s ++ m.shortest.positional)

end RecordWalk.Double
