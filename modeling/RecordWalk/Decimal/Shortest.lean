import RecordWalk.Decimal.Basic

/-!
# Shortest decimals

`Magnitude.shortest` is the decimal with the fewest digits that rounds to a positive finite
magnitude, and of those with that many digits the nearest one.

**Basins.** The numbers that round to a magnitude form an interval, its *basin*: it reaches
halfway to the two neighbouring magnitudes, and its ends belong to it when the significand is
even.

**Grids.** The multiples of a power of ten form a grid. A decimal with few digits lies on a coarse
grid, so the search goes from the coarsest grid to the finest and stops at the first that has a
point in the basin. If any point of a grid lies in the basin, so does one of the two that enclose
the magnitude. Two points at the same distance settle for the upper one.

All lengths are natural numbers in units of `2 ^ -1075 * 10 ^ -324`: the ends of basins and the
points of all grids from `10 ^ -324` up are multiples of it. The finest grid has a point in every
basin, because it is finer than the distance of neighbouring magnitudes.
-/

namespace RecordWalk

/-- The interval from `lo` to `hi`, with its ends or without. -/
structure Interval where
  lo : Nat
  hi : Nat
  closed : Bool

def Interval.contains (i : Interval) (x : Nat) : Bool :=
  if i.closed then i.lo ≤ x && x ≤ i.hi else i.lo < x && x < i.hi

/-- The finest grid is `10 ^ -gridFloor`. -/
def gridFloor : Nat := 324

/-- The coarsest grid worth a try is `10 ^ (gridCount - gridFloor)`. -/
def gridCount : Nat := 632

/-- The distance of two points of grid `j`. -/
def gridStep (j : Nat) : Nat := Nat.pow 10 j <<< 1075

/-- The point of a grid in the interval that is nearest to `x`, as a multiple of the step; the
upper one of two equally near. -/
def gridPoint? (i : Interval) (x step : Nat) : Option Nat :=
  let below := x / step
  match i.contains (below * step), i.contains ((below + 1) * step) with
  | true, true => if 2 * (x % step) < step then some below else some (below + 1)
  | true, false => some below
  | false, true => some (below + 1)
  | false, false => none

/-- The point of the coarsest grid up to `j` that has one in the interval, with its grid. -/
def coarsestPoint (i : Interval) (x : Nat) : Nat → Nat × Nat
  | 0 => ((gridPoint? i x (gridStep 0)).getD 0, 0)
  | j + 1 =>
    match gridPoint? i x (gridStep (j + 1)) with
    | some c => (c, j + 1)
    | none => coarsestPoint i x j

namespace Magnitude

/-- The magnitude in grid units. -/
def gridUnits (m : Magnitude) : Nat := 2 * m.units * Nat.pow 10 gridFloor

/-- The numbers that round to a positive finite magnitude, in grid units. -/
def basin (m : Magnitude) : Interval where
  lo := (rankUnits (m.rank - 1) + m.units) * Nat.pow 10 gridFloor
  hi := (m.units + rankUnits (m.rank + 1)) * Nat.pow 10 gridFloor
  closed := m.rank % 2 == 0

/-- The shortest decimal that rounds to a positive finite magnitude. -/
def shortest (m : Magnitude) : Decimal :=
  let (c, j) := coarsestPoint m.basin m.gridUnits gridCount
  ⟨c, j - gridFloor⟩

end Magnitude

end RecordWalk
