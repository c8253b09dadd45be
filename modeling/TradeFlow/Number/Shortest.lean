import TradeFlow.Number.Binary64

/-!
The shortest decimal that reads back as a given double.

The reals that round to a magnitude form an interval around it. `Binary64.shortest` looks at
the grids `10 ^ k` from coarse to fine and takes the first that has a point in the interval. A
number lies between two neighbours of a grid; when both are in the interval the nearer one is
taken, and of two equally near ones the even one.
-/

namespace TradeFlow

/-- The decimal `digits * 10 ^ exponent`. -/
structure Shortest where
  digits : Nat
  exponent : Int
  deriving DecidableEq, Repr

namespace Binary64

/-- The reals that round to one magnitude, measured in halves of `2 ^ -1074`. The ends belong
to the interval when the code is even. -/
structure Interval where
  value : Nat
  low : Nat
  high : Nat
  closed : Bool
  deriving Repr

/-- The interval of a magnitude code. -/
def interval (code : Nat) : Interval where
  value := 2 * units code
  low := units (code - 1) + units code
  high := units code + units (code + 1)
  closed := code % 2 == 0

/-- Whether a point, given in the measure of the interval, lies in it. -/
def Interval.contains (i : Interval) (point : Nat) : Bool :=
  if i.closed then decide (i.low ≤ point) && decide (point ≤ i.high)
  else decide (i.low < point) && decide (point < i.high)

/-- The interval in a measure that is finer by the given factor. -/
def Interval.scale (i : Interval) (factor : Nat) : Interval :=
  { i with value := i.value * factor, low := i.low * factor, high := i.high * factor }

/-- The multiple of `step` in the interval that is nearest to the value, if one of the value's
two neighbours is in the interval. -/
def Interval.nearest? (i : Interval) (step : Nat) : Option Nat :=
  let below := i.value / step
  let above := below + 1
  match i.contains (below * step), i.contains (above * step) with
  | true, true =>
    let middle := (below + above) * step
    if 2 * i.value < middle then some below
    else if middle < 2 * i.value then some above
    else some (if below % 2 = 0 then below else above)
  | true, false => some below
  | false, true => some above
  | false, false => none

/-- The nearest point of the grid `10 ^ k` in the interval. -/
def Interval.onGrid? (i : Interval) (k : Int) : Option Nat :=
  if 0 ≤ k then i.nearest? (Nat.pow 10 k.toNat * (2 * one))
  else (i.scale (Nat.pow 10 k.natAbs)).nearest? (2 * one)

/-- The first hit on the grids `10 ^ k`, `10 ^ (k - 1)`, and so on. Every magnitude is itself on
the grid `10 ^ -1074`, which ends the search. -/
def Interval.search (i : Interval) : Nat → Int → Shortest
  | 0, k => ⟨i.value * Nat.pow 10 k.natAbs / (2 * one), k⟩
  | steps + 1, k =>
    match i.onGrid? k with
    | some digits => ⟨digits, k⟩
    | none => i.search steps (k - 1)

/-- A grid that is coarser than the magnitude with the given number of units. -/
def coarsest (u : Nat) : Nat := (Nat.toDigits 10 (u / one)).length

/-- The shortest decimal that reads back as the magnitude with the given code. -/
def shortest (code : Nat) : Shortest :=
  if code = 0 then ⟨0, 0⟩
  else
    let top := coarsest (units code)
    (interval code).search (top + 1074) top

end Binary64

end TradeFlow
