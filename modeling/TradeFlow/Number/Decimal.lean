import TradeFlow.Number.Format

/-!
Decimal fractions with exact addition, and the factors that move a price by a percentage.

A `Decimal` is an integer divided by a power of ten. Percentages are divided by one hundred with
sixteen places, halves away from zero; adding the result to one is exact. Prices are scaled by the
factor written with four places, again halves away from zero.
-/

namespace TradeFlow

/-- The number `coefficient / 10 ^ places`. -/
structure Decimal where
  coefficient : Int
  places : Nat
  deriving DecidableEq, Repr

/-- The quotient rounded to the nearest integer, a half going away from zero. -/
def roundHalfAway (num : Int) (den : Nat) : Int :=
  let magnitude : Int := ((2 * num.natAbs + den) / (2 * den) : Nat)
  if num < 0 then -magnitude else magnitude

namespace Decimal

def ofInt (i : Int) : Decimal := ⟨i, 0⟩

/-- The decimal of a double's shortest text. -/
def ofBinary64? : Binary64 → Option Decimal
  | .finite negative code =>
    let s := Binary64.shortest code
    let signed : Int := if negative then -s.digits else s.digits
    if 0 ≤ s.exponent then some ⟨signed * (Nat.pow 10 s.exponent.toNat : Nat), 0⟩
    else some ⟨signed, s.exponent.natAbs⟩
  | _ => none

/-- The coefficient of the same number with more places. -/
def rescale (d : Decimal) (places : Nat) : Int :=
  d.coefficient * (Nat.pow 10 (places - d.places) : Nat)

def add (a b : Decimal) : Decimal :=
  let places := Nat.max a.places b.places
  ⟨a.rescale places + b.rescale places, places⟩

instance : Add Decimal := ⟨add⟩

instance : Neg Decimal := ⟨fun d => { d with coefficient := -d.coefficient }⟩

instance : Sub Decimal := ⟨fun a b => a + -b⟩

/-- The number rounded to the given places, a half going away from zero. -/
def round (d : Decimal) (places : Nat) : Decimal :=
  ⟨roundHalfAway (d.coefficient * (Nat.pow 10 places : Nat)) (Nat.pow 10 d.places), places⟩

/-- A hundredth of the number, rounded to sixteen places. -/
def percent (d : Decimal) : Decimal :=
  Decimal.round ⟨d.coefficient, d.places + 2⟩ 16

/-- The digits before and after the point, with at least one before it. -/
def digits (d : Decimal) : List Char × List Char :=
  let all := natText d.coefficient.natAbs
  let padded := List.replicate (d.places + 1 - all.length) '0' ++ all
  (padded.take (padded.length - d.places), padded.drop (padded.length - d.places))

/-- Sign, digits, and the point when digits follow it. -/
def render (d : Decimal) (fraction : List Char) : String :=
  String.ofList ((if d.coefficient < 0 then ['-'] else []) ++ d.digits.1
    ++ (if fraction.isEmpty then [] else '.' :: fraction))

/-- The text without zeros at the end of the fraction. -/
def text (d : Decimal) : String :=
  d.render (d.digits.2.reverse.dropWhile (· == '0')).reverse

/-- The text with exactly the given number of places. -/
def fixed (d : Decimal) (places : Nat) : String :=
  let rounded := d.round places
  rounded.render rounded.digits.2

end Decimal

/-- The side of the entry price on which a leg of an order lies. -/
inductive Side where
  | below
  | above
  deriving DecidableEq, Repr

/-- The factor that moves a price by a percentage to one side, unless it is not finite. -/
def percentFactor? (percentage : Binary64) (side : Side) : Option Decimal :=
  (Decimal.ofBinary64? percentage).map fun p =>
    match side with
    | .below => Decimal.ofInt 1 - p.percent
    | .above => Decimal.ofInt 1 + p.percent

end TradeFlow
