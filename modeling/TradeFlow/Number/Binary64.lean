/-!
Double precision numbers with exact integer arithmetic.

A finite number is a sign and a magnitude code. Codes count the magnitudes upwards from zero, so
the order of the codes is the order of the magnitudes, and neighbouring magnitudes have
neighbouring codes. Every magnitude is a whole number of units of `2 ^ -1074`
(`Binary64.units`), which turns rounding, addition and comparison into arithmetic on `Nat`
and `Int`.

* `Binary64.nearestCode` rounds a ratio to the nearest magnitude; a ratio halfway between two of
  them goes to the even code.
* `Binary64.ofDecimal` reads a decimal with any exponent, `Binary64.ofInt` an integer.
* `Binary64.toInt?` recognises the whole numbers.
-/

namespace TradeFlow

/-- How many codes a binade has. -/
abbrev Binary64.binade : Nat := Nat.pow 2 52

/-- How many magnitudes are finite: those of 2047 binades. -/
abbrev Binary64.codes : Nat := 2047 * Binary64.binade

/-- A double precision number. A zero keeps its sign; all NaNs are one value. -/
inductive Binary64 where
  | nan
  | infinity (negative : Bool)
  | finite (negative : Bool) (code : Fin Binary64.codes)
  deriving DecidableEq, Repr

namespace Binary64

/-- The magnitude with the given code, in units of `2 ^ -1074`. -/
def units (code : Nat) : Nat :=
  if code < binade then code
  else (binade + code % binade) * Nat.pow 2 (code / binade - 1)

/-- The units in the number one. -/
def one : Nat := Nat.pow 2 1074

/-- The code of the largest magnitude that does not exceed `u` units. -/
def codeBelow (u : Nat) : Nat :=
  let shift := u.log2 - 52
  shift * binade + u / Nat.pow 2 shift

/-- The code of the magnitude nearest to `num / den` units; a tie goes to the even code. -/
def nearestCode (num den : Nat) : Nat :=
  let below := codeBelow (num / den)
  let middle := (units below + units (below + 1)) * den
  if 2 * num < middle then below
  else if middle < 2 * num then below + 1
  else if below % 2 = 0 then below else below + 1

/-- The number with a sign and a code; codes past the last finite one stand for infinity. -/
def ofCode (negative : Bool) (code : Nat) : Binary64 :=
  if h : code < codes then .finite negative ⟨code, h⟩ else .infinity negative

/-- The number nearest to `num / den` units with the given sign. -/
def ofUnits (negative : Bool) (num den : Nat) : Binary64 :=
  ofCode negative (nearestCode num den)

def zero : Binary64 := ofCode false 0

instance : Inhabited Binary64 := ⟨zero⟩

/-- The number nearest to `num / den`. -/
def ofRatio (negative : Bool) (num den : Nat) : Binary64 :=
  ofUnits negative (num * one) den

def ofNat (n : Nat) : Binary64 := ofRatio false n 1

def ofInt (i : Int) : Binary64 := ofRatio (decide (i < 0)) i.natAbs 1

instance (n : Nat) : OfNat Binary64 n := ⟨ofNat n⟩

/-- The number nearest to `digits * 10 ^ exponent`. Exponents that put the first digit far
outside the range give infinity or zero without computing the power. -/
def ofDecimal (negative : Bool) (digits : Nat) (exponent : Int) : Binary64 :=
  let first := exponent + (Nat.toDigits 10 digits).length
  if digits = 0 ∨ first < -330 then ofCode negative 0
  else if 310 < first then .infinity negative
  else if 0 ≤ exponent then ofRatio negative (digits * Nat.pow 10 exponent.toNat) 1
  else ofRatio negative digits (Nat.pow 10 exponent.natAbs)

def isNegative : Binary64 → Bool
  | .nan => false
  | .infinity negative => negative
  | .finite negative _ => negative

def isFinite : Binary64 → Bool
  | .finite _ _ => true
  | _ => false

def isZero : Binary64 → Bool
  | .finite _ code => code.val == 0
  | _ => false

/-- The signed number of units of a finite number. -/
def signedUnits (negative : Bool) (code : Nat) : Int :=
  if negative then -(units code : Int) else units code

/-- The integer a whole number stands for. -/
def toInt? : Binary64 → Option Int
  | .finite negative code =>
    if units code % one = 0 then
      let magnitude : Int := (units code / one : Nat)
      some (if negative then -magnitude else magnitude)
    else none
  | _ => none

/-- The integer part, dropping what follows the point. -/
def truncate? : Binary64 → Option Int
  | .finite negative code =>
    let magnitude : Int := (units code / one : Nat)
    some (if negative then -magnitude else magnitude)
  | _ => none

def neg : Binary64 → Binary64
  | .nan => .nan
  | .infinity negative => .infinity (!negative)
  | .finite negative code => .finite (!negative) code

instance : Neg Binary64 := ⟨neg⟩

/-- The sum, rounded once. A sum of zero is negative only when both parts are. -/
def add : Binary64 → Binary64 → Binary64
  | .nan, _ => .nan
  | _, .nan => .nan
  | .infinity a, .infinity b => if a = b then .infinity a else .nan
  | .infinity a, .finite _ _ => .infinity a
  | .finite _ _, .infinity b => .infinity b
  | .finite a x, .finite b y =>
    let sum := signedUnits a x + signedUnits b y
    if sum = 0 then ofCode (a && b) 0
    else ofUnits (decide (sum < 0)) sum.natAbs 1

instance : Add Binary64 := ⟨add⟩

instance : Sub Binary64 := ⟨fun a b => a + -b⟩

/-- Strictly less. Nothing is less than NaN, NaN is less than nothing, and the two zeros are
equal. -/
def lt : Binary64 → Binary64 → Bool
  | .nan, _ => false
  | _, .nan => false
  | .infinity a, .infinity b => a && !b
  | .infinity a, .finite _ _ => a
  | .finite _ _, .infinity b => !b
  | .finite a x, .finite b y => signedUnits a x < signedUnits b y

/-- Whether two numbers are equal. NaN is not equal to itself, and the two zeros are equal. -/
def equal (a b : Binary64) : Bool := a ≠ .nan && b ≠ .nan && !a.lt b && !b.lt a

/-- The smaller number. Minus infinity wins over NaN, NaN over every other number, and minus zero
is below zero. -/
def min (a b : Binary64) : Binary64 :=
  if a = .infinity true ∨ b = .infinity true then .infinity true
  else if a = .nan ∨ b = .nan then .nan
  else if a.isZero && b.isZero then (if a.isNegative then a else b)
  else if a.lt b then a else b

/-- The larger number. Infinity wins over NaN, NaN over every other number, and zero is above
minus zero. -/
def max (a b : Binary64) : Binary64 :=
  if a = .infinity false ∨ b = .infinity false then .infinity false
  else if a = .nan ∨ b = .nan then .nan
  else if a.isZero && b.isZero then (if a.isNegative then b else a)
  else if b.lt a then a else b

end Binary64

end TradeFlow
