import TradeFlow.Number.Shortest

/-!
How numbers are written.

All texts of a double start from its shortest digits. They differ in where positional notation
gives way to an exponent, in how the exponent is padded and in the words for the values that are
no numbers; a `NumberFormat` holds these choices.
-/

namespace TradeFlow

/-- The decimal digits of a natural number. -/
def natText (n : Nat) : List Char := Nat.toDigits 10 n

/-- The decimal digits of an integer after its sign. -/
def intText (i : Int) : String :=
  String.ofList (if i < 0 then '-' :: natText i.natAbs else natText i.natAbs)

/-- The choices of a notation for doubles. -/
structure NumberFormat where
  /-- Decimal exponents below this one are written as an exponent. -/
  least : Option Int
  /-- Decimal exponents from this one on are written as an exponent. -/
  limit : Option Int
  /-- The least number of digits of an exponent. -/
  exponentDigits : Nat
  /-- Whether minus zero keeps its sign. -/
  signedZero : Bool
  nan : String
  infinity : String
  negativeInfinity : String

namespace NumberFormat

/-- Numbers in messages: an exponent of at least two digits below `-4` and from `6` on. -/
def message : NumberFormat := ⟨some (-4), some 6, 2, true, "NaN", "+Inf", "-Inf"⟩

/-- Numbers in block documents: as in messages, with dotted words for the special values. -/
def block : NumberFormat := ⟨some (-4), some 6, 2, true, ".nan", ".inf", "-.inf"⟩

/-- Numbers in object notation: an exponent below `10 ^ -6` and from `10 ^ 21` on. -/
def object : NumberFormat := ⟨some (-6), some 21, 1, true, "NaN", "+Inf", "-Inf"⟩

/-- Numbers in a program: never an exponent, and one zero. -/
def program : NumberFormat := ⟨none, none, 1, false, "NaN", "Infinity", "-Infinity"⟩

/-- Coordinates in answers: never an exponent. -/
def plain : NumberFormat := ⟨none, none, 1, true, "NaN", "Infinity", "-Infinity"⟩

/-- Digits with the point after the first `whole` of them; `whole` may lie outside the digits. -/
def positional (digits : List Char) (whole : Int) : List Char :=
  let n := digits.length
  if whole ≤ 0 then '0' :: '.' :: (List.replicate whole.natAbs '0' ++ digits)
  else if n ≤ whole.toNat then digits ++ List.replicate (whole.toNat - n) '0'
  else digits.take whole.toNat ++ '.' :: digits.drop whole.toNat

/-- Digits with the point after the first, then the exponent with its sign. -/
def scientific (digits : List Char) (exponent : Int) (width : Nat) : List Char :=
  let tail := digits.drop 1
  let power := natText exponent.natAbs
  digits.take 1 ++ (if tail.isEmpty then [] else '.' :: tail)
    ++ 'e' :: (if exponent < 0 then '-' else '+')
    :: (List.replicate (width - power.length) '0' ++ power)

/-- The text of a magnitude. -/
def magnitude (format : NumberFormat) (code : Nat) : List Char :=
  let s := Binary64.shortest code
  let digits := natText s.digits
  let exponent := s.exponent + digits.length - 1
  let tooSmall := code ≠ 0 ∧ format.least.any (exponent < ·)
  let tooLarge := code ≠ 0 ∧ format.limit.any (· ≤ exponent)
  if tooSmall ∨ tooLarge then scientific digits exponent format.exponentDigits
  else positional digits (exponent + 1)

/-- The text of a double. -/
def text (format : NumberFormat) : Binary64 → String
  | .nan => format.nan
  | .infinity negative => if negative then format.negativeInfinity else format.infinity
  | .finite negative code =>
    let sign := negative && (format.signedZero || code.val != 0)
    String.ofList ((if sign then ['-'] else []) ++ format.magnitude code)

end NumberFormat

/-- A number literal of a program. -/
def Binary64.literal (x : Binary64) : String := NumberFormat.program.text x

end TradeFlow
