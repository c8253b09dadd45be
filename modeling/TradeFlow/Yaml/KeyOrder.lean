import TradeFlow.Text.Letter
import TradeFlow.Value

/-!
The order of keys in written mappings.

Numbers come by value, then strings, then points in time. Strings come in the order in which a reader
looks for them: letters by their code, letters behind everything else, and digits by the number that
they form, so that `item2` stands before `item10`. Behind a digit that two strings share it is the
other way round, and the string that goes on with a letter stands first.
-/

namespace TradeFlow.Yaml

/-- A number of 64 bits with a sign, counted round at its ends. -/
def wrap64 (i : Int) : Int := Int.bmod i (Nat.pow 2 64)

/-- The number that the digits at the front of a text add to a number, and how many they are. -/
def leadingNumber (n : Int) : List Char → Int × Nat
  | [] => (n, 0)
  | c :: rest =>
    if isDecimal c then
      let (n, count) := leadingNumber (wrap64 (n * 10 + (c.toNat - 0x30 : Nat))) rest
      (n, count + 1)
    else (n, 0)

/-- Whether a text comes before another one. The first argument says whether they share a digit just
before, and the second one whether the digits they share there are more than zeros. -/
def textBefore (digits significant : Bool) : List Char → List Char → Bool
  | [], [] => false
  | [], _ :: _ => true
  | _ :: _, [] => false
  | a :: as, b :: bs =>
    if a = b then
      if isDecimal a then textBefore true ((digits && significant) || a != '0') as bs
      else textBefore false false as bs
    else if isLetter a && isLetter b then a < b
    else if isLetter a || isLetter b then (if digits then isLetter a else isLetter b)
    else
      let start : Int := if (a = '0' || b = '0') && significant then 1 else 0
      let (m, i) := leadingNumber start (a :: as)
      let (n, j) := leadingNumber start (b :: bs)
      if m ≠ n then m < n else if i ≠ j then i < j else a < b

/-- The place of a key among keys of other types. -/
def keyPlace : Value → Nat
  | .bool _ => 0
  | .int _ => 1
  | .int64 _ => 1
  | .uint64 _ => 2
  | .float _ => 3
  | .string _ => 5
  | .instant _ => 6
  | _ => 4

/-- The number that a key is compared by. -/
def keyNumber? : Value → Option Binary64
  | .bool b => some (if b then 1 else 0)
  | .int i => some (Binary64.ofInt i)
  | .int64 i => some (Binary64.ofInt i)
  | .uint64 n => some (Binary64.ofNat n)
  | .float x => some x
  | _ => none

/-- The exact value of a whole number. -/
def keyWhole? : Value → Option Int
  | .int i => some i
  | .int64 i => some i
  | .uint64 n => some n
  | _ => none

/-- Whether a key is written before another one. -/
def keyBefore (a b : Value) : Bool :=
  match keyNumber? a, keyNumber? b with
  | some x, some y =>
    if x.lt y then true
    else if y.lt x || x = .nan || y = .nan then false
    else if keyPlace a ≠ keyPlace b then keyPlace a < keyPlace b
    else
      match keyWhole? a, keyWhole? b with
      | some m, some n => m < n
      | _, _ => false
  | _, _ =>
    match a, b with
    | .string s, .string t => textBefore false false (shownText s).toList (shownText t).toList
    | _, _ => keyPlace a < keyPlace b

end TradeFlow.Yaml
