/-!
Texts that hold bytes of no character.

Binary data in a document is text whose bytes need not form characters. A byte that belongs to none
is kept as a character of a reserved range, and a character of that range that is meant itself has a
mark in front of it. So no two texts are confused, a text can be taken apart into its units again, and
it can be shown with the replacement character in place of such bytes.
-/

namespace TradeFlow

/-- The character that stands for what has no meaning. -/
def replacementChar : Char := Char.ofNat 0xfffd

namespace Stray

/-- The mark in front of a reserved character that is meant itself. -/
def mark : Char := Char.ofNat 0x10dc7f

/-- The character for a byte of no character. -/
def ofByte (b : Nat) : Char := Char.ofNat (0x10dc00 + b)

/-- The byte that a character stands for. -/
def byte? (c : Char) : Option Nat :=
  if 0x10dc80 ≤ c.toNat ∧ c.toNat ≤ 0x10dcff then some (c.toNat - 0x10dc00) else none

/-- The mark and the characters for bytes. -/
def isReserved (c : Char) : Bool := 0x10dc7f ≤ c.toNat && c.toNat ≤ 0x10dcff

/-- A character that is meant itself. -/
def keep (c : Char) : List Char := if isReserved c then [mark, c] else [c]

/-- A text whose characters are all meant themselves. -/
def protect (text : String) : String :=
  if text.toList.any isReserved then String.ofList (text.toList.flatMap keep) else text

end Stray

/-- What a text consists of. -/
inductive TextUnit where
  | char (c : Char)
  /-- A byte of no character. -/
  | byte (b : Nat)
  deriving DecidableEq, Repr

namespace TextUnit

/-- The bytes of a character. -/
def charBytes (c : Char) : List Nat :=
  let n := c.toNat
  let trail := fun shift => 0x80 + n / shift % 0x40
  if n < 0x80 then [n]
  else if n < 0x800 then [0xc0 + n / 0x40, trail 1]
  else if n < 0x10000 then [0xe0 + n / 0x1000, trail 0x40, trail 1]
  else [0xf0 + n / 0x40000, trail 0x1000, trail 0x40, trail 1]

/-- The bytes of a unit. -/
def bytes : TextUnit → List Nat
  | .char c => charBytes c
  | .byte b => [b]

/-- The character by which a unit is shown. -/
def shown : TextUnit → Char
  | .char c => c
  | .byte _ => replacementChar

/-- The units of a text. -/
def ofChars : List Char → List TextUnit
  | [] => []
  | [c] => [ofChar c]
  | c :: d :: rest => if c = Stray.mark then .char d :: ofChars rest else ofChar c :: ofChars (d :: rest)
where
  /-- The unit of a character without a mark. -/
  ofChar (c : Char) : TextUnit := ((Stray.byte? c).map byte).getD (.char c)

end TextUnit

/-- The units of a text. -/
def textUnits (text : String) : List TextUnit := TextUnit.ofChars text.toList

/-- The bytes of a text. -/
def textBytes (text : String) : List Nat := (textUnits text).flatMap TextUnit.bytes

/-- Whether every byte of a text belongs to a character. -/
def isCleanText (text : String) : Bool :=
  (textUnits text).all fun
    | .char _ => true
    | .byte _ => false

/-- How a text is shown: bytes of no character are replaced, and nothing is marked. -/
def shownText (text : String) : String :=
  if text.toList.any Stray.isReserved then String.ofList ((textUnits text).map TextUnit.shown)
  else text

/-- A text in which bytes of no character are replaced. -/
def repaired (text : String) : String :=
  if text.toList.any Stray.isReserved then Stray.protect (shownText text) else text

/-- The order of texts by their bytes. Characters are in the order of their bytes. -/
def charsPrecede : List Char → List Char → Bool
  | _, [] => false
  | [], _ :: _ => true
  | a :: as, b :: bs =>
    if Stray.isReserved a || Stray.isReserved b then
      (TextUnit.ofChars (a :: as)).flatMap TextUnit.bytes
        < (TextUnit.ofChars (b :: bs)).flatMap TextUnit.bytes
    else if a = b then charsPrecede as bs
    else a < b

/-- Whether a text comes before another one by its bytes. -/
def precedes (a b : String) : Bool := charsPrecede a.toList b.toList

end TradeFlow
