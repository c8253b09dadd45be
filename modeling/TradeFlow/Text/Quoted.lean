import TradeFlow.Text.Printable
import TradeFlow.Text.Stray

/-!
Quoted text in messages.

Names that come from outside are quoted in messages, so that white space and characters that cannot
be seen stand out. Printable characters are written as they are; the others get a short escape
where one exists and their number in hexadecimal otherwise, as do bytes of no character.
-/

namespace TradeFlow

/-- The last `width` hexadecimal digits of a number, filled with zeros. -/
def hexDigits (width n : Nat) : List Char :=
  let digits := Nat.toDigits 16 n
  List.replicate (width - digits.length) '0' ++ digits

/-- One character between the quotes. -/
def quotedChar (c : Char) : List Char :=
  if c = '"' then ['\\', '"']
  else if c = '\\' then ['\\', '\\']
  else if isPrintable c then [c]
  else if c.toNat = 7 then ['\\', 'a']
  else if c.toNat = 8 then ['\\', 'b']
  else if c.toNat = 12 then ['\\', 'f']
  else if c = '\n' then ['\\', 'n']
  else if c = '\r' then ['\\', 'r']
  else if c = '\t' then ['\\', 't']
  else if c.toNat = 11 then ['\\', 'v']
  else if c.toNat < 0x80 then '\\' :: 'x' :: hexDigits 2 c.toNat
  else if c.toNat < 0x10000 then '\\' :: 'u' :: hexDigits 4 c.toNat
  else '\\' :: 'U' :: hexDigits 8 c.toNat

/-- One unit between the quotes. Reserved characters are not printable, so none is left. -/
def quotedUnit : TextUnit → List Char
  | .char c => quotedChar c
  | .byte b => '\\' :: 'x' :: hexDigits 2 b

/-- A text in double quotes, as it appears in messages. -/
def quoted (text : String) : String :=
  String.ofList ('"' :: (textUnits text).flatMap quotedUnit ++ ['"'])

end TradeFlow
