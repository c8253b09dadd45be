/-!
Characters of YAML texts.

A line ends at a line feed, a carriage return, both in this order, a next-line character, or one of
the two separators of Unicode. In what a scalar stands for, a line feed takes the place of the first
four, while the separators stay what they are.
-/

namespace TradeFlow.Yaml

/-- A line or paragraph separator of Unicode. -/
def isSeparatorBreak (c : Char) : Bool := c.toNat == 0x2028 || c.toNat == 0x2029

/-- Ends a line. -/
def isBreak (c : Char) : Bool := c == '\n' || c == '\r' || c.toNat == 0x85 || isSeparatorBreak c

/-- What the end of a line stands for. -/
def breakChar (c : Char) : Char := if isSeparatorBreak c then c else '\n'

def isSpaceOrTab (c : Char) : Bool := c == ' ' || c == '\t'

/-- Stands between words. -/
def isSeparator (c : Char) : Bool := isSpaceOrTab c || isBreak c

/-- Whether a word ends in front of a text. -/
def endsWord : List Char → Bool
  | [] => true
  | c :: _ => isSeparator c

/-- A character of anchors, handles and directive names. -/
def isWordChar (c : Char) : Bool := c.isAlphanum || c == '_' || c == '-'

/-- The mark that may stand in front of a text. -/
def byteOrderMark : Char := Char.ofNat 0xfeff

def apostrophe : Char := Char.ofNat 0x27

/-- The characters that end a plain scalar inside a flow collection. -/
def flowIndicators : List Char := ",?[]\x7b\x7d".toList

/-- The characters that start something else than a plain scalar. -/
def indicators : List Char := "-?:,[]\x7b\x7d#&*!|>'\"%@`".toList

/-- Whether a text may hold a character at all. -/
def isAllowed (c : Char) : Bool :=
  let n := c.toNat
  n == 0x9 || n == 0xa || n == 0xd || (0x20 ≤ n && n ≤ 0x7e) || n == 0x85
    || (0xa0 ≤ n && n ≤ 0xfffd) || 0x10000 ≤ n

end TradeFlow.Yaml
