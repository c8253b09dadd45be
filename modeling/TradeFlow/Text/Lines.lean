/-!
Lines of a text and their indentation.

A text is the sequence of its lines, with a newline between neighbours; the empty text is one empty
line. `indent` puts spaces in front of every line that is not blank and leaves blank lines alone.
-/

namespace TradeFlow

/-- The white space of Unicode. -/
def isBlankChar (c : Char) : Bool :=
  let n := c.toNat
  (0x9 ≤ n && n ≤ 0xd) || n == 0x20 || n == 0x85 || n == 0xa0 || n == 0x1680
    || (0x2000 ≤ n && n ≤ 0x200a) || n == 0x2028 || n == 0x2029 || n == 0x202f || n == 0x205f
    || n == 0x3000

/-- Whether a text holds white space only. -/
def isBlank (text : List Char) : Bool := text.all isBlankChar

/-- The lines of a text, at least one. -/
def lines (text : List Char) : List (List Char) := text.splitOn '\n'

/-- The text with the given lines. -/
def unlines (ls : List (List Char)) : List Char := List.intercalate ['\n'] ls

/-- How many lines a text has. -/
def lineCount (text : String) : Nat := text.toList.count '\n' + 1

/-- Puts `width` spaces in front of a line unless it is blank. -/
def indentLine (width : Nat) (line : List Char) : List Char :=
  if isBlank line then line else List.replicate width ' ' ++ line

/-- Indents every line that is not blank. -/
def indentChars (width : Nat) (text : List Char) : List Char :=
  unlines ((lines text).map (indentLine width))

/-- Indents every line of a text that is not blank. -/
def indent (width : Nat) (text : String) : String :=
  String.ofList (indentChars width text.toList)

end TradeFlow
