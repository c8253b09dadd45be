import TradeFlow.Text.Quoted

/-!
String literals of generated programs and of object notation.

A literal stands between double quotes. The quote, the backslash, the control characters and the
two line separators of Unicode are escaped, so a literal never holds a line break and ends at
its first quote that no backslash precedes. `Literal.read?` takes a literal from the front of a
text and is the other direction of `Literal.write`.
-/

namespace TradeFlow.Literal

/-- One character of a literal. -/
def escape (c : Char) : List Char :=
  if c = '"' then ['\\', '"']
  else if c = '\\' then ['\\', '\\']
  else if c.toNat = 8 then ['\\', 'b']
  else if c.toNat = 12 then ['\\', 'f']
  else if c = '\n' then ['\\', 'n']
  else if c = '\r' then ['\\', 'r']
  else if c = '\t' then ['\\', 't']
  else if c.toNat < 0x20 || c.toNat == 0x2028 || c.toNat == 0x2029 then
    '\\' :: 'u' :: hexDigits 4 c.toNat
  else [c]

/-- The literal of a text whose characters are escaped one by one. -/
def writeWith (escapeChar : Char → List Char) (text : List Char) : List Char :=
  '"' :: text.flatMap escapeChar ++ ['"']

def write (text : List Char) : List Char := writeWith escape text

/-- The literal of a text. -/
def ofString (text : String) : String := String.ofList (write text.toList)

/-- The array literal of a list of texts. -/
def ofStrings (texts : List String) : String :=
  "[" ++ ",".intercalate (texts.map ofString) ++ "]"

/-! ## Reading -/

def hexValue? (c : Char) : Option Nat :=
  if '0' ≤ c ∧ c ≤ '9' then some (c.toNat - 0x30)
  else if 'a' ≤ c ∧ c ≤ 'f' then some (c.toNat - 0x57)
  else if 'A' ≤ c ∧ c ≤ 'F' then some (c.toNat - 0x37)
  else none

/-- The number written with four hexadecimal digits. -/
def hexUnit? (a b c d : Char) : Option Nat := do
  let a ← hexValue? a
  let b ← hexValue? b
  let c ← hexValue? c
  let d ← hexValue? d
  return ((a * 16 + b) * 16 + c) * 16 + d

def isHighSurrogate (unit : Nat) : Bool := 0xd800 ≤ unit && unit < 0xdc00

def isLowSurrogate (unit : Nat) : Bool := 0xdc00 ≤ unit && unit < 0xe000

/-- The character of a single unit; a surrogate without its partner is replaced. -/
def unitChar (unit : Nat) : Char :=
  if isHighSurrogate unit || isLowSurrogate unit then replacementChar else Char.ofNat unit

/-- The character of a surrogate pair. -/
def pairChar (high low : Nat) : Char :=
  Char.ofNat (0x10000 + (high - 0xd800) * 0x400 + (low - 0xdc00))

/-- The character of an escape with a single letter. -/
def shortEscape? (c : Char) : Option Char :=
  match c with
  | '"' => some '"'
  | '\\' => some '\\'
  | '/' => some '/'
  | 'b' => some (Char.ofNat 8)
  | 'f' => some (Char.ofNat 12)
  | 'n' => some '\n'
  | 'r' => some '\r'
  | 't' => some '\t'
  | _ => none

/-- The low surrogate that an escape at the front of `rest` adds to a high one. -/
def partner? (unit : Nat) (rest : List Char) : Option Nat :=
  match rest with
  | '\\' :: 'u' :: a :: b :: c :: d :: _ =>
    if isHighSurrogate unit then (hexUnit? a b c d).filter isLowSurrogate else none
  | _ => none

/-- Reads the inside of a literal up to its closing quote and gives the text and what follows the
quote. Control characters, unknown escapes and a missing quote are refused. -/
def readInside? : List Char → Option (List Char × List Char)
  | [] => none
  | '"' :: rest => some ([], rest)
  | '\\' :: 'u' :: a :: b :: c :: d :: rest =>
    match hexUnit? a b c d with
    | none => none
    | some unit =>
      match partner? unit rest with
      | some low =>
        (readInside? (rest.drop 6)).map fun (text, after) =>
          (Stray.keep (pairChar unit low) ++ text, after)
      | none => (readInside? rest).map fun (text, after) => (unitChar unit :: text, after)
  | '\\' :: c :: rest =>
    match shortEscape? c with
    | none => none
    | some c => (readInside? rest).map fun (text, after) => (c :: text, after)
  | c :: rest =>
    if c.toNat < 0x20 || c = '\\' then none
    else (readInside? rest).map fun (text, after) => (c :: text, after)
termination_by text => text.length
decreasing_by all_goals simp_wf <;> omega

/-- Reads a literal from the front of a text and gives its value and what follows it. -/
def read? : List Char → Option (List Char × List Char)
  | '"' :: rest => readInside? rest
  | _ => none

end TradeFlow.Literal
