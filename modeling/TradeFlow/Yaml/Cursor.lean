import TradeFlow.Yaml.Char

/-!
A place in a text that is loaded piece by piece.

A text is loaded in pieces of 512 bytes, and only when a reader asks for characters that are not
there yet. A character that no text may hold spoils its piece, and the text is refused as soon as the
piece is asked for. Behind the end of the text a reader may ask for as many characters as it likes.
-/

namespace TradeFlow.Yaml

/-- What loading a piece brings: a number of characters, behind which the piece may be spoilt. -/
structure Load where
  count : Nat
  spoilt : Bool := false
  deriving DecidableEq, Repr

/-- How many bytes a piece has. -/
def pieceSize : Nat := 512

/-- The pieces of a text, of which the first one has room for some more bytes behind a number of
characters. -/
def loadsFrom (room count : Nat) : List Char → List Load
  | [] => if count = 0 then [] else [{ count }]
  | c :: rest =>
    let next := fun (room count : Nat) =>
      if isAllowed c then loadsFrom (room - c.utf8Size) (count + 1) rest
      else [{ count, spoilt := true }]
    if c.utf8Size ≤ room then next room count else { count } :: next pieceSize 0

/-- A place in a text. -/
structure Cursor where
  /-- What follows the place. -/
  rest : List Char
  /-- How many characters the whole text has, which bounds every loop over what follows. -/
  size : Nat := rest.length
  /-- How many characters of it are loaded; those behind the end of the text count as well. -/
  ready : Nat := 0
  /-- The pieces that are not loaded yet. -/
  loads : List Load
  /-- Whether a byte order mark stands where the last piece was asked for. -/
  marked : Bool := false
  index : Nat := 0
  line : Nat := 0
  column : Nat := 0
  /-- Whether a line has ended behind the last character that is not blank. -/
  fresh : Bool := false

namespace Cursor

/-- The start of a text. A byte order mark at its front does not belong to it. -/
def ofText (text : String) : Cursor :=
  match text.toList with
  | [] => { rest := [], loads := [] }
  | c :: rest =>
    if c == byteOrderMark then { rest, loads := loadsFrom (pieceSize - c.utf8Size) 0 rest }
    else { rest := c :: rest, loads := loadsFrom pieceSize 0 (c :: rest) }

/-- Loads pieces until a number of characters is there, unless one of them is spoilt. Behind the last
piece, one character is always granted. -/
def fill (n ready : Nat) : List Load → Option (Nat × List Load)
  | [] => some (ready + 1, [])
  | piece :: more =>
    let ready := ready + piece.count
    if piece.spoilt then none
    else if n ≤ ready then some (ready, more)
    else fill n ready more

/-- Asks for a number of characters. -/
def need (c : Cursor) (n : Nat) : Option Cursor :=
  if n ≤ c.ready then some c
  else
    (fill n c.ready c.loads).map fun (ready, loads) =>
      { c with ready, loads, marked := c.rest.head? == some byteOrderMark }

/-- Passes one character. -/
def pass (c : Cursor) : Cursor :=
  { c with
    rest := c.rest.tail
    ready := c.ready - 1
    index := c.index + 1
    column := c.column + 1
    fresh := c.fresh && c.rest.head?.any isSpaceOrTab }

/-- Passes a number of characters. -/
def passMany : Nat → Cursor → Cursor
  | 0, c => c
  | n + 1, c => passMany n c.pass

/-- Passes the end of a line, which may be two characters. -/
def passBreak (c : Cursor) : Cursor :=
  let width := if c.rest.take 2 = ['\r', '\n'] then 2 else 1
  { c with
    rest := c.rest.drop width
    ready := c.ready - width
    index := c.index + width
    line := c.line + 1
    column := 0
    fresh := true }

/-- Whether the next character has a property. -/
def isAt (c : Cursor) (p : Char → Bool) : Bool := c.rest.head?.any p

/-- Whether a line or the text ends here. -/
def endsLine (c : Cursor) : Bool := c.rest.isEmpty || c.isAt isBreak

/-- Passes the characters with a property and gives them, one by one as they are loaded. The text is
the one at the place. -/
def takeFrom (p : Char → Bool) : List Char → Cursor → Option (List Char × Cursor)
  | [], c => some ([], c)
  | char :: rest, c =>
    if p char then
      (c.pass.need 1).bind fun c =>
        (takeFrom p rest c).map fun (chars, c) => (char :: chars, c)
    else some ([], c)

/-- Passes the characters with a property and gives them. -/
def take? (c : Cursor) (p : Char → Bool) : Option (List Char × Cursor) :=
  (c.need 1).bind fun c => takeFrom p c.rest c

/-- Passes the characters with a property. -/
def skip? (c : Cursor) (p : Char → Bool) : Option Cursor := (c.take? p).map (·.2)

/-- Passes the end of a line if there is one. -/
def skipBreak? (c : Cursor) : Option Cursor :=
  if c.isAt isBreak then (c.need 2).map passBreak else some c

/-! ## Comments -/

/-- How many bytes a reader looks ahead for a comment. -/
def commentReach : Nat := 512

/-- Looks ahead for a comment behind nothing but white space, and says how far away it is. Line ends
count as white space between comments if they are a single byte. The text is the one at the given
distance. -/
def findComment? (overLines : Bool) (distance : Nat) :
    List Char → Cursor → Option (Option Nat × Cursor)
  | text, c =>
    if commentReach ≤ distance then some (none, c)
    else
      (c.need (distance + 1)).bind fun c =>
        match text with
        | [] => some (none, c)
        | char :: rest =>
          if isSpaceOrTab char || (overLines && (char == '\n' || char == '\r')) then
            findComment? overLines (distance + 1) rest c
          else if char == '#' then some (some distance, c)
          else if overLines && isBreak char && distance + 1 < commentReach then
            (c.need (distance + 2)).map fun c => (none, c)
          else some (none, c)

/-- Passes white space up to an index and everything behind it up to the end of the line. The first
argument bounds the number of characters. -/
def passComment (start : Nat) : Nat → Cursor → Option Cursor
  | 0, c => some c
  | fuel + 1, c =>
    (c.need 1).bind fun c =>
      if c.endsLine then
        if start ≤ c.index then some c
        else (c.need 2).bind fun c => passComment start fuel c.passBreak
      else passComment start fuel c.pass

/-- Whether the next character is a single byte. -/
def isAtByte (c : Cursor) : Bool := !c.isAt fun char => 1 < char.utf8Size

/-- Passes a comment and the comments that follow it. A comment at the place is found at distance
zero; another one is looked for behind the line end at the place, if that is a single byte. The first
argument bounds their number. -/
def passComments (distance : Nat) : Nat → Cursor → Option Cursor
  | 0, c => some c
  | fuel + 1, c => do
    if !c.isAtByte then c.need (distance + 1)
    else
      match ← findComment? true distance (c.rest.drop distance) c with
      | (none, c) => return c
      | (some found, c) => passComments 1 fuel (← passComment (c.index + found) (c.size + 1) c)

/-- Passes comments that start here. -/
def skipComments? (c : Cursor) : Option Cursor :=
  if c.isAt (· == '#') then passComments 0 (c.size + 1) c else some c

/-- Passes a comment behind something on the same line. -/
def skipLineComment? (c : Cursor) : Option Cursor := do
  if c.fresh then return c
  else
    match ← findComment? false 0 c.rest c with
    | (none, c) => return c
    | (some found, c) => passComment (c.index + found) (c.size + 1) c

end Cursor

end TradeFlow.Yaml
