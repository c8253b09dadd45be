import TradeFlow.Yaml.Token.Lexeme

/-!
The texts of anchors, tags and directives.

Each function reads at a place and gives what it read and the place behind it.
-/

namespace TradeFlow.Yaml

/-! ## Anchors -/

/-- Whether an anchor may end in front of a text. -/
def endsAnchor (text : List Char) : Bool :=
  endsWord text || text.head?.any ("?:,]\x7d%@`".toList.contains ·)

/-- The name of an anchor or an alias, behind its first character. -/
def anchorName? (c : Cursor) : Option (List Char × Cursor) := do
  let (name, c) ← c.pass.take? isWordChar
  if name.isEmpty || !endsAnchor c.rest then none else some (name, c)

/-! ## Tags -/

/-- A character that may stand in a tag as it is. -/
def isTagChar (c : Char) : Bool := isWordChar c || ";/?:@&=+$.,!~*'()[]".toList.contains c

/-- How many bytes a character has by its first byte. -/
def leadWidth? (b : Nat) : Option Nat :=
  if b < 0x80 then some 1
  else if b < 0xc0 then none
  else if b < 0xe0 then some 2
  else if b < 0xf0 then some 3
  else if b < 0xf8 then some 4
  else none

/-- A byte in hexadecimal digits behind a percent sign. -/
def escapedByte? (c : Cursor) : Option (Nat × Cursor) := do
  let c ← c.need 3
  match c.rest with
  | '%' :: a :: b :: _ => return ((← Literal.hexValue? a) * 16 + (← Literal.hexValue? b), c.passMany 3)
  | _ => none

/-- The given number of bytes that continue a character. -/
def escapedTail? : Nat → Cursor → Option (List Nat × Cursor)
  | 0, c => some ([], c)
  | n + 1, c => do
    let (b, c) ← escapedByte? c
    guard (Utf8.isTrail b)
    let (bytes, c) ← escapedTail? n c
    return (b :: bytes, c)

/-- The bytes of an escaped character. -/
def escapedChar? (c : Cursor) : Option (List Nat × Cursor) := do
  let (b, c) ← escapedByte? c
  let (bytes, c) ← escapedTail? ((← leadWidth? b) - 1) c
  return (b :: bytes, c)

/-- The characters of a tag. The first argument bounds their number. -/
def tagBytes? : Nat → Cursor → Option (List Nat × Cursor)
  | 0, c => some ([], c)
  | fuel + 1, c => do
    match c.rest.head? with
    | none => return ([], c)
    | some char =>
      if char == '%' then
        let (bytes, c) ← escapedChar? c
        let (more, c) ← tagBytes? fuel (← c.need 1)
        return (bytes ++ more, c)
      else if isTagChar char then
        let (more, c) ← tagBytes? fuel (← c.pass.need 1)
        return (char.toNat :: more, c)
      else return ([], c)

/-- The text of a tag, which may be empty only behind a name. -/
def tagUri? (mayBeEmpty : Bool) (c : Cursor) : Option (List Char × Cursor) := do
  let c ← c.need 1
  let (bytes, c) ← tagBytes? (c.size + 1) c
  if bytes.isEmpty && !mayBeEmpty then none else some (Utf8.decode bytes, c)

/-- A handle behind its exclamation mark, and whether another mark closes it. -/
def handleName? (c : Cursor) : Option (List Char × Bool × Cursor) := do
  let (name, c) ← c.pass.take? isWordChar
  if c.isAt (· == '!') then return (name, true, c.pass) else return (name, false, c)

/-- A tag with its exclamation mark: its handle, its suffix and the place behind it. -/
def tag? (c : Cursor) : Option (List Char × List Char × Cursor) := do
  let c ← c.need 2
  let (handle, suffix, c) ←
    if c.rest[1]? = some '<' then do
      let (uri, c) ← tagUri? false (c.passMany 2)
      guard (c.isAt (· == '>'))
      pure ([], uri, c.pass)
    else do
      let (name, closed, c) ← handleName? c
      if closed then
        let (suffix, c) ← tagUri? false c
        pure ('!' :: name ++ ['!'], suffix, c)
      else
        let (suffix, c) ← tagUri? true c
        if (name ++ suffix).isEmpty then pure ([], ['!'], c) else pure (['!'], name ++ suffix, c)
  let c ← c.need 1
  if endsWord c.rest then some (handle, suffix, c) else none

/-! ## Directives -/

/-- A number of one or two digits. -/
def versionNumber? (c : Cursor) : Option (Nat × Cursor) := do
  let (digits, c) ← c.take? Char.isDigit
  guard (!digits.isEmpty && digits.length ≤ 2)
  return (digits.foldl (fun n c => n * 10 + (c.toNat - 0x30)) 0, c)

/-- The value of a version directive. -/
def versionDirective? (c : Cursor) : Option (Token × Cursor) := do
  let (major, c) ← versionNumber? (← c.skip? isSpaceOrTab)
  guard (c.isAt (· == '.'))
  let (minor, c) ← versionNumber? c.pass
  return (.version major minor, c)

/-- The value of a directive that introduces a handle. -/
def handleDirective? (c : Cursor) : Option (Token × Cursor) := do
  let c ← c.skip? isSpaceOrTab
  guard (c.isAt (· == '!'))
  let (name, closed, c) ← handleName? c
  guard (closed || name.isEmpty)
  let c ← c.need 1
  guard (c.isAt isSpaceOrTab)
  let (expansion, c) ← tagUri? false (← c.skip? isSpaceOrTab)
  let c ← c.need 1
  guard (endsWord c.rest)
  return (.handle ('!' :: name ++ (if closed then ['!'] else [])) expansion, c)

/-- A directive with its percent sign and with the end of its line. -/
def directive? (c : Cursor) : Option (Token × Cursor) := do
  let (name, c) ← c.pass.take? isWordChar
  guard (endsWord c.rest)
  let (token, c) ←
    if name = "YAML".toList then versionDirective? c
    else if name = "TAG".toList then handleDirective? c
    else none
  return (token, ← lineEnd? some c)

end TradeFlow.Yaml
