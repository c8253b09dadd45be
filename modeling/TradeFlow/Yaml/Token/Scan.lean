import TradeFlow.Yaml.Token.Mark

/-!
From texts to tokens.

Outside flow collections, indentation opens and closes blocks: a key or an entry to the right of the
current block opens one, and text to the left of it closes it. Whether something is a key shows only
at the colon behind it, so the place of a possible key is kept until then, and the marks of the key
are put in front of it afterwards. A possible key stays one for the rest of its line and for 1024
characters; it has to become one if it stands where the keys of the current block stand.

Tokens wait in a queue. The first of them is handed out once two others stand behind it and it is no
possible key any more. A text that goes wrong at some place is therefore given up earlier than
there: the tokens that still wait are lost.
-/

namespace TradeFlow.Yaml

/-- A place where a key may start. -/
structure KeyPlace where
  /-- Whether the place has not been given up. -/
  possible : Bool := false
  /-- Whether a key must start there. -/
  required : Bool := false
  /-- How many tokens stand before it. -/
  number : Nat := 0
  index : Nat := 0
  line : Nat := 0
  column : Nat := 0
  deriving DecidableEq, Repr

/-- The most blocks, and the most flow collections, that may stand inside each other. -/
def maxNesting : Nat := 10000

/-- A text that has been turned into tokens up to some place. -/
structure Scanner where
  cursor : Cursor
  /-- The tokens that wait. -/
  queue : List Token := []
  /-- How many tokens have been handed out. -/
  given : Nat := 0
  /-- The column of the current block, `-1` outside all blocks, and those of the blocks around it. -/
  indent : Int := -1
  indents : List Int := []
  /-- The last place for a key outside all flow collections, and in each of those around here. -/
  keys : Array KeyPlace := #[{}]
  /-- The tokens that wait for a key, each with the level of its place. -/
  waiting : List (Nat × Nat) := []
  keyAllowed : Bool := true

namespace Scanner

/-- How many flow collections stand around the place. -/
def level (s : Scanner) : Nat := s.keys.size - 1

def inFlow (s : Scanner) : Bool := 0 < s.level

/-- The last place for a key at the current level. -/
def key (s : Scanner) : KeyPlace := s.keys.back?.getD {}

def emit (s : Scanner) (t : Token) : Scanner := { s with queue := s.queue ++ [t] }

/-- How many tokens there have been. -/
def count (s : Scanner) : Nat := s.given + s.queue.length

/-- Puts a token in front of the one with a number, and at the end if that has been handed out. -/
def insertAt (s : Scanner) (number : Nat) (t : Token) : Scanner :=
  if number < s.given then s.emit t
  else { s with queue := s.queue.insertIdx (number - s.given) t }

/-- Passes a character, which is a token. -/
def passAs (s : Scanner) (t : Token) : Scanner := { s.emit t with cursor := s.cursor.pass }

/-! ## Possible keys -/

/-- Whether a place lies too far back for a key. -/
def isStale (s : Scanner) (k : KeyPlace) : Bool :=
  k.line < s.cursor.line || k.index + 1024 < s.cursor.index

def setKey (s : Scanner) (level : Nat) (k : KeyPlace) : Scanner :=
  { s with keys := s.keys.setIfInBounds level k }

/-- The token with a number waits no longer. -/
def release (s : Scanner) (number : Nat) : Scanner :=
  { s with waiting := s.waiting.eraseP (·.1 == number) }

/-- Whether a key may still start at the last place of a level. A place that lies too far back is
given up, unless a key has to start there. -/
def mayBeKey? (s : Scanner) (level : Nat) : Option (Bool × Scanner) :=
  match s.keys[level]? with
  | none => some (false, s)
  | some k =>
    if !k.possible then some (false, s)
    else if s.isStale k then
      if k.required then none else some (false, s.setKey level { k with possible := false })
    else some (true, s)

/-- Gives up the place of the current level, unless a key has to start there. -/
def dropKey? (s : Scanner) : Option Scanner :=
  let k := s.key
  if !k.possible then some s
  else if k.required then none
  else some ((s.setKey s.level { k with possible := false }).release k.number)

/-- The place here. -/
def here (s : Scanner) (possible required : Bool) : KeyPlace :=
  { possible
    required
    number := s.count
    index := s.cursor.index
    line := s.cursor.line
    column := s.cursor.column }

/-- Notes that a key may start here. -/
def noteKey? (s : Scanner) : Option Scanner :=
  if s.keyAllowed then
    let k := s.here true (!s.inFlow && s.indent == s.cursor.column)
    s.dropKey?.map fun s =>
      { s.setKey s.level k with waiting := (k.number, s.level) :: s.waiting }
  else some s

/-! ## Blocks -/

/-- Opens a block at a column to the right of the current one, in front of the token with a number. -/
def openBlock? (s : Scanner) (column number : Nat) (t : Token) : Option Scanner :=
  if !s.inFlow && s.indent < column then
    if s.indents.length < maxNesting then
      some { s.insertAt number t with indent := column, indents := s.indent :: s.indents }
    else none
  else some s

/-- How many blocks to the right of a column are closed, and the blocks that stay. -/
def closeFrom (column indent : Int) : List Int → Nat × Int × List Int
  | [] => (0, indent, [])
  | next :: more =>
    if column < indent then
      let (closed, indent, indents) := closeFrom column next more
      (closed + 1, indent, indents)
    else (0, indent, next :: more)

/-- Closes the blocks to the right of a column. -/
def closeBlocks (s : Scanner) (column : Int) : Scanner :=
  if s.inFlow then s
  else
    let (closed, indent, indents) := closeFrom column s.indent s.indents
    { s with queue := s.queue ++ List.replicate closed .blockEnd, indent, indents }

/-- Closes everything at the boundary of a document. -/
def closeAll? (s : Scanner) : Option Scanner :=
  (s.closeBlocks (-1)).dropKey?.map fun s => { s with keyAllowed := false }

/-! ## Space between tokens -/

/-- Passes white space and comments. A tab does not count as white space where a key may start. The
first argument bounds the number of lines. -/
def skipFrom? : Nat → Scanner → Option Scanner
  | 0, s => some s
  | fuel + 1, s => do
    let c ← s.cursor.need 1
    let c := if c.column == 0 && c.marked then c.pass else c
    let c ← c.skip? fun c => c == ' ' || (c == '\t' && (s.inFlow || !s.keyAllowed))
    let c ← c.skipComments?
    if c.isAt isBreak then
      let c ← c.need 2
      skipFrom? fuel { s with cursor := c.passBreak, keyAllowed := s.keyAllowed || !s.inFlow }
    else return { s with cursor := c }

def skipSpace? (s : Scanner) : Option Scanner := skipFrom? (s.cursor.size + 2) s

/-! ## Tokens -/

def flowStart? (s : Scanner) (t : Token) : Option Scanner :=
  s.noteKey?.bind fun s =>
    if s.level < maxNesting then
      some ({ s with keys := s.keys.push (s.here false false), keyAllowed := true }.passAs t)
    else none

def flowEnd? (s : Scanner) (t : Token) : Option Scanner :=
  s.dropKey?.map fun s =>
    let s := if s.inFlow then { s.release s.key.number with keys := s.keys.pop } else s
    { s with keyAllowed := false }.passAs t

def flowEntry? (s : Scanner) : Option Scanner :=
  s.dropKey?.map fun s => { s with keyAllowed := true }.passAs .flowEntry

/-- An entry of a block sequence. In flow collections it is out of place, which shows later. -/
def blockEntry? (s : Scanner) : Option Scanner :=
  if !s.inFlow && !s.keyAllowed then none
  else
    (s.openBlock? s.cursor.column s.count .blockSequenceStart).bind fun s =>
      s.dropKey?.map fun s => { s with keyAllowed := true }.passAs .blockEntry

/-- A question mark in front of a key. -/
def explicitKey? (s : Scanner) : Option Scanner :=
  if !s.inFlow && !s.keyAllowed then none
  else
    (s.openBlock? s.cursor.column s.count .blockMappingStart).bind fun s =>
      s.dropKey?.map fun s => { s with keyAllowed := !s.inFlow }.passAs .key

/-- A colon. It turns the possible key in front of it into a key. -/
def value? (s : Scanner) : Option Scanner := do
  let (isKey, s) ← s.mayBeKey? s.level
  if isKey then
    let k := s.key
    let s ← (s.insertAt k.number .key).openBlock? k.column k.number .blockMappingStart
    let s := (s.setKey s.level { k with possible := false }).release k.number
    return { s with keyAllowed := false }.passAs .value
  else if !s.inFlow && !s.keyAllowed then failure
  else
    let s ← s.openBlock? s.cursor.column s.count .blockMappingStart
    return { s with keyAllowed := !s.inFlow }.passAs .value

/-- A token that may start a key, and the place behind it. -/
def keyLike? (s : Scanner) (t : Token) (behind : Cursor) (keyAllowed : Bool) : Option Scanner :=
  s.noteKey?.map fun s => { s.emit t with cursor := behind, keyAllowed }

/-- A block scalar. -/
def blockScalar? (s : Scanner) (folds : Bool) : Option Scanner := do
  let s ← s.dropKey?
  let (text, behind) ← block? folds s.indent s.cursor
  return { s.emit (.scalar .block text) with cursor := behind, keyAllowed := true }

/-- Whether a plain scalar may start with a character. -/
def startsPlain (inFlow : Bool) (c : Char) (behind : List Char) : Bool :=
  (!indicators.contains c && !isSeparator c)
    || (c == '-' && !behind.head?.any isSpaceOrTab)
    || (!inFlow && (c == '?' || c == ':') && !endsWord behind)

/-- The token that starts with a character at the place. -/
def token? (s : Scanner) (c : Char) (behind : List Char) : Option Scanner :=
  if c == '[' then s.flowStart? .flowSequenceStart
  else if c == '\x7b' then s.flowStart? .flowMappingStart
  else if c == ']' then s.flowEnd? .flowSequenceEnd
  else if c == '\x7d' then s.flowEnd? .flowMappingEnd
  else if c == ',' then s.flowEntry?
  else if c == '-' && endsWord behind then s.blockEntry?
  else if c == '?' && (s.inFlow || endsWord behind) then s.explicitKey?
  else if c == ':' && (s.inFlow || endsWord behind) then s.value?
  else if c == '*' then
    (anchorName? s.cursor).bind fun (name, place) => s.keyLike? (.alias name) place false
  else if c == '&' then
    (anchorName? s.cursor).bind fun (name, place) => s.keyLike? (.anchor name) place false
  else if c == '!' then
    (tag? s.cursor).bind fun (handle, suffix, place) => s.keyLike? (.tag handle suffix) place false
  else if (c == '|' || c == '>') && !s.inFlow then s.blockScalar? (c == '>')
  else if c == apostrophe || c == '"' then
    (quoted? (c == apostrophe) s.cursor).bind fun (text, place) =>
      s.keyLike? (.scalar .quoted text) place false
  else if startsPlain s.inFlow c behind then
    (plain? s.inFlow (s.indent + 1).toNat s.cursor).bind fun (text, broken, place) =>
      s.keyLike? (.scalar .plain text) place broken
  else none

/-- Passes a comment behind the latest token, unless that starts an entry. -/
def skipLineComment? (s : Scanner) : Option Scanner :=
  if s.queue.getLast? = some .blockEntry then some s
  else s.cursor.skipLineComment?.map fun cursor => { s with cursor }

/-- The end of the text, which starts a line of its own. -/
def streamEnd? (s : Scanner) : Option Scanner :=
  let c := s.cursor
  let cursor := if c.column = 0 then c else { c with column := 0, line := c.line + 1 }
  (closeAll? { s with cursor }).map fun s => s.emit .streamEnd

/-- Adds one more token to the queue, and the marks of blocks that come with it. -/
def next? (s : Scanner) : Option Scanner := do
  let s ← { s with cursor := ← s.cursor.need 1 }.skipSpace?
  let s := s.closeBlocks s.cursor.column
  let s := { s with cursor := ← s.cursor.need 4 }
  match s.cursor.rest with
  | [] => s.streamEnd?
  | c :: behind =>
    if s.cursor.column == 0 && c == '%' then
      let s ← s.closeAll?
      let (t, place) ← directive? s.cursor
      return { s.emit t with cursor := place }
    else if s.cursor.column == 0 && isDocumentMark (c :: behind) then
      let s ← s.closeAll?
      let mark := if c == '-' then Token.documentStart else .documentEnd
      return { s.emit mark with cursor := s.cursor.passMany 3 }
    else
      let s ← s.token? c behind
      s.skipLineComment?

/-- Whether the first token in the queue can be handed out. -/
def isReady? (s : Scanner) : Option (Bool × Scanner) :=
  if s.queue.length < 3 then some (false, s)
  else
    match s.waiting.lookup s.given with
    | none => some (true, s)
    | some level => (s.mayBeKey? level).map fun (mayBe, s) => (!mayBe, s)

/-- Hands out tokens until the text ends or goes wrong; those handed out before are given back to
front. The first argument bounds the number of steps. -/
def run (done : List Token) : Nat → Scanner → List Token
  | 0, _ => done.reverse
  | fuel + 1, s =>
    match s.isReady? with
    | none => done.reverse
    | some (false, s) =>
      match s.next? with
      | none => done.reverse
      | some s => run done fuel s
    | some (true, s) =>
      match s.queue with
      | [] => done.reverse
      | t :: queue =>
        if t = .streamEnd then (t :: done).reverse
        else run (t :: done) fuel { s with queue, given := s.given + 1 }

/-- The start of a text. -/
def ofText? (text : String) : Option Scanner :=
  ((Cursor.ofText text).need 1).map fun cursor => { cursor, queue := [.streamStart] }

end Scanner

/-- The tokens of a text that can be had before it goes wrong. Behind every character there are at
most four tokens. -/
def tokens (text : String) : List Token :=
  match Scanner.ofText? text with
  | none => []
  | some s => s.run [] (8 * text.length + 16)

end TradeFlow.Yaml
