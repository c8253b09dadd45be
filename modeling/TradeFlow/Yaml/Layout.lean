import TradeFlow.Yaml.Char
import TradeFlow.Yaml.KeyOrder
import TradeFlow.Yaml.Scalar

/-!
Writing YAML.

Collections are written as blocks with two spaces of indentation, each entry on lines of its own, and
empty ones as a pair of brackets. A string is written plainly if it reads back as the same string;
otherwise it is quoted, or written as a literal block if it holds a line feed. A string with bytes of
no character is written in base 64 and tagged. Lines are never folded.
-/

namespace TradeFlow.Yaml

/-- A scalar that is ready to be laid out. -/
inductive LayoutScalar where
  /-- A scalar that is written as it is. -/
  | atom (text : String)
  | string (s : String)
  deriving DecidableEq, Repr

/-- YAML that is ready to be laid out. -/
inductive Layout where
  | scalar (s : LayoutScalar)
  | sequence (items : List Layout)
  | mapping (pairs : List (LayoutScalar × Layout))
  deriving Repr

/-! ## Strings -/

/-- The words that older readers take for truth values. -/
def oldBooleans : List String :=
  ["y", "Y", "yes", "Yes", "YES", "on", "On", "ON", "n", "N", "no", "No", "NO", "off", "Off", "OFF"]

/-- One or two digits of base 60 behind a colon, as often as they occur; then perhaps a fraction. -/
def isSexagesimalTail : List Char → Bool
  | [] => true
  | ':' :: a :: b :: rest =>
    if b.isDigit then '0' ≤ a && a ≤ '5' && isSexagesimalTail rest
    else a.isDigit && isSexagesimalTail (b :: rest)
  | [':', a] => a.isDigit
  | '.' :: rest => rest.all fun c => c.isDigit || c == '_'
  | _ => false

/-- Whether older readers take a text for a number in base 60. -/
def isSexagesimal (text : List Char) : Bool :=
  let (_, text) := sign text
  let rest := text.dropWhile fun c => c.isDigit || c == '_'
  text.head?.any Char.isDigit && rest.head? == some ':' && isSexagesimalTail rest

/-- Whether a plain text reads back as the same string everywhere. -/
def readsAsString (s : String) : Bool :=
  valueTag (plainValue s) == "!!str" && !isSexagesimal s.toList && !oldBooleans.contains s

/-- Whether a character can be shown outside double quotes; tabs are looked at separately. -/
def isShown (c : Char) : Bool :=
  let n := c.toNat
  n == 0x9 || n == 0xa || (0x20 ≤ n && n ≤ 0x7e) || (0xa0 ≤ n && n < 0xfffe && n != 0xfeff)

/-- The characters that a plain scalar may not start with. -/
def startIndicators : List Char := "#,[]\x7b\x7d&*!|>'\"%@`".toList

/-- Whether a text would be taken for something else behind its first character, which is known to
follow white space or not. -/
def hasIndicator (afterSpace : Bool) : List Char → Bool
  | [] => false
  | c :: rest =>
    let beforeSpace := rest.isEmpty || rest.head?.any isSpaceOrTab
    (c == ':' && beforeSpace) || (c == '#' && afterSpace) || hasIndicator (isSeparator c) rest

/-- Whether a text would be taken for something else by its first characters. -/
def startsIndicator (text : List Char) : Bool :=
  match text with
  | [] => false
  | c :: rest =>
    let beforeSpace := rest.isEmpty || rest.head?.any isSpaceOrTab
    startIndicators.contains c || ((c == '?' || c == '-') && beforeSpace)
      || text.take 3 == ['-', '-', '-'] || text.take 3 == ['.', '.', '.']

/-- Whether one kind of character is followed by another. -/
def hasNeighbours (first second : Char → Bool) : List Char → Bool
  | a :: b :: rest => (first a && second b) || hasNeighbours first second (b :: rest)
  | _ => false

/-- Whether a text cannot be shown without escapes. -/
def needsEscapes (text : List Char) : Bool :=
  !text.all isShown || hasNeighbours (· == ' ') isBreak text

/-- Whether a text may stand in single quotes. -/
def singleAllowed (text : List Char) : Bool :=
  !needsEscapes text && !text.contains '\t' && !hasNeighbours isBreak (· == ' ') text

/-- Whether a text may stand without quotes. -/
def plainAllowed (text : List Char) : Bool :=
  singleAllowed text && !startsIndicator text && !hasIndicator true text && !text.any isBreak
    && text.head? != some ' ' && text.getLast? != some ' '

/-- Whether a text may be written as a literal block. -/
def literalAllowed (text : List Char) : Bool :=
  !needsEscapes text && text.getLast? != some ' '

/-- A digit of a hexadecimal number in upper case. -/
def upperHex (width n : Nat) : List Char := (hexDigits width n).map Char.toUpper

/-- The escape of a character. -/
def escapeCode (c : Char) : List Char :=
  let n := c.toNat
  if c == '"' then ['\\', '"']
  else if c == '\\' then ['\\', '\\']
  else if n == 0 then ['\\', '0']
  else if n == 7 then ['\\', 'a']
  else if n == 8 then ['\\', 'b']
  else if n == 9 then ['\\', 't']
  else if n == 10 then ['\\', 'n']
  else if n == 11 then ['\\', 'v']
  else if n == 12 then ['\\', 'f']
  else if n == 13 then ['\\', 'r']
  else if n == 27 then ['\\', 'e']
  else if n == 0x85 then ['\\', 'N']
  else if n == 0xa0 then ['\\', '_']
  else if n == 0x2028 then ['\\', 'L']
  else if n == 0x2029 then ['\\', 'P']
  else if n ≤ 0xff then '\\' :: 'x' :: upperHex 2 n
  else if n ≤ 0xffff then '\\' :: 'u' :: upperHex 4 n
  else '\\' :: 'U' :: upperHex 8 n

/-- One character between double quotes. -/
def escape (c : Char) : List Char :=
  if isShown c && !isBreak c && c != '\t' && c != '"' && c != '\\' then [c] else escapeCode c

/-- A text in double quotes. Behind a byte order mark at its front every character is escaped. -/
def doubleQuoted (text : List Char) : List Char :=
  let escapeChar := if text.head? = some byteOrderMark then escapeCode else escape
  '"' :: (TextUnit.ofChars text).flatMap (fun u => escapeChar u.shown) ++ ['"']

def spaces (width : Nat) : List Char := List.replicate width ' '

/-- The inside of a text in single quotes: quotes are doubled, and what follows a line break is
indented. -/
def singleInside (indent : Nat) (afterBreak : Bool) : List Char → List Char
  | [] => []
  | c :: rest =>
    if isBreak c then c :: singleInside indent true rest
    else
      (if afterBreak then spaces indent else [])
        ++ (if c == apostrophe then [c, c] else [c]) ++ singleInside indent false rest

def singleQuoted (indent : Nat) (text : List Char) : List Char :=
  apostrophe :: singleInside indent false text ++ [apostrophe]

/-- The lines of a literal block; what starts a line is indented. -/
def literalLines (indent : Nat) (lineStart : Bool) : List Char → List Char
  | [] => []
  | c :: rest =>
    if isBreak c then c :: literalLines indent true rest
    else (if lineStart then spaces indent else []) ++ c :: literalLines indent false rest

/-- How the line breaks at the end of a literal block are kept. -/
def chompingSign (text : List Char) : List Char :=
  match text.reverse with
  | a :: b :: _ => if isBreak a then (if isBreak b then ['+'] else []) else ['-']
  | [a] => if isBreak a then ['+'] else ['-']
  | [] => ['-']

/-- A literal block with its line end. A text that starts with white space names the indentation. A
line break at the front of the text is the one that ends the header. -/
def literal (indent : Nat) (text : List Char) : List Char :=
  let hint := if text.head?.any fun c => c == ' ' || isBreak c then ['2'] else []
  let body := literalLines indent true text
  let opened := if text.head?.any isBreak then body else '\n' :: body
  '|' :: hint ++ chompingSign text ++ opened
    ++ (if text.getLast?.any isBreak then [] else ['\n'])

/-- How a string is written. -/
inductive StringStyle where
  | plain
  | single
  | double
  | literal
  deriving DecidableEq, Repr

/-- The style of a string. Keys are never literal blocks. -/
def stringStyle (isKey : Bool) (s : String) : StringStyle :=
  let text := s.toList
  if text.contains '\n' then
    if !isKey && literalAllowed text then .literal else .double
  else if !readsAsString s || (isKey && text.any isBreak) then .double
  else if plainAllowed text then .plain
  else if singleAllowed text then .single
  else .double

/-- Lines of 70 characters, each with its line end. The first argument bounds their number. -/
def chunks : Nat → List Char → List Char
  | 0, _ => []
  | _, [] => []
  | fuel + 1, text => text.take 70 ++ '\n' :: chunks fuel (text.drop 70)

/-- Bytes in base 64, broken into lines if they do not fit on one. -/
def binaryText (s : String) : List Char :=
  let text := Base64.encode (textBytes s)
  if text.length < 70 then text else chunks text.length text

/-- The tag in front of binary data. -/
def binaryTag : List Char := "!!binary ".toList

/-- A string behind its key or its mark, with its line end. The indentation is that of its
continuation lines. -/
def stringLine (indent : Nat) (s : String) : List Char :=
  if isCleanText s then
    match stringStyle false s with
    | .plain => s.toList ++ ['\n']
    | .single => singleQuoted indent s.toList ++ ['\n']
    | .double => doubleQuoted s.toList ++ ['\n']
    | .literal => literal indent s.toList
  else
    let text := binaryText s
    binaryTag ++ (if text.contains '\n' then literal indent text else text ++ ['\n'])

/-- A string key on one line, if it can be written so: it has no line break and at most 128
bytes. -/
def keyLine? (indent : Nat) (key : String) : Option (List Char) :=
  if isCleanText key then
    if key.toList.any isBreak || 128 < (textBytes key).length then none
    else
      match stringStyle true key with
      | .plain => some key.toList
      | .single => some (singleQuoted indent key.toList)
      | _ => some (doubleQuoted key.toList)
  else
    let text := binaryText key
    if text.contains '\n' then none else some (binaryTag ++ text)

/-- A key up to its colon, and whether the colon stands on a line of its own. -/
def keyOpening (indent : Nat) : LayoutScalar → List Char × Bool
  | .atom text => (text.toList ++ [':'], false)
  | .string key =>
    match keyLine? (indent + 2) key with
    | some line => (line ++ [':'], false)
    | none => ('?' :: ' ' :: stringLine (indent + 2) key ++ spaces indent ++ [':'], true)

/-! ## Collections -/

namespace Layout

mutual

/-- What stands behind a key or a mark at an indentation, up to the end of its last line. A
collection starts on the same line if it is compact. -/
def behind (indent : Nat) (compact : Bool) : Layout → List Char
  | .scalar (.atom text) => ' ' :: text.toList ++ ['\n']
  | .scalar (.string s) => ' ' :: stringLine (indent + 2) s
  | .sequence [] => [' ', '[', ']', '\n']
  | .mapping [] => [' ', '\x7b', '\x7d', '\n']
  | .sequence (item :: items) =>
    (if compact then [' '] else '\n' :: spaces (indent + 2)) ++ '-' :: item.behind (indent + 2) true
      ++ itemLines (indent + 2) items
  | .mapping ((key, value) :: pairs) =>
    let (opening, complex) := keyOpening (indent + 2) key
    (if compact then [' '] else '\n' :: spaces (indent + 2)) ++ opening
      ++ value.behind (indent + 2) complex ++ mappingLines (indent + 2) pairs

/-- The entries of a sequence behind the first. -/
def itemLines (indent : Nat) : List Layout → List Char
  | [] => []
  | item :: rest => spaces indent ++ '-' :: item.behind indent true ++ itemLines indent rest

/-- The pairs of a mapping behind the first. -/
def mappingLines (indent : Nat) : List (LayoutScalar × Layout) → List Char
  | [] => []
  | (key, value) :: rest =>
    let (opening, complex) := keyOpening indent key
    spaces indent ++ opening ++ value.behind indent complex ++ mappingLines indent rest

end

/-- The text of a mapping at the top of a document. -/
def text : Layout → String
  | .mapping ((key, value) :: pairs) =>
    let (opening, complex) := keyOpening 0 key
    String.ofList (opening ++ value.behind 0 complex ++ mappingLines 0 pairs)
  | other => String.ofList ((other.behind 0 true).drop 1)

def string (s : String) : Layout := .scalar (.string s)

def int (i : Int) : Layout := .scalar (.atom (intText i))

def float (x : Binary64) : Layout := .scalar (.atom (NumberFormat.block.text x))

/-- A mapping with the given fields, in this order. -/
def fields (pairs : List (String × Layout)) : Layout :=
  .mapping (pairs.map fun (key, value) => (.string key, value))

/-- The scalar of a value; a collection has none and is never asked for one. -/
def scalarOf : Value → LayoutScalar
  | .bool b => .atom (if b then "true" else "false")
  | .int i => .atom (intText i)
  | .int64 i => .atom (intText i)
  | .uint64 n => .atom (intText n)
  | .float x => .atom (NumberFormat.block.text x)
  | .string s => .string s
  | .instant t => .atom t.document
  | _ => .atom "null"

/-- Pairs in the order in which their keys are written. -/
def sortPairs (pairs : List (Value × Layout)) : List (LayoutScalar × Layout) :=
  (sortBy (fun p q => keyBefore p.1 q.1) pairs).map fun (key, value) => (scalarOf key, value)

mutual

/-- The layout of a value. -/
def ofValue : Value → Layout
  | .strings ss => .sequence (ss.map string)
  | .list vs => .sequence (ofValues vs)
  | .map entries => .mapping (sortPairs (ofPairs entries))
  | .keyed entries => .mapping (sortPairs (ofKeyed entries))
  | v => .scalar (scalarOf v)

/-- The layouts of the values of a list. -/
def ofValues : List Value → List Layout
  | [] => []
  | v :: rest => ofValue v :: ofValues rest

/-- The layouts of the entries of a mapping. -/
def ofPairs : List (String × Value) → List (Value × Layout)
  | [] => []
  | (key, v) :: rest => (.string key, ofValue v) :: ofPairs rest

/-- The layouts of the entries of a mapping with any keys. -/
def ofKeyed : List (Value × Value) → List (Value × Layout)
  | [] => []
  | (key, v) :: rest => (key, ofValue v) :: ofKeyed rest

end

/-- The layout of entries. -/
def ofEntries (entries : Entries) : Layout := .mapping (sortPairs (ofPairs entries))

end Layout

end TradeFlow.Yaml
