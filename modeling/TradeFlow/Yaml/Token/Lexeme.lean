import TradeFlow.Text.Utf8
import TradeFlow.Yaml.Cursor
import TradeFlow.Yaml.Token.Basic

/-!
The texts of scalars.

Each function reads a scalar at a place and gives its value and the place behind it; nothing is given
for a text that breaks the rules of the scalar. On the way it asks for as many characters as it looks
at: four where a document might end, two behind a character, one behind a blank.

Scalars may go on over several lines. What stands between two parts of such a scalar is a gap: blanks
on one line are kept, a single line break becomes a space, and of several line breaks the first is
dropped. Values are gathered back to front.
-/

namespace TradeFlow.Yaml

/-- Whether a line with the mark of a document start or end begins here. -/
def isDocumentMark : List Char → Bool
  | '-' :: '-' :: '-' :: rest => endsWord rest
  | '.' :: '.' :: '.' :: rest => endsWord rest
  | _ => false

/-! ## Gaps -/

/-- What stands between two parts of a scalar, back to front. -/
inductive Gap where
  | empty
  | blanks (text : List Char)
  /-- The first line break, which may be folded, and the others. -/
  | breaks (first : Option Char) (more : List Char)
  deriving DecidableEq, Repr

namespace Gap

def isBroken : Gap → Bool
  | .breaks _ _ => true
  | _ => false

/-- The gap with one more blank or line break at its end. -/
def push (gap : Gap) (c : Char) : Gap :=
  match gap with
  | .empty => if isBreak c then .breaks (some (breakChar c)) [] else .blanks [c]
  | .blanks text => if isBreak c then .breaks (some (breakChar c)) [] else .blanks (c :: text)
  | .breaks first more =>
    if isBreak c then .breaks first (breakChar c :: more) else .breaks first more

/-- A value, back to front, with what a gap behind it becomes. -/
def fold (gap : Gap) (done : List Char) : List Char :=
  match gap with
  | .empty => done
  | .blanks text => text ++ done
  | .breaks first more =>
    if first = some '\n' then (if more.isEmpty then ' ' :: done else more ++ done)
    else more ++ first.toList ++ done

end Gap

/-- Passes a blank or a line break. -/
def Cursor.passSeparator? (c : Cursor) : Option Cursor :=
  if c.isAt isBreak then (c.need 2).bind fun c => c.passBreak.need 1 else c.pass.need 1

/-! ## Plain scalars -/

/-- Whether a plain scalar ends in front of a text. -/
def endsPlain (inFlow : Bool) : List Char → Bool
  | ':' :: rest => endsWord rest
  | c :: _ => inFlow && flowIndicators.contains c
  | [] => true

/-- Goes on with a plain scalar behind a gap, and gives whether lines ended behind it as well. Lines
must reach the given indentation outside flow collections. The first argument bounds the number of
characters. -/
def plainFrom? (inFlow : Bool) (indent : Nat) (gap : Gap) (done : List Char) :
    Nat → Cursor → Option (List Char × Bool × Cursor)
  | 0, _ => none
  | fuel + 1, c =>
    match c.rest with
    | [] => some (done, gap.isBroken, c)
    | char :: _ =>
      if isSeparator char then
        if gap.isBroken && c.column < indent && char == '\t' then none
        else
          c.passSeparator?.bind fun c => plainFrom? inFlow indent (gap.push char) done fuel c
      else if gap = .empty then
        if endsPlain inFlow c.rest then some (done, false, c)
        else
          (c.pass.need 2).bind fun c => plainFrom? inFlow indent .empty (char :: done) fuel c
      else if !inFlow && c.column < indent then some (done, gap.isBroken, c)
      else
        (c.need 4).bind fun c =>
          if (c.column == 0 && isDocumentMark c.rest) || char == '#' || endsPlain inFlow c.rest then
            some (done, gap.isBroken, c)
          else
            (c.pass.need 2).bind fun c =>
              plainFrom? inFlow indent .empty (char :: gap.fold done) fuel c

/-- A plain scalar, whether lines ended behind it, and the place behind it. -/
def plain? (inFlow : Bool) (indent : Nat) (c : Cursor) : Option (List Char × Bool × Cursor) :=
  (plainFrom? inFlow indent .empty [] (c.size + 1) c).map fun (done, broken, c) =>
    (done.reverse, broken, c)

/-! ## Quoted scalars -/

/-- Asks for what shows whether a document ends in the middle of a quoted scalar, which is
refused. -/
def Cursor.inDocument? (c : Cursor) : Option Cursor :=
  (c.need 4).filter fun c => !(c.column == 0 && isDocumentMark c.rest)

/-- The inside of a scalar in single quotes, in which a quote is written twice. The first argument
bounds the number of characters. -/
def singleFrom? (gap : Gap) (done : List Char) : Nat → Cursor → Option (List Char × Cursor)
  | 0, _ => none
  | fuel + 1, c => do
    match c.rest with
    | [] => none
    | char :: rest =>
      if isSeparator char then singleFrom? (gap.push char) done fuel (← c.passSeparator?)
      else
        let c ← if gap = .empty then some c else c.inDocument?
        let done := gap.fold done
        if char == apostrophe then
          if rest.head? = some apostrophe then
            singleFrom? .empty (char :: done) fuel (← c.pass.pass.need 2)
          else return (done, c.pass)
        else singleFrom? .empty (char :: done) fuel (← c.pass.need 2)

/-- The character of a short escape. -/
def escaped? (c : Char) : Option Char :=
  match c with
  | '0' => some (Char.ofNat 0)
  | 'a' => some (Char.ofNat 7)
  | 'b' => some (Char.ofNat 8)
  | 't' => some '\t'
  | '\t' => some '\t'
  | 'n' => some '\n'
  | 'v' => some (Char.ofNat 11)
  | 'f' => some (Char.ofNat 12)
  | 'r' => some '\r'
  | 'e' => some (Char.ofNat 27)
  | ' ' => some ' '
  | '"' => some '"'
  | '\\' => some '\\'
  | 'N' => some (Char.ofNat 0x85)
  | '_' => some (Char.ofNat 0xa0)
  | 'L' => some (Char.ofNat 0x2028)
  | 'P' => some (Char.ofNat 0x2029)
  | c => if c == apostrophe then some c else none

/-- How many hexadecimal digits follow a letter behind a backslash. -/
def escapeWidth? (c : Char) : Option Nat :=
  if c == 'x' then some 2 else if c == 'u' then some 4 else if c == 'U' then some 8 else none

/-- The character with a number in hexadecimal digits. -/
def hexChar? (digits : List Char) : Option Char := do
  let n ← digits.foldlM (fun n c => (Literal.hexValue? c).map fun d => n * 16 + d) 0
  if n.isValidChar then some (Char.ofNat n) else none

/-- The character that an escape at the place stands for, and the place behind it. -/
def escape? (c : Cursor) : Option (Char × Cursor) := do
  let letter ← c.rest[1]?
  let behind := c.pass.pass
  match escapeWidth? letter with
  | none => return (← escaped? letter, behind)
  | some width =>
    let c ← behind.need width
    let digits := c.rest.take width
    guard (digits.length = width)
    return (← hexChar? digits, c.passMany width)

/-- The inside of a scalar in double quotes. A line break behind a backslash is dropped together with
the blanks that follow it. The first argument bounds the number of characters. -/
def doubleFrom? (gap : Gap) (done : List Char) : Nat → Cursor → Option (List Char × Cursor)
  | 0, _ => none
  | fuel + 1, c => do
    match c.rest with
    | [] => none
    | char :: rest =>
      if isSeparator char then doubleFrom? (gap.push char) done fuel (← c.passSeparator?)
      else
        let c ← if gap = .empty then some c else c.inDocument?
        let done := gap.fold done
        if char == '"' then return (done, c.pass)
        else if char == '\\' then
          if rest.head?.any isBreak then
            let c ← ((← c.need 3).pass.passBreak).need 1
            if c.isAt (· == '"') then return (done, c.pass)
            else doubleFrom? (.breaks none []) done fuel c
          else
            let (char, c) ← escape? c
            doubleFrom? .empty ((Stray.keep char).reverse ++ done) fuel (← c.need 2)
        else doubleFrom? .empty (char :: done) fuel (← c.pass.need 2)

/-- A quoted scalar with its quotes, and the place behind it. -/
def quoted? (single : Bool) (c : Cursor) : Option (List Char × Cursor) := do
  let c ← c.pass.inDocument?
  let (done, c) ←
    if single then singleFrom? .empty [] (c.size + 1) c
    else doubleFrom? .empty [] (c.size + 1) c
  return (done.reverse, c)

/-! ## Block scalars -/

/-- Which line breaks at the end of a block scalar belong to it. -/
inductive Chomping where
  | strip
  | clip
  | keep
  deriving DecidableEq, Repr

/-- A sign for the line breaks at the end, if there is one. -/
def chomping? (c : Cursor) : Option (Chomping × Cursor) :=
  if c.isAt (· == '+') then some (.keep, c.pass)
  else if c.isAt (· == '-') then some (.strip, c.pass)
  else none

/-- A digit for the indentation, which is not zero; without one the result is zero. -/
def indentation? (c : Cursor) : Option (Nat × Cursor) :=
  match c.rest.head? with
  | some char =>
    if char == '0' then none
    else if char.isDigit then some (char.toNat - 0x30, c.pass)
    else some (0, c)
  | none => some (0, c)

/-- The two signs of a block scalar, in either order. -/
def signs? (c : Cursor) : Option (Chomping × Nat × Cursor) := do
  match chomping? c with
  | some (chomping, c) =>
    let (increment, c) ← indentation? (← c.need 1)
    return (chomping, increment, c)
  | none =>
    let (increment, c) ← indentation? c
    if increment = 0 then return (.clip, 0, c)
    else
      let c ← c.need 1
      match chomping? c with
      | some (chomping, c) => return (chomping, increment, c)
      | none => return (.clip, increment, c)

/-- The end of a line, perhaps behind blanks and a comment. -/
def lineEnd? (comment : Cursor → Option Cursor) (c : Cursor) : Option Cursor := do
  let c ← c.skip? isSpaceOrTab
  let c ← if c.isAt (· == '#') then (← comment c).skip? (!isBreak ·) else some c
  guard c.endsLine
  c.skipBreak?

/-- The start of a line of a block scalar. -/
structure LineStart where
  /-- The breaks of the empty lines in front of it, back to front. -/
  breaks : List Char
  /-- The most indentation of a line seen on the way. -/
  widest : Nat
  place : Cursor

/-- Passes empty lines and indentation, up to the given width unless it is zero. A tab in place of
indentation is refused. The first argument bounds the number of characters. -/
def lineStartFrom? (indent : Nat) (breaks : List Char) (widest : Nat) :
    Nat → Cursor → Option LineStart
  | 0, c => some ⟨breaks, widest, c⟩
  | fuel + 1, c =>
    let inside := indent == 0 || c.column < indent
    let widest := widest.max c.column
    match c.rest with
    | [] => some ⟨breaks, widest, c⟩
    | char :: _ =>
      if inside && char == ' ' then
        (c.pass.need 1).bind fun c => lineStartFrom? indent breaks widest fuel c
      else if inside && char == '\t' then none
      else if isBreak char then
        c.passSeparator?.bind fun c => lineStartFrom? indent (breakChar char :: breaks) widest fuel c
      else some ⟨breaks, widest, c⟩

/-- The start of the next line of a block scalar. -/
def lineStart? (indent : Nat) (c : Cursor) : Option LineStart :=
  (c.need 1).bind fun c => lineStartFrom? indent [] 0 (c.size + 1) c

/-- What has been read of a block scalar: its text back to front, the break behind its last line, and
whether that line started with a blank. -/
structure BlockText where
  done : List Char
  lastBreak : List Char
  startedBlank : Bool

/-- Reads the lines of a block scalar. Folding joins two lines that both start with something else
than a blank. The first argument bounds the number of lines. -/
def blockLines? (folds : Bool) (indent : Nat) :
    Nat → BlockText → LineStart → Option (BlockText × LineStart)
  | 0, text, start => some (text, start)
  | fuel + 1, text, start => do
    let c := start.place
    match c.rest with
    | [] => return (text, start)
    | char :: _ =>
      if c.column != indent then return (text, start)
      else
        let blank := isSpaceOrTab char
        let joint :=
          if folds && !text.startedBlank && !blank && text.lastBreak == ['\n'] then
            (if start.breaks.isEmpty then [' '] else [])
          else text.lastBreak
        let (line, c) ← c.take? (!isBreak ·)
        let c ← c.need 2
        let (lastBreak, c) :=
          match c.rest.head? with
          | some char => ([breakChar char], c.passBreak)
          | none => ([], c)
        let next ← lineStart? indent c
        blockLines? folds indent fuel
          ⟨line.reverse ++ start.breaks ++ joint ++ text.done, lastBreak, blank⟩ next

/-- A block scalar with its first character, inside a block with the given indentation, and the place
behind it. -/
def block? (folds : Bool) (outer : Int) (c : Cursor) : Option (List Char × Cursor) := do
  let c ← c.pass.need 1
  let (chomping, increment, c) ← signs? c
  let c ← lineEnd? Cursor.skipLineComment? c
  let given := if increment = 0 then 0 else outer.toNat + increment
  let start ← lineStart? given c
  let indent := if given = 0 then (start.widest.max (outer + 1).toNat).max 1 else given
  let (body, start) ← blockLines? folds indent (c.size + 1) ⟨[], [], false⟩ start
  let last := if chomping = .strip then [] else body.lastBreak
  let more := if chomping = .keep then start.breaks else []
  return ((more ++ last ++ body.done).reverse, start.place)

end TradeFlow.Yaml
