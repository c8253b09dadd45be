import TradeFlow.Telemetry.Log
import TradeFlow.Text.Lines
import TradeFlow.Text.Literal

/-!
Log records as lines.

A line is either a row of keys and values, in which a value that could be misread is quoted, or a
JSON object. The times that a run takes are not part of its records and are filled in here.
-/

namespace TradeFlow

/-- How log records are written. -/
inductive LogFormat where
  | text
  | json
  deriving DecidableEq, Repr

def LogFormat.ofName? (name : String) : Option LogFormat :=
  if name = "text" then some .text else if name = "json" then some .json else none

namespace LogRecord

/-- Whether a character makes it necessary to quote a value. -/
def mustQuote (c : Char) : Bool :=
  if c.toNat < 0x80 then c == ' ' || c == '=' || c == '"' || c.toNat < 0x20
  else isBlankChar c || !isPrintable c || c == replacementChar

/-- A value of a row. -/
def rowText (s : String) : String :=
  if s.isEmpty || s.toList.any mustQuote then quoted s else s

def rowValue (elapsed : String) : LogValue → String
  | .text s => rowText s
  | .number n => intText n
  | .texts ss => rowText ("[" ++ " ".intercalate ss ++ "]")
  | .elapsed => rowText elapsed

/-- A record as a row of keys and values. -/
def row (r : LogRecord) (elapsed : String) : String :=
  "level=" ++ r.level.name ++ " msg=" ++ rowText r.message
    ++ String.join (r.attributes.map fun (key, value) =>
      " " ++ key ++ "=" ++ rowValue elapsed value)

/-- One character of a string in an object. Backspace and form feed have no short form here. -/
def escape (c : Char) : List Char :=
  if c.toNat = 8 ∨ c.toNat = 12 then '\\' :: 'u' :: hexDigits 4 c.toNat
  else Literal.escape c

/-- One unit of a string in an object. Bytes of no character are replaced by an escape. -/
def escapeUnit : TextUnit → List Char
  | .char c => (escape c).flatMap Stray.keep
  | .byte _ => '\\' :: 'u' :: hexDigits 4 replacementChar.toNat

def objectText (s : String) : String :=
  String.ofList ('"' :: (textUnits s).flatMap escapeUnit ++ ['"'])

def objectValue (elapsed : String) : LogValue → String
  | .text s => objectText s
  | .number n => intText n
  | .texts ss => Literal.ofStrings ss
  | .elapsed => objectText elapsed

/-- A record as a JSON object. -/
def object (r : LogRecord) (elapsed : String) : String :=
  let members :=
    [("level", objectText r.level.name), ("msg", objectText r.message)]
      ++ r.attributes.map fun (key, value) => (key, objectValue elapsed value)
  "\x7b" ++ ",".intercalate (members.map fun (key, text) => objectText key ++ ":" ++ text) ++ "\x7d"

/-- The line of a record. -/
def line (r : LogRecord) (format : LogFormat) (elapsed : String) : String :=
  (match format with
    | .text => r.row elapsed
    | .json => r.object elapsed) ++ "\n"

end LogRecord

end TradeFlow
