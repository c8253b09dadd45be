import TradeFlow.Operator
import TradeFlow.Program.Scope
import TradeFlow.Text.Literal

/-!
Expressions of strategy programs.

What a statement reads is either an expression bound to a node output (`Source`) or an argument
made from settings (`Argument`). Text from settings appears only as a string literal that records
which setting it shows (`TextLiteral`); the one exception is the field of a condition.
-/

namespace TradeFlow

/-- Reads a path of fields, each only if what stands before it is there. -/
def optionalField (base : String) (path : List String) : String :=
  path.foldl (fun text field => text ++ "?." ++ field) base

/-- The column of a candle row that holds a field. The timestamp is column zero, and fields that a
candle does not have read the closing price. -/
def candleColumn (field : String) : Nat :=
  match field with
  | "open" => 1
  | "high" => 2
  | "low" => 3
  | "close" => 4
  | "volume" => 5
  | _ => 4

/-- Reads a field of the latest candle. -/
def lastCandleField (base field : String) : String :=
  optionalField base
    ["payload", "candles", "slice(-1)", "[0]", "[" ++ String.ofList (natText (candleColumn field)) ++ "]"]

/-- A comparison of two expressions. -/
def comparison (left symbol right : String) : String := left ++ " " ++ symbol ++ " " ++ right

/-- An expression times a factor with four places. -/
def scaled (base : String) (factor : Decimal) : String := base ++ " * " ++ factor.fixed 4

/-- The expressions that node outputs stand for. -/
inductive Source where
  /-- The time of the run. -/
  | timestamp
  /-- The result of a fetch. -/
  | result (v : Variable)
  /-- The instruments in the result of a persistence query. -/
  | instruments (v : Variable)
  /-- The symbol of a loop item. -/
  | symbol (v : Variable)
  deriving DecidableEq, Repr

def Source.text : Source → String
  | .timestamp => Capability.currentTimestamp.name
  | .result v => v.name
  | .instruments v => v.name ++ "?.instruments ?? []"
  | .symbol v => v.name ++ ".nseSymbol"

/-- The variable that an expression reads. -/
def Source.reads? : Source → Option Variable
  | .timestamp => none
  | .result v => some v
  | .instruments v => some v
  | .symbol v => some v

/-- The setting that a string literal shows. -/
inductive SettingRef where
  /-- A setting of the strategy itself. -/
  | strategy (key : String)
  /-- One of the tags of the strategy. -/
  | tag (index : Nat)
  /-- A setting of a node. -/
  | node (id : String) (key : String)
  deriving DecidableEq, Repr

/-- A string literal with the text of a setting. -/
structure TextLiteral where
  setting : SettingRef
  value : String
  deriving DecidableEq, Repr

/-- A byte of no character stands in the literal as the replacement character itself. -/
def TextLiteral.text (l : TextLiteral) : String := Literal.ofString (repaired l.value)

/-- Stands where a datetime is needed and none is given. -/
def datetimePlaceholder : String := "YYYY-MM-DDTHH:mm:ss"

/-- What a call passes in a field. -/
inductive Argument where
  /-- What a connection brings. -/
  | bound (s : Source)
  /-- The time of the run. -/
  | now
  | literal (l : TextLiteral)
  | placeholder
  | number (x : Binary64)
  | scaled (s : Source) (factor : Decimal)
  deriving DecidableEq, Repr

def Argument.text : Argument → String
  | .bound s => s.text
  | .now => Capability.currentTimestamp.name
  | .literal l => l.text
  | .placeholder => Literal.ofString datetimePlaceholder
  | .number x => x.literal
  | .scaled s factor => TradeFlow.scaled s.text factor

/-- The source that an argument reads. -/
def Argument.source? : Argument → Option Source
  | .bound s => some s
  | .scaled s _ => some s
  | _ => none

/-- The condition of a branch: a field of the connected value compared with a number. -/
structure Condition where
  value : Option (Binding Source)
  field : String
  operator : Operator
  compareValue : Binary64
  deriving DecidableEq, Repr

namespace Condition

/-- How the field is read: the shape of the value decides where it lies. -/
def access (c : Condition) : String :=
  match c.value with
  | some ⟨source, .quote⟩ => optionalField source.text ["payload", c.field]
  | some ⟨source, .candle⟩ => lastCandleField source.text c.field
  | some ⟨source, .generic⟩ => optionalField source.text [c.field]
  | none => optionalField "null" [c.field]

def text (c : Condition) : String :=
  comparison c.access c.operator.symbol c.compareValue.literal

end Condition

end TradeFlow
