import TradeFlow.Text.Quoted

/-!
Comparison operators of conditions.
-/

namespace TradeFlow

/-- A comparison. -/
inductive Operator where
  | greater
  | less
  | greaterEqual
  | lessEqual
  | equal
  | notEqual
  deriving DecidableEq, Repr

namespace Operator

/-- Every operator, in the order in which they are offered. -/
def all : List Operator := [.greater, .less, .greaterEqual, .lessEqual, .equal, .notEqual]

def symbol : Operator → String
  | .greater => ">"
  | .less => "<"
  | .greaterEqual => ">="
  | .lessEqual => "<="
  | .equal => "=="
  | .notEqual => "!="

def ofSymbol? (s : String) : Option Operator := all.find? (·.symbol == s)

/-- Why a text is no operator. -/
def unknownMessage (s : String) : String := "unknown operator: " ++ quoted s

end Operator

end TradeFlow
