import TradeFlow.Text.Utf8
import TradeFlow.Value

/-!
What the text of a scalar stands for.

A plain scalar is read as the first of these that fits: a word for nothing, a truth value, a
special number, a timestamp, a whole number, a number; all else is a string. A tag asks for a
reading of one kind, and the text must have it.
-/

namespace TradeFlow.Yaml

/-! ## Numbers -/

/-- The value of a digit in a base. -/
def digit? (base : Nat) (c : Char) : Option Nat := (Literal.hexValue? c).filter (· < base)

/-- A number in a base, all of the text. -/
def digits? (base : Nat) (text : List Char) : Option Nat :=
  if text.isEmpty then none
  else text.foldlM (fun n c => (digit? base c).map fun d => n * base + d) 0

/-- A sign, if there is one, and the rest. -/
def sign : List Char → Option Bool × List Char
  | '-' :: rest => (some true, rest)
  | '+' :: rest => (some false, rest)
  | text => (none, text)

/-- A number whose first digits name its base: `0x`, `0b` and `0o`, or a leading zero for eight. -/
def based? (text : List Char) : Option Nat :=
  match text with
  | ['0'] => some 0
  | '0' :: c :: rest =>
    if c = 'x' ∨ c = 'X' then digits? 16 rest
    else if c = 'b' ∨ c = 'B' then digits? 2 rest
    else if c = 'o' ∨ c = 'O' then digits? 8 rest
    else digits? 8 (c :: rest)
  | text => digits? 10 text

/-- A whole number that fits 64 bits; only without a sign may it need all of them. -/
def wholeValue? (sign : Option Bool) (magnitude : Nat) : Option Value :=
  if sign = some true then
    if magnitude ≤ Nat.pow 2 63 then some (.int (-magnitude)) else none
  else if magnitude < Nat.pow 2 63 then some (.int magnitude)
  else if sign = none ∧ magnitude < Nat.pow 2 64 then some (.uint64 magnitude)
  else none

/-- A whole number with its sign in front. -/
def whole? (text : List Char) : Option Value :=
  let (negative, text) := sign text
  (based? text).bind (wholeValue? negative)

/-- A whole number with its sign behind the letter of the base. -/
def wholeSignInside? : List Char → Option Value
  | '0' :: c :: rest =>
    let (negative, rest) := sign rest
    if c = 'b' then (digits? 2 rest).bind (wholeValue? negative)
    else if c = 'o' then (digits? 8 rest).bind (wholeValue? negative)
    else none
  | _ => none

/-- An exponent, all of the text; without one it is zero. -/
def exponent? : List Char → Option Int
  | [] => some 0
  | c :: rest =>
    if c = 'e' ∨ c = 'E' then
      let (negative, rest) := sign rest
      (digits? 10 rest).map fun n => if negative = some true then -(n : Int) else n
    else none

/-- A decimal with an optional sign, point and exponent. -/
def decimal? (text : List Char) : Option Binary64 := do
  let (negative, text) := sign text
  let integer := text.takeWhile Char.isDigit
  let rest := text.dropWhile Char.isDigit
  let (fraction, rest) :=
    match rest with
    | '.' :: rest => (rest.takeWhile Char.isDigit, rest.dropWhile Char.isDigit)
    | rest => ([], rest)
  let exponent ← exponent? rest
  let digits ← digits? 10 (integer ++ fraction)
  return Binary64.ofDecimal (negative = some true) digits (exponent - fraction.length)

/-- A decimal that does not overflow. -/
def finite? (text : List Char) : Option Binary64 := (decimal? text).filter Binary64.isFinite

/-- Whether every underscore stands between two digits. -/
def underscoresInside : Bool → List Char → Bool
  | _, [] => true
  | afterDigit, '_' :: rest =>
    afterDigit && (rest.head?.any Char.isDigit) && underscoresInside false rest
  | _, c :: rest => underscoresInside c.isDigit rest

/-- The text without underscores. -/
def withoutUnderscores (text : List Char) : List Char := text.filter (· != '_')

/-! ## Words -/

/-- The words with a meaning. -/
def words : List (String × Value) :=
  [("", .null), ("~", .null), ("null", .null), ("Null", .null), ("NULL", .null),
    ("true", .bool true), ("True", .bool true), ("TRUE", .bool true),
    ("false", .bool false), ("False", .bool false), ("FALSE", .bool false),
    (".nan", .float .nan), (".NaN", .float .nan), (".NAN", .float .nan),
    (".inf", .float (.infinity false)), (".Inf", .float (.infinity false)),
    (".INF", .float (.infinity false)), ("+.inf", .float (.infinity false)),
    ("+.Inf", .float (.infinity false)), ("+.INF", .float (.infinity false)),
    ("-.inf", .float (.infinity true)), ("-.Inf", .float (.infinity true)),
    ("-.INF", .float (.infinity true))]

/-- Whether a text may be a number or a timestamp by its first character. -/
def startsNumber : List Char → Bool
  | c :: _ => c.isDigit || c == '+' || c == '-'
  | [] => false

/-- The number or timestamp that a text stands for. -/
def numeric? (text : List Char) : Option Value :=
  if startsNumber text then
    let digits := withoutUnderscores text
    ((Instant.ofText? text).map .instant) <|> whole? digits <|> ((finite? digits).map .float)
      <|> wholeSignInside? digits
  else if text.head? = some '.' ∧ underscoresInside false text then
    (finite? (withoutUnderscores text)).map .float
  else none

/-- What a plain scalar stands for. -/
def plainValue (text : String) : Value :=
  match words.lookup text with
  | some value => value
  | none => (numeric? text.toList).getD (.string text)

/-! ## Tags -/

/-- The tag of a value that a plain scalar can stand for. -/
def valueTag : Value → String
  | .null => "!!null"
  | .bool _ => "!!bool"
  | .int _ => "!!int"
  | .int64 _ => "!!int"
  | .uint64 _ => "!!int"
  | .float _ => "!!float"
  | .instant _ => "!!timestamp"
  | _ => "!!str"

/-- What the text of a scalar with a tag stands for. Whole numbers are numbers too; tags without a
meaning leave the text as it is. -/
def taggedValue? (tag : String) (text : String) : Option Value :=
  let value := plainValue text
  match tag with
  | "!!str" => some (.string text)
  | "!!binary" =>
    (Base64.decode? text.toList).map fun bytes => .string (String.ofList (Utf8.decode bytes))
  | "!!float" =>
    match value with
    | .float x => some (.float x)
    | .int i => some (.float (Binary64.ofInt i))
    | _ => none
  | tag =>
    if ["!!null", "!!bool", "!!int", "!!timestamp"].contains tag then
      if valueTag value = tag then some value else none
    else some (.string text)

end TradeFlow.Yaml
