import TradeFlow.Text.Literal
import TradeFlow.Value

/-!
Reading JSON.

`Json.read?` takes one value from the front of a text. Numbers keep their decimal digits, and
objects keep their members in order, repeated names included; what a reader of documents or
settings makes of them is its own affair. Collections are opened at most 10000 levels deep.
-/

namespace TradeFlow

/-- The number `digits * 10 ^ exponent`, and whether it was written with digits alone. -/
structure JsonNumber where
  negative : Bool
  digits : Nat
  exponent : Int
  whole : Bool
  deriving DecidableEq, Repr

/-- A JSON value. -/
inductive Json where
  | null
  | bool (b : Bool)
  | number (n : JsonNumber)
  | string (s : String)
  | array (items : List Json)
  | object (members : List (String × Json))
  deriving Repr

namespace JsonNumber

/-- The nearest double. -/
def toBinary64 (n : JsonNumber) : Binary64 := Binary64.ofDecimal n.negative n.digits n.exponent

/-- The integer that a number without point and exponent stands for. -/
def toInt? (n : JsonNumber) : Option Int :=
  if n.whole then some (if n.negative then -n.digits else n.digits) else none

end JsonNumber

namespace Json

def isSpace (c : Char) : Bool := c == ' ' || c == '\t' || c == '\n' || c == '\r'

def skipSpace (text : List Char) : List Char := text.dropWhile isSpace

/-- The number that a list of digits stands for, after the digits read before. -/
def digitsValue (before : Nat) (digits : List Char) : Nat :=
  digits.foldl (fun n c => n * 10 + (c.toNat - 0x30)) before

/-- At least one digit. -/
def digits? (text : List Char) : Option (List Char × List Char) :=
  let digits := text.takeWhile Char.isDigit
  if digits.isEmpty then none else some (digits, text.dropWhile Char.isDigit)

/-- Digits without a leading zero, unless zero is all there is. -/
def integer? : List Char → Option (List Char × List Char)
  | '0' :: rest => some (['0'], rest)
  | text => digits? text

/-- The digits after a point. -/
def fraction? : List Char → Option (List Char × List Char)
  | '.' :: rest => digits? rest
  | text => some ([], text)

/-- The exponent, if there is one. -/
def exponent? : List Char → Option (Option Int × List Char)
  | c :: rest =>
    if c = 'e' ∨ c = 'E' then
      let (negative, rest) :=
        match rest with
        | '-' :: rest => (true, rest)
        | '+' :: rest => (false, rest)
        | rest => (false, rest)
      (digits? rest).map fun (digits, rest) =>
        let n : Int := digitsValue 0 digits
        (some (if negative then -n else n), rest)
    else some (none, c :: rest)
  | [] => some (none, [])

/-- A number from the front of a text. -/
def number? (text : List Char) : Option (JsonNumber × List Char) := do
  let (negative, text) :=
    match text with
    | '-' :: rest => (true, rest)
    | text => (false, text)
  let (integer, text) ← integer? text
  let (fraction, text) ← fraction? text
  let (exponent, text) ← exponent? text
  return ({ negative
            digits := digitsValue (digitsValue 0 integer) fraction
            exponent := exponent.getD 0 - fraction.length
            whole := fraction.isEmpty && exponent.isNone }, text)

mutual

/-- A value from the front of a text. The first argument says how many collections may still be
opened inside each other, and the second one bounds the depth of the search. -/
def value? : Nat → Nat → List Char → Option (Json × List Char)
  | _, 0, _ => none
  | levels, depth + 1, text =>
    match skipSpace text with
    | 'n' :: 'u' :: 'l' :: 'l' :: rest => some (.null, rest)
    | 't' :: 'r' :: 'u' :: 'e' :: rest => some (.bool true, rest)
    | 'f' :: 'a' :: 'l' :: 's' :: 'e' :: rest => some (.bool false, rest)
    | '"' :: rest =>
      (Literal.readInside? rest).map fun (s, rest) => (.string (String.ofList s), rest)
    | '[' :: rest =>
      match levels, skipSpace rest with
      | 0, _ => none
      | _, ']' :: rest => some (.array [], rest)
      | levels + 1, rest =>
        (elements? levels depth rest).map fun (items, rest) => (.array items, rest)
    | '\x7b' :: rest =>
      match levels, skipSpace rest with
      | 0, _ => none
      | _, '\x7d' :: rest => some (.object [], rest)
      | levels + 1, rest =>
        (members? levels depth rest).map fun (members, rest) => (.object members, rest)
    | text => (number? text).map fun (n, rest) => (.number n, rest)

/-- The values of an array and its closing bracket. -/
def elements? : Nat → Nat → List Char → Option (List Json × List Char)
  | _, 0, _ => none
  | levels, depth + 1, text =>
    match value? levels depth text with
    | none => none
    | some (item, rest) =>
      match skipSpace rest with
      | ',' :: rest =>
        (elements? levels depth rest).map fun (items, rest) => (item :: items, rest)
      | ']' :: rest => some ([item], rest)
      | _ => none

/-- The members of an object and its closing brace. -/
def members? : Nat → Nat → List Char → Option (List (String × Json) × List Char)
  | _, 0, _ => none
  | levels, depth + 1, text =>
    match Literal.read? (skipSpace text) with
    | none => none
    | some (name, rest) =>
      match skipSpace rest with
      | ':' :: rest =>
        match value? levels depth rest with
        | none => none
        | some (item, rest) =>
          let member := (String.ofList name, item)
          match skipSpace rest with
          | ',' :: rest =>
            (members? levels depth rest).map fun (members, rest) => (member :: members, rest)
          | '\x7d' :: rest => some ([member], rest)
          | _ => none
      | _ => none

end

/-- How many collections may be opened inside each other. -/
def maxLevels : Nat := 10000

/-- One value from the front of a text, and what follows it. Every second step consumes a
character, which bounds the depth. -/
def read? (text : List Char) : Option (Json × List Char) :=
  value? maxLevels (2 * text.length + 2) text

/-- The value that a whole text stands for. -/
def ofText? (text : List Char) : Option Json :=
  match read? text with
  | some (json, rest) => if (skipSpace rest).isEmpty then some json else none
  | none => none

mutual

/-- The loosely typed value. Numbers too large for a double are refused. -/
def toValue? : Json → Option Value
  | .null => some .null
  | .bool b => some (.bool b)
  | .number n => if n.toBinary64.isFinite then some (.float n.toBinary64) else none
  | .string s => some (.string s)
  | .array items => (toValues? items).map .list
  | .object members => (toPairs? members).map fun pairs => .map (Entries.ofList pairs)

/-- The values of an array. -/
def toValues? : List Json → Option (List Value)
  | [] => some []
  | item :: rest =>
    match item.toValue?, toValues? rest with
    | some v, some vs => some (v :: vs)
    | _, _ => none

/-- The members of an object. -/
def toPairs? : List (String × Json) → Option (List (String × Value))
  | [] => some []
  | (name, item) :: rest =>
    match item.toValue?, toPairs? rest with
    | some v, some vs => some ((name, v) :: vs)
    | _, _ => none

end

/-- The entries of a whole text: an object, or nothing at all for `null`. -/
def entriesOfText? (text : String) : Option Entries := do
  match ← ofText? text.toList with
  | .null => some []
  | .object members => (toPairs? members).map Entries.ofList
  | _ => none

end Json

end TradeFlow
