import TradeFlow.Text.Literal
import TradeFlow.Value

/-!
Writing JSON with two spaces of indentation.

Characters with a meaning in markup are escaped in strings besides those that every literal
escapes. A byte of no character is written as the replacement character itself; only log lines
(`LogRecord.escapeUnit`) spell that character as an escape.
-/

namespace TradeFlow

/-- JSON that is ready to be laid out: atoms are written as they are. -/
inductive JsonLayout where
  | atom (text : String)
  | array (items : List JsonLayout)
  | object (members : List (String × JsonLayout))
  deriving Repr

namespace JsonLayout

/-- One character of a string. -/
def escape (c : Char) : List Char :=
  if c = '<' ∨ c = '>' ∨ c = '&' then '\\' :: 'u' :: hexDigits 4 c.toNat else Literal.escape c

def stringText (s : String) : String :=
  String.ofList (Literal.writeWith escape (repaired s).toList)

def string (s : String) : JsonLayout := .atom (stringText s)

def int (i : Int) : JsonLayout := .atom (intText i)

def bool (b : Bool) : JsonLayout := .atom (if b then "true" else "false")

/-- A number, if it is finite. -/
def float? (x : Binary64) : Option JsonLayout :=
  if x.isFinite then some (.atom (NumberFormat.object.text x)) else none

/-- A point in time, if its offset is less than a day. -/
def instantText? (t : Instant) : Option String :=
  if t.offset.natAbs < 24 * 60 then some t.document else none

/-- The name of a member for a key: strings, whole numbers and points in time have one. -/
def keyName? : Value → Option String
  | .string s => some s
  | .int i => some (intText i)
  | .int64 i => some (intText i)
  | .uint64 n => some (intText n)
  | .instant t => instantText? t
  | _ => none

/-- Members in the order of their names. -/
def sortMembers (members : List (String × JsonLayout)) : List (String × JsonLayout) :=
  sortBy (fun a b => precedes a.1 b.1) members

mutual

/-- The layout of a value. Numbers that are not finite have none, and neither do mappings with a key
that has no name. -/
def ofValue? : Value → Option JsonLayout
  | .null => some (.atom "null")
  | .bool b => some (bool b)
  | .int i => some (int i)
  | .int64 i => some (int i)
  | .uint64 n => some (int n)
  | .float x => float? x
  | .string s => some (string s)
  | .strings ss => some (.array (ss.map string))
  | .list vs => (ofValues? vs).map .array
  | .map entries => (ofEntries? entries).map .object
  | .keyed entries => (ofKeyed? entries).map fun members => .object (sortMembers members)
  | .instant t => (instantText? t).map string

/-- The layouts of the values of a list. -/
def ofValues? : List Value → Option (List JsonLayout)
  | [] => some []
  | v :: rest =>
    match ofValue? v, ofValues? rest with
    | some item, some items => some (item :: items)
    | _, _ => none

/-- The layouts of the entries of a mapping. -/
def ofEntries? : List (String × Value) → Option (List (String × JsonLayout))
  | [] => some []
  | (key, v) :: rest =>
    match ofValue? v, ofEntries? rest with
    | some item, some items => some ((key, item) :: items)
    | _, _ => none

/-- The layouts of the entries of a mapping with any keys. -/
def ofKeyed? : List (Value × Value) → Option (List (String × JsonLayout))
  | [] => some []
  | (key, v) :: rest =>
    match keyName? key, ofValue? v, ofKeyed? rest with
    | some name, some item, some items => some ((name, item) :: items)
    | _, _, _ => none

end

/-- A line break and the indentation of a depth. -/
def newline (depth : Nat) : String := "\n" ++ String.ofList (List.replicate (2 * depth) ' ')

/-- The name of a member. -/
def keyText (key : String) : String := stringText key ++ ": "

mutual

/-- The text of a layout at a depth. -/
def text (depth : Nat) : JsonLayout → String
  | .atom s => s
  | .array [] => "[]"
  | .array (item :: items) =>
    "[" ++ newline (depth + 1) ++ item.text (depth + 1) ++ itemsText (depth + 1) items
      ++ newline depth ++ "]"
  | .object [] => "\x7b\x7d"
  | .object ((key, item) :: members) =>
    "\x7b" ++ newline (depth + 1) ++ keyText key ++ item.text (depth + 1)
      ++ membersText (depth + 1) members ++ newline depth ++ "\x7d"

/-- The items of an array after the first. -/
def itemsText (depth : Nat) : List JsonLayout → String
  | [] => ""
  | item :: rest => "," ++ newline depth ++ item.text depth ++ itemsText depth rest

/-- The members of an object after the first. -/
def membersText (depth : Nat) : List (String × JsonLayout) → String
  | [] => ""
  | (key, item) :: rest =>
    "," ++ newline depth ++ keyText key ++ item.text depth ++ membersText depth rest

end

end JsonLayout

end TradeFlow
