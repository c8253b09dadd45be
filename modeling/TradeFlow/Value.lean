import TradeFlow.Instant
import TradeFlow.Text.Stray

/-!
Loosely typed values, as they are read from documents and settings files.

A mapping lists its entries by increasing key. Whole numbers remember the width they were read
with, and lists of strings are told apart from lists of values, because readers of settings treat
them alike while messages about refused values show them as they are.
-/

namespace TradeFlow

/-- A value of a document. -/
inductive Value where
  | null
  | bool (b : Bool)
  | int (i : Int)
  | int64 (i : Int)
  | uint64 (n : Nat)
  | float (x : Binary64)
  | string (s : String)
  | strings (ss : List String)
  | list (vs : List Value)
  | map (entries : List (String × Value))
  /-- A mapping whose keys are not all strings. -/
  | keyed (entries : List (Value × Value))
  | instant (t : Instant)
  deriving Repr, BEq

instance : Inhabited Value := ⟨.null⟩

/-! ## Order -/

/-- Puts an item into a sorted list, behind the items that it does not come before. -/
def insertBy {α : Type} (before : α → α → Bool) (a : α) : List α → List α
  | [] => [a]
  | b :: rest => if before a b then a :: b :: rest else b :: insertBy before a rest

/-- The items in order; items of which neither comes before the other keep their order. -/
def sortBy {α : Type} (before : α → α → Bool) (items : List α) : List α :=
  items.foldl (fun sorted a => insertBy before a sorted) []

/-- The entries of a mapping, by increasing key. -/
abbrev Entries := List (String × Value)

namespace Entries

/-- Puts a value under a key, in place of what was there. -/
def insert (key : String) (value : Value) : Entries → Entries
  | [] => [(key, value)]
  | (k, v) :: rest =>
    if precedes key k then (key, value) :: (k, v) :: rest
    else if key = k then (key, value) :: rest
    else (k, v) :: insert key value rest

/-- The entries of a list of pairs; the last value of a key stays. -/
def ofList (pairs : List (String × Value)) : Entries :=
  pairs.foldl (fun entries (key, value) => insert key value entries) []

/-- The value under a key. -/
def get? (entries : Entries) (key : String) : Option Value := entries.lookup key

end Entries

namespace Value

mutual

/-- The text of a value in messages. -/
def text : Value → String
  | .null => "<nil>"
  | .bool b => if b then "true" else "false"
  | .int i => intText i
  | .int64 i => intText i
  | .uint64 n => String.ofList (natText n)
  | .float x => NumberFormat.message.text x
  | .string s => s
  | .strings ss => "[" ++ " ".intercalate ss ++ "]"
  | .list vs => "[" ++ " ".intercalate (listTexts vs) ++ "]"
  | .map entries => "map[" ++ " ".intercalate (mapTexts entries) ++ "]"
  | .keyed entries => "map[" ++ " ".intercalate (keyedTexts entries) ++ "]"
  | .instant t => t.message

/-- The texts of the values of a list. -/
def listTexts : List Value → List String
  | [] => []
  | v :: rest => v.text :: listTexts rest

/-- The texts of the entries of a mapping. -/
def mapTexts : List (String × Value) → List String
  | [] => []
  | (key, v) :: rest => (key ++ ":" ++ v.text) :: mapTexts rest

/-- The texts of the entries of a mapping with any keys. -/
def keyedTexts : List (Value × Value) → List String
  | [] => []
  | (key, v) :: rest => (key.text ++ ":" ++ v.text) :: keyedTexts rest

end

end Value

end TradeFlow
