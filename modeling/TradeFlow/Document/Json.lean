import TradeFlow.Document.Validate
import TradeFlow.Json.Reader
import TradeFlow.Json.Writer

/-!
Documents in JSON.

The first value of a text is the document; what follows it is not read. Field names match without
regard to case, unknown names are refused, and `null` leaves a field as it is. A name that occurs
again is read on top of what was read before.
-/

namespace TradeFlow

namespace Document

/-- The character by which letters are compared without regard to case. -/
def foldChar (c : Char) : Char :=
  if c.toNat = 0x17f then 'S' else if c.toNat = 0x212a then 'K' else c.toUpper

/-- The field that a name stands for: the field itself, or one that differs in case alone. -/
def fieldOf? (fields : List String) (name : String) : Option String :=
  let fold := fun (s : String) => s.toList.map foldChar
  (fields.find? (· == name)).or (fields.find? fun f => fold f == fold name)

def jsonString? (before : String) : Json → Option String
  | .null => some before
  | .string s => some s
  | _ => none

def jsonFloat? (before : Binary64) : Json → Option Binary64
  | .null => some before
  | .number n => if n.toBinary64.isFinite then some n.toBinary64 else none
  | _ => none

def jsonInt? (before : Int) : Json → Option Int
  | .null => some before
  | .number n => n.toInt?.filter Value.fitsInt64
  | _ => none

/-- Reads the members of an object on top of a value, each by its field. -/
def jsonObject? {α : Type} (fields : List String) (read : String → Json → α → Option α)
    (before : α) : Json → Option α
  | .null => some before
  | .object members =>
    members.foldlM (fun current (name, value) => do
      let field ← fieldOf? fields name
      read field value current) before
  | _ => none

/-- A list while it is read. When a shorter list is read on top of it, the items behind the shorter
one are kept in reserve, and a longer list is read on top of them again. -/
structure Slots (α : Type) where
  items : Option (List α) := none
  reserve : List α := []

/-- Reads the items of an array, each on top of the item that was at its place before, and gives
what was behind them as well. -/
def jsonItems? {α : Type} (read : α → Json → Option α) (blank : α) :
    List α → List Json → Option (List α × List α)
  | before, [] => some ([], before)
  | before, item :: items => do
    let value ← read (before.headD blank) item
    let (rest, reserve) ← jsonItems? read blank before.tail items
    return (value :: rest, reserve)

/-- Reads a list. `null` stands for no list at all; neither it nor an empty list keeps anything in
reserve. -/
def jsonList? {α : Type} (read : α → Json → Option α) (blank : α) (before : Slots α) :
    Json → Option (Slots α)
  | .null => some {}
  | .array [] => some { items := some [] }
  | .array items =>
    (jsonItems? read blank (before.items.getD [] ++ before.reserve) items).map
      fun (items, reserve) => { items := some items, reserve }
  | _ => none

/-- Reads the settings of a node on top of those read before. -/
def jsonConfig? (before : Option Entries) : Json → Option (Option Entries)
  | .null => some none
  | .object members =>
    (Json.toPairs? members).map fun pairs =>
      some (pairs.foldl (fun entries (key, value) => Entries.insert key value entries)
        (before.getD []))
  | _ => none

def jsonPosition? (before : Position) (json : Json) : Option Position :=
  jsonObject? ["x", "y"] (fun field value (p : Position) =>
    match field with
    | "x" => (jsonFloat? p.x value).map fun x => { p with x }
    | _ => (jsonFloat? p.y value).map fun y => { p with y }) before json

def jsonNode? (before : DocumentNode) (json : Json) : Option DocumentNode :=
  jsonObject? ["id", "kind", "position", "config"] (fun field value (n : DocumentNode) =>
    match field with
    | "id" => (jsonString? n.id value).map fun id => { n with id }
    | "kind" => (jsonString? n.kind value).map fun kind => { n with kind }
    | "position" => (jsonPosition? n.position value).map fun position => { n with position }
    | _ => (jsonConfig? n.config value).map fun config => { n with config }) before json

def jsonConnection? (before : Connection) (json : Json) : Option Connection :=
  jsonObject? ["id", "source", "sourceOutput", "target", "targetInput"]
    (fun field value (c : Connection) =>
      match field with
      | "id" => (jsonString? c.id value).map fun id => { c with id }
      | "source" => (jsonString? c.source value).map fun source => { c with source }
      | "sourceOutput" =>
        (jsonString? c.sourceOutput value).map fun sourceOutput => { c with sourceOutput }
      | "target" => (jsonString? c.target value).map fun target => { c with target }
      | _ => (jsonString? c.targetInput value).map fun targetInput => { c with targetInput })
    before json

/-- A document while it is read. -/
structure Draft where
  version : Int := 0
  nodes : Slots DocumentNode := {}
  connections : Slots Connection := {}

def Draft.document (d : Draft) : Document :=
  { version := d.version, nodes := d.nodes.items, connections := d.connections.items }

/-- The document that a JSON value stands for. -/
def ofJson? (json : Json) : Option Document :=
  (jsonObject? ["version", "nodes", "connections"] (fun field value (d : Draft) =>
    match field with
    | "version" => (jsonInt? d.version value).map fun version => { d with version }
    | "nodes" =>
      (jsonList? jsonNode? DocumentNode.blank d.nodes value).map fun nodes => { d with nodes }
    | _ =>
      (jsonList? jsonConnection? blankConnection d.connections value).map
        fun connections => { d with connections }) {} json).map Draft.document

/-- The document at the front of a text. -/
def ofJsonText? (text : String) : Option Document := do
  let (json, _) ← Json.read? text.toList
  ofJson? json

/-! ## Writing -/

/-- A list, or `null` when there is none. -/
def layoutList? {α : Type} (write : α → Option JsonLayout) : Option (List α) → Option JsonLayout
  | none => some (.atom "null")
  | some items => (items.mapM write).map .array

/-- The settings of a node as the last member, left out when there are none. -/
def layoutConfig? : Option Entries → Option (List (String × JsonLayout))
  | none => some []
  | some [] => some []
  | some entries =>
    (JsonLayout.ofEntries? entries).map fun members => [("config", .object members)]

def layoutNode? (n : DocumentNode) : Option JsonLayout := do
  let x ← JsonLayout.float? n.position.x
  let y ← JsonLayout.float? n.position.y
  let config ← layoutConfig? n.config
  return .object
    ([("id", .string n.id), ("kind", .string n.kind), ("position", .object [("x", x), ("y", y)])]
      ++ config)

def layoutConnection (c : Connection) : JsonLayout :=
  .object
    ((if c.id = "" then [] else [("id", .string c.id)])
      ++ [("source", .string c.source), ("sourceOutput", .string c.sourceOutput),
        ("target", .string c.target), ("targetInput", .string c.targetInput)])

def layout? (d : Document) : Option JsonLayout := do
  let nodes ← layoutList? layoutNode? d.nodes
  let connections ← layoutList? (fun c => some (layoutConnection c)) d.connections
  return .object [("version", .int d.version), ("nodes", nodes), ("connections", connections)]

/-- The text of a document, unless it holds a value that JSON has no form for. -/
def toJsonText? (d : Document) : Option String := d.layout?.map fun l => l.text 0 ++ "\n"

end Document

end TradeFlow
