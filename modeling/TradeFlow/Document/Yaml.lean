import TradeFlow.Document.Validate
import TradeFlow.Yaml.Layout
import TradeFlow.Yaml.Tree.Parse

/-!
Documents in YAML.

Field names are written exactly, and unknown or repeated names are refused. A field that stands for
nothing is left as it is, and so is an entry of a list. Texts may be written as any scalar, and keep
the way they are written.
-/

namespace TradeFlow

open Yaml (Tree Outline Visit Fault)

namespace Document

/-! ## Reading -/

/-- A text field: the text of any scalar. -/
def yamlString (o : Outline) (before : String) (n : Tree) : Visit String :=
  return (← Visit.text? o n).getD before

/-- A field that is a scalar. Nothing leaves the field as it is, and a value that does not fit is
refused. -/
def yamlScalar {α : Type} (read? : Value → Option α) (o : Outline) (before : α) (n : Tree) :
    Visit α :=
  Visit.node o n fun n => do
    match n with
    | .scalar tag text =>
      let value ← Visit.scalar tag text
      if value == .null then return before
      match read? value with
      | some a => return a
      | none =>
        Visit.refuse
        return before
    | _ =>
      Visit.refuse
      return before

def yamlFloat : Outline → Binary64 → Tree → Visit Binary64 :=
  yamlScalar fun
    | .int i => some (Binary64.ofInt i)
    | .uint64 i => some (Binary64.ofNat i)
    | .float x => some x
    | _ => none

/-- A whole number. A number that is not whole is cut off at its point, and one below the range
becomes the least. -/
def yamlInt : Outline → Int → Tree → Visit Int :=
  yamlScalar fun
    | .int i => some i
    | .float x =>
      if x = .nan ∨ (Binary64.ofNat (Nat.pow 2 63)).lt x then none
      else some ((x.truncate?.filter Value.fitsInt64).getD (-(Nat.pow 2 63 : Nat)))
    | _ => none

/-- Takes in fields, each by its name. Next to what has been read stand the names that have been
read; a field that is unknown, or known by then, is refused. -/
def yamlFields {α : Type} (o : Outline) (fields : List String)
    (read : String → Tree → α → Visit α) : Visit.Intake String (α × List String) where
  key? := Visit.text? o
  keyValue := .string
  take := fun name n (before, names) => do
    if fields.contains name && !names.contains name then
      return (← read name n before, name :: names)
    else
      Visit.refuse
      return (before, names)

/-- Reads the pairs of a mapping on top of a value, each by its field. Nothing, and a node that is
refused, has no result. -/
def yamlObject? {α : Type} (o : Outline) (depth : Nat) (fields : List String)
    (read : String → Tree → α → Visit α) (before : α) (n : Tree) : Visit (Option α) :=
  Visit.node o n fun n => do
    match n with
    | .mapping _ pairs =>
      let after ←
        Visit.mapping? o (Visit.value? o depth) (yamlFields o fields read) depth pairs (before, [])
      return after.map (·.1)
    | .scalar tag text =>
      if (← Visit.scalar tag text) != .null then Visit.refuse
      return none
    | _ =>
      Visit.refuse
      return none

/-- Reads a list without the entries that have no result. -/
def yamlList {α : Type} (o : Outline) (read? : Tree → Visit (Option α)) (n : Tree) :
    Visit (Option (List α)) :=
  Visit.node o n fun n => do
    match n with
    | .sequence _ items => return some ((← items.mapM read?).filterMap id)
    | .scalar tag text =>
      if (← Visit.scalar tag text) != .null then Visit.refuse
      return none
    | _ =>
      Visit.refuse
      return none

def yamlPosition (o : Outline) (depth : Nat) (before : Position) (n : Tree) : Visit Position := do
  let after ← yamlObject? o depth ["x", "y"] (fun field value (p : Position) =>
    match field with
    | "x" => return { p with x := ← yamlFloat o p.x value }
    | _ => return { p with y := ← yamlFloat o p.y value }) before n
  return after.getD before

def yamlNode? (o : Outline) (depth : Nat) (n : Tree) : Visit (Option DocumentNode) :=
  yamlObject? o depth ["id", "kind", "position", "config"] (fun field value (d : DocumentNode) =>
    match field with
    | "id" => return { d with id := ← yamlString o d.id value }
    | "kind" => return { d with kind := ← yamlString o d.kind value }
    | "position" => return { d with position := ← yamlPosition o depth d.position value }
    | _ => return { d with config := ← Visit.entries? o depth value }) DocumentNode.blank n

def yamlConnection? (o : Outline) (depth : Nat) (n : Tree) : Visit (Option Connection) :=
  yamlObject? o depth ["id", "source", "sourceOutput", "target", "targetInput"]
    (fun field value (c : Connection) =>
      match field with
      | "id" => return { c with id := ← yamlString o c.id value }
      | "source" => return { c with source := ← yamlString o c.source value }
      | "sourceOutput" => return { c with sourceOutput := ← yamlString o c.sourceOutput value }
      | "target" => return { c with target := ← yamlString o c.target value }
      | _ => return { c with targetInput := ← yamlString o c.targetInput value })
    blankConnection n

/-- The document that a node stands for. -/
def ofYaml (o : Outline) (depth : Nat) (n : Tree) : Visit Document := do
  let d ← yamlObject? o depth ["version", "nodes", "connections"]
    (fun field value (d : Document) =>
      match field with
      | "version" => return { d with version := ← yamlInt o d.version value }
      | "nodes" => return { d with nodes := ← yamlList o (yamlNode? o depth) value }
      | _ => return { d with connections := ← yamlList o (yamlConnection? o depth) value })
    blank n
  return d.getD blank

/-- The document of a text, which must hold one. -/
def ofYamlText (text : String) : Except Fault Document :=
  Outline.readText (.error .refused) ofYaml text

/-! ## Writing -/

open Yaml (Layout)

/-- A list; one that the document does not have is written as an empty one. -/
def yamlLayoutList {α : Type} (write : α → Layout) (items : Option (List α)) : Layout :=
  .sequence ((items.getD []).map write)

def yamlLayoutNode (n : DocumentNode) : Layout :=
  let config :=
    match n.config.getD [] with
    | [] => []
    | entries => [("config", Layout.ofEntries entries)]
  .fields
    ([("id", Layout.string n.id), ("kind", Layout.string n.kind),
      ("position", .fields
        [("x", Layout.float n.position.x), ("y", Layout.float n.position.y)])] ++ config)

def yamlLayoutConnection (c : Connection) : Layout :=
  .fields
    ((if c.id = "" then [] else [("id", Layout.string c.id)])
      ++ [("source", Layout.string c.source), ("sourceOutput", Layout.string c.sourceOutput),
        ("target", Layout.string c.target), ("targetInput", Layout.string c.targetInput)])

/-- The text of a document. -/
def toYamlText (d : Document) : String :=
  (Layout.fields
    [("version", Layout.int d.version), ("nodes", yamlLayoutList yamlLayoutNode d.nodes),
      ("connections", yamlLayoutList yamlLayoutConnection d.connections)]).text

end Document

end TradeFlow
