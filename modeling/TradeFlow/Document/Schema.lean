import TradeFlow.Json.Writer
import TradeFlow.Settings

/-!
The JSON Schema of documents.
-/

namespace TradeFlow.Schema

open JsonLayout (string int bool)

/-- A list of strings. -/
def names (ss : List String) : JsonLayout := .array (ss.map string)

/-- The parts of a schema that tell a reader what it is about. -/
def described (title description : String) : List (String × JsonLayout) :=
  [("title", string title), ("description", string description)]

def titled (title : String) : List (String × JsonLayout) := [("title", string title)]

/-- A value of a type. -/
def typed (type : String) (more : List (String × JsonLayout)) : JsonLayout :=
  .object (("type", string type) :: more)

/-- The members of an object that has no others. -/
def closed (properties : List (String × JsonLayout)) (required : List String) :
    List (String × JsonLayout) :=
  [("properties", .object properties), ("additionalProperties", bool false),
    ("type", string "object"), ("required", names required)]

/-- A list of objects. -/
def listOf (item : List (String × JsonLayout)) (title description : String) : JsonLayout :=
  .object ([("items", .object item), ("type", string "array")] ++ described title description)

def position : JsonLayout :=
  .object (closed [("x", typed "number" []), ("y", typed "number" [])] ["x", "y"]
    ++ titled "Position")

def node : List (String × JsonLayout) :=
  closed
    [("id", typed "string" (titled "ID")),
      ("kind", typed "string" (("enum", names (Kind.all.map Kind.name)) :: titled "Kind")),
      ("position", position),
      ("config", typed "object" (described "Config"
        "Kind-specific settings. Missing keys take the kind's defaults"))]
    ["id", "kind", "position"]

def connection : List (String × JsonLayout) :=
  closed
    [("id", typed "string" (described "ID" "Generated when empty")),
      ("source", typed "string" []), ("sourceOutput", typed "string" []),
      ("target", typed "string" []), ("targetInput", typed "string" [])]
    ["source", "sourceOutput", "target", "targetInput"]

def document : JsonLayout :=
  .object
    ([("$schema", string "https://json-schema.org/draft/2020-12/schema"),
      ("$id",
        string "https://github.com/randalmurphal/stratgraph/pkg/stratgraph/document/document")]
      ++ closed
        [("version", typed "integer"
          (("enum", .array [int 1]) :: described "Version" "Document format version")),
          ("nodes", listOf node "Nodes"
            "Nodes in insertion order. The first StrategyConfig is the program root"),
          ("connections", listOf connection "Connections"
            "Edges from an output port to an input port")]
        ["version", "nodes", "connections"])

/-- The text of the schema. -/
def text : String := document.text 0

end TradeFlow.Schema
