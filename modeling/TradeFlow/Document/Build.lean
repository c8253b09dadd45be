import TradeFlow.Document.Validate
import TradeFlow.Graph.Edit

/-!
From documents to graphs and back.

Building inserts the nodes and then makes the connections, in the order of the document and by the
rules of editing. What is refused is reported, and the graph holds the rest. Settings that a
document does not give take the defaults of their kind.
-/

namespace TradeFlow

/-- A setting of a node with a value that cannot be used. -/
structure FieldError where
  node : String
  cause : ChoiceError
  deriving Repr

def FieldError.message (e : FieldError) : String := "node " ++ e.node ++ ": " ++ e.cause.message

/-- What was refused while a graph was built. -/
inductive BuildError where
  | fields (errors : List FieldError)
  | node (e : EditError)
  | unknownKind (id : String) (e : EditError)
  | connection (e : ConnectionError)
  deriving Repr

def BuildError.message : BuildError → String
  | .fields errors => "\n".intercalate (errors.map FieldError.message)
  | .node e => e.message
  | .unknownKind id e => "node " ++ id ++ ": " ++ e.message
  | .connection e => e.message

/-- Reads entries on top of sealed settings; anything else stays as it is. -/
def NodeConfig.overlay (base : NodeConfig) (node : String) (c : Entries) :
    NodeConfig × List FieldError :=
  match base with
  | .sealed s =>
    let (s, errors) := s.overlay c
    (.sealed s, errors.map fun cause => { node, cause })
  | other => (other, [])

/-- The entries of the settings of a node; drafts and bare nodes have none. -/
def NodeConfig.entries? : NodeConfig → Option Entries
  | .sealed s => s.entries?
  | _ => none

namespace Document

/-- Inserts a node of a document. -/
def buildNode (g : Graph) (n : DocumentNode) : Graph × List BuildError :=
  match Kind.ofName? n.kind with
  | none => (g, [.unknownKind n.id (.unknownKind n.kind)])
  | some kind =>
    let (config, errors) := (NodeConfig.sealed (Settings.default kind)).overlay n.id
      (n.config.getD [])
    let fieldErrors := if errors.isEmpty then [] else [BuildError.fields errors]
    match g.insert { id := n.id, position := n.position, config } with
    | .ok g => (g, fieldErrors)
    | .error e => (g, fieldErrors ++ [.node e])

/-- Inserts the nodes of a document in order. -/
def buildNodes (g : Graph) : List DocumentNode → Graph × List BuildError
  | [] => (g, [])
  | n :: rest =>
    let (g, errors) := buildNode g n
    let (g, more) := buildNodes g rest
    (g, errors ++ more)

/-- Makes the connections of a document in order. -/
def buildConnections (e : Editor) : List Connection → Editor × List BuildError
  | [] => (e, [])
  | c :: rest =>
    let (result, e) := e.connect c.toLink c.id
    let (e, more) := buildConnections e rest
    match result with
    | .ok _ => (e, more)
    | .error error => (e, .connection error :: more)

/-- Builds the graph of a document. Only a document that breaks a rule has none. -/
def build (d : Document) (supply : IdSupply) :
    Except DocumentError (Editor × List BuildError) := do
  d.validate
  let (graph, nodeErrors) := buildNodes Graph.empty d.nodeList
  let (e, connectionErrors) := buildConnections { graph, supply } d.connectionList
  return (e, nodeErrors ++ connectionErrors)

/-- The document of a graph, with every setting written out; a bare node has no place in one. -/
def ofGraph? (g : Graph) : Option Document := do
  let nodes ← g.nodes.mapM fun n => do
    let kind ← n.kind?
    return { id := n.id, kind := kind.name, position := n.position, config := n.config.entries? }
  return { version := currentVersion, nodes := some nodes, connections := some g.connections }

end Document

/-- Why settings cannot be applied. -/
inductive SettingsError where
  | noConfigNode
  | fields (errors : List FieldError)
  | node (e : EditError)
  deriving Repr

def SettingsError.message : SettingsError → String
  | .noConfigNode => "apply settings: no strategy config node"
  | .fields errors => "\n".intercalate (errors.map FieldError.message)
  | .node e => e.message

/-- Reads entries on top of the settings of the node that a compilation starts from. -/
def Graph.applySettings (g : Graph) (c : Entries) : Except SettingsError Graph :=
  match g.root? with
  | none => .error .noConfigNode
  | some (root, _) =>
    let (config, errors) := root.config.overlay root.id c
    if errors.isEmpty then (g.setConfig root.id config).mapError .node
    else .error (.fields errors)

end TradeFlow
