import TradeFlow.Catalogue

/-!
Strategy graphs.

A graph is a list of nodes and a list of connections, both in the order in which they were added.
The compiler reads graphs of any form: look-ups take the first match, and connections may lead
nowhere. `Graph.Edit` adds the operations that keep a graph well formed.
-/

namespace TradeFlow

/-- A place on the canvas. -/
structure Position where
  x : Binary64
  y : Binary64
  deriving DecidableEq, Repr

/-- What a node carries. Settings that somebody outside the graph may still change are a draft; a
graph accepts sealed settings only, and drafts are never compiled. -/
inductive NodeConfig where
  | bare
  | draft (settings : Settings)
  | sealed (settings : Settings)
  deriving DecidableEq, Repr

namespace NodeConfig

/-- The kind that the settings belong to. -/
def kind? : NodeConfig → Option Kind
  | .bare => none
  | .draft s => some s.kind
  | .sealed s => some s.kind

/-- How messages name what a node carries. -/
def typeName : NodeConfig → String
  | .bare => "<nil>"
  | .draft s => "*stratgraph." ++ s.kind.name
  | .sealed s => "stratgraph." ++ s.kind.name

end NodeConfig

/-- A vertex of a strategy graph. -/
structure Node where
  id : String
  position : Position
  config : NodeConfig
  deriving DecidableEq, Repr

namespace Node

def kind? (n : Node) : Option Kind := n.config.kind?

/-- The output with the given key, if the node has a kind and the kind has the output. -/
def output? (n : Node) (key : String) : Option Port := n.kind?.bind (·.output? key)

end Node

/-- An output of a node. -/
structure OutputRef where
  node : String
  output : String
  deriving DecidableEq, Repr

/-- An input of a node. -/
structure InputRef where
  node : String
  input : String
  deriving DecidableEq, Repr

/-- The two ends of an edge: an output and the input it feeds. -/
structure Link where
  source : String
  sourceOutput : String
  target : String
  targetInput : String
  deriving DecidableEq, Repr

namespace Link

/-- Where the edge starts. -/
def tail (l : Link) : OutputRef := ⟨l.source, l.sourceOutput⟩

/-- Where the edge ends. -/
def head (l : Link) : InputRef := ⟨l.target, l.targetInput⟩

/-- Whether the edge starts or ends at a node. -/
def touches (l : Link) (id : String) : Bool := l.source == id || l.target == id

end Link

/-- An edge with an id of its own. -/
structure Connection extends Link where
  id : String
  deriving DecidableEq, Repr

/-- Nodes and connections in the order in which they were added. -/
structure Graph where
  nodes : List Node
  connections : List Connection
  deriving DecidableEq, Repr

namespace Graph

def empty : Graph := ⟨[], []⟩

/-- The first node with an id. -/
def node? (g : Graph) (id : String) : Option Node := g.nodes.find? (·.id == id)

/-- The first connection that leaves an output. -/
def leaving? (g : Graph) (ref : OutputRef) : Option Connection :=
  g.connections.find? (·.tail == ref)

/-- The first connection that enters an input. -/
def entering? (g : Graph) (ref : InputRef) : Option Connection :=
  g.connections.find? (·.head == ref)

/-- The first node with sealed strategy settings, and these settings. -/
def root? (g : Graph) : Option (Node × StrategyConfig) :=
  g.nodes.findSome? fun n =>
    match n.config with
    | .sealed (.strategyConfig s) => some (n, s)
    | _ => none

/-- Replaces the nodes with an id. -/
def modifyNode (g : Graph) (id : String) (f : Node → Node) : Graph :=
  { g with nodes := g.nodes.map fun n => if n.id == id then f n else n }

end Graph

end TradeFlow
