import TradeFlow.Graph.Basic

/-!
Automatic arrangement and the bounding box.

Nodes with control connections are placed in columns by control depth: a search starts at every
node that control leaves but does not enter, then at the nodes that only a cycle reaches, and each
control connection leads one column to the right of the first node that reached it. A node
without control connections stands one column left of the first node it feeds. Inside a column
nodes are stacked in the order in which they were visited.
-/

namespace TradeFlow

/-- The distance between the left edges of neighbouring columns. -/
def columnWidth : Nat := 360

/-- The space between stacked nodes. -/
def rowGap : Nat := 40

/-- A node and its column. -/
abbrev Columned := String × Nat

namespace Graph

/-- Whether a connection leaves an output that carries control. -/
def isControl (g : Graph) (c : Connection) : Bool :=
  match (g.node? c.source).bind (·.output? c.sourceOutput) with
  | some port => port.socket.isControl
  | none => false

/-- The control connections as pairs of nodes. -/
def controlEdges (g : Graph) : List (String × String) :=
  (g.connections.filter g.isControl).map fun c => (c.source, c.target)

/-- The targets of a node that are still in the pool, each once, in the order of the edges. -/
def freshTargets (edges : List (String × String)) (pool : List String) (id : String) :
    List String :=
  (((edges.filter (·.1 == id)).map (·.2)).eraseDups).filter (pool.contains ·)

theorem mem_pool_of_mem_freshTargets {edges : List (String × String)} {pool : List String}
    {id x : String} (h : x ∈ freshTargets edges pool id) : x ∈ pool := by
  simpa using (List.mem_filter.1 h).2

/-- The pool without the nodes that were just reached. -/
def drain (pool reached : List String) : List String := pool.filter (!reached.contains ·)

theorem length_drain_lt {pool reached : List String} {x : String} (hp : x ∈ pool)
    (hr : x ∈ reached) : (drain pool reached).length < pool.length :=
  List.length_filter_lt_length_iff_exists.2 ⟨x, hp, by simp [hr]⟩

/-- Breadth-first search. The pool holds the nodes not reached so far; the result is the nodes in
the order in which they were reached, and the pool that is left. -/
def search (edges : List (String × String)) (pool : List String) :
    List Columned → List Columned × List String
  | [] => ([], pool)
  | (id, column) :: queue =>
    let fresh := freshTargets edges pool id
    let rest := search edges (drain pool fresh) (queue ++ fresh.map (·, column + 1))
    ((id, column) :: rest.1, rest.2)
termination_by queue => (pool.length, queue.length)
decreasing_by
  cases h : freshTargets edges pool id with
  | nil => simp [Prod.lex_def, drain]
  | cons x xs =>
    have hx : x ∈ pool := mem_pool_of_mem_freshTargets (h ▸ List.mem_cons_self)
    exact Prod.Lex.left _ _ (length_drain_lt hx List.mem_cons_self)

/-- Searches from every candidate that is still in the pool. -/
def searchAll (edges : List (String × String)) (candidates : List String)
    (state : List Columned × List String) : List Columned × List String :=
  candidates.foldl (fun (visited, pool) id =>
    if pool.contains id then
      let (reached, pool) := search edges (drain pool [id]) [(id, 0)]
      (visited ++ reached, pool)
    else (visited, pool)) state

/-- The column of a node without control connections. -/
def dataColumn (g : Graph) (visited : List Columned) (id : String) : Nat :=
  match g.connections.find? (·.source == id) with
  | some c => (visited.lookup c.target).getD 0 - 1
  | none => 0

/-- Every node with its column, in the order of visits. -/
def columns (g : Graph) : List Columned :=
  let edges := g.controlEdges
  let ids := g.nodes.map (·.id)
  let entered := fun id => edges.any (·.2 == id)
  let controlled := fun id => edges.any fun e => e.1 == id || e.2 == id
  let starts := ids.filter fun id => !entered id && controlled id
  let state := searchAll edges (ids.filter controlled) (searchAll edges starts ([], ids))
  state.2.foldl (fun visited id => visited ++ [(id, g.dataColumn visited id)]) state.1

/-- The height of a node with the gap below it. -/
def slotHeight (g : Graph) (id : String) : Nat :=
  match (g.node? id).bind (·.kind?) with
  | some kind => kind.spec.height + rowGap
  | none => 0

/-- The top of each node: the slots above it in its column. -/
def stack (g : Graph) (placed : List Columned) : List Columned → List (String × Nat × Nat)
  | [] => []
  | (id, column) :: rest =>
    let above := (placed.filter (·.2 == column)).map fun p => g.slotHeight p.1
    (id, column * columnWidth, above.sum) :: g.stack (placed ++ [(id, column)]) rest

/-- The places of all nodes, in the order of visits. -/
def placements (g : Graph) : List (String × Nat × Nat) := g.stack [] g.columns

/-- Moves nodes to their places. -/
def place (g : Graph) (places : List (String × Nat × Nat)) : Graph :=
  { g with nodes := g.nodes.map fun n =>
      match places.lookup n.id with
      | some (x, y) => { n with position := ⟨Binary64.ofNat x, Binary64.ofNat y⟩ }
      | none => n }

/-- Whether a node has no config, and so neither ports nor a size. -/
def isBare (g : Graph) (id : String) : Bool := (g.node? id).any (·.kind?.isNone)

/-- Arranges the nodes. A bare node stops the arrangement when its ports or its size are asked
for, and the result says whether all nodes were placed: a bare node that a connection leaves stops
it before anything moves, any other one after it has been placed itself. -/
def arrange (g : Graph) : Graph × Bool :=
  if g.connections.any fun c => g.isBare c.source then (g, false)
  else
    let places := g.placements
    match places.findIdx? fun p => g.isBare p.1 with
    | some i => (g.place (places.take (i + 1)), false)
    | none => (g.place places, true)

end Graph

/-- An upright box on the canvas. -/
structure Box where
  minX : Binary64
  minY : Binary64
  maxX : Binary64
  maxY : Binary64
  deriving DecidableEq, Repr

namespace Box

def width (b : Box) : Binary64 := b.maxX - b.minX

def height (b : Box) : Binary64 := b.maxY - b.minY

/-- The box that holds nothing. -/
def nothing : Box :=
  ⟨.infinity false, .infinity false, .infinity true, .infinity true⟩

/-- The least box that holds another box and a node of a kind at a position. -/
def cover (b : Box) (kind : Kind) (p : Position) : Box :=
  { minX := b.minX.min p.x
    minY := b.minY.min p.y
    maxX := b.maxX.max (p.x + Binary64.ofNat kind.spec.width)
    maxY := b.maxY.max (p.y + Binary64.ofNat kind.spec.height) }

end Box

/-- What can be said about the extent of a graph. -/
inductive Extent where
  | empty
  | box (b : Box)
  | bare (id : String)
  deriving DecidableEq, Repr

/-- The box around all nodes, each with the size of its kind. -/
def Graph.extent (g : Graph) : Extent :=
  match g.nodes with
  | [] => .empty
  | nodes =>
    nodes.foldl (fun extent n =>
      match extent, n.kind? with
      | .box b, some kind => .box (b.cover kind n.position)
      | .box _, none => .bare n.id
      | other, _ => other) (.box Box.nothing)

end TradeFlow
