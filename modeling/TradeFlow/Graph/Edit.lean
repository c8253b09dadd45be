import TradeFlow.Graph.Error

/-!
Editing strategy graphs.

Nodes enter a graph with an id of their own and sealed settings, and keep their kind. A connection
enters it when both ports exist, their sockets are compatible, the input is free and the id is not
in use; the checks run in this order, and the first that fails is the cause of the refusal. An
edit that fails changes nothing but the supply of ids.
-/

namespace TradeFlow

/-- A supply of ids: the whole sequence and how many of them have been drawn. -/
structure IdSupply where
  ids : Nat → String
  drawn : Nat := 0

def IdSupply.draw (s : IdSupply) : String × IdSupply :=
  (s.ids s.drawn, { s with drawn := s.drawn + 1 })

namespace Graph

/-- Adds a node at the end. -/
def insert (g : Graph) (n : Node) : Except EditError Graph :=
  if n.id = "" then .error .emptyId
  else
    match n.config with
    | .bare => .error (.noConfig n.id)
    | .draft s => .error (.notSealed n.id (.draft s))
    | .sealed _ =>
      if (g.node? n.id).isSome then .error (.duplicateNode n.id)
      else .ok { g with nodes := g.nodes ++ [n] }

/-- Removes a node and every connection that touches it. -/
def remove (g : Graph) (id : String) : Except EditError Graph :=
  if (g.node? id).isSome then
    .ok ⟨g.nodes.filter (·.id != id), g.connections.filter fun c => !c.touches id⟩
  else .error (.nodeNotFound id)

/-- Replaces the settings of a node by sealed settings of the same kind. -/
def setConfig (g : Graph) (id : String) (config : NodeConfig) : Except EditError Graph :=
  match g.node? id with
  | none => .error (.nodeNotFound id)
  | some n =>
    match n.kind? with
    | none => .error (.bareNode id)
    | some kind =>
      match config with
      | .sealed s =>
        if s.kind = kind then .ok (g.modifyNode id ({ · with config := .sealed s }))
        else .error (.kindMismatch id kind config)
      | _ => .error (.kindMismatch id kind config)

/-- Removes the connection with an id. -/
def disconnect (g : Graph) (id : String) : Except EditError Graph :=
  if g.connections.any (·.id == id) then
    .ok { g with connections := g.connections.eraseP (·.id == id) }
  else .error (.connectionNotFound id)

/-- Checks everything about a new connection but its id. -/
def admits (g : Graph) (link : Link) : Except Rejection Unit :=
  match g.node? link.source with
  | none => .error (.nodeNotFound link.source)
  | some source =>
    match g.node? link.target with
    | none => .error (.nodeNotFound link.target)
    | some target =>
      match source.kind? with
      | none => .error (.bareNode source.id)
      | some sourceKind =>
        match sourceKind.output? link.sourceOutput with
        | none => .error (.noOutput sourceKind link.sourceOutput)
        | some output =>
          match target.kind? with
          | none => .error (.bareNode target.id)
          | some targetKind =>
            match targetKind.input? link.targetInput with
            | none => .error (.noInput targetKind link.targetInput)
            | some input =>
              if !output.socket.compatible input.socket then
                .error (.incompatible output.socket input.socket)
              else if !input.multiple && (g.entering? link.head).isSome then .error .occupied
              else .ok ()

/-- Adds a connection at the end under an id that is not in use. -/
def attach (g : Graph) (link : Link) (id : String) : Except Rejection Graph :=
  if g.connections.any (·.id == id) then .error (.duplicate id)
  else .ok { g with connections := g.connections ++ [{ link with id }] }

end Graph

/-- A graph together with the supply that names its new nodes and connections. -/
structure Editor where
  graph : Graph
  supply : IdSupply

namespace Editor

/-- Adds a node of a kind with default settings. An id is drawn once the kind is known. -/
def add (e : Editor) (kind : String) (position : Position) : Except EditError Node × Editor :=
  match Kind.ofName? kind with
  | none => (.error (.unknownKind kind), e)
  | some kind =>
    let (id, supply) := e.supply.draw
    let node : Node := { id, position, config := .sealed (Settings.default kind) }
    match e.graph.insert node with
    | .error err => (.error err, { e with supply })
    | .ok graph => (.ok node, { graph, supply })

/-- Connects two ports. A connection without an id of its own gets one from the supply, which is
drawn when everything else about the connection is legal. -/
def connect (e : Editor) (link : Link) (id : String) :
    Except ConnectionError Connection × Editor :=
  match e.graph.admits link with
  | .error cause => (.error { link, cause }, e)
  | .ok _ =>
    let (id, supply) := if id = "" then e.supply.draw else (id, e.supply)
    match e.graph.attach link id with
    | .error cause => (.error { link, cause }, { e with supply })
    | .ok graph => (.ok { link with id }, { graph, supply })

/-- Applies an edit that needs no new id. -/
def apply {ε : Type} (e : Editor) (edit : Graph → Except ε Graph) : Except ε Unit × Editor :=
  match edit e.graph with
  | .error err => (.error err, e)
  | .ok graph => (.ok (), { e with graph })

end Editor

end TradeFlow
