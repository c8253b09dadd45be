import TradeFlow.Document.Basic

/-!
The rules that every document obeys.

The version is the current one, node ids are distinct, and neither the identity of a node nor an
end of a connection is empty. Node kinds are in the catalogue, and positions are finite. When ids
repeat the nodes are not looked at any further.
-/

namespace TradeFlow.Document

/-- What is wrong with a field. -/
def problem (path field rule : String) : String :=
  "Key: 'Document." ++ path ++ "' Error:Field validation for '" ++ field ++ "' failed on the '"
    ++ rule ++ "' tag"

/-- A problem if a condition does not hold. -/
def check (holds : Bool) (path field rule : String) : List String :=
  if holds then [] else [problem path field rule]

/-- The path of an element of a list. -/
def element (list : String) (i : Nat) : String :=
  list ++ "[" ++ String.ofList (natText i) ++ "]."

def nodeProblems (n : DocumentNode) (i : Nat) : List String :=
  let place := element "Nodes" i
  check (n.id != "") (place ++ "ID") "ID" "required"
    ++ (if n.kind = "" then [problem (place ++ "Kind") "Kind" "required"]
      else check (Kind.ofName? n.kind).isSome (place ++ "Kind") "Kind" "nodekind")
    ++ check n.position.x.isFinite (place ++ "Position.X") "X" "finite"
    ++ check n.position.y.isFinite (place ++ "Position.Y") "Y" "finite"

def connectionProblems (c : Connection) (i : Nat) : List String :=
  let place := element "Connections" i
  check (c.source != "") (place ++ "Source") "Source" "required"
    ++ check (c.sourceOutput != "") (place ++ "SourceOutput") "SourceOutput" "required"
    ++ check (c.target != "") (place ++ "Target") "Target" "required"
    ++ check (c.targetInput != "") (place ++ "TargetInput") "TargetInput" "required"

/-- Whether no id occurs twice. -/
def distinctIds (nodes : List DocumentNode) : Bool :=
  let ids := nodes.map (·.id)
  ids.eraseDups.length == ids.length

/-- Everything that is wrong with a document. -/
def problems (d : Document) : List String :=
  check (d.version == currentVersion) "Version" "Version" "eq"
    ++ (if distinctIds d.nodeList then
        d.nodeList.zipIdx.flatMap fun (n, i) => nodeProblems n i
      else [problem "Nodes" "Nodes" "unique"])
    ++ d.connectionList.zipIdx.flatMap fun (c, i) => connectionProblems c i

/-- Refuses a document that breaks a rule. -/
def validate (d : Document) : Except DocumentError Unit :=
  if d.problems.isEmpty then .ok () else .error (.invalid d.problems)

end TradeFlow.Document
