import TradeFlow.Compile.Lower
import TradeFlow.Program.Basic

/-!
Compiling a strategy graph.

The first node with strategy settings is the root. Control flow from its `exec` output is unfolded
and lowered; a flow without any statement is an error. The graph itself is never changed.
-/

namespace TradeFlow

/-- A compilation: the size of the graph, what happened on the way, and how it ended. -/
structure Compilation where
  nodes : Nat
  connections : Nat
  events : List Event
  result : Except Halt Program

namespace Graph

/-- The output at which a strategy starts. -/
def start (root : Node) : OutputRef := ⟨root.id, "exec"⟩

/-- What is known before the first statement: the time of the run. -/
def initialScope (root : Node) : Known :=
  Lower.bindOutput (Scope.empty.require .currentTimestamp) root .strategyConfig "currentTimestamp"
    .timestamp

/-- The flow from a root as a program. -/
def lowerFrom (g : Graph) (root : Node) (settings : StrategyConfig) : Run Program := do
  let flow := g.controlFrom [] (start root)
  let (known, body) ← lower (g.connections.map (·.toLink)) flow (initialScope root)
  if body.length = 0 then Run.halt (.failed .emptyChain)
  else
    pure { configNode := root.id, settings, capabilities := known.capabilities, body }

/-- Compiles a graph. -/
def compile (g : Graph) : Compilation :=
  let run : Run Program :=
    match g.root? with
    | none => .halt (.failed .noConfigNode)
    | some (root, settings) => g.lowerFrom root settings
  { nodes := g.nodes.length
    connections := g.connections.length
    events := run.events
    result := run.result }

/-- The text of the program, or the comment that says why there is none. An abrupt stop gives
nothing. -/
def generate? (g : Graph) : Option String :=
  match g.compile.result with
  | .ok program => some program.source
  | .error (.failed e) => some e.diagnostic
  | .error .aborted => none

end Graph

end TradeFlow
