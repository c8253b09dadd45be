import TradeFlow.Graph.Basic
import TradeFlow.Text.Quoted

/-!
What can go wrong in a compilation, and what is reported while it runs.
-/

namespace TradeFlow

/-- Why a graph has no program. -/
inductive CompileError where
  | noConfigNode
  | emptyChain
  | cycle (ref : OutputRef)
  | unknownKind (config : NodeConfig)
  deriving DecidableEq, Repr

namespace CompileError

def message : CompileError → String
  | .noConfigNode => "no strategy config node"
  | .emptyChain => "no nodes connected to strategy config"
  | .cycle ref =>
    "control-flow cycle at node " ++ ref.node ++ " (output " ++ quoted ref.output ++ ")"
  | .unknownKind config => "unknown node kind: " ++ config.typeName

/-- The comment that stands in for a program. -/
def diagnostic : CompileError → String
  | .noConfigNode => "// Error: No Strategy Config node found. Add one to define your strategy."
  | .emptyChain =>
    "// No nodes connected to Strategy Config. Connect nodes to build your strategy."
  | .cycle ref =>
    "// Error: control-flow cycle detected at node " ++ ref.node ++ " (output "
      ++ quoted ref.output ++ ")."
  | .unknownKind config => "// Error: " ++ (unknownKind config).message

end CompileError

/-- How a compilation stops before its end: with an error, or abruptly on a value that it cannot
handle. -/
inductive Halt where
  | failed (e : CompileError)
  | aborted
  deriving DecidableEq, Repr

/-- The error of a stop; an abrupt stop carries none. -/
def Halt.error? : Halt → Option CompileError
  | .failed e => some e
  | .aborted => none

/-- What happens to the nodes of a graph while it is compiled. -/
inductive Event where
  /-- Work on a node begins. -/
  | opened (node : String) (kind : Kind)
  /-- A node became code with a number of lines. -/
  | emitted (node : String) (kind : Kind) (lines : Nat)
  /-- Work on the node that was opened last ends. -/
  | closed (error : Option CompileError)
  deriving DecidableEq, Repr

/-- A computation that reports events and may stop early. -/
structure Run (α : Type) where
  events : List Event
  result : Except Halt α

namespace Run

variable {α β : Type}

def pure (a : α) : Run α := ⟨[], .ok a⟩

/-- Goes on with what a computation gives, after its events. -/
def bind (x : Run α) (f : α → Run β) : Run β :=
  match x.result with
  | .error halt => ⟨x.events, .error halt⟩
  | .ok a =>
    let next := f a
    ⟨x.events ++ next.events, next.result⟩

instance : Monad Run where
  pure := Run.pure
  bind := Run.bind

def halt (h : Halt) : Run α := ⟨[], .error h⟩

def report (e : Event) : Run Unit := ⟨[e], .ok ()⟩

/-- Opens a node before a computation and closes it after. An abrupt stop closes without an
error. -/
def within (node : String) (kind : Kind) (x : Run α) : Run α :=
  let error :=
    match x.result with
    | .ok _ => none
    | .error halt => halt.error?
  ⟨.opened node kind :: x.events ++ [.closed error], x.result⟩

end Run

end TradeFlow
