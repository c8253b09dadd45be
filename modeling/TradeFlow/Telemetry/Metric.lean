import TradeFlow.Telemetry.Span

/-!
Counters of a compilation.

Every compilation counts as one run and as one measurement of its latency, each marked as a success
unless it ended with an error. Every node that became code counts once under its kind.
-/

namespace TradeFlow.Compilation

/-- Whether a compilation counts as a success. -/
def countsAsSuccess (c : Compilation) : Bool := c.error?.isNone

/-- The kinds of the nodes that became code, in the order in which they did. -/
def emittedKinds (c : Compilation) : List Kind :=
  c.events.filterMap fun
    | .emitted _ kind _ => some kind
    | _ => none

/-- The counters of a compilation by name and mark; counters without data are left out. -/
def metrics (c : Compilation) : List (String × List (String × Nat)) :=
  let success := if c.countsAsSuccess then "success=true" else "success=false"
  let kinds := c.emittedKinds
  let emitted := (Kind.all.filter (kinds.contains ·)).map fun k =>
    ("kind=" ++ k.name, kinds.count k)
  [("stratgraph.compile.runs", [(success, 1)]), ("stratgraph.compile.latency_ms", [(success, 1)])]
    ++ (if emitted.isEmpty then [] else [("stratgraph.node.emitted", emitted)])

end TradeFlow.Compilation
