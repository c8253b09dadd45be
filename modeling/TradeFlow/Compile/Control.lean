import TradeFlow.Graph.Basic

/-!
The control flow of a graph, unfolded from an output.

Control leaves an output by its first connection and goes on from the node it reaches: through
`done` after a loop, not at all after a condition, through `exec` after any other node. A
loop owns the flow from its `loopBody`, a condition the flows from `true` and `false`. Nodes that
several paths reach occur once for each path.

The unfolding keeps the outputs that it is following. Coming back to one of them closes a cycle,
and the flow is cut there; what would follow the cut is not unfolded.
-/

namespace TradeFlow

/-- What a node does that becomes a call. -/
inductive Action where
  | fetchShortlist (s : FetchShortlist)
  | fetchShortlistPersistence (s : FetchShortlistPersistence)
  | fetchCandles (s : FetchCandles)
  | fetchQuote (s : FetchQuote)
  | fetchDates
  | fetchHolidays
  | placeOrder (s : PlaceOrder)
  deriving DecidableEq, Repr

/-- The part that a node plays in control flow. -/
inductive Role where
  /-- Strategy settings in the middle of a flow become nothing. -/
  | silent
  | action (a : Action)
  | loop
  | branch (c : Conditional)
  /-- Drafts and bare nodes cannot be compiled. -/
  | unusable
  deriving DecidableEq, Repr

def NodeConfig.role : NodeConfig → Role
  | .bare => .unusable
  | .draft _ => .unusable
  | .sealed s =>
    match s with
    | .strategyConfig _ => .silent
    | .fetchShortlist s => .action (.fetchShortlist s)
    | .fetchShortlistPersistence s => .action (.fetchShortlistPersistence s)
    | .fetchCandles s => .action (.fetchCandles s)
    | .fetchQuote s => .action (.fetchQuote s)
    | .fetchDates => .action .fetchDates
    | .fetchHolidays => .action .fetchHolidays
    | .placeOrder s => .action (.placeOrder s)
    | .forEach => .loop
    | .conditional c => .branch c

/-- Control flow from one output on. -/
inductive Control where
  /-- Nothing follows. -/
  | stop
  /-- The flow comes back to an output that is being followed. -/
  | cycle (ref : OutputRef)
  /-- The flow reaches a node that cannot be compiled. -/
  | unusable (n : Node)
  | silent (n : Node) (rest : Control)
  | action (n : Node) (a : Action) (rest : Control)
  | loop (n : Node) (body rest : Control)
  | branch (n : Node) (c : Conditional) (yes no : Control)
  deriving DecidableEq, Repr

namespace Control

/-- Whether the flow was unfolded to its end. -/
def isComplete : Control → Bool
  | .stop => true
  | .cycle _ => false
  | .unusable _ => false
  | .silent _ rest => rest.isComplete
  | .action _ _ rest => rest.isComplete
  | .loop _ body rest => body.isComplete && rest.isComplete
  | .branch _ _ yes no => yes.isComplete && no.isComplete

end Control

namespace Graph

/-- The node that control reaches from an output. A connection to a node that is not in the graph
leads nowhere. -/
def next? (g : Graph) (ref : OutputRef) : Option Node :=
  (g.leaving? ref).bind fun c => g.node? c.target

/-- The outputs that a connection leaves and that are not being followed. -/
def unfollowed (g : Graph) (active : List OutputRef) : List OutputRef :=
  (g.connections.map fun c => c.tail).filter fun ref => !active.contains ref

theorem mem_tails_of_next? {g : Graph} {ref : OutputRef} {n : Node} (h : g.next? ref = some n) :
    ref ∈ g.connections.map fun c => c.tail := by
  obtain ⟨c, hc, -⟩ := Option.bind_eq_some_iff.1 h
  have hm := List.mem_of_find?_eq_some hc
  have ht := List.find?_some hc
  exact List.mem_map.2 ⟨c, hm, by simpa using ht⟩

theorem length_unfollowed_lt {g : Graph} {active : List OutputRef} {ref : OutputRef} {n : Node}
    (hn : g.next? ref = some n) (ha : ref ∉ active) :
    (g.unfollowed (ref :: active)).length < (g.unfollowed active).length := by
  have hm := mem_tails_of_next? hn
  have hsub : g.unfollowed (ref :: active) = (g.unfollowed active).filter (· != ref) := by
    simp only [unfollowed, List.filter_filter]
    congr 1
    funext x
    by_cases hx : x = ref <;> simp [hx]
  rw [hsub]
  exact List.length_filter_lt_length_iff_exists.2
    ⟨ref, List.mem_filter.2 ⟨hm, by simpa using ha⟩, by simp⟩

/-- Unfolds control flow from an output while the given outputs are being followed. -/
def controlFrom (g : Graph) (active : List OutputRef) (ref : OutputRef) : Control :=
  if _ha : ref ∈ active then .cycle ref
  else
    match _hn : g.next? ref with
    | none => .stop
    | some n =>
      match n.config.role with
      | .unusable => .unusable n
      | .silent => .silent n (g.controlFrom (ref :: active) ⟨n.id, "exec"⟩)
      | .action a => .action n a (g.controlFrom (ref :: active) ⟨n.id, "exec"⟩)
      | .loop =>
        let body := g.controlFrom (ref :: active) ⟨n.id, "loopBody"⟩
        .loop n body
          (if body.isComplete then g.controlFrom (ref :: active) ⟨n.id, "done"⟩ else .stop)
      | .branch c =>
        let yes := g.controlFrom (ref :: active) ⟨n.id, "true"⟩
        .branch n c yes
          (if yes.isComplete then g.controlFrom (ref :: active) ⟨n.id, "false"⟩ else .stop)
termination_by (g.unfollowed active).length
decreasing_by all_goals exact length_unfollowed_lt (by assumption) (by assumption)

end Graph

end TradeFlow
