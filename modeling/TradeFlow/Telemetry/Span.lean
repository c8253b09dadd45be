import TradeFlow.Compile.Basic

/-!
Spans of a compilation.

A compilation is one span, and work on a node is a span inside it. Spans are listed in the order in
which they end, so every span stands before the one that encloses it, and the compilation itself
stands last.
-/

namespace TradeFlow

/-- What a span is about. -/
inductive SpanSubject where
  | compilation
  | node (id : String) (kind : Kind)
  deriving DecidableEq, Repr

/-- A span that has ended. The parent is its place in the list of spans. -/
structure Span where
  subject : SpanSubject
  parent : Option Nat
  error : Option CompileError
  deriving DecidableEq, Repr

namespace Span

def name (s : Span) : String :=
  match s.subject with
  | .compilation => "stratgraph.compile"
  | .node _ kind => "stratgraph.emit." ++ kind.name

/-- The attributes of a span; the compilation shows its id if it has one. -/
def attributes (s : Span) (compileId : Option String) : List (String × String) :=
  match s.subject with
  | .compilation =>
    match compileId with
    | some id => [("compile.id", id)]
    | none => []
  | .node id kind => [("node.id", id), ("node.kind", kind.name)]

end Span

/-- A span under way, numbered in the order of starts. -/
structure OpenSpan where
  number : Nat
  node : String
  kind : Kind
  deriving DecidableEq, Repr

/-- A span that has ended and the numbers of it and of the span around it. -/
structure EndedSpan where
  number : Nat
  parent : Nat
  node : String
  kind : Kind
  error : Option CompileError
  deriving DecidableEq, Repr

/-- The spans that end in a list of events, where `started` spans have started before and `stack`
holds those under way, the innermost first. The compilation is number zero. -/
def endedSpans (started : Nat) (stack : List OpenSpan) : List Event → List EndedSpan
  | [] => []
  | .opened node kind :: rest => endedSpans (started + 1) (⟨started, node, kind⟩ :: stack) rest
  | .emitted _ _ _ :: rest => endedSpans started stack rest
  | .closed error :: rest =>
    match stack with
    | [] => endedSpans started [] rest
    | top :: below =>
      let parent := (below.head?.map (·.number)).getD 0
      ⟨top.number, parent, top.node, top.kind, error⟩ :: endedSpans started below rest

namespace Compilation

/-- The error that a compilation ended with. -/
def error? (c : Compilation) : Option CompileError :=
  match c.result with
  | .ok _ => none
  | .error halt => halt.error?

/-- The spans of a compilation in the order in which they end. -/
def spans (c : Compilation) : List Span :=
  let ended := endedSpans 1 [] c.events
  let place := fun number => (ended.findIdx? (·.number == number)).getD ended.length
  ended.map (fun e => ⟨.node e.node e.kind, some (place e.parent), e.error⟩)
    ++ [⟨.compilation, none, c.error?⟩]

end Compilation

end TradeFlow
