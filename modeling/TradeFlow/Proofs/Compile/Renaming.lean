import TradeFlow.Proofs.Compile.Correspondence
import Mathlib.Data.List.Find

/-!
Ids and places.

A graph may get new ids for its nodes, as long as ids that differ still differ afterwards, and any
places and any ids of connections at all. The graph may have any form: ids may be used twice, and
connections may lead nowhere. What is proved:

1. `Graph.Renamed.node?` and `Graph.Renamed.next?`: look-ups find the same under new ids.
2. `Graph.Renamed.inputs`: so inputs bring the same.
3. `Graph.outcome_of_renamed`: the compilation ends in the same way and reports the same, and only the
   ids that it names are new ones.
-/

namespace TradeFlow

/-- The edge between the nodes with the new ids. -/
def Link.rename (ρ : String → String) (l : Link) : Link :=
  { l with source := ρ l.source, target := ρ l.target }

namespace Graph

/-- Every id that a graph mentions, for a node or at an end of a connection. -/
def mentioned (g : Graph) : List String :=
  g.order ++ g.links.map (·.source) ++ g.links.map (·.target)

/-- The same nodes under new ids at any places, and the same edges between them under any ids. -/
structure Renamed (ρ : String → String) (g g' : Graph) : Prop where
  nodes : List.Forall₂ (fun n n' => n'.id = ρ n.id ∧ n'.config = n.config) g.nodes g'.nodes
  connections : List.Forall₂ (fun c c' => c'.toLink = c.toLink.rename ρ) g.connections g'.connections

/-- How the compilation of a graph with new ids ends if that of the graph ends in a given way. -/
inductive SameOutcome (ρ : String → String) : Except Halt Program → Except Halt Program → Prop where
  | aborted : SameOutcome ρ (.error .aborted) (.error .aborted)
  | failed (e : CompileError) : SameOutcome ρ (.error (.failed e)) (.error (.failed (e.rename ρ)))
  | program {p p' : Program} (source : p'.source = p.source)
      (capabilities : p'.capabilities = p.capabilities) (statements : p'.statements = p.statements)
      (emitted : p'.emitted = p.emitted) (configNode : p'.configNode = ρ p.configNode) :
      SameOutcome ρ (.ok p) (.ok p')

variable {ρ : String → String} {S : Set String} {g g' : Graph}

/-! ## Ids that a graph mentions -/

theorem id_mem_mentioned {n : Node} (h : n ∈ g.nodes) : n.id ∈ g.mentioned :=
  List.mem_append_left _ (List.mem_append_left _ (List.mem_map_of_mem h))

theorem source_mem_mentioned {l : Link} (h : l ∈ g.links) : l.source ∈ g.mentioned :=
  List.mem_append_left _ (List.mem_append_right _ (List.mem_map_of_mem h))

theorem target_mem_mentioned {l : Link} (h : l ∈ g.links) : l.target ∈ g.mentioned :=
  List.mem_append_right _ (List.mem_map_of_mem h)

/-! ## Look-ups under new ids -/

theorem beq_tail_rename (hρ : S.InjOn ρ) {l : Link} {ref : OutputRef} (hl : l.source ∈ S)
    (href : ref.node ∈ S) : ((l.rename ρ).tail == ref.rename ρ) = (l.tail == ref) := by
  have htail : (l.rename ρ).tail = l.tail.rename ρ := rfl
  rw [Bool.eq_iff_iff, beq_iff_eq, beq_iff_eq, htail, OutputRef.rename_inj hρ hl href]

theorem beq_head_rename (hρ : S.InjOn ρ) {l : Link} {id key : String} (hl : l.target ∈ S)
    (hid : id ∈ S) : ((l.rename ρ).head == ⟨ρ id, key⟩) = (l.head == ⟨id, key⟩) := by
  rw [Bool.eq_iff_iff, beq_iff_eq, beq_iff_eq]
  simp only [Link.head, Link.rename, InputRef.mk.injEq, hρ.eq_iff hl hid]

namespace Renamed

theorem links_eq (h : g.Renamed ρ g') : g'.links = g.links.map (Link.rename ρ) := by
  obtain ⟨nodes, connections⟩ := g
  obtain ⟨nodes', connections'⟩ := g'
  have hconnections := h.connections
  simp only [links] at hconnections ⊢
  clear h
  induction hconnections with
  | nil => rfl
  | cons hc _ ih => rw [List.map_cons, List.map_cons, List.map_cons, hc, ih]

/-- With its new id the same node is found. -/
theorem node? (h : g.Renamed ρ g') (hρ : S.InjOn ρ) (hS : ∀ n ∈ g.nodes, n.id ∈ S) {id : String}
    (hid : id ∈ S) : Option.Rel (Node.Corresponds ρ S) (g.node? id) (g'.node? (ρ id)) := by
  obtain ⟨nodes, connections⟩ := g
  obtain ⟨nodes', connections'⟩ := g'
  have hnodes := h.nodes
  simp only [Graph.node?] at hnodes ⊢
  clear h
  induction hnodes with
  | nil => exact .none
  | @cons n n' _ _ hn _ ih =>
    obtain ⟨hmem, hS⟩ := List.forall_mem_cons.1 hS
    have hkey : (n'.id == ρ id) = (n.id == id) := by
      rw [hn.1, Bool.eq_iff_iff, beq_iff_eq, beq_iff_eq, hρ.eq_iff hmem hid]
    rw [List.find?_cons, List.find?_cons, hkey]
    split
    · exact .some ⟨hmem, hn.1, hn.2⟩
    · exact ih hS

/-- The same node carries the strategy settings. -/
theorem root? (h : g.Renamed ρ g') (hS : ∀ n ∈ g.nodes, n.id ∈ S) :
    Option.Rel (fun r r' => r.1.Corresponds ρ S r'.1 ∧ r'.2 = r.2) g.root? g'.root? := by
  obtain ⟨nodes, connections⟩ := g
  obtain ⟨nodes', connections'⟩ := g'
  have hnodes := h.nodes
  simp only [Graph.root?] at hnodes ⊢
  clear h
  induction hnodes with
  | nil => exact .none
  | @cons n n' _ _ hn _ ih =>
    obtain ⟨hmem, hS⟩ := List.forall_mem_cons.1 hS
    rw [List.findSome?_cons, List.findSome?_cons, hn.2]
    cases n.config with
    | bare => exact ih hS
    | draft s => exact ih hS
    | sealed s =>
      cases s with
      -- the search ends at the same place
      | strategyConfig s => exact .some ⟨⟨hmem, hn.1, hn.2⟩, rfl⟩
      | _ => exact ih hS

section Mentioned

variable (h : g.Renamed ρ g') (hρ : Set.InjOn ρ {id | id ∈ g.mentioned})

include h hρ

/-- Control reaches the same node under its new id. -/
theorem next? {ref : OutputRef} (href : ref.node ∈ g.mentioned) :
    Option.Rel (Node.Corresponds ρ {id | id ∈ g.mentioned}) (g.next? ref)
      (g'.next? (ref.rename ρ)) := by
  have hfind : g'.links.find? (·.tail == ref.rename ρ) =
      (g.links.find? (·.tail == ref)).map (Link.rename ρ) := by
    rw [h.links_eq, List.find?_map]
    refine congrArg _ (List.find?_congr fun l hl => ?_)
    exact beq_tail_rename hρ (source_mem_mentioned hl) href
  rw [next?_eq_links, next?_eq_links, hfind]
  cases hl : g.links.find? (·.tail == ref) with
  | none => exact .none
  | some l =>
    have hmem := List.mem_of_find?_eq_some hl
    exact h.node? hρ (fun n hn => id_mem_mentioned hn) (target_mem_mentioned hmem)

/-- Inputs bring the same under new ids. -/
theorem inputs : SameInputs ρ {id | id ∈ g.mentioned} g.links g'.links := by
  intro known hknown id hid key
  have hfind : g'.links.find? (·.head == ⟨ρ id, key⟩) =
      (g.links.find? (·.head == ⟨id, key⟩)).map (Link.rename ρ) := by
    rw [h.links_eq, List.find?_map]
    refine congrArg _ (List.find?_congr fun l hl => ?_)
    exact beq_head_rename hρ (target_mem_mentioned hl) hid
  rw [Scope.input?, Scope.input?, hfind]
  cases hl : g.links.find? (·.head == ⟨id, key⟩) with
  | none => rfl
  | some l =>
    have htail : l.tail.node ∈ g.mentioned := source_mem_mentioned (List.mem_of_find?_eq_some hl)
    exact Known.output?_rename hρ hknown htail

theorem corresponds : g.Corresponds ρ {id | id ∈ g.mentioned} {ref | ref.node ∈ g.mentioned} g' where
  injOn := hρ
  node_mem := fun _ href => href
  next? := fun _ href => h.next? hρ href
  follow := by
    rintro a - b ⟨n, kind, hn, -, hnode, -⟩
    show b.node ∈ g.mentioned
    rw [hnode]
    exact id_mem_mentioned (mem_nodes_of_next? hn)
  inputs := h.inputs hρ
  root? := h.root? fun n hn => id_mem_mentioned hn
  start_mem := fun _ _ hroot => id_mem_mentioned (root?_eq_some hroot).1

end Mentioned

end Renamed

/-- Ids and places do not influence a program. Under new ids of nodes, and with any places and any ids
of connections, the compilation ends in the same way: it stops abruptly as before, or with the same
error, in which a cycle is reported under its new id, or with a program that says the same. -/
theorem outcome_of_renamed {ρ : String → String} {g g' : Graph} (h : g.Renamed ρ g')
    (hρ : Set.InjOn ρ {id | id ∈ g.mentioned}) :
    SameOutcome ρ g.compile.result g'.compile.result ∧
      g'.compile.events = g.compile.events.map (Event.rename ρ) := by
  obtain ⟨hevents, hresult⟩ := (h.corresponds hρ).compile
  refine ⟨?_, hevents⟩
  rw [hresult]
  cases g.compile.result with
  | ok p =>
    exact .program (p.source_rename ρ) rfl (p.body.length_rename ρ) (p.body.size_rename ρ) rfl
  | error halt =>
    cases halt with
    | failed e => exact .failed e
    | aborted => exact .aborted

/-- A loop that is found before another node with its id, around an order that leads nowhere. -/
def shadowedLoop : Graph where
  nodes := [.ofKind "s" .strategyConfig, .ofKind "f" .forEach, .ofKind "f" .fetchQuote,
    .ofKind "o" .placeOrder]
  connections :=
    [⟨⟨"s", "exec", "f", "exec"⟩, "c1"⟩, ⟨⟨"f", "loopBody", "o", "exec"⟩, "c2"⟩,
      ⟨⟨"f", "item", "o", "nseSymbol"⟩, "c3"⟩, ⟨⟨"o", "exec", "gone", "exec"⟩, "c3"⟩]

/-- The strategy settings and the order swap their ids. -/
def swapIds (id : String) : String := if id = "s" then "o" else if id = "o" then "s" else id

/-- The graph with these ids, one node somewhere else, and connections without ids. -/
def swappedLoop : Graph where
  nodes := [{ Node.ofKind "o" .strategyConfig with position := ⟨1, 0⟩ }, .ofKind "f" .forEach,
    .ofKind "f" .fetchQuote, .ofKind "s" .placeOrder]
  connections :=
    [⟨⟨"o", "exec", "f", "exec"⟩, ""⟩, ⟨⟨"f", "loopBody", "s", "exec"⟩, ""⟩,
      ⟨⟨"f", "item", "s", "nseSymbol"⟩, ""⟩, ⟨⟨"s", "exec", "gone", "exec"⟩, ""⟩]

/-- Both have a program, with the same text, from strategy settings under different ids. -/
theorem shadowedLoop_outcome :
    shadowedLoop.Renamed swapIds swappedLoop ∧
    Set.InjOn swapIds {id | id ∈ shadowedLoop.mentioned} ∧
    ∃ p p', shadowedLoop.compile.result = .ok p ∧ swappedLoop.compile.result = .ok p' ∧
      p'.source = p.source ∧ p.configNode = "s" ∧ p'.configNode = "o" := by
  have h : shadowedLoop.Renamed swapIds swappedLoop := by
    constructor
    · exact .cons ⟨rfl, rfl⟩ (.cons ⟨rfl, rfl⟩ (.cons ⟨rfl, rfl⟩ (.cons ⟨rfl, rfl⟩ .nil)))
    · exact .cons rfl (.cons rfl (.cons rfl (.cons rfl .nil)))
  have hρ : Set.InjOn swapIds {id | id ∈ shadowedLoop.mentioned} := by
    have hall : ∀ a ∈ shadowedLoop.mentioned, ∀ b ∈ shadowedLoop.mentioned,
        swapIds a = swapIds b → a = b := by decide
    exact fun a ha b hb => hall a ha b hb
  have hflow : shadowedLoop.Unfolds ⟨"s", "exec"⟩ _ :=
    .loop rfl rfl (.action rfl rfl (.stop rfl)) (.stop rfl)
  have hg : ∀ n ∈ shadowedLoop.nodes, n.IsSealed := by
    simp [shadowedLoop, Node.ofKind, Node.IsSealed]
  have hlinks : ∀ l ∈ shadowedLoop.links, l.targetInput ≠ "entryPrice" := by decide
  obtain ⟨p, hp⟩ := exists_compiled hg (fun n _ a _ => lowerable_of_no_entryPrice hlinks n a) rfl hflow
    (by simp [Control.emissions])
  have hconfig : p.configNode = "s" := by
    obtain ⟨root, settings, flow, known, hroot, -, -, -, hprogram⟩ := compiled_cases hp
    obtain ⟨rfl, -⟩ : Node.ofKind "s" .strategyConfig = root ∧ _ = settings := by
      simpa using Option.some.inj hroot
    rw [hprogram]
    rfl
  have hend := (outcome_of_renamed h hρ).1
  rw [hp] at hend
  generalize swappedLoop.compile.result = result at hend ⊢
  cases hend with
  | program source capabilities statements emitted configNode =>
    rw [hconfig] at configNode
    exact ⟨h, hρ, p, _, hp, rfl, source, hconfig, configNode⟩

end Graph

end TradeFlow
