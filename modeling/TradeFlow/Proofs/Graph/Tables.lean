import TradeFlow.Proofs.Graph.WellFormed
import Mathlib.Logic.Function.Basic

/-!
The tables behind an edited graph.

An editor keeps its nodes in a table by their ids and, beside it, the ids in the order in which the nodes
were added. A node that is removed leaves the table, and the first occurrence of its id leaves the
order. The graph of such tables lists the nodes in order. What is proved:

1. `Tables.Consistent.node?_graph`: as long as the order lists the keys of the table once each, the graph
   finds what the table holds.
2. `TableEditor.mirrors_step`: every edit does to consistent tables what it does to their graph, and
   leaves them consistent.
3. `Graph.edited_graph_invariant`: hence the tables are consistent after every history, and their graph
   is the well-formed graph of that history.
-/

namespace TradeFlow

/-- Nodes by id, the ids in the order in which the nodes were added, and the connections. -/
structure Tables where
  node? : String → Option Node
  order : List String
  connections : List Connection

namespace Tables

def empty : Tables := ⟨fun _ => none, [], []⟩

/-- The nodes in their order, and the connections. -/
def graph (t : Tables) : Graph := ⟨t.order.filterMap t.node?, t.connections⟩

/-- Puts a node into the table and its id at the end of the order. -/
def put (t : Tables) (n : Node) : Tables :=
  ⟨Function.update t.node? n.id (some n), t.order ++ [n.id], t.connections⟩

/-- Deletes a node from the table, the first occurrence of its id from the order, and every connection
that touches it. -/
def delete (t : Tables) (id : String) : Tables :=
  ⟨Function.update t.node? id none, t.order.erase id, t.connections.filter fun c => !c.touches id⟩

/-- Puts in a node with sealed settings whose id is not in use. -/
def insert (t : Tables) (n : Node) : Except EditError Tables :=
  if n.id = "" then .error .emptyId
  else
    match n.config with
    | .bare => .error (.noConfig n.id)
    | .draft s => .error (.notSealed n.id (.draft s))
    | .sealed _ =>
      if (t.node? n.id).isSome then .error (.duplicateNode n.id)
      else .ok (t.put n)

/-- Deletes a node that is there. -/
def remove (t : Tables) (id : String) : Except EditError Tables :=
  if (t.node? id).isSome then .ok (t.delete id) else .error (.nodeNotFound id)

/-- Replaces the settings of a node in the table. -/
def setConfig (t : Tables) (id : String) (config : NodeConfig) : Except EditError Tables :=
  match t.node? id with
  | none => .error (.nodeNotFound id)
  | some n =>
    match n.kind? with
    | none => .error (.bareNode id)
    | some kind =>
      match config with
      | .sealed s =>
        if s.kind = kind then
          .ok { t with node? := Function.update t.node? id (some { n with config := .sealed s }) }
        else .error (.kindMismatch id kind config)
      | _ => .error (.kindMismatch id kind config)

/-- Moves the nodes in the table to their new places. -/
def arrange (t : Tables) : Tables := { t with node? := fun id => t.graph.arrange.1.node? id }

/-- The order lists the keys of the table once each, and every node is under its own id. -/
structure Consistent (t : Tables) : Prop where
  order_nodup : t.order.Nodup
  mem_order_iff : ∀ id, id ∈ t.order ↔ ∃ n, t.node? id = some n
  id_eq : ∀ id n, t.node? id = some n → n.id = id

/-! ## Look-ups -/

section LookUps

variable {t : Tables}

theorem Consistent.map_id_filterMap (h : t.Consistent) {l : List String} (hl : ∀ id ∈ l, id ∈ t.order) :
    (l.filterMap t.node?).map (·.id) = l := by
  induction l with
  | nil => rfl
  | cons id l ih =>
    obtain ⟨hid, hl⟩ := List.forall_mem_cons.1 hl
    obtain ⟨n, hn⟩ := (h.mem_order_iff id).1 hid
    rw [List.filterMap_cons_some hn, List.map_cons, h.id_eq id n hn, ih hl]

/-- The graph lists the nodes in the order of the table. -/
theorem Consistent.order_graph (h : t.Consistent) : t.graph.order = t.order :=
  h.map_id_filterMap fun _ hid => hid

/-- The graph finds what the table holds. -/
theorem Consistent.node?_graph (h : t.Consistent) (id : String) : t.graph.node? id = t.node? id := by
  have hnodup : t.graph.order.Nodup := h.order_graph.symm ▸ h.order_nodup
  cases hn : t.node? id with
  | some n =>
    have hmem : n ∈ t.graph.nodes :=
      List.mem_filterMap.2 ⟨id, (h.mem_order_iff id).2 ⟨n, hn⟩, hn⟩
    have hfound := Graph.node?_of_mem hnodup hmem
    rwa [h.id_eq id n hn] at hfound
  | none =>
    have hmem : id ∉ t.graph.order := by
      rw [h.order_graph, h.mem_order_iff, hn]
      rintro ⟨n, ⟨⟩⟩
    rwa [Graph.mem_order_iff, Bool.not_eq_true, Option.isSome_eq_false_iff,
      Option.isNone_iff_eq_none] at hmem

end LookUps

/-! ## One operation -/

namespace Consistent

variable {t : Tables}

theorem empty : Tables.empty.Consistent where
  order_nodup := List.nodup_nil
  mem_order_iff id := by simp [Tables.empty]
  id_eq id n hn := by cases hn

theorem put (h : t.Consistent) {n : Node} (hnone : t.node? n.id = none) :
    (t.put n).Consistent ∧ (t.put n).graph = { t.graph with nodes := t.graph.nodes ++ [n] } := by
  have hfresh : n.id ∉ t.order := by
    rw [h.mem_order_iff, hnone]
    rintro ⟨m, ⟨⟩⟩
  refine ⟨⟨?_, fun id => ?_, fun id m hm => ?_⟩, ?_⟩
  · exact List.nodup_append.2 ⟨h.order_nodup, List.nodup_singleton _, by
      intro a ha b hb
      rw [List.mem_singleton.1 hb]
      exact fun he => hfresh (he ▸ ha)⟩
  · simp only [Tables.put, List.mem_append, List.mem_singleton, h.mem_order_iff,
      Function.update_apply]
    by_cases hid : id = n.id
    · simp [hid]
    · simp [hid]
  · simp only [Tables.put, Function.update_apply] at hm
    split at hm
    · next hid =>
      cases hm
      exact hid.symm
    · exact h.id_eq id m hm
  · have hsame : t.order.filterMap (Function.update t.node? n.id (some n)) =
        t.order.filterMap t.node? := by
      refine List.filterMap_congr fun id hid => Function.update_of_ne ?_ _ _
      exact fun he => hfresh (he ▸ hid)
    simp [graph, Tables.put, List.filterMap_append, hsame]

/-- The id occurs once in the order, so removing its first occurrence removes it. -/
theorem delete (h : t.Consistent) (id : String) :
    (t.delete id).Consistent ∧ (t.delete id).graph =
      ⟨t.graph.nodes.filter (·.id != id), t.graph.connections.filter fun c => !c.touches id⟩ := by
  have herase : t.order.erase id = t.order.filter (· != id) := h.order_nodup.erase_eq_filter id
  refine ⟨⟨h.order_nodup.erase id, fun key => ?_, fun key m hm => ?_⟩, ?_⟩
  · simp only [Tables.delete, h.order_nodup.mem_erase_iff, h.mem_order_iff, Function.update_apply]
    by_cases hkey : key = id
    · simp [hkey]
    · simp [hkey]
  · simp only [Tables.delete, Function.update_apply] at hm
    split at hm
    · cases hm
    · exact h.id_eq key m hm
  · simp only [graph, Tables.delete, herase, List.filterMap_filter, List.filter_filterMap]
    congr 1
    refine List.filterMap_congr fun key hkey => ?_
    obtain ⟨n, hn⟩ := (h.mem_order_iff key).1 hkey
    have hid := h.id_eq key n hn
    by_cases he : key = id
    · subst he
      simp [hn, hid, Option.filter]
    · simp [he, hn, hid, Option.filter]

/-- Nodes in the same places, each changed by a function that keeps its id. -/
theorem changed (h : t.Consistent) {node? : String → Option Node} {f : Node → Node}
    (hid : ∀ n, (f n).id = n.id) (hnode : ∀ id, node? id = (t.node? id).map f) :
    Consistent { t with node? } ∧
      graph { t with node? } = { t.graph with nodes := t.graph.nodes.map f } := by
  refine ⟨⟨h.order_nodup, fun id => ?_, fun id m hm => ?_⟩, ?_⟩
  · simp [h.mem_order_iff, hnode]
  · simp only [hnode, Option.map_eq_some_iff] at hm
    obtain ⟨n, hn, rfl⟩ := hm
    rw [hid]
    exact h.id_eq id n hn
  · simp only [graph, List.map_filterMap]
    congr 1
    exact List.filterMap_congr fun id _ => hnode id

/-- Writing new settings at an id changes the one node that has it. -/
theorem configured (h : t.Consistent) {id : String} {n : Node} (hn : t.node? id = some n)
    (s : Settings) :
    Consistent { t with node? := Function.update t.node? id (some { n with config := .sealed s }) } ∧
      graph { t with node? := Function.update t.node? id (some { n with config := .sealed s }) } =
        t.graph.modifyNode id ({ · with config := .sealed s }) := by
  refine h.changed (fun m => by split <;> rfl) fun key => ?_
  rw [Function.update_apply]
  split
  · next hkey => simp [hkey, hn, h.id_eq id n hn]
  · next hkey =>
    cases hm : t.node? key with
    | none => rfl
    | some m => simp [h.id_eq key m hm, hkey]

theorem arrange (h : t.Consistent) : t.arrange.Consistent ∧ t.arrange.graph = t.graph.arrange.1 := by
  obtain ⟨f, hf, heq⟩ := Graph.arrange_eq t.graph
  have hnode : ∀ id, t.graph.arrange.1.node? id = (t.node? id).map f := by
    intro id
    rw [heq, Graph.node?_map fun n => (hf n).1, h.node?_graph]
  rw [heq]
  exact h.changed (fun n => (hf n).1) hnode

/-- Connections stand in one list, which the table of nodes does not depend on. -/
theorem withConnections (h : t.Consistent) (connections : List Connection) :
    Consistent { t with connections } :=
  ⟨h.order_nodup, h.mem_order_iff, h.id_eq⟩

end Consistent

/-! ## Operations that may be refused -/

/-- Tables and a graph come out of an operation alike: both are refused for the same reason, or the
tables are consistent and have the graph. -/
def Agree (made : Except EditError Tables) (made' : Except EditError Graph) : Prop :=
  made.map graph = made' ∧ ∀ t, made = .ok t → t.Consistent

theorem Agree.refused (e : EditError) : Agree (.error e) (.error e) := ⟨rfl, nofun⟩

theorem Agree.made {t : Tables} {g : Graph} (h : t.Consistent ∧ t.graph = g) :
    Agree (.ok t) (.ok g) := by
  obtain ⟨hconsistent, rfl⟩ := h
  exact ⟨rfl, fun t' ht' => Except.ok.inj ht' ▸ hconsistent⟩

/-- An operation does to consistent tables what another one does to their graph. -/
def Refines (edit : Tables → Except EditError Tables) (edit' : Graph → Except EditError Graph) : Prop :=
  ∀ t : Tables, t.Consistent → Agree (edit t) (edit' t.graph)

theorem refines_insert (n : Node) : Refines (·.insert n) (·.insert n) := by
  intro t h
  simp only [Tables.insert, Graph.insert, h.node?_graph]
  by_cases hid : n.id = ""
  · simp only [if_pos hid]
    exact .refused _
  simp only [if_neg hid]
  cases n.config with
  | bare => exact .refused _
  | draft s => exact .refused _
  | sealed s =>
    cases hn : t.node? n.id with
    | some m => exact .refused _
    | none => exact .made (h.put hn)

theorem refines_remove (id : String) : Refines (·.remove id) (·.remove id) := by
  intro t h
  simp only [Tables.remove, Graph.remove, h.node?_graph]
  cases t.node? id with
  | none => exact .refused _
  | some n => exact .made (h.delete id)

theorem refines_setConfig (id : String) (config : NodeConfig) :
    Refines (·.setConfig id config) (·.setConfig id config) := by
  intro t h
  simp only [Tables.setConfig, Graph.setConfig, h.node?_graph]
  cases hn : t.node? id with
  | none => exact .refused _
  | some n =>
    dsimp only
    cases n.kind? with
    | none => exact .refused _
    | some kind =>
      cases config with
      | bare => exact .refused _
      | draft s => exact .refused _
      | sealed s =>
        dsimp only
        by_cases hkind : s.kind = kind
        · simp only [if_pos hkind]
          exact .made (h.configured hn s)
        · simp only [if_neg hkind]
          exact .refused _

end Tables

/-! ## Histories -/

/-- Tables together with the supply that names new nodes and connections. -/
structure TableEditor where
  tables : Tables
  supply : IdSupply

namespace TableEditor

/-- An editor with empty tables. -/
def new (ids : Nat → String) : TableEditor := ⟨.empty, { ids }⟩

/-- The editor of the graph of the tables. -/
def view (e : TableEditor) : Editor := ⟨e.tables.graph, e.supply⟩

/-- Applies an edit that needs no new id. -/
def apply (e : TableEditor) (edit : Tables → Except EditError Tables) : TableEditor :=
  match edit e.tables with
  | .error _ => e
  | .ok tables => { e with tables }

/-- Adds a node of a kind with default settings. -/
def add (e : TableEditor) (kind : String) (position : Position) : TableEditor :=
  match Kind.ofName? kind with
  | none => e
  | some kind =>
    let (id, supply) := e.supply.draw
    apply { e with supply } (·.insert { id, position, config := .sealed (Settings.default kind) })

/-- Takes over the connections that an edit of the graph leaves. -/
def rewire (e : TableEditor) (edit : Editor → Editor) : TableEditor :=
  { tables := { e.tables with connections := (edit e.view).graph.connections },
    supply := (edit e.view).supply }

/-- Carries out one edit. -/
def step (e : TableEditor) : Edit → TableEditor
  | .add kind position => e.add kind position
  | .insert none => e
  | .insert (some n) => e.apply (·.insert n)
  | .remove id => e.apply (·.remove id)
  | .setConfig id config => e.apply (·.setConfig id config)
  | .clear => { e with tables := .empty }
  | .connect link => e.rewire fun d => (d.connect link "").2
  | .connectAs id link => e.rewire fun d => (d.connect link id).2
  | .disconnect id => e.rewire fun d => (d.apply (·.disconnect id)).2
  | .arrange => { e with tables := e.tables.arrange }

def run (e : TableEditor) (edits : List Edit) : TableEditor := edits.foldl step e

variable {e : TableEditor}

/-- Tables that are consistent and have the graph and the supply of an editor. -/
structure Mirrors (e : TableEditor) (d : Editor) : Prop where
  consistent : e.tables.Consistent
  view_eq : e.view = d

theorem mirrors_apply (h : e.tables.Consistent) {edit : Tables → Except EditError Tables}
    {edit' : Graph → Except EditError Graph} (hedit : Tables.Refines edit edit') :
    (e.apply edit).Mirrors (e.view.apply edit').2 := by
  obtain ⟨hgraph, hconsistent⟩ := hedit e.tables h
  unfold apply Editor.apply
  cases he : edit e.tables with
  | error err =>
    rw [he] at hgraph
    have herror : edit' e.view.graph = .error err := hgraph.symm
    rw [herror]
    exact ⟨h, rfl⟩
  | ok tables =>
    rw [he] at hgraph
    have hok : edit' e.view.graph = .ok tables.graph := hgraph.symm
    rw [hok]
    exact ⟨hconsistent tables he, rfl⟩

theorem mirrors_add (h : e.tables.Consistent) (kind : String) (position : Position) :
    (e.add kind position).Mirrors (e.view.add kind position).2 := by
  unfold add Editor.add
  cases Kind.ofName? kind with
  | none => exact ⟨h, rfl⟩
  | some kind =>
    -- the id is drawn before the node is put in
    have hmirrors := mirrors_apply (e := ⟨e.tables, e.supply.draw.2⟩) h
      (Tables.refines_insert ⟨e.supply.draw.1, position, .sealed (Settings.default kind)⟩)
    revert hmirrors
    unfold Editor.apply
    dsimp only [view]
    cases e.tables.graph.insert _ <;> exact id

/-- Connecting and disconnecting leave the nodes alone. -/
theorem mirrors_rewire (h : e.tables.Consistent) {edit : Editor → Editor}
    (hnodes : ∀ d, (edit d).graph.nodes = d.graph.nodes) :
    (e.rewire edit).Mirrors (edit e.view) := by
  have hview : (e.rewire edit).view =
      ⟨⟨e.view.graph.nodes, (edit e.view).graph.connections⟩, (edit e.view).supply⟩ := rfl
  refine ⟨h.withConnections _, ?_⟩
  rw [hview, ← hnodes e.view]

theorem nodes_connect (d : Editor) (link : Link) (id : String) :
    (d.connect link id).2.graph.nodes = d.graph.nodes := by
  unfold Editor.connect
  split
  · rfl
  · dsimp only
    split
    · rfl
    · next hattach => rw [(Graph.attach_eq_ok hattach).2]

theorem nodes_disconnect (d : Editor) (id : String) :
    (d.apply (·.disconnect id)).2.graph.nodes = d.graph.nodes := by
  unfold Editor.apply
  split
  · rfl
  · next hdisconnect => rw [Graph.disconnect_eq_ok hdisconnect]

/-- Every edit does to the tables what it does to their graph. -/
theorem mirrors_step (h : e.tables.Consistent) (edit : Edit) :
    (e.step edit).Mirrors (e.view.step edit) := by
  cases edit with
  | add kind position => exact mirrors_add h kind position
  | insert n =>
    cases n with
    | none => exact ⟨h, rfl⟩
    | some n => exact mirrors_apply h (Tables.refines_insert n)
  | remove id => exact mirrors_apply h (Tables.refines_remove id)
  | setConfig id config => exact mirrors_apply h (Tables.refines_setConfig id config)
  | clear => exact ⟨.empty, rfl⟩
  | connect link => exact mirrors_rewire h (nodes_connect · link "")
  | connectAs id link => exact mirrors_rewire h (nodes_connect · link id)
  | disconnect id => exact mirrors_rewire h (nodes_disconnect · id)
  | arrange =>
    obtain ⟨hconsistent, hgraph⟩ := h.arrange
    exact ⟨hconsistent, congrArg (Editor.mk · e.supply) hgraph⟩

/-- So does every history. -/
theorem mirrors_run (h : e.tables.Consistent) (edits : List Edit) :
    (e.run edits).Mirrors (e.view.run edits) := by
  induction edits generalizing e with
  | nil => exact ⟨h, rfl⟩
  | cons edit edits ih =>
    obtain ⟨hconsistent, hview⟩ := mirrors_step h edit
    have hrest := ih hconsistent
    rw [hview] at hrest
    exact hrest

end TableEditor

/-- The tables at the end of a history that starts with nothing. -/
def Tables.edited (ids : Nat → String) (edits : List Edit) : Tables :=
  ((TableEditor.new ids).run edits).tables

theorem Tables.edited_mirrors (ids : Nat → String) (edits : List Edit) :
    (edited ids edits).Consistent ∧ (edited ids edits).graph = Graph.edited ids edits := by
  obtain ⟨hconsistent, hview⟩ := TableEditor.mirrors_run (e := .new ids) .empty edits
  exact ⟨hconsistent, congrArg Editor.graph hview⟩

/-- Whatever was done to a graph, the order lists the keys of its table of nodes once each, the table
holds the nodes of the graph under their ids, all settings are sealed, every connection joins fitting
ports of nodes that are there, no input is entered twice and no id is used twice. -/
theorem Graph.edited_graph_invariant (ids : Nat → String) (edits : List Edit) :
    let g := edited ids edits
    let t := Tables.edited ids edits
    (t.order.Nodup ∧ (∀ id, id ∈ t.order ↔ ∃ n, t.node? id = some n) ∧
      ∀ id n, t.node? id = some n ↔ n ∈ g.nodes ∧ n.id = id ∧ id ≠ "") ∧
    (g.order = t.order ∧ (∀ id, g.node? id = t.node? id) ∧ g.connections = t.connections) ∧
    (∀ n ∈ g.nodes, n.IsSealed) ∧
    (∀ c ∈ g.connections, g.Legal c.toLink) ∧
    g.connections.Pairwise (fun c d => c.head ≠ d.head) ∧
    g.connections.Pairwise (fun c d => c.id ≠ d.id) := by
  intro g t
  have h : g.WellFormed := wellFormed_edited ids edits
  obtain ⟨hconsistent, hgraph⟩ : t.Consistent ∧ t.graph = g := Tables.edited_mirrors ids edits
  have horder : g.order = t.order := hgraph ▸ hconsistent.order_graph
  have hnode : ∀ id, g.node? id = t.node? id := hgraph ▸ hconsistent.node?_graph
  refine ⟨⟨hconsistent.order_nodup, hconsistent.mem_order_iff, fun id n => ?_⟩,
    ⟨horder, hnode, hgraph ▸ rfl⟩, h.isSealed, h.legal, List.pairwise_map.1 h.heads_nodup,
    List.pairwise_map.1 h.ids_nodup⟩
  rw [← hnode]
  constructor
  · intro hn
    obtain ⟨hmem, rfl⟩ := node?_eq_some hn
    exact ⟨hmem, rfl, h.id_ne_empty n hmem⟩
  · rintro ⟨hmem, rfl, -⟩
    exact node?_of_mem h.order_nodup hmem

end TradeFlow
