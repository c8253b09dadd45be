import TradeFlow.Document.Build
import TradeFlow.Proofs.Graph.WellFormed

/-!
The graph that a document describes.

A document describes nodes, each with the settings that its entries give on top of the defaults of its
kind, and connections, of which those without an id take the next one of a supply. What is proved:

1. `Document.validate_eq_ok_iff`: a document is accepted if every node and every connection obeys the
   rules by itself, and the ids of the nodes are distinct.
2. `Document.Valid.build_eq`: the nodes of such a document are inserted as they are described, and only
   a choice outside its list is reported.
3. `Document.buildConnections_graph` and `Document.buildConnections_of_wellFormed`: the connections are
   all made exactly when they leave the graph well formed.
4. `Document.exists_build_iff`: so building reports nothing exactly when the document is accepted, its
   settings can be read, and the graph that it describes is well formed.
-/

namespace TradeFlow

/-! ## Distinct ids -/

theorem length_eraseDups_le (l : List String) : l.eraseDups.length ≤ l.length := by
  match l with
  | [] => exact Nat.le_refl 0
  | a :: l =>
    have hle := length_eraseDups_le (l.filter fun b => !b == a)
    have hfilter := List.length_filter_le (fun b => !b == a) l
    rw [List.eraseDups_cons, List.length_cons, List.length_cons]
    omega
termination_by l.length
decreasing_by exact Nat.lt_succ_of_le (List.length_filter_le _ _)

/-- As many ids are left without repetitions as there were exactly when there were none. -/
theorem length_eraseDups_eq_iff {l : List String} : l.eraseDups.length = l.length ↔ l.Nodup := by
  induction l with
  | nil => simp
  | cons a l ih =>
    rw [List.eraseDups_cons, List.length_cons, List.length_cons, List.nodup_cons, ← ih]
    have hkept : a ∉ l ↔ ∀ b ∈ l, (!b == a) = true := by
      simp only [Bool.not_eq_true', beq_eq_false_iff_ne]
      exact ⟨fun h b hb he => h (he ▸ hb), fun h ha => h a ha rfl⟩
    constructor
    · intro h
      have hle := length_eraseDups_le (l.filter fun b => !b == a)
      have hfilter := List.length_filter_le (fun b => !b == a) l
      have hall : ∀ b ∈ l, (!b == a) = true := List.length_filter_eq_length_iff.1 (by omega)
      rw [List.filter_eq_self.2 hall] at h
      exact ⟨hkept.2 hall, by omega⟩
    · rintro ⟨ha, hl⟩
      rw [List.filter_eq_self.2 (hkept.1 ha), hl]

/-! ## Rules -/

/-- What a node of a document has to satisfy. -/
structure DocumentNode.Valid (n : DocumentNode) : Prop where
  id_ne_empty : n.id ≠ ""
  kind_known : (Kind.ofName? n.kind).isSome = true
  x_finite : n.position.x.isFinite = true
  y_finite : n.position.y.isFinite = true

/-- No part of an end of the edge is empty. -/
def Link.Filled (l : Link) : Prop :=
  l.source ≠ "" ∧ l.sourceOutput ≠ "" ∧ l.target ≠ "" ∧ l.targetInput ≠ ""

namespace Document

/-- What a document has to satisfy. -/
structure Valid (d : Document) : Prop where
  version_eq : d.version = currentVersion
  ids_nodup : (d.nodeList.map (·.id)).Nodup
  nodes : ∀ n ∈ d.nodeList, n.Valid
  connections : ∀ c ∈ d.connectionList, c.toLink.Filled

theorem check_eq_nil_iff {holds : Bool} {path field rule : String} :
    check holds path field rule = [] ↔ holds = true := by
  unfold check
  split
  · next h => simp [h]
  · next h => simp [h]

theorem nodeProblems_eq_nil_iff {n : DocumentNode} {i : Nat} :
    nodeProblems n i = [] ↔ n.Valid := by
  have hempty : Kind.ofName? "" = none := by decide
  simp only [nodeProblems, List.append_eq_nil_iff, check_eq_nil_iff, bne_iff_ne, and_assoc]
  constructor
  · rintro ⟨hid, hkind, hx, hy⟩
    split at hkind
    · cases hkind
    · exact ⟨hid, check_eq_nil_iff.1 hkind, hx, hy⟩
  · rintro ⟨hid, hkind, hx, hy⟩
    have hne : n.kind ≠ "" := by
      intro he
      rw [he, hempty] at hkind
      cases hkind
    rw [if_neg hne]
    exact ⟨hid, check_eq_nil_iff.2 hkind, hx, hy⟩

theorem connectionProblems_eq_nil_iff {c : Connection} {i : Nat} :
    connectionProblems c i = [] ↔ c.toLink.Filled := by
  simp only [connectionProblems, List.append_eq_nil_iff, check_eq_nil_iff, bne_iff_ne, and_assoc,
    Link.Filled]

/-- The elements of a list have no problems at their places exactly when they have none at all. -/
theorem flatMap_zipIdx_eq_nil_iff {α : Type} {l : List α} {f : α → Nat → List String} {P : α → Prop}
    (hf : ∀ a i, f a i = [] ↔ P a) :
    (l.zipIdx.flatMap fun x => f x.1 x.2) = [] ↔ ∀ a ∈ l, P a := by
  rw [List.flatMap_eq_nil_iff]
  constructor
  · intro h a ha
    rw [← List.zipIdx_map_fst 0 l] at ha
    obtain ⟨⟨b, i⟩, hb, rfl⟩ := List.mem_map.1 ha
    exact (hf b i).1 (h (b, i) hb)
  · rintro h ⟨a, i⟩ ha
    exact (hf a i).2 (h a (List.fst_mem_of_mem_zipIdx ha))

/-- The rules, each about one node or one connection at a time. -/
theorem validate_eq_ok_iff {d : Document} : d.validate = .ok () ↔ d.Valid := by
  have hproblems : d.validate = .ok () ↔ d.problems = [] := by
    unfold validate
    split
    · next h => simpa using h
    · next h => simpa using h
  have hids : distinctIds d.nodeList = true ↔ (d.nodeList.map (·.id)).Nodup := by
    rw [distinctIds, beq_iff_eq, length_eraseDups_eq_iff]
  have hnodes : (d.nodeList.zipIdx.flatMap fun x => nodeProblems x.1 x.2) = [] ↔
      ∀ n ∈ d.nodeList, n.Valid :=
    flatMap_zipIdx_eq_nil_iff fun _ _ => nodeProblems_eq_nil_iff
  have hconnections : (d.connectionList.zipIdx.flatMap fun x => connectionProblems x.1 x.2) = [] ↔
      ∀ c ∈ d.connectionList, c.toLink.Filled :=
    flatMap_zipIdx_eq_nil_iff fun _ _ => connectionProblems_eq_nil_iff
  rw [hproblems, problems, List.append_eq_nil_iff, List.append_eq_nil_iff, check_eq_nil_iff,
    beq_iff_eq]
  constructor
  · rintro ⟨⟨hversion, hchecked⟩, hfilled⟩
    split at hchecked
    · next hdistinct =>
      exact ⟨hversion, hids.1 hdistinct, hnodes.1 hchecked, hconnections.1 hfilled⟩
    · cases hchecked
  · rintro ⟨hversion, hdistinct, hvalid, hfilled⟩
    rw [if_pos (hids.2 hdistinct)]
    exact ⟨⟨hversion, hnodes.2 hvalid⟩, hconnections.2 hfilled⟩

end Document

/-! ## Nodes -/

namespace DocumentNode

/-- The settings that the entries give on top of the defaults, and the choices outside their lists. -/
def reading (n : DocumentNode) : NodeConfig × List FieldError :=
  match Kind.ofName? n.kind with
  | none => (.bare, [])
  | some kind => (NodeConfig.sealed (Settings.default kind)).overlay n.id (n.config.getD [])

/-- The node that is described. -/
def node (n : DocumentNode) : Node := ⟨n.id, n.position, n.reading.1⟩

/-- What is reported about the settings. -/
def errors (n : DocumentNode) : List BuildError :=
  if n.reading.2.isEmpty then [] else [.fields n.reading.2]

/-- Entries do not change the kind. -/
theorem Valid.exists_sealed {n : DocumentNode} (h : n.Valid) :
    ∃ s, n.node.config = .sealed s ∧ Kind.ofName? n.kind = some s.kind := by
  obtain ⟨kind, hkind⟩ := Option.isSome_iff_exists.1 h.kind_known
  have hconfig : n.node.config =
      .sealed ((Settings.default kind).overlay (n.config.getD [])).1 := by
    simp only [node, reading, hkind]
    rfl
  refine ⟨_, hconfig, ?_⟩
  rw [hkind]
  cases kind <;> rfl

end DocumentNode

namespace Document

theorem buildNode_eq {g : Graph} {n : DocumentNode} (h : n.Valid) (hfree : g.node? n.id = none) :
    buildNode g n = ({ g with nodes := g.nodes ++ [n.node] }, n.errors) := by
  obtain ⟨kind, hkind⟩ := Option.isSome_iff_exists.1 h.kind_known
  have hreading : n.reading =
      (NodeConfig.sealed (Settings.default kind)).overlay n.id (n.config.getD []) := by
    simp only [DocumentNode.reading, hkind]
  obtain ⟨s, hs, -⟩ := h.exists_sealed
  have hinsert : g.insert n.node = .ok { g with nodes := g.nodes ++ [n.node] } := by
    have hid : n.node.id ≠ "" := h.id_ne_empty
    have hnone : g.node? n.node.id = none := hfree
    simp [Graph.insert, hid, hs, hnone]
  rw [DocumentNode.node, hreading] at hinsert
  simp only [buildNode, hkind, hinsert, DocumentNode.node, DocumentNode.errors, hreading]

/-- The nodes are inserted as they are described. -/
theorem buildNodes_eq {g : Graph} {ns : List DocumentNode} (h : ∀ n ∈ ns, n.Valid)
    (hnodup : (g.order ++ ns.map (·.id)).Nodup) :
    buildNodes g ns =
      ({ g with nodes := g.nodes ++ ns.map (·.node) }, ns.flatMap (·.errors)) := by
  induction ns generalizing g with
  | nil => simp [buildNodes]
  | cons n ns ih =>
    obtain ⟨hn, hns⟩ := List.forall_mem_cons.1 h
    have hfree : g.node? n.id = none := by
      rw [← Option.not_isSome_iff_eq_none, ← Graph.mem_order_iff]
      intro hmem
      exact (List.disjoint_of_nodup_append hnodup) hmem List.mem_cons_self
    have hrest : (Graph.order { g with nodes := g.nodes ++ [n.node] } ++ ns.map (·.id)).Nodup := by
      have horder : Graph.order { g with nodes := g.nodes ++ [n.node] } = g.order ++ [n.id] := by
        simp [Graph.order, DocumentNode.node]
      rw [horder, List.append_assoc]
      exact hnodup
    simp only [buildNodes, buildNode_eq hn hfree, ih hns hrest, List.append_assoc,
      List.singleton_append, List.map_cons, List.flatMap_cons]

end Document

/-! ## Connections -/

namespace IdSupply

/-- The id of a connection: its own one, or else the next one of the supply. -/
def pick (s : IdSupply) (id : String) : String × IdSupply :=
  if id = "" then s.draw else (id, s)

/-- Connections with the ids that they get one after the other. -/
def name (s : IdSupply) : List Connection → List Connection
  | [] => []
  | c :: cs => { c with id := (s.pick c.id).1 } :: (s.pick c.id).2.name cs

end IdSupply

namespace Editor

/-- The editor after a connection was made. -/
def joined (e : Editor) (c : Connection) : Editor where
  graph := { e.graph with
    connections := e.graph.connections ++ [{ c with id := (e.supply.pick c.id).1 }] }
  supply := (e.supply.pick c.id).2

variable {e e' : Editor} {c : Connection}

theorem connect_eq_ok {made : Connection} (h : e.connect c.toLink c.id = (.ok made, e')) :
    e' = e.joined c := by
  unfold connect at h
  split at h
  · cases h
  · dsimp only at h
    split at h
    · cases h
    · next g' hattach =>
      cases h
      obtain ⟨-, rfl⟩ := Graph.attach_eq_ok hattach
      rfl

theorem connect_of_legal (hlegal : e.graph.Legal c.toLink)
    (hfree : e.graph.entering? c.head = none)
    (hid : ∀ c' ∈ e.graph.connections, c'.id ≠ (e.supply.pick c.id).1) :
    ∃ made, e.connect c.toLink c.id = (.ok made, e.joined c) := by
  have hattach : e.graph.attach c.toLink (e.supply.pick c.id).1 = .ok (e.joined c).graph := by
    rw [Graph.attach, if_neg (by simpa using hid)]
    rfl
  rw [IdSupply.pick] at hattach
  simp only [connect, Graph.admits_of_legal hlegal hfree, hattach]
  exact ⟨_, rfl⟩

end Editor

namespace Document

variable {e : Editor} {cs : List Connection}

theorem wellFormed_buildConnections (h : e.graph.WellFormed) :
    (buildConnections e cs).1.graph.WellFormed := by
  induction cs generalizing e with
  | nil => exact h
  | cons c cs ih =>
    have hrest := ih (h.change (e.change_connect c.toLink c.id))
    simp only [buildConnections]
    split
    · exact hrest
    · exact hrest

/-- Without a refusal all connections are in the graph, behind those that were there before. -/
theorem buildConnections_graph (h : (buildConnections e cs).2 = []) :
    (buildConnections e cs).1.graph =
      { e.graph with connections := e.graph.connections ++ e.supply.name cs } := by
  induction cs generalizing e with
  | nil => simp [buildConnections, IdSupply.name]
  | cons c cs ih =>
    simp only [buildConnections] at h ⊢
    cases hconnect : e.connect c.toLink c.id with
    | mk result e' =>
      rw [hconnect] at h
      cases result with
      | error error => cases h
      | ok made =>
        obtain rfl := Editor.connect_eq_ok hconnect
        rw [ih h]
        simp [Editor.joined, IdSupply.name]

/-- No connection is refused if all of them leave the graph well formed. -/
theorem buildConnections_of_wellFormed
    (h : Graph.WellFormed { e.graph with connections := e.graph.connections ++ e.supply.name cs }) :
    (buildConnections e cs).2 = [] := by
  induction cs generalizing e with
  | nil => rfl
  | cons c cs ih =>
    have hlegal : e.graph.Legal c.toLink :=
      h.legal { c with id := (e.supply.pick c.id).1 } (by simp [IdSupply.name])
    have hheads := h.heads_nodup
    have hids := h.ids_nodup
    rw [List.map_append] at hheads hids
    have hfree : e.graph.entering? c.head = none := by
      rw [Graph.entering?, List.find?_eq_none]
      intro c' hc' hhead
      have hmem : c'.head ∈ (e.supply.name (c :: cs)).map (·.head) := by
        rw [beq_iff_eq.1 hhead]
        exact List.mem_cons_self
      exact List.disjoint_of_nodup_append hheads (List.mem_map_of_mem hc') hmem
    have hid : ∀ c' ∈ e.graph.connections, c'.id ≠ (e.supply.pick c.id).1 := by
      intro c' hc' hid
      have hmem : c'.id ∈ (e.supply.name (c :: cs)).map (·.id) := by
        rw [hid]
        exact List.mem_cons_self
      exact List.disjoint_of_nodup_append hids (List.mem_map_of_mem hc') hmem
    obtain ⟨made, hconnect⟩ := Editor.connect_of_legal hlegal hfree hid
    have hrest : (buildConnections (e.joined c) cs).2 = [] := by
      apply ih
      simpa [Editor.joined, IdSupply.name] using h
    simp only [buildConnections, hconnect, hrest]

/-! ## Graphs -/

/-- The graph that a document describes. -/
def graph (d : Document) (supply : IdSupply) : Graph :=
  ⟨d.nodeList.map (·.node), supply.name d.connectionList⟩

variable {d : Document} {supply : IdSupply}

/-- The nodes of a document make a graph without connections. -/
theorem Valid.wellFormed_nodes (h : d.Valid) :
    Graph.WellFormed ⟨d.nodeList.map (·.node), []⟩ where
  order_nodup := by
    rw [Graph.order, List.map_map]
    exact h.ids_nodup
  id_ne_empty := by
    intro n hn
    obtain ⟨m, hm, rfl⟩ := List.mem_map.1 hn
    exact (h.nodes m hm).id_ne_empty
  isSealed := by
    intro n hn
    obtain ⟨m, hm, rfl⟩ := List.mem_map.1 hn
    obtain ⟨s, hs, -⟩ := (h.nodes m hm).exists_sealed
    exact ⟨s, hs⟩
  legal := by simp
  heads_nodup := List.nodup_nil
  ids_nodup := List.nodup_nil

/-- Building an accepted document: the nodes are there as described before the first connection is
made. -/
theorem Valid.build_eq (h : d.Valid) (supply : IdSupply) :
    d.build supply =
      .ok ((buildConnections ⟨⟨d.nodeList.map (·.node), []⟩, supply⟩ d.connectionList).1,
        d.nodeList.flatMap (·.errors) ++
          (buildConnections ⟨⟨d.nodeList.map (·.node), []⟩, supply⟩ d.connectionList).2) := by
  have hnodes : buildNodes .empty d.nodeList =
      (⟨d.nodeList.map (·.node), []⟩, d.nodeList.flatMap (·.errors)) :=
    buildNodes_eq h.nodes h.ids_nodup
  simp only [build, validate_eq_ok_iff.2 h, hnodes]
  rfl

theorem valid_of_build {r : Editor × List BuildError} (h : d.build supply = .ok r) : d.Valid := by
  rw [← validate_eq_ok_iff]
  cases hvalidate : d.validate with
  | ok => rfl
  | error e =>
    simp only [build, hvalidate] at h
    cases h

theorem flatMap_errors_eq_nil_iff {ns : List DocumentNode} :
    ns.flatMap (·.errors) = [] ↔ ∀ n ∈ ns, n.reading.2 = [] := by
  rw [List.flatMap_eq_nil_iff]
  refine forall₂_congr fun n _ => ?_
  simp [DocumentNode.errors]

/-- Without a report the graph is the one that the document describes. -/
theorem graph_of_build {e : Editor} (h : d.build supply = .ok (e, [])) :
    (∀ n ∈ d.nodeList, n.reading.2 = []) ∧ e.graph = d.graph supply ∧ e.graph.WellFormed := by
  have hvalid := valid_of_build h
  rw [hvalid.build_eq] at h
  simp only [Except.ok.injEq, Prod.mk.injEq, List.append_eq_nil_iff] at h
  obtain ⟨rfl, hnodes, hconnections⟩ := h
  refine ⟨flatMap_errors_eq_nil_iff.1 hnodes, buildConnections_graph hconnections, ?_⟩
  exact wellFormed_buildConnections hvalid.wellFormed_nodes

/-- A document is built without a report exactly when it obeys the rules, its settings can be read, and
the graph that it describes is well formed. -/
theorem exists_build_iff :
    (∃ e, d.build supply = .ok (e, [])) ↔
      d.Valid ∧ (∀ n ∈ d.nodeList, n.reading.2 = []) ∧ (d.graph supply).WellFormed := by
  constructor
  · rintro ⟨e, h⟩
    obtain ⟨hread, hgraph, hwell⟩ := graph_of_build h
    exact ⟨valid_of_build h, hread, hgraph ▸ hwell⟩
  · rintro ⟨hvalid, hread, hwell⟩
    have hconnections : (buildConnections ⟨⟨d.nodeList.map (·.node), []⟩, supply⟩
        d.connectionList).2 = [] :=
      buildConnections_of_wellFormed hwell
    rw [hvalid.build_eq, flatMap_errors_eq_nil_iff.2 hread, hconnections]
    exact ⟨_, rfl⟩

end Document

end TradeFlow
