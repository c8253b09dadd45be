import TradeFlow.Compile.Basic
import TradeFlow.Proofs.Catalogue
import TradeFlow.Proofs.Document.Order
import TradeFlow.Proofs.Document.Replay
import TradeFlow.Proofs.Fields

/-!
Graphs and their documents.

The document of a graph writes out every setting. What is proved:

1. `Graph.Storable.of_build`: a graph that a document was built into without a report satisfies
   everything that a document is checked for, provided that no connection got an empty id.
2. `Graph.Storable.exists_build`: a document that describes such a graph, with values that are read
   alike, is accepted and built into the graph again.
3. `Document.build_ofGraph`: so documents and graphs go back and forth without a loss.
-/

namespace TradeFlow

/-! ## Descriptions -/

namespace Node

/-- The entry of a node in a document. -/
def described (n : Node) : DocumentNode where
  id := n.id
  kind := (n.kind?.map Kind.name).getD ""
  position := n.position
  config := n.config.entries?

/-- An entry describes a node by settings whose values came back in another form. -/
structure DescribedBy (f : Value → Value) (n : Node) (m : DocumentNode) : Prop where
  id_eq : m.id = n.id
  kind_eq : m.kind = n.described.kind
  position_eq : m.position = n.position
  get?_eq : ∀ key, (m.config.getD []).get? key = ((n.described.config.getD []).get? key).map f

/-- A node whose settings were written out and read on top of the defaults. -/
def restored (f : Value → Value) (n : Node) : Node :=
  { n with
    config :=
      match n.config with
      | .sealed s => .sealed (.restored f (.default s.kind) s)
      | config => config }

variable {n : Node} {m : DocumentNode} {f : Value → Value}

theorem describedBy_described (n : Node) : n.DescribedBy (fun v => v) n.described :=
  ⟨rfl, rfl, rfl, fun _ => Option.map_id'.symm⟩

theorem restored_id (n : Node) : n.restored (fun v => v) = n := by
  obtain ⟨i, p, config⟩ := n
  cases config <;> simp [restored, Settings.restored_id]

theorem kind?_restored (f : Value → Value) (n : Node) : (n.restored f).kind? = n.kind? := by
  obtain ⟨i, p, config⟩ := n
  cases config with
  | sealed s => cases s <;> rfl
  | _ => rfl

/-- The entry is read back without a refused choice. -/
theorem DescribedBy.reading_eq (h : n.DescribedBy f m) (hf : Value.Transparent f) {s : Settings}
    (hs : n.config = .sealed s) (hfits : s.Fits) : m.reading = ((n.restored f).config, []) := by
  have hkind : Kind.ofName? m.kind = some s.kind := by
    rw [h.kind_eq, described, kind?, hs]
    exact Kind.ofName?_name s.kind
  have hget : ∀ key, (m.config.getD []).get? key =
      ((s.entries?.getD []).get? key).map f := by
    intro key
    rw [h.get?_eq, described, hs]
    rfl
  have hoverlay := Settings.overlay_of_get? (Settings.kind_default s.kind) hfits hf hget
  simp only [DocumentNode.reading, hkind, NodeConfig.overlay, hoverlay, restored, hs]
  rfl

theorem DescribedBy.node_eq (h : n.DescribedBy f m) (hf : Value.Transparent f) {s : Settings}
    (hs : n.config = .sealed s) (hfits : s.Fits) : m.node = n.restored f := by
  rw [DocumentNode.node, h.reading_eq hf hs hfits, h.id_eq, h.position_eq]
  rfl

end Node

namespace Graph

/-- A graph that can be written as a document and built again. -/
structure Storable (g : Graph) : Prop where
  wellFormed : g.WellFormed
  fits : ∀ n ∈ g.nodes, ∃ s, n.config = .sealed s ∧ s.Fits
  finite : ∀ n ∈ g.nodes, n.position.x.isFinite = true ∧ n.position.y.isFinite = true
  filled : ∀ c ∈ g.connections, c.toLink.Filled
  named : ∀ c ∈ g.connections, c.id ≠ ""

/-- The graph with settings that were written out and read on top of the defaults. -/
def restored (f : Value → Value) (g : Graph) : Graph :=
  { g with nodes := g.nodes.map (Node.restored f) }

variable {g : Graph} {f : Value → Value}

theorem restored_id (g : Graph) : g.restored (fun v => v) = g := by
  rw [restored, List.map_congr_left fun n _ => n.restored_id, List.map_id']

theorem ofGraph?_eq (h : ∀ n ∈ g.nodes, n.IsSealed) :
    Document.ofGraph? g = some
      ⟨Document.currentVersion, some (g.nodes.map Node.described), some g.connections⟩ := by
  unfold Document.ofGraph?
  rw [mapM_eq_some_map (g := Node.described) fun n hn => ?_]
  · rfl
  · obtain ⟨s, hs⟩ := h n hn
    simp only [Node.described, Node.kind?, hs]
    rfl

theorem Storable.restored (h : g.Storable) (f : Value → Value) : (g.restored f).WellFormed := by
  refine h.wellFormed.mapNodes (fun n => rfl) (fun n _ => n.kind?_restored f) (fun n hn => ?_)
  obtain ⟨s, hs, -⟩ := h.fits n hn
  exact ⟨.restored f (.default s.kind) s, by rw [Node.restored, hs]⟩

variable {d : Document} {entry : Node → DocumentNode}

/-- A document that describes the graph obeys the rules. -/
theorem Storable.valid (h : g.Storable) (hversion : d.version = Document.currentVersion)
    (hnodes : d.nodeList = g.nodes.map entry) (hentry : ∀ n ∈ g.nodes, n.DescribedBy f (entry n))
    (hconnections : d.connectionList = g.connections) : d.Valid where
  version_eq := hversion
  ids_nodup := by
    have hids : d.nodeList.map (·.id) = g.order := by
      rw [hnodes, List.map_map]
      exact List.map_congr_left fun n hn => (hentry n hn).id_eq
    rw [hids]
    exact h.wellFormed.order_nodup
  nodes := by
    rw [hnodes, List.forall_mem_map]
    intro n hn
    obtain ⟨s, hs, -⟩ := h.fits n hn
    have hkind : Kind.ofName? (entry n).kind = some s.kind := by
      rw [(hentry n hn).kind_eq, Node.described, Node.kind?, hs]
      exact Kind.ofName?_name s.kind
    constructor
    · rw [(hentry n hn).id_eq]
      exact h.wellFormed.id_ne_empty n hn
    · rw [hkind]
      rfl
    · rw [(hentry n hn).position_eq]
      exact (h.finite n hn).1
    · rw [(hentry n hn).position_eq]
      exact (h.finite n hn).2
  connections := by
    rw [hconnections]
    exact h.filled

/-- A document that describes the graph is accepted and built into the graph again; nothing is drawn
from the supply. -/
theorem Storable.exists_build (h : g.Storable) (hf : Value.Transparent f)
    (hversion : d.version = Document.currentVersion)
    (hnodes : d.nodeList = g.nodes.map entry) (hentry : ∀ n ∈ g.nodes, n.DescribedBy f (entry n))
    (hconnections : d.connectionList = g.connections) (supply : IdSupply) :
    ∃ e, d.build supply = .ok (e, []) ∧ e.graph = g.restored f := by
  have hread : ∀ n ∈ d.nodeList, n.reading.2 = [] := by
    rw [hnodes, List.forall_mem_map]
    intro n hn
    obtain ⟨s, hs, hfits⟩ := h.fits n hn
    rw [(hentry n hn).reading_eq hf hs hfits]
  have hgraph : d.graph supply = g.restored f := by
    rw [Document.graph, hnodes, hconnections, supply.name_of_given h.named, List.map_map,
      Graph.restored]
    congr 1
    refine List.map_congr_left fun n hn => ?_
    obtain ⟨s, hs, hfits⟩ := h.fits n hn
    exact (hentry n hn).node_eq hf hs hfits
  obtain ⟨e, hbuild⟩ := Document.exists_build_iff.2
    ⟨h.valid hversion hnodes hentry hconnections, hread, hgraph ▸ h.restored f⟩
  exact ⟨e, hbuild, (Document.graph_of_build hbuild).2.1.trans hgraph⟩

/-- A graph that a document was built into, when every connection has an id. -/
theorem Storable.of_build {supply : IdSupply} {e : Editor} (h : d.build supply = .ok (e, []))
    (hids : ∀ i, supply.ids i ≠ "") : e.graph.Storable := by
  have hvalid := Document.valid_of_build h
  obtain ⟨-, hgraph, hwell⟩ := Document.graph_of_build h
  refine ⟨hwell, ?_, ?_, ?_, ?_⟩
  all_goals rw [hgraph, Document.graph]
  · rw [List.forall_mem_map]
    intro n hn
    obtain ⟨kind, hkind⟩ := Option.isSome_iff_exists.1 (hvalid.nodes n hn).kind_known
    refine ⟨((Settings.default kind).overlay (n.config.getD [])).1, ?_,
      Settings.fits_overlay (Settings.fits_default kind) _⟩
    simp only [DocumentNode.node, DocumentNode.reading, hkind]
    rfl
  · rw [List.forall_mem_map]
    exact fun n hn => ⟨(hvalid.nodes n hn).x_finite, (hvalid.nodes n hn).y_finite⟩
  · -- an id does not change the ends of a connection
    intro c hc
    have hlink : c.toLink ∈ d.connectionList.map (·.toLink) := by
      rw [← supply.links_name]
      exact List.mem_map_of_mem hc
    obtain ⟨c₀, hc₀, heq⟩ := List.mem_map.1 hlink
    rw [← heq]
    exact hvalid.connections c₀ hc₀
  · intro c hc
    rcases IdSupply.mem_ids_name (List.mem_map_of_mem hc) with hgiven | ⟨i, -, hdrawn⟩
    · simpa using (List.mem_filter.1 hgiven).2
    · rw [← hdrawn]
      exact hids i

end Graph

namespace Document

/-- A graph that was built without a report is described by an accepted document. Building that one
draws no ids and gives the same graph without a report, so it is described by the same document and
generates the same text. -/
theorem build_ofGraph {d : Document} {supply : IdSupply} {e : Editor}
    (hbuild : d.build supply = .ok (e, [])) (hids : ∀ i, supply.ids i ≠ "") (supply' : IdSupply) :
    ∃ saved e', ofGraph? e.graph = some saved ∧ saved.validate = .ok () ∧
      saved.build supply' = .ok (e', []) ∧ e'.graph = e.graph ∧ ofGraph? e'.graph = some saved ∧
      e'.graph.generate? = e.graph.generate? := by
  have hstorable := Graph.Storable.of_build hbuild hids
  have hsaved := Graph.ofGraph?_eq hstorable.wellFormed.isSealed
  have hentry : ∀ n ∈ e.graph.nodes, n.DescribedBy (fun v => v) n.described :=
    fun n _ => n.describedBy_described
  obtain ⟨e', hbuild', hgraph⟩ := hstorable.exists_build Value.transparent_id
    (d := ⟨currentVersion, some (e.graph.nodes.map Node.described), some e.graph.connections⟩)
    rfl rfl hentry rfl supply'
  rw [Graph.restored_id] at hgraph
  refine ⟨_, e', hsaved, validate_eq_ok_iff.2 (valid_of_build hbuild'), hbuild', hgraph, ?_, ?_⟩
  · rw [hgraph, hsaved]
  · rw [hgraph]

theorem exists_build_of_run {d : Document} {supply : IdSupply}
    (h : (d.build supply).toOption.map (·.2.isEmpty) = some true) :
    ∃ e, d.build supply = .ok (e, []) := by
  cases hbuild : d.build supply with
  | error _ =>
    rw [hbuild] at h
    cases h
  | ok built =>
    rw [hbuild] at h
    have hnone : built.2 = [] := List.isEmpty_iff.1 (Option.some.inj h)
    exact ⟨built.1, by rw [← hnone]⟩

/-- The loop keeps the id that was drawn for a connection of it, and the symbol of the order. -/
theorem loopDocument_kept :
    ∃ e saved e', loopDocument.build lengthening = .ok (e, []) ∧ ofGraph? e.graph = some saved ∧
      saved.build repeatingIds = .ok (e', []) ∧ e'.graph = e.graph ∧
      saved.connectionList.map (·.id) = ["c1", "x", "c2"] ∧
      e'.graph.generate? = e.graph.generate? := by
  have hids : ∀ i, lengthening.ids i ≠ "" := by
    intro i hempty
    have hlength := congrArg String.length hempty
    simp [lengthening] at hlength
  obtain ⟨e, hbuild⟩ : ∃ e, loopDocument.build lengthening = .ok (e, []) :=
    exists_build_of_run (by decide +kernel)
  obtain ⟨saved, e', hsaved, -, hbuild', hgraph, -, htext⟩ :=
    build_ofGraph hbuild hids repeatingIds
  refine ⟨e, saved, e', hbuild, hsaved, hbuild', hgraph, ?_, htext⟩
  obtain ⟨-, hdescribed, hwell⟩ := graph_of_build hbuild
  rw [Graph.ofGraph?_eq hwell.isSealed, hdescribed] at hsaved
  rw [← Option.some.inj hsaved]
  rfl

end Document

end TradeFlow
