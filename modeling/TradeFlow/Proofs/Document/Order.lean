import TradeFlow.Proofs.Compile.Correspondence
import TradeFlow.Proofs.Compile.Edited
import TradeFlow.Proofs.Document.Build

/-!
The order of nodes and connections.

Every look-up takes the first match, so order may matter. In a graph that was built it does not, as
long as only one node has strategy settings and every control output is left by one connection: then
all look-ups have one match at most. What is proved:

1. `find?_eq_of_perm`: where there is one match at most, it is found in every order.
2. `Graph.WellFormed.reordered`: a well-formed graph is well formed in every order.
3. `Graph.compile_eq_of_reordered`: if each look-up of the compilation has one match at most, the result
   is the same in every order.
4. `IdSupply.nodup_ids_name`: fresh ids do not clash with given ones, whoever gets them.
5. `Document.order_irrelevant`: so a document can be reordered.
-/

namespace TradeFlow

/-! ## Look-ups -/

/-- Where there is one match at most, it is found in every order. -/
theorem find?_eq_of_perm {α : Type} {p : α → Bool} {l l' : List α} (h : l.Perm l')
    (hone : l.countP p ≤ 1) : l'.find? p = l.find? p := by
  have hfilter := h.filter p
  rw [List.countP_eq_length_filter] at hone
  rw [← List.head?_filter, ← List.head?_filter]
  match hl : l.filter p, hone with
  | [], _ =>
    rw [hl] at hfilter
    rw [hfilter.nil_eq]
  | [a], _ =>
    rw [hl] at hfilter
    rw [List.singleton_perm.1 hfilter]

theorem countP_le_one_of_nodup {α β : Type} [BEq β] [LawfulBEq β] {f : α → β} {l : List α}
    (h : (l.map f).Nodup) (b : β) : l.countP (f · == b) ≤ 1 := by
  have hcount := List.nodup_iff_count_le_one.1 h b
  rw [List.count, List.countP_map] at hcount
  exact hcount

namespace Graph

/-- The same nodes and the same edges in another order. -/
structure Reordered (g g' : Graph) : Prop where
  nodes : g.nodes.Perm g'.nodes
  links : g.links.Perm g'.links

variable {g g' : Graph}

theorem Reordered.node?_eq (h : g.Reordered g') (hnodup : g.order.Nodup) (id : String) :
    g'.node? id = g.node? id :=
  find?_eq_of_perm h.nodes (countP_le_one_of_nodup hnodup id)

/-- Whether a graph is well formed does not depend on the order, nor on which distinct ids its
connections have. -/
theorem WellFormed.reordered (h : g.WellFormed) (hperm : g.Reordered g')
    (hids : (g'.connections.map (·.id)).Nodup) : g'.WellFormed where
  order_nodup := (hperm.nodes.map _).nodup_iff.1 h.order_nodup
  id_ne_empty := fun n hn => h.id_ne_empty n (hperm.nodes.mem_iff.2 hn)
  isSealed := fun n hn => h.isSealed n (hperm.nodes.mem_iff.2 hn)
  legal := by
    intro c hc
    have hlink : c.toLink ∈ g.links := hperm.links.mem_iff.2 (List.mem_map_of_mem hc)
    obtain ⟨c₀, hc₀, heq⟩ := List.mem_map.1 hlink
    rw [← heq]
    refine (h.legal c₀ hc₀).mono (fun n hn => ?_) (fun n hn => ?_)
    · rw [hperm.node?_eq h.order_nodup, hn]
    · rw [hperm.node?_eq h.order_nodup, hn]
  heads_nodup := by
    have hheads := (hperm.links.map _).nodup_iff.1 h.links_heads_nodup
    rw [links, List.map_map] at hheads
    exact hheads
  ids_nodup := hids

/-- Control and data take the same way in every order if control outputs are left once, and only one
node has strategy settings. -/
theorem compile_eq_of_reordered (h : g.WellFormed) (h' : g'.WellFormed) (hperm : g.Reordered g')
    (hconfig : g.nodes.countP (fun n => n.kind? == some .strategyConfig) ≤ 1)
    (hcontrol : ∀ ref, g.IsControl ref → g.links.countP (·.tail == ref) ≤ 1) :
    g'.compile.result = g.compile.result := by
  have hroot : g'.root? = g.root? :=
    root?_eq_of_firstConfig? h.isSealed h'.isSealed (find?_eq_of_perm hperm.nodes hconfig)
  refine compile_eq_of_agree (S := Set.univ) (T := {ref | g.IsControl ref}) hroot ?_ ?_ ?_ ?_ ?_ ?_
  · intro root settings hroot
    obtain ⟨hmem, hkind⟩ := mem_of_root? h.isSealed hroot
    exact h.isControl_start hmem hkind
  · intro a _ b hb
    exact isControl_of_follow hb
  · exact fun _ _ => trivial
  · intro ref href
    rw [next?_eq_links, next?_eq_links, find?_eq_of_perm hperm.links (hcontrol ref href)]
    simp only [hperm.node?_eq h.order_nodup]
  · exact fun _ _ _ _ => trivial
  · intro known _ id _ key
    -- no input is entered twice
    have hone := countP_le_one_of_nodup h.links_heads_nodup ⟨id, key⟩
    rw [Scope.input?, Scope.input?, find?_eq_of_perm hperm.links hone]

end Graph

/-! ## Ids of connections -/

/-- The ids that connections bring with them. -/
def givenIds (cs : List Connection) : List String := (cs.map (·.id)).filter (· != "")

namespace IdSupply

/-- The ids that are left in the supply are distinct, and none of them is in use. -/
structure Fresh (s : IdSupply) (taken : List String) : Prop where
  injective : ∀ i j, s.drawn ≤ i → s.drawn ≤ j → s.ids i = s.ids j → i = j
  not_mem : ∀ i, s.drawn ≤ i → s.ids i ∉ taken

variable {s : IdSupply} {taken : List String} {cs : List Connection} {c : Connection}

theorem Fresh.draw (h : s.Fresh taken) : s.draw.2.Fresh taken where
  injective := fun i j hi hj => h.injective i j (Nat.le_of_succ_le hi) (Nat.le_of_succ_le hj)
  not_mem := fun i hi => h.not_mem i (Nat.le_of_succ_le hi)

theorem name_cons_of_given (s : IdSupply) (h : c.id ≠ "") : s.name (c :: cs) = c :: s.name cs := by
  rw [name, pick, if_neg h]

theorem name_cons_of_drawn (s : IdSupply) (h : c.id = "") :
    s.name (c :: cs) = { c with id := s.ids s.drawn } :: s.draw.2.name cs := by
  rw [name, pick, if_pos h]
  rfl

theorem givenIds_cons_of_given (h : c.id ≠ "") : givenIds (c :: cs) = c.id :: givenIds cs := by
  simp [givenIds, h]

theorem givenIds_cons_of_drawn (h : c.id = "") : givenIds (c :: cs) = givenIds cs := by
  simp [givenIds, h]

/-- Naming does not change the edges. -/
theorem links_name (s : IdSupply) (cs : List Connection) :
    (s.name cs).map (·.toLink) = cs.map (·.toLink) := by
  induction cs generalizing s with
  | nil => rfl
  | cons c cs ih => rw [name, List.map_cons, List.map_cons, ih]

/-- A connection keeps the id that it brings. -/
theorem mem_name (s : IdSupply) (hc : c ∈ cs) (hid : c.id ≠ "") : c ∈ s.name cs := by
  induction cs generalizing s with
  | nil => cases hc
  | cons b cs ih =>
    rcases List.mem_cons.1 hc with rfl | hc
    · rw [name_cons_of_given s hid]
      exact List.mem_cons_self
    · exact List.mem_cons_of_mem _ (ih _ hc)

theorem name_of_given (s : IdSupply) (h : ∀ c ∈ cs, c.id ≠ "") : s.name cs = cs := by
  induction cs with
  | nil => rfl
  | cons c cs ih =>
    obtain ⟨hc, hcs⟩ := List.forall_mem_cons.1 h
    rw [name_cons_of_given s hc, ih hcs]

theorem givenIds_sublist (s : IdSupply) (cs : List Connection) :
    (givenIds cs).Sublist ((s.name cs).map (·.id)) := by
  induction cs generalizing s with
  | nil => exact .slnil
  | cons c cs ih =>
    by_cases hc : c.id = ""
    · rw [givenIds_cons_of_drawn hc, name_cons_of_drawn s hc]
      exact (ih s.draw.2).cons _
    · rw [givenIds_cons_of_given hc, name_cons_of_given s hc]
      exact (ih s).cons_cons _

/-- Every id was given or drawn. -/
theorem mem_ids_name {x : String} (h : x ∈ (s.name cs).map (·.id)) :
    x ∈ givenIds cs ∨ ∃ i, s.drawn ≤ i ∧ s.ids i = x := by
  induction cs generalizing s with
  | nil => cases h
  | cons c cs ih =>
    by_cases hc : c.id = ""
    · rw [name_cons_of_drawn s hc, List.map_cons] at h
      rw [givenIds_cons_of_drawn hc]
      rcases List.mem_cons.1 h with rfl | h
      · exact .inr ⟨s.drawn, Nat.le_refl _, rfl⟩
      · rcases ih h with hgiven | ⟨i, hi, hx⟩
        · exact .inl hgiven
        · exact .inr ⟨i, Nat.le_of_succ_le hi, hx⟩
    · rw [name_cons_of_given s hc, List.map_cons] at h
      rw [givenIds_cons_of_given hc]
      rcases List.mem_cons.1 h with rfl | h
      · exact .inl List.mem_cons_self
      · exact (ih h).imp_left (List.mem_cons_of_mem _)

/-- Fresh ids do not clash with given ones, whichever connections they go to. -/
theorem nodup_ids_name (hfresh : s.Fresh taken) (hgiven : (givenIds cs).Nodup)
    (hsub : givenIds cs ⊆ taken) : ((s.name cs).map (·.id)).Nodup := by
  induction cs generalizing s with
  | nil => exact List.nodup_nil
  | cons c cs ih =>
    by_cases hc : c.id = ""
    · rw [givenIds_cons_of_drawn hc] at hgiven hsub
      rw [name_cons_of_drawn s hc, List.map_cons, List.nodup_cons]
      refine ⟨fun hmem => ?_, ih hfresh.draw hgiven hsub⟩
      rcases mem_ids_name hmem with hmem | ⟨i, hi, heq⟩
      · exact hfresh.not_mem s.drawn (Nat.le_refl _) (hsub hmem)
      · -- an id that is drawn later is another one
        have hdrawn := hfresh.injective i s.drawn (Nat.le_of_succ_le hi) (Nat.le_refl _) heq
        have hlt : s.drawn < i := hi
        omega
    · rw [givenIds_cons_of_given hc] at hgiven hsub
      rw [name_cons_of_given s hc, List.map_cons, List.nodup_cons]
      obtain ⟨hnew, hgiven⟩ := List.nodup_cons.1 hgiven
      obtain ⟨htaken, hsub⟩ := List.cons_subset.1 hsub
      refine ⟨fun hmem => ?_, ih hfresh hgiven hsub⟩
      rcases mem_ids_name hmem with hmem | ⟨i, hi, heq⟩
      · exact hnew hmem
      · exact hfresh.not_mem i hi (heq ▸ htaken)

/-- In another order the connections have distinct ids again: their own ones, or fresh ones. -/
theorem nodup_ids_of_perm {s' : IdSupply} {cs' : List Connection} (hperm : cs.Perm cs')
    (hnodup : ((s.name cs).map (·.id)).Nodup)
    (hids : (∀ c ∈ cs, c.id ≠ "") ∨ s'.Fresh (givenIds cs)) :
    ((s'.name cs').map (·.id)).Nodup := by
  rcases hids with hgiven | hfresh
  · rw [name_of_given s hgiven] at hnodup
    rw [name_of_given s' fun c hc => hgiven c (hperm.mem_iff.2 hc)]
    exact (hperm.map _).nodup_iff.1 hnodup
  · have hsame : (givenIds cs).Perm (givenIds cs') := (hperm.map _).filter _
    apply nodup_ids_name hfresh
    · exact hsame.nodup_iff.1 ((givenIds_sublist s cs).nodup hnodup)
    · exact hsame.symm.subset

end IdSupply

/-! ## Documents -/

namespace Document

/-- An output by which control leaves a node of the document. -/
def IsControl (d : Document) (ref : OutputRef) : Prop :=
  ∃ n ∈ d.nodeList, n.id = ref.node ∧ ∃ kind port, Kind.ofName? n.kind = some kind ∧
    kind.output? ref.output = some port ∧ port.socket = .exec

variable {d d' : Document} {supply supply' : IdSupply}

theorem Valid.reordered (h : d.Valid) (hversion : d'.version = d.version)
    (hnodes : d.nodeList.Perm d'.nodeList) (hconnections : d.connectionList.Perm d'.connectionList) :
    d'.Valid where
  version_eq := hversion.trans h.version_eq
  ids_nodup := (hnodes.map _).nodup_iff.1 h.ids_nodup
  nodes := fun n hn => h.nodes n (hnodes.mem_iff.2 hn)
  connections := fun c hc => h.connections c (hconnections.mem_iff.2 hc)

theorem links_graph (d : Document) (supply : IdSupply) :
    (d.graph supply).links = d.connectionList.map (·.toLink) :=
  supply.links_name d.connectionList

theorem Valid.isControl (h : d.Valid) {ref : OutputRef} (href : (d.graph supply).IsControl ref) :
    d.IsControl ref := by
  obtain ⟨n, port, hn, hport, hs⟩ := href
  obtain ⟨hmem, hid⟩ := Graph.node?_eq_some hn
  obtain ⟨m, hm, rfl⟩ := List.mem_map.1 hmem
  obtain ⟨s, hconfig, hkind⟩ := (h.nodes m hm).exists_sealed
  refine ⟨m, hm, hid, s.kind, port, hkind, ?_, hs⟩
  rw [Node.output?, Node.kind?, hconfig] at hport
  exact hport

/-- The nodes with strategy settings are those that the document calls so. -/
theorem Valid.countP_config_le (h : d.Valid) :
    (d.graph supply).nodes.countP (fun n => n.kind? == some .strategyConfig) ≤
      d.nodeList.countP fun n => n.kind == Kind.strategyConfig.name := by
  rw [graph, List.countP_map]
  refine List.countP_mono_left fun n hn hconfig => ?_
  obtain ⟨s, hs, hkind⟩ := (h.nodes n hn).exists_sealed
  have hsettings : s.kind = .strategyConfig := by
    simpa [Node.kind?, hs, NodeConfig.kind?] using hconfig
  rw [hsettings] at hkind
  have hname := List.find?_some hkind
  rw [beq_iff_eq] at hname ⊢
  exact hname.symm

/-- The order of a document does not matter. If it is built without a report, it has strategy settings
once and control outputs that are left once, and connections bring ids or get fresh ones, then every
other order is built without a report to the same nodes and connections, which generate the same
text. -/
theorem order_irrelevant {e : Editor} (hbuild : d.build supply = .ok (e, []))
    (hconfig : d.nodeList.countP (fun n => n.kind == Kind.strategyConfig.name) ≤ 1)
    (hcontrol : ∀ ref, d.IsControl ref → d.connectionList.countP (·.tail == ref) ≤ 1)
    (hversion : d'.version = d.version) (hnodes : d.nodeList.Perm d'.nodeList)
    (hconnections : d.connectionList.Perm d'.connectionList)
    (hids : (∀ c ∈ d.connectionList, c.id ≠ "") ∨ supply'.Fresh (givenIds d.connectionList)) :
    ∃ e', d'.build supply' = .ok (e', []) ∧
      e.graph.nodes.Perm e'.graph.nodes ∧ e.graph.links.Perm e'.graph.links ∧
      (∀ c ∈ d.connectionList, c.id ≠ "" → c ∈ e.graph.connections ∧ c ∈ e'.graph.connections) ∧
      ((∀ c ∈ d.connectionList, c.id ≠ "") → e.graph.connections.Perm e'.graph.connections) ∧
      ∃ text, e.graph.generate? = some text ∧ e'.graph.generate? = some text := by
  have hvalid := valid_of_build hbuild
  obtain ⟨hread, hgraph, hwell⟩ := graph_of_build hbuild
  rw [hgraph] at hwell ⊢
  have hperm : (d.graph supply).Reordered (d'.graph supply') := by
    refine ⟨hnodes.map _, ?_⟩
    rw [links_graph, links_graph]
    exact hconnections.map _
  have hwell' : (d'.graph supply').WellFormed :=
    hwell.reordered hperm (IdSupply.nodup_ids_of_perm hconnections hwell.ids_nodup hids)
  obtain ⟨e', hbuild'⟩ := exists_build_iff.2
    ⟨hvalid.reordered hversion hnodes hconnections,
      fun n hn => hread n (hnodes.mem_iff.2 hn), hwell'⟩
  obtain ⟨-, hgraph', -⟩ := graph_of_build hbuild'
  have hresult : (d'.graph supply').compile.result = (d.graph supply).compile.result := by
    apply Graph.compile_eq_of_reordered hwell hwell' hperm (hvalid.countP_config_le.trans hconfig)
    intro ref href
    rw [links_graph, List.countP_map]
    exact hcontrol ref (hvalid.isControl href)
  obtain ⟨text, htext⟩ := hwell.exists_text
  refine ⟨e', hbuild', ?_⟩
  rw [hgraph']
  refine ⟨hperm.nodes, hperm.links, fun c hc hid => ?_, fun hgiven => ?_, text, htext, ?_⟩
  · exact ⟨supply.mem_name hc hid, supply'.mem_name (hconnections.mem_iff.1 hc) hid⟩
  · rw [graph, graph, supply.name_of_given hgiven,
      supply'.name_of_given fun c hc => hgiven c (hconnections.mem_iff.2 hc)]
    exact hconnections
  · rw [Graph.generate?, hresult]
    exact htext

/-- A loop around an order. One connection brings no id. -/
def loopDocument : Document where
  version := currentVersion
  nodes := some
    [⟨"s", "StrategyConfig", ⟨0, 0⟩, none⟩, ⟨"f", "ForEach", ⟨0, 0⟩, none⟩,
      ⟨"o", "PlaceOrder", ⟨0, 0⟩, some [("nseSymbol", .string "INFY")]⟩]
  connections := some
    [⟨⟨"s", "exec", "f", "exec"⟩, "c1"⟩, ⟨⟨"f", "loopBody", "o", "exec"⟩, ""⟩,
      ⟨⟨"f", "item", "o", "nseSymbol"⟩, "c2"⟩]

/-- The document backwards. -/
def reversedLoopDocument : Document where
  version := currentVersion
  nodes := loopDocument.nodes.map List.reverse
  connections := loopDocument.connections.map List.reverse

/-- A supply of ever longer ids. -/
def lengthening : IdSupply where
  ids := fun i => String.ofList (List.replicate (i + 1) 'x')

/-- Backwards, nodes and connections come in another order, and the text is the same. -/
theorem loopDocument_reversed :
    ∃ e e' text, loopDocument.build lengthening = .ok (e, []) ∧
      reversedLoopDocument.build lengthening = .ok (e', []) ∧
      e.graph.order = ["s", "f", "o"] ∧ e'.graph.order = ["o", "f", "s"] ∧
      e.graph.generate? = some text ∧ e'.graph.generate? = some text := by
  obtain ⟨e, hbuild⟩ : ∃ e, loopDocument.build lengthening = .ok (e, []) := by
    have hclean : (loopDocument.build lengthening).toOption.map (·.2.isEmpty) = some true := by
      decide +kernel
    cases hbuild : loopDocument.build lengthening with
    | error _ =>
      rw [hbuild] at hclean
      cases hclean
    | ok built =>
      rw [hbuild] at hclean
      have hnone : built.2 = [] := List.isEmpty_iff.1 (Option.some.inj hclean)
      exact ⟨built.1, by rw [← hnone]⟩
  have hcontrol : ∀ ref, loopDocument.IsControl ref →
      loopDocument.connectionList.countP (·.tail == ref) ≤ 1 := by
    have htails : (loopDocument.connectionList.map (·.tail)).Nodup := by decide
    exact fun ref _ => countP_le_one_of_nodup htails ref
  have hfresh : lengthening.Fresh (givenIds loopDocument.connectionList) := by
    constructor
    · intro i j _ _ h
      have hlength := congrArg String.length h
      simpa [lengthening] using hlength
    · intro i _ hmem
      have hgiven : givenIds loopDocument.connectionList = ["c1", "c2"] := by decide
      have hhead : (lengthening.ids i).toList.head? = some 'x' := by
        simp [lengthening, List.replicate_succ]
      rw [hgiven] at hmem
      rcases List.mem_pair.1 hmem with h | h
      · rw [h] at hhead
        cases hhead
      · rw [h] at hhead
        cases hhead
  have hversion : reversedLoopDocument.version = loopDocument.version := rfl
  obtain ⟨e', hbuild', -, -, -, -, text, htext, htext'⟩ := order_irrelevant hbuild (by decide) hcontrol
    hversion (List.reverse_perm _).symm (List.reverse_perm _).symm (.inr hfresh)
  refine ⟨e, e', text, hbuild, hbuild', ?_, ?_, htext, htext'⟩
  · rw [(graph_of_build hbuild).2.1]
    rfl
  · rw [(graph_of_build hbuild').2.1]
    rfl

end Document

end TradeFlow
