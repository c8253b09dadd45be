import TradeFlow.Proofs.Graph.Arrange
import Mathlib.Order.WellFoundedSet

/-!
The columns of an arrangement.

Control enters a node by one input, so it comes to a node from one other node only. A search that
starts where control does not arrive therefore comes to a node by its only edge, one column right of
where this edge starts. A node that no control connection touches is placed after all searches, in the
order of the graph. What is proved:

1. `Forward.start` and `Forward.step`: what the searches from the starts keep.
2. `Graph.WellFormed.forward_searched`: without a cycle these searches come to every node that a
   control connection touches, and no other search is started.
3. `Graph.acyclic_graph_columns`: so every control connection leads exactly one column to the right.
4. `Graph.edited_graph_data_columns`: a node that only brings data stands left of its consumer if the
   consumer has its column when the node is placed.
-/

namespace TradeFlow.Graph

open Relation (TransGen)

variable {g : Graph} {edges : List (String × String)} {order pool : List String}
  {visited queue : List Columned} {id s t : String} {column : Nat}

/-! ## Control connections -/

/-- A control connection leads from the first node to the second one. -/
def Leads (g : Graph) (s t : String) : Prop :=
  ∃ c ∈ g.connections, g.isControl c = true ∧ c.source = s ∧ c.target = t

theorem mem_controlEdges : (s, t) ∈ g.controlEdges ↔ g.Leads s t := by
  simp [controlEdges, Leads, and_assoc]

theorem controlled_iff : g.Controlled id ↔ (∃ t, g.Leads id t) ∨ ∃ s, g.Leads s id := by
  constructor
  · rintro ⟨⟨s, t⟩, he, rfl | rfl⟩
    · exact .inl ⟨t, mem_controlEdges.1 he⟩
    · exact .inr ⟨s, mem_controlEdges.1 he⟩
  · rintro (⟨t, h⟩ | ⟨s, h⟩)
    · exact ⟨_, mem_controlEdges.2 h, .inl rfl⟩
    · exact ⟨_, mem_controlEdges.2 h, .inr rfl⟩

namespace WellFormed

/-- A control connection enters an `exec` input. -/
theorem head_of_isControl (h : g.WellFormed) {c : Connection} (hc : c ∈ g.connections)
    (hcontrol : g.isControl c = true) : c.head = ⟨c.target, "exec"⟩ := by
  obtain ⟨source, target, output, input, hsource, htarget, hout, hin, hfit⟩ := h.legal c hc
  simp only [isControl, hsource, Option.bind_some, hout, Socket.isControl, beq_iff_eq] at hcontrol
  rw [hcontrol] at hfit
  obtain ⟨kind, -, hinput⟩ := Option.bind_eq_some_iff.1 hin
  rw [Link.head, Kind.eq_exec_of_input? hinput (Socket.eq_exec_of_compatible hfit)]

/-- Control comes to a node from one other node only. -/
theorem source_eq_of_leads (h : g.WellFormed) {s' : String} (hs : g.Leads s t)
    (hs' : g.Leads s' t) : s = s' := by
  obtain ⟨c, hc, hcontrol, rfl, rfl⟩ := hs
  obtain ⟨d, hd, hcontrol', rfl, htarget⟩ := hs'
  have hhead : c.head = d.head := by
    rw [h.head_of_isControl hc hcontrol, h.head_of_isControl hd hcontrol', htarget]
  rw [List.inj_on_of_nodup_map h.heads_nodup hc hd hhead]

theorem target_mem_order (h : g.WellFormed) {c : Connection} (hc : c ∈ g.connections) :
    c.target ∈ g.order := by
  obtain ⟨source, target, output, input, -, htarget, -⟩ := h.legal c hc
  rw [mem_order_iff, htarget]
  rfl

theorem source_mem_order (h : g.WellFormed) {c : Connection} (hc : c ∈ g.connections) :
    c.source ∈ g.order := by
  obtain ⟨source, target, output, input, hsource, -⟩ := h.legal c hc
  rw [mem_order_iff, hsource]
  rfl

end WellFormed

/-! ## Searches from the starts -/

/-- What holds while all searches so far started where no edge ends. -/
structure Forward (edges : List (String × String)) (order : List String)
    (visited queue : List Columned) (pool : List String) : Prop where
  accounts : Accounts order visited queue pool
  /-- The edges of a node that was not visited lead into the pool. -/
  ahead : ∀ e ∈ edges, e.1 ∉ visited.map (·.1) → e.2 ∈ pool
  /-- The edges of a visited node lead one column to the right. -/
  right : ∀ e ∈ edges, ∀ column, (e.1, column) ∈ visited → (e.2, column + 1) ∈ visited ++ queue
  /-- Where no edge ends, the column is the first one. -/
  left : ∀ p ∈ visited ++ queue, (∀ e ∈ edges, e.2 ≠ p.1) → p.2 = 0

namespace Forward

theorem start (horder : order.Nodup) (hid : id ∈ pool) (hfree : ∀ e ∈ edges, e.2 ≠ id)
    (h : Forward edges order visited [] pool) :
    Forward edges order visited [(id, 0)] (drain pool [id]) where
  accounts := h.accounts.start horder hid
  ahead := fun e he hsource =>
    mem_drain.2 ⟨h.ahead e he hsource, by simpa using hfree e he⟩
  right := by
    intro e he column hvisited
    have hnext := h.right e he column hvisited
    rw [List.append_nil] at hnext
    exact List.mem_append_left _ hnext
  left := by
    intro p hp hfirst
    rcases List.mem_append.1 hp with hp | hp
    · exact h.left p (List.mem_append_left _ hp) hfirst
    · rw [List.mem_singleton.1 hp]

theorem step (horder : order.Nodup)
    (hone : ∀ e ∈ edges, ∀ f ∈ edges, e.2 = f.2 → e.1 = f.1)
    (h : Forward edges order visited ((id, column) :: queue) pool) :
    Forward edges order (visited ++ [(id, column)])
      (queue ++ (freshTargets edges pool id).map (·, column + 1))
      (drain pool (freshTargets edges pool id)) where
  accounts := h.accounts.step horder
  ahead := by
    intro e he hsource
    rw [List.map_append, List.mem_append, not_or] at hsource
    refine mem_drain.2 ⟨h.ahead e he hsource.1, fun hfresh => hsource.2 ?_⟩
    -- the edge ends where an edge of the visited node ends, so it is this edge
    rw [hone e he (id, e.2) (mem_freshTargets.1 hfresh).1 rfl]
    exact List.mem_singleton_self id
  right := by
    intro e he column' hvisited
    rcases List.mem_append.1 hvisited with hvisited | hlast
    · have hnext := h.right e he column' hvisited
      rw [List.append_cons] at hnext
      rw [← List.append_assoc]
      exact List.mem_append_left _ hnext
    · obtain ⟨source, target⟩ := e
      obtain ⟨rfl, rfl⟩ := Prod.mk.inj (List.mem_singleton.1 hlast)
      have hnodup := h.accounts.nodup_iff.2 horder
      have hnew : source ∉ visited.map (·.1) := by
        intro hmem
        rw [List.append_assoc] at hnodup
        exact (List.disjoint_of_nodup_append hnodup) hmem (List.mem_append_left _ List.mem_cons_self)
      have hfresh := mem_freshTargets.2 ⟨he, h.ahead _ he hnew⟩
      exact List.mem_append_right _
        (List.mem_append_right _ (List.mem_map_of_mem (f := (·, column' + 1)) hfresh))
  left := by
    intro p hp hfirst
    rw [← List.append_assoc, ← List.append_cons] at hp
    rcases List.mem_append.1 hp with hp | hp
    · exact h.left p hp hfirst
    · obtain ⟨x, hx, rfl⟩ := List.mem_map.1 hp
      exact absurd rfl (hfirst _ (mem_freshTargets.1 hx).1)

/-- A node that is not in the pool was visited when no search is under way. -/
theorem exists_column (h : Forward edges order visited [] pool) (hid : id ∈ order)
    (hpool : id ∉ pool) : ∃ column, (id, column) ∈ visited := by
  have hmem := h.accounts.mem_iff.2 hid
  rw [List.map_nil, List.append_nil] at hmem
  obtain ⟨⟨key, column⟩, hvisited, rfl⟩ :=
    List.mem_map.1 ((List.mem_append.1 hmem).resolve_right hpool)
  exact ⟨column, hvisited⟩

theorem not_mem_pool (horder : order.Nodup) (h : Forward edges order visited [] pool)
    (hvisited : (id, column) ∈ visited) : id ∉ pool := by
  have hnodup := h.accounts.nodup_iff.2 horder
  rw [List.map_nil, List.append_nil] at hnodup
  exact List.disjoint_of_nodup_append hnodup (List.mem_map_of_mem (f := (·.1)) hvisited)

end Forward

theorem searchAll_eq_self {candidates : List String} {state : List Columned × List String}
    (h : ∀ id ∈ candidates, id ∉ state.2) : searchAll edges candidates state = state := by
  induction candidates with
  | nil => rfl
  | cons id candidates ih =>
    obtain ⟨hid, hlater⟩ := List.forall_mem_cons.1 h
    rw [searchAll_cons_of_not_mem hid, ih hlater]

namespace WellFormed

/-- Without a cycle control arrives in finitely many steps. -/
theorem wellFounded_leads (h : g.WellFormed) (hacyclic : ∀ id, ¬ TransGen g.Leads id id) :
    WellFounded g.Leads := by
  have : IsTrans String (TransGen g.Leads) := ⟨fun _ _ _ => TransGen.trans⟩
  have : Std.Irrefl (TransGen g.Leads) := ⟨hacyclic⟩
  have : IsStrictOrder String (TransGen g.Leads) := ⟨⟩
  -- control connections join nodes of the graph, and of these there are finitely many
  have hfinite : {id | id ∈ g.order}.Finite := List.finite_toSet g.order
  refine Subrelation.wf ?_ (Set.wellFoundedOn_iff.1 (hfinite.wellFoundedOn (r := TransGen g.Leads)))
  intro s t hst
  obtain ⟨c, hc, -, rfl, rfl⟩ := id hst
  exact ⟨.single hst, h.source_mem_order hc, h.target_mem_order hc⟩

/-- Without a cycle the searches from the starts come to every node that a control connection
touches, so the searches that follow find nothing. -/
theorem forward_searched (h : g.WellFormed) (hacyclic : ∀ id, ¬ TransGen g.Leads id id) :
    Forward g.controlEdges g.order g.searched.1 [] g.searched.2 := by
  have hone : ∀ e ∈ g.controlEdges, ∀ f ∈ g.controlEdges, e.2 = f.2 → e.1 = f.1 := by
    rintro ⟨s, t⟩ he ⟨s', t'⟩ hf heq
    obtain rfl : t = t' := heq
    exact h.source_eq_of_leads (mem_controlEdges.1 he) (mem_controlEdges.1 hf)
  have hfirst : Forward g.controlEdges g.order
      (searchAll g.controlEdges g.starts ([], g.order)).1 []
      (searchAll g.controlEdges g.starts ([], g.order)).2 := by
    refine searchAll_invariant ?_ (fun _ _ _ _ _ hforward => hforward.step h.order_nodup hone) ?_
    · exact fun _ id hid _ hpool hforward =>
        hforward.start h.order_nodup hpool (mem_starts.1 hid).2.2
    · refine ⟨List.Perm.refl _, ?_, by simp, by simp⟩
      rintro ⟨s, t⟩ he -
      obtain ⟨c, hc, -, -, rfl⟩ := mem_controlEdges.1 he
      exact h.target_mem_order hc
  -- by induction on the way that control takes to a node
  have hreached : ∀ id, g.Controlled id → id ∈ g.order →
      id ∉ (searchAll g.controlEdges g.starts ([], g.order)).2 := by
    intro id
    induction id using (h.wellFounded_leads hacyclic).induction with
    | _ id ih =>
      intro hcontrolled hid
      by_cases hentered : ∃ s, g.Leads s id
      · obtain ⟨s, hs⟩ := hentered
        have hsource : s ∈ g.order := by
          obtain ⟨c, hc, -, rfl, -⟩ := hs
          exact h.source_mem_order hc
        -- control comes from a node that was visited, and so the node was visited after it
        obtain ⟨column, hcolumn⟩ := hfirst.exists_column hsource
          (ih s hs (controlled_iff.2 (.inl ⟨id, hs⟩)) hsource)
        have hnext := hfirst.right _ (mem_controlEdges.2 hs) column hcolumn
        rw [List.append_nil] at hnext
        exact hfirst.not_mem_pool h.order_nodup hnext
      · refine not_mem_pool_searchAll (mem_starts.2 ⟨hid, hcontrolled, ?_⟩)
        rintro ⟨s, t⟩ he rfl
        exact hentered ⟨s, mem_controlEdges.1 he⟩
  have hsecond : g.searched = searchAll g.controlEdges g.starts ([], g.order) :=
    searchAll_eq_self fun id hid =>
      hreached id (mem_controlNodes.1 hid).2 (mem_controlNodes.1 hid).1
  rw [hsecond]
  exact hfirst

end WellFormed

/-! ## Columns -/

/-- The column of the node with an id. -/
def columnOf (g : Graph) (id : String) : Nat := (g.columns.lookup id).getD 0

theorem columnOf_eq_of_mem (horder : g.order.Nodup) (h : (id, column) ∈ g.columns) :
    g.columnOf id = column := by
  rw [columnOf, lookup_of_mem ((columns_perm horder).nodup_iff.2 horder) h]
  rfl

theorem mem_columns (horder : g.order.Nodup) (hid : id ∈ g.order) :
    (id, g.columnOf id) ∈ g.columns := by
  obtain ⟨⟨key, column⟩, hmem, rfl⟩ := List.mem_map.1 ((columns_perm horder).mem_iff.2 hid)
  rw [columnOf_eq_of_mem horder hmem]
  exact hmem

/-- A node stands at the left edge of its column. -/
theorem corner_fst (horder : g.order.Nodup) (hid : id ∈ g.order) :
    (g.corner id).1 = g.columnOf id * columnWidth :=
  corner_fst_of_mem_columns horder (mem_columns horder hid)

/-- Places all nodes of a list behind those that were visited. -/
def placeData (g : Graph) (ids : List String) (visited : List Columned) : List Columned :=
  ids.foldl (fun visited id => visited ++ [(id, g.dataColumn visited id)]) visited

theorem prefix_placeData (g : Graph) (ids : List String) (visited : List Columned) :
    visited <+: g.placeData ids visited := by
  induction ids generalizing visited with
  | nil => exact List.prefix_rfl
  | cons id ids ih => exact (List.prefix_append _ _).trans (ih _)

theorem mem_columns_of_searched (h : (id, column) ∈ g.searched.1) : (id, column) ∈ g.columns :=
  (prefix_placeData g g.searched.2 g.searched.1).subset h

/-- What stands earlier in a list without duplicates has the smaller index. -/
theorem idxOf_lt_of_sublist (horder : order.Nodup) (h : [s, t].Sublist order) :
    order.idxOf s < order.idxOf t := by
  have hpairs : order.Pairwise fun a b => order.idxOf a < order.idxOf b := by
    refine List.pairwise_iff_getElem.2 fun i j hi hj hij => ?_
    rwa [horder.idxOf_getElem i hi, horder.idxOf_getElem j hj]
  exact List.rel_of_pairwise_cons (hpairs.sublist h) List.mem_cons_self

/-- When a node without control connections is placed, exactly the nodes with control connections and
those that stand before it in the graph have their columns. -/
theorem exists_placed (horder : g.order.Nodup) (hid : id ∈ g.order) (hfree : ¬ g.Controlled id) :
    ∃ placed, placed <+: g.columns ∧ (id, g.dataColumn placed id) ∈ g.columns ∧
      ∀ t ∈ g.order, t ∈ placed.map (·.1) ↔ g.Controlled t ∨ g.order.idxOf t < g.order.idxOf id := by
  obtain ⟨before, after, hpool⟩ :=
    List.append_of_mem (mem_pool_searched_iff.2 ⟨hid, hfree⟩)
  have hcolumns : g.columns = g.placeData after (g.placeData before g.searched.1 ++
      [(id, g.dataColumn (g.placeData before g.searched.1) id)]) := by
    rw [columns_eq, hpool, List.foldl_append, List.foldl_cons]
    rfl
  have hlater := prefix_placeData g after (g.placeData before g.searched.1 ++
    [(id, g.dataColumn (g.placeData before g.searched.1) id)])
  rw [← hcolumns] at hlater
  refine ⟨g.placeData before g.searched.1, (List.prefix_append _ _).trans hlater,
    hlater.subset (List.mem_append_right _ List.mem_cons_self), fun t ht => ?_⟩
  have hsublist : (before ++ id :: after).Sublist g.order := hpool ▸ pool_searched_sublist g
  -- the searches come to the nodes with control connections and to no others
  have hvisited : t ∈ g.searched.1.map (·.1) ↔ g.Controlled t := by
    have hperm := searched_perm horder
    have hdisjoint := List.disjoint_of_nodup_append (hperm.nodup_iff.2 horder)
    have hmem := hperm.mem_iff.2 ht
    have hleft : t ∈ g.searched.2 ↔ t ∈ g.order ∧ ¬ g.Controlled t := mem_pool_searched_iff
    rw [List.mem_append] at hmem
    constructor
    · exact fun hv => not_not.1 fun hc => hdisjoint hv (hleft.2 ⟨ht, hc⟩)
    · exact fun hc => hmem.resolve_right fun hp => (hleft.1 hp).2 hc
  rw [placeData, foldl_dataColumn_map_fst, List.mem_append, hvisited]
  by_cases hcontrolled : g.Controlled t
  · simp [hcontrolled]
  -- both nodes are placed after the searches, in the order of the graph
  simp only [hcontrolled, false_or]
  constructor
  · intro hbefore
    have hpair : [t, id].Sublist (before ++ id :: after) :=
      (List.singleton_sublist.2 hbefore).append (List.singleton_sublist.2 List.mem_cons_self)
    exact idxOf_lt_of_sublist horder (hpair.trans hsublist)
  · intro hlt
    have hmem : t ∈ before ++ id :: after := hpool ▸ mem_pool_searched_iff.2 ⟨ht, hcontrolled⟩
    refine (List.mem_append.1 hmem).resolve_right fun hbehind => ?_
    rcases List.mem_cons.1 hbehind with rfl | hafter
    · exact absurd hlt (lt_irrefl _)
    · have hpair : [id, t].Sublist (before ++ id :: after) :=
        ((List.singleton_sublist.2 hafter).cons_cons id).trans (List.sublist_append_right _ _)
      have := idxOf_lt_of_sublist horder (hpair.trans hsublist)
      omega

/-- A node without control connections stands left of the target of its first connection, if this node
has its column already; otherwise it stands in the first column. -/
theorem columnOf_data (horder : g.order.Nodup) (hid : id ∈ g.order) (hfree : ¬ g.Controlled id)
    {c : Connection} (hc : g.connections.find? (·.source == id) = some c)
    (htarget : c.target ∈ g.order) :
    (g.Controlled c.target ∨ g.order.idxOf c.target < g.order.idxOf id →
      g.columnOf id = g.columnOf c.target - 1) ∧
    (¬ (g.Controlled c.target ∨ g.order.idxOf c.target < g.order.idxOf id) → g.columnOf id = 0) := by
  obtain ⟨placed, hfirst, hmem, hplaced⟩ := exists_placed horder hid hfree
  have hcolumn := columnOf_eq_of_mem horder hmem
  rw [dataColumn, hc] at hcolumn
  rw [← hplaced _ htarget, hcolumn]
  have hnodup : (placed.map (·.1)).Nodup :=
    ((hfirst.map _).sublist).nodup ((columns_perm horder).nodup_iff.2 horder)
  constructor
  · intro hready
    obtain ⟨⟨key, k⟩, hk, hkey⟩ := List.mem_map.1 hready
    obtain rfl : key = c.target := hkey
    rw [columnOf_eq_of_mem horder (hfirst.subset hk)]
    simp only [lookup_of_mem hnodup hk, Option.getD_some]
  · intro hwaiting
    have hnone : placed.lookup c.target = none := by
      rw [List.lookup_eq_none_iff]
      rintro ⟨key, k⟩ hk
      refine bne_iff_ne.2 ?_
      rintro rfl
      exact hwaiting (List.mem_map_of_mem hk)
    simp only [hnone, Option.getD_none]

/-! ## Arranged graphs -/

theorem WellFormed.node?_arrange (h : g.WellFormed) (hid : id ∈ g.order) :
    ∃ n, g.arrange.1.node? id = some n ∧ n.position = .whole (g.corner id) := by
  obtain ⟨n, hn⟩ := Option.isSome_iff_exists.1 (mem_order_iff.1 hid)
  have hmoved : ∀ m, (g.settle m).id = m.id := fun m => m.id_moveTo _
  refine ⟨g.settle n, ?_, ?_⟩
  · rw [h.arrange_eq, node?_map hmoved, hn]
    rfl
  · rw [settle, Node.position_moveTo, (node?_eq_some hn).2]

theorem WellFormed.position_arrange (h : g.WellFormed) :
    ∀ n ∈ g.arrange.1.nodes, n.id ∈ g.order ∧ n.position = .whole (g.corner n.id) := by
  intro n hn
  rw [h.arrange_eq] at hn
  obtain ⟨m, hm, rfl⟩ := List.mem_map.1 hn
  rw [settle, Node.position_moveTo, Node.id_moveTo]
  exact ⟨List.mem_map_of_mem hm, rfl⟩

/-- Without a control cycle, every control connection of an arranged graph leads exactly one column to
the right, and what control leaves but does not enter stands at the left edge. -/
theorem acyclic_graph_columns (ids : Nat → String) (edits : List Edit)
    (hacyclic : ∀ id, ¬ TransGen (edited ids edits).Leads id id) :
    let g := edited ids edits
    let g' := g.arrange.1
    (∀ c ∈ g.connections, g.isControl c = true →
      ∃ s t k, g'.node? c.source = some s ∧ g'.node? c.target = some t ∧
        s.position.x = .ofNat (360 * k) ∧ t.position.x = .ofNat (360 * k + 360) ∧
        (360 * k + 360 ≤ Nat.pow 2 53 → t.position.x = s.position.x + .ofNat 360)) ∧
    ∀ n ∈ g'.nodes, (∃ t, g.Leads n.id t) → (∀ s, ¬ g.Leads s n.id) → n.position.x = 0 := by
  intro g g'
  have h : g.WellFormed := wellFormed_edited ids edits
  have hforward := h.forward_searched hacyclic
  have hvisited : ∀ {id}, g.Controlled id → id ∈ g.order → ∃ k, (id, k) ∈ g.searched.1 :=
    fun hcontrolled hid =>
      hforward.exists_column hid fun hpool => (mem_pool_searched_iff.1 hpool).2 hcontrolled
  constructor
  · intro c hc hcontrol
    have hleads : g.Leads c.source c.target := ⟨c, hc, hcontrol, rfl, rfl⟩
    obtain ⟨k, hk⟩ := hvisited (controlled_iff.2 (.inl ⟨_, hleads⟩)) (h.source_mem_order hc)
    have hnext := hforward.right _ (mem_controlEdges.2 hleads) k hk
    rw [List.append_nil] at hnext
    obtain ⟨s, hs, hsplace⟩ := h.node?_arrange (h.source_mem_order hc)
    obtain ⟨t, ht, htplace⟩ := h.node?_arrange (h.target_mem_order hc)
    have hx : s.position.x = .ofNat (360 * k) := by
      rw [hsplace, Position.x_whole,
        corner_fst_of_mem_columns h.order_nodup (mem_columns_of_searched hk), columnWidth, mul_comm]
    have hx' : t.position.x = .ofNat (360 * k + 360) := by
      rw [htplace, Position.x_whole,
        corner_fst_of_mem_columns h.order_nodup (mem_columns_of_searched hnext), columnWidth, mul_comm,
        Nat.mul_succ]
    refine ⟨s, t, k, hs, ht, hx, hx', fun hle => ?_⟩
    rw [hx, hx', Binary64.ofNat_add_ofNat hle]
  · intro n hn hout hin
    obtain ⟨hid, hplace⟩ := h.position_arrange n hn
    obtain ⟨k, hk⟩ := hvisited (controlled_iff.2 (.inl hout)) hid
    have hentered : ∀ e ∈ g.controlEdges, e.2 ≠ n.id := by
      rintro ⟨s, t⟩ he rfl
      exact hin s (mem_controlEdges.1 he)
    obtain rfl : k = 0 := hforward.left _ (List.mem_append_left _ hk) hentered
    rw [hplace, Position.x_whole,
      corner_fst_of_mem_columns h.order_nodup (mem_columns_of_searched hk), Nat.zero_mul]
    rfl

/-- Two quotes behind one output of the settings, and a condition behind the second one. -/
def forkEdits : List Edit :=
  [.insert (some ⟨"s", ⟨0, 0⟩, .sealed (.default .strategyConfig)⟩),
    .insert (some ⟨"p", ⟨0, 0⟩, .sealed (.default .fetchQuote)⟩),
    .insert (some ⟨"q", ⟨0, 0⟩, .sealed (.default .fetchQuote)⟩),
    .insert (some ⟨"b", ⟨0, 0⟩, .sealed (.default .conditional)⟩),
    .connectAs "1" ⟨"s", "exec", "p", "exec"⟩, .connectAs "2" ⟨"s", "exec", "q", "exec"⟩,
    .connectAs "3" ⟨"q", "exec", "b", "exec"⟩]

/-- There is no cycle, so the second edge of the settings leads one column to the right as well, and the
settings stand at the left edge. -/
theorem fork_columns :
    let g := edited (fun _ => "") forkEdits
    let g' := g.arrange.1
    (∀ id, ¬ TransGen g.Leads id id) ∧
    (∃ s t k, g'.node? "s" = some s ∧ g'.node? "q" = some t ∧
      s.position.x = .ofNat (360 * k) ∧ t.position.x = .ofNat (360 * k + 360)) ∧
    ∀ n ∈ g'.nodes, n.id = "s" → n.position.x = 0 := by
  have hedges : (edited (fun _ => "") forkEdits).controlEdges =
      [("s", "p"), ("s", "q"), ("q", "b")] := by decide +kernel
  have hrank : ∀ s t, (edited (fun _ => "") forkEdits).Leads s t →
      ["s", "p", "q", "b"].idxOf s < ["s", "p", "q", "b"].idxOf t := by
    intro s t hst
    have hmem := mem_controlEdges.2 hst
    rw [hedges] at hmem
    have hall : ∀ e ∈ [("s", "p"), ("s", "q"), ("q", "b")],
        ["s", "p", "q", "b"].idxOf e.1 < ["s", "p", "q", "b"].idxOf e.2 := by decide
    exact hall _ hmem
  have hacyclic : ∀ id, ¬ TransGen (edited (fun _ => "") forkEdits).Leads id id := by
    intro id hcycle
    have hlift := hcycle.lift _ hrank
    rw [Relation.transGen_eq_self] at hlift
    exact lt_irrefl _ hlift
  obtain ⟨hright, hleft⟩ := acyclic_graph_columns (fun _ => "") forkEdits hacyclic
  obtain ⟨s, t, k, hs, ht, hx, hx', -⟩ := hright ⟨⟨"s", "exec", "q", "exec"⟩, "2"⟩
    (by decide +kernel) (by decide +kernel)
  refine ⟨hacyclic, ⟨s, t, k, hs, ht, hx, hx'⟩, fun n hn hid => hleft n hn ?_ fun s hs => ?_⟩
  · exact ⟨"p", mem_controlEdges.1 (by rw [hedges, hid]; decide)⟩
  · have hmem := mem_controlEdges.2 hs
    rw [hedges, hid] at hmem
    simp at hmem

/-- A node that no control connection touches stands one column left of the target `t` of its first
connection exactly if control touches `t`, or `t` was inserted before it, or `t` stands in the second
column; otherwise it stands in the first column. -/
theorem edited_graph_data_columns (ids : Nat → String) (edits : List Edit) :
    let g := edited ids edits
    let g' := g.arrange.1
    (∀ n ∈ g'.nodes, n.position = .whole (g.corner n.id)) ∧
    ∀ n ∈ g'.nodes, ¬ g.Controlled n.id →
      ∀ c, g.connections.find? (·.source == n.id) = some c →
      ∀ k > 0, (g.corner c.target).1 = 360 * k →
        ((g.corner n.id).1 = 360 * (k - 1) ↔
          g.Controlled c.target ∨ g.order.idxOf c.target < g.order.idxOf n.id ∨ k = 1) ∧
        ((g.corner n.id).1 ≠ 360 * (k - 1) → (g.corner n.id).1 = 0) := by
  intro g g'
  have h : g.WellFormed := wellFormed_edited ids edits
  refine ⟨fun n hn => (h.position_arrange n hn).2, fun n hn hfree c hc k hk hcorner => ?_⟩
  have hid := (h.position_arrange n hn).1
  have htarget := h.target_mem_order (List.mem_of_find?_eq_some hc)
  obtain ⟨hready, hwaiting⟩ := columnOf_data h.order_nodup hid hfree hc htarget
  rw [corner_fst h.order_nodup htarget, columnWidth, mul_comm] at hcorner
  have hcolumn : g.columnOf c.target = k := Nat.eq_of_mul_eq_mul_left (by decide) hcorner
  rw [hcolumn] at hready
  rw [corner_fst h.order_nodup hid, columnWidth, mul_comm, ← or_assoc]
  by_cases hplaced : g.Controlled c.target ∨ g.order.idxOf c.target < g.order.idxOf n.id
  · simp only [hready hplaced, hplaced, true_or, true_and, ne_eq, not_true_eq_false, false_imp_iff]
  · simp only [hwaiting hplaced, hplaced, false_or]
    omega

/-- Two calls for dates and then a quote; a loop brings the symbol for the quote, and a shortlist brings
what the loop runs over. Control does not come to the loop and the shortlist, which are inserted
last. -/
def dataChain (loopFirst : Bool) : List Edit :=
  let settings : Node := ⟨"s", ⟨0, 0⟩, .sealed (.default .strategyConfig)⟩
  let dates : Node := ⟨"a", ⟨0, 0⟩, .sealed (.default .fetchDates)⟩
  let dates' : Node := ⟨"b", ⟨0, 0⟩, .sealed (.default .fetchDates)⟩
  let quote : Node := ⟨"q", ⟨0, 0⟩, .sealed (.default .fetchQuote)⟩
  let loop : Node := ⟨"f", ⟨0, 0⟩, .sealed (.default .forEach)⟩
  let shortlist : Node := ⟨"l", ⟨0, 0⟩, .sealed (.default .fetchShortlist)⟩
  let producers := if loopFirst then [loop, shortlist] else [shortlist, loop]
  ([settings, dates, dates', quote] ++ producers).map (fun n => .insert (some n)) ++
    [.connectAs "1" ⟨"s", "exec", "a", "exec"⟩, .connectAs "2" ⟨"a", "exec", "b", "exec"⟩,
      .connectAs "3" ⟨"b", "exec", "q", "exec"⟩, .connectAs "4" ⟨"f", "item", "q", "symbol"⟩,
      .connectAs "5" ⟨"l", "results", "f", "array"⟩]

theorem controlEdges_dataChain (loopFirst : Bool) :
    (edited (fun _ => "") (dataChain loopFirst)).controlEdges =
      [("s", "a"), ("a", "b"), ("b", "q")] := by
  cases loopFirst <;> decide +kernel

theorem order_dataChain (loopFirst : Bool) :
    (edited (fun _ => "") (dataChain loopFirst)).order =
      ["s", "a", "b", "q"] ++ if loopFirst then ["f", "l"] else ["l", "f"] := by
  cases loopFirst <;> decide +kernel

theorem columns_dataChain (loopFirst : Bool) :
    (edited (fun _ => "") (dataChain loopFirst)).columns =
      [("s", 0), ("a", 1), ("b", 2), ("q", 3)] ++
        if loopFirst then [("f", 2), ("l", 1)] else [("l", 0), ("f", 2)] := by
  have hsearched : (edited (fun _ => "") (dataChain loopFirst)).searched =
      ([("s", 0), ("a", 1), ("b", 2), ("q", 3)], if loopFirst then ["f", "l"] else ["l", "f"]) := by
    rw [searched, starts, controlNodes, controlEdges_dataChain, order_dataChain]
    cases loopFirst <;> cbv
  rw [columns_eq, hsearched]
  cases loopFirst <;> decide +kernel

theorem corner_dataChain {loopFirst : Bool} {id : String} {k : Nat}
    (hmem : (id, k) ∈ [("s", 0), ("a", 1), ("b", 2), ("q", 3)] ++
      if loopFirst then [("f", 2), ("l", 1)] else [("l", 0), ("f", 2)]) :
    ((edited (fun _ => "") (dataChain loopFirst)).corner id).1 = 360 * k := by
  rw [← columns_dataChain] at hmem
  rw [corner_fst_of_mem_columns (wellFormed_edited _ _).order_nodup hmem, columnWidth, mul_comm]

theorem free_dataChain (loopFirst : Bool) :
    ∀ id ∈ ["f", "l"], ¬ (edited (fun _ => "") (dataChain loopFirst)).Controlled id := by
  simp only [Controlled, controlEdges_dataChain]
  decide

/-- When the loop is inserted before the shortlist, each stands one column left of its consumer. -/
theorem dataChain_columns :
    let g := edited (fun _ => "") (dataChain true)
    (g.corner "q").1 = 360 * 3 ∧ (g.corner "f").1 = 360 * 2 ∧ (g.corner "l").1 = 360 * 1 := by
  have h := wellFormed_edited (fun _ => "") (dataChain true)
  have hfree := free_dataChain true
  have horder := order_dataChain true
  have hedges := controlEdges_dataChain true
  have hquote : ((edited (fun _ => "") (dataChain true)).corner "q").1 = 360 * 3 :=
    corner_dataChain (by decide)
  have hitem : (edited (fun _ => "") (dataChain true)).connections.find? (·.source == "f") =
      some ⟨⟨"f", "item", "q", "symbol"⟩, "4"⟩ := by decide +kernel
  have hresults : (edited (fun _ => "") (dataChain true)).connections.find? (·.source == "l") =
      some ⟨⟨"l", "results", "f", "array"⟩, "5"⟩ := by decide +kernel
  obtain ⟨-, hdata⟩ := edited_graph_data_columns (fun _ => "") (dataChain true)
  -- from here on it does not matter how the graph was made
  generalize edited (fun _ => "") (dataChain true) = g at *
  have hloop : (g.corner "f").1 = 360 * 2 := by
    obtain ⟨n, hn, -⟩ := h.node?_arrange (show "f" ∈ g.order by rw [horder]; decide)
    obtain ⟨hmem, hid⟩ := node?_eq_some hn
    have hleft := hdata n hmem
    rw [hid] at hleft
    have hcontrolled : g.Controlled "q" := ⟨("b", "q"), by rw [hedges]; decide, .inr rfl⟩
    exact (hleft (hfree _ (by decide)) _ hitem 3 (by decide) hquote).1.2 (.inl hcontrolled)
  have hlist : (g.corner "l").1 = 360 * 1 := by
    obtain ⟨n, hn, -⟩ := h.node?_arrange (show "l" ∈ g.order by rw [horder]; decide)
    obtain ⟨hmem, hid⟩ := node?_eq_some hn
    have hleft := hdata n hmem
    rw [hid] at hleft
    have hbefore : g.order.idxOf "f" < g.order.idxOf "l" := by
      rw [horder]
      decide
    exact (hleft (hfree _ (by decide)) _ hresults 2 (by decide) hloop).1.2 (.inr (.inl hbefore))
  exact ⟨hquote, hloop, hlist⟩

/-- When the shortlist is inserted before the loop, the loop stands in the third column and the shortlist
in the first one. -/
theorem dataChain_misplaced :
    let g := edited (fun _ => "") (dataChain false)
    let g' := g.arrange.1
    ¬ ∀ n ∈ g'.nodes, ¬ g.Controlled n.id →
      ∀ c, g.connections.find? (·.source == n.id) = some c → ∀ t ∈ g'.nodes, t.id = c.target →
      ∀ k > 0, t.position.x = .ofNat (360 * k) → n.position.x = .ofNat (360 * (k - 1)) := by
  intro g g' hall
  have h : g.WellFormed := wellFormed_edited _ _
  have horder : g.order = ["s", "a", "b", "q", "l", "f"] := order_dataChain false
  obtain ⟨n, hn, hplace⟩ := h.node?_arrange (show "l" ∈ g.order by rw [horder]; decide)
  obtain ⟨t, ht, htplace⟩ := h.node?_arrange (show "f" ∈ g.order by rw [horder]; decide)
  obtain ⟨hmem, hid⟩ := node?_eq_some hn
  obtain ⟨htmem, htid⟩ := node?_eq_some ht
  have hlist : (g.corner "l").1 = 360 * 0 := corner_dataChain (by decide)
  have hloop : (g.corner "f").1 = 360 * 2 := corner_dataChain (by decide)
  have hleft := hall n hmem
  rw [hid] at hleft
  have hwrong := hleft (free_dataChain false _ (by decide)) ⟨⟨"l", "results", "f", "array"⟩, "5"⟩
    (by decide +kernel) t htmem htid 2 (by decide) (by rw [htplace, Position.x_whole, hloop])
  rw [hplace, Position.x_whole, hlist] at hwrong
  exact absurd (Binary64.ofNat_inj (by decide) (by decide) hwrong) (by decide)

end TradeFlow.Graph
