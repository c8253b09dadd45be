import TradeFlow.Proofs.Graph.Refusal

/-!
Edits that take others back.

Attempts to make connections only ever add to the end of the list of connections. So what was added
since can be told apart from what was there before. What is proved:

1. `Editor.graph_connect`: one attempt adds its connection, or nothing.
2. `Editor.graph_run_attempts`: so a run of attempts adds connections along the edges that it was
   asked for, and leaves the rest alone.
3. `Editor.removes_inserted`: removing a node takes back its insertion and all connections that were
   made at it.
4. `Editor.disconnects_made`: disconnecting takes back one connection and keeps the others in their
   order.
-/

namespace TradeFlow

/-- Attempts to make connections, each under an id that may be empty. -/
def Edit.attempts (calls : List (String × Link)) : List Edit :=
  calls.map fun call => .connectAs call.1 call.2

namespace Editor

/-- An attempt to connect adds one connection behind the others, or nothing. -/
theorem graph_connect (e : Editor) (link : Link) (id : String) :
    (∃ c, (e.connect link id).1 = .ok c ∧ c.toLink = link ∧
      (e.connect link id).2.graph =
        { e.graph with connections := e.graph.connections ++ [c] }) ∨
    ∃ err, (e.connect link id).1 = .error err ∧ (e.connect link id).2.graph = e.graph := by
  cases hmade : (e.connect link id).1 with
  | error err => exact .inr ⟨err, rfl, graph_connect_of_error hmade⟩
  | ok c =>
    obtain ⟨o, hconnect, hdecides⟩ := e.decides_connect { link with id }
    rw [show e.connect link id = (o, e.decided { link with id } o) from hconnect] at hmade ⊢
    obtain rfl : o = .ok c := hmade
    cases hdecides
    exact .inl ⟨_, rfl, rfl, rfl⟩

/-- A run of attempts adds connections along the edges that were asked for. -/
theorem graph_run_attempts (e : Editor) (calls : List (String × Link)) :
    ∃ made : List Connection, (∀ c ∈ made, ∃ call ∈ calls, call.2 = c.toLink) ∧
      (e.run (Edit.attempts calls)).graph =
        { e.graph with connections := e.graph.connections ++ made } := by
  induction calls generalizing e with
  | nil => exact ⟨[], by simp, by simp [Edit.attempts, run]⟩
  | cons call calls ih =>
    obtain ⟨made, hmade, hgraph⟩ := ih (e.step (.connectAs call.1 call.2))
    have hrun : (e.run (Edit.attempts (call :: calls))).graph =
        ((e.step (.connectAs call.1 call.2)).run (Edit.attempts calls)).graph := rfl
    have hlater : ∀ c ∈ made, ∃ call' ∈ call :: calls, call'.2 = c.toLink := by
      intro c hc
      obtain ⟨call', hcall', heq⟩ := hmade c hc
      exact ⟨call', List.mem_cons_of_mem _ hcall', heq⟩
    rw [hrun, hgraph]
    rcases e.graph_connect call.2 call.1 with ⟨c, -, hlink, hstep⟩ | ⟨err, -, hstep⟩
    · refine ⟨c :: made, List.forall_mem_cons.2 ⟨⟨call, List.mem_cons_self, hlink.symm⟩, hlater⟩, ?_⟩
      simp [step, hstep]
    · exact ⟨made, hlater, by simp [step, hstep]⟩

end Editor

namespace Graph

variable {g : Graph} {n : Node} {id : String}

theorem insert_of_new (hid : n.id ≠ "") (hn : n.IsSealed) (hnew : n.id ∉ g.order) :
    g.insert n = .ok { g with nodes := g.nodes ++ [n] } := by
  obtain ⟨s, hs⟩ := hn
  have hnone : g.node? n.id = none := by
    rwa [← Option.not_isSome_iff_eq_none, ← mem_order_iff]
  simp [insert, hid, hs, hnone]

/-- No connection touches a node that is not there. -/
theorem WellFormed.touches_eq_false (h : g.WellFormed) (hnew : id ∉ g.order) {c : Connection}
    (hc : c ∈ g.connections) : c.touches id = false := by
  obtain ⟨source, target, -, -, hsource, htarget, -⟩ := h.legal c hc
  have hends : ∀ {key m}, g.node? key = some m → key ≠ id := by
    rintro key m hm rfl
    exact hnew (mem_order_iff.2 (by rw [hm]; rfl))
  simp [Link.touches, hends hsource, hends htarget]

/-- Without the new node and without what touches it, the old graph is left. -/
theorem WellFormed.remove_inserted (h : g.WellFormed) (hnew : n.id ∉ g.order)
    {made : List Connection} (hmade : ∀ c ∈ made, c.touches n.id = true) :
    Graph.remove ⟨g.nodes ++ [n], g.connections ++ made⟩ n.id = .ok g := by
  have hfound : (node? ⟨g.nodes ++ [n], g.connections ++ made⟩ n.id).isSome = true :=
    mem_order_iff.1 (by simp [order])
  have hnodes : (g.nodes ++ [n]).filter (·.id != n.id) = g.nodes := by
    have hold : ∀ m ∈ g.nodes, (m.id != n.id) = true := by
      intro m hm
      rw [bne_iff_ne]
      exact fun he => hnew (he ▸ List.mem_map_of_mem hm)
    rw [List.filter_append, List.filter_eq_self.2 hold]
    simp
  have hconnections : (g.connections ++ made).filter (fun c => !c.touches n.id) = g.connections := by
    rw [List.filter_append, List.filter_eq_self.2 fun c hc => by rw [h.touches_eq_false hnew hc]; rfl,
      List.filter_eq_nil_iff.2 fun c hc => by simp [hmade c hc], List.append_nil]
  rw [Graph.remove, if_pos hfound, hnodes, hconnections]

/-- Of connections with distinct ids, disconnecting erases the one with the id. -/
theorem disconnect_middle {before after : List Connection} {c : Connection}
    (hids : ((before ++ c :: after).map (·.id)).Nodup) :
    disconnect ⟨g.nodes, before ++ c :: after⟩ c.id = .ok ⟨g.nodes, before ++ after⟩ := by
  have hbefore : ∀ b ∈ before, ¬ (b.id == c.id) = true := by
    intro b hb he
    rw [List.map_append, List.map_cons] at hids
    exact List.disjoint_of_nodup_append hids (List.mem_map_of_mem hb)
      (beq_iff_eq.1 he ▸ List.mem_cons_self)
  have hany : (before ++ c :: after).any (·.id == c.id) = true := by simp
  simp only [disconnect, hany, if_true]
  rw [List.eraseP_append_right _ hbefore, List.eraseP_cons_of_pos (by simp)]

end Graph

namespace Editor

variable {e : Editor}

theorem answer_apply_of_ok {f : Graph → Except EditError Graph} {g : Graph} (h : f e.graph = .ok g) :
    (e.apply f).1.mapError Refusal.edit = .ok () ∧ (e.apply f).2 = { e with graph := g } := by
  rw [apply, h]
  exact ⟨rfl, rfl⟩

/-- Removing a node takes back its insertion and all that was attempted at it since. -/
theorem removes_inserted (hg : e.graph.WellFormed) {n : Node} (hid : n.id ≠ "") (hn : n.IsSealed)
    (hnew : n.id ∉ e.graph.order) {calls : List (String × Link)}
    (hcalls : ∀ call ∈ calls, call.2.touches n.id = true) :
    let wired := (e.step (.insert (some n))).run (Edit.attempts calls)
    e.answer (.insert (some n)) = .ok () ∧ wired.answer (.remove n.id) = .ok () ∧
      (wired.step (.remove n.id)).graph = e.graph := by
  intro wired
  obtain ⟨hinserted, hstep⟩ := answer_apply_of_ok (f := (·.insert n))
    (Graph.insert_of_new hid hn hnew)
  obtain ⟨made, hmade, hwired⟩ :=
    (e.step (.insert (some n))).graph_run_attempts calls
  have htouch : ∀ c ∈ made, c.touches n.id = true := by
    intro c hc
    obtain ⟨call, hcall, hlink⟩ := hmade c hc
    rw [← hlink]
    exact hcalls call hcall
  have hremove : wired.graph.remove n.id = .ok e.graph := by
    rw [show wired.graph = _ from hwired, step, hstep]
    exact hg.remove_inserted hnew htouch
  obtain ⟨hremoved, hback⟩ := answer_apply_of_ok (f := (·.remove n.id)) hremove
  exact ⟨hinserted, hremoved, by rw [step, hback]⟩

/-- Disconnecting takes back the connection that was made and keeps what was made since. -/
theorem disconnects_made (hg : e.graph.WellFormed) {link : Link} {id : String} {c : Connection}
    (hmade : (e.connect link id).1 = .ok c) (calls : List (String × Link)) :
    let more := (e.step (.connectAs id link)).run (Edit.attempts calls)
    more.answer (.disconnect c.id) = .ok () ∧
      ∃ further, more.graph =
          { e.graph with connections := e.graph.connections ++ c :: further } ∧
        (more.step (.disconnect c.id)).graph =
          { e.graph with connections := e.graph.connections ++ further } := by
  intro more
  obtain ⟨further, -, hmore⟩ := (e.step (.connectAs id link)).graph_run_attempts calls
  have hstep : (e.step (.connectAs id link)).graph =
      { e.graph with connections := e.graph.connections ++ [c] } := by
    rcases e.graph_connect link id with ⟨c', hok, -, hgraph⟩ | ⟨err, herr, -⟩
    · obtain rfl : c = c' := Except.ok.inj (hmade.symm.trans hok)
      exact hgraph
    · rw [hmade] at herr
      cases herr
  have hgraph : more.graph =
      { e.graph with connections := e.graph.connections ++ c :: further } := by
    rw [show more.graph = _ from hmore, hstep, List.append_assoc]
    rfl
  have hids : more.graph.WellFormed :=
    wellFormed_run (hg.change (e.change_connect link id)) (Edit.attempts calls)
  have hdisconnect : more.graph.disconnect c.id =
      .ok { e.graph with connections := e.graph.connections ++ further } := by
    have hnodup := hids.ids_nodup
    rw [hgraph] at hnodup ⊢
    exact Graph.disconnect_middle hnodup
  obtain ⟨hdisconnected, hback⟩ := answer_apply_of_ok (f := (·.disconnect c.id)) hdisconnect
  exact ⟨hdisconnected, further, hgraph, by rw [step, hback]⟩

end Editor

namespace Graph

/-- In every edited graph, removing a new node leaves the graph that was there before the node was
inserted, whatever was attempted at the node in between; and disconnecting a connection leaves all
others, those made before it and those made since, in their order. -/
theorem edited_graph_undoes (ids : Nat → String) (edits : List Edit) :
    let e := (Editor.new ids).run edits
    (∀ (n : Node) (calls : List (String × Link)), n.id ≠ "" → n.IsSealed → n.id ∉ e.graph.order →
      (∀ call ∈ calls, call.2.touches n.id = true) →
      let wired := (e.step (.insert (some n))).run (Edit.attempts calls)
      e.answer (.insert (some n)) = .ok () ∧ wired.answer (.remove n.id) = .ok () ∧
        (wired.step (.remove n.id)).graph = e.graph) ∧
    ∀ (link : Link) (id : String) (c : Connection) (calls : List (String × Link)),
      (e.connect link id).1 = .ok c →
      let more := (e.step (.connectAs id link)).run (Edit.attempts calls)
      more.answer (.disconnect c.id) = .ok () ∧
        ∃ further, more.graph =
            { e.graph with connections := e.graph.connections ++ c :: further } ∧
          (more.step (.disconnect c.id)).graph =
            { e.graph with connections := e.graph.connections ++ further } := by
  intro e
  have hg : e.graph.WellFormed := wellFormed_edited ids edits
  exact ⟨fun n calls hid hn hnew hcalls => Editor.removes_inserted hg hid hn hnew hcalls,
    fun link id c calls hmade => Editor.disconnects_made hg hmade calls⟩

/-- A quote behind the root, and a loop beside them. -/
def loopBeside : List Edit :=
  quoteEdits ++ [.insert (some ⟨"f", ⟨0, 0⟩, .sealed .forEach⟩)]

/-- A condition is wired to the loop, to the quote and to itself, and two attempts are refused; none of
it is left. The clock is connected to the quote and the loop to itself; then the first of the two goes
and the second stays. -/
theorem loopBeside_undone :
    let e := (Editor.new repeatedIds).run loopBeside
    let n : Node := ⟨"b", ⟨0, 0⟩, .sealed (.default .conditional)⟩
    let wired := (e.step (.insert (some n))).run (Edit.attempts
      [("", ⟨"b", "true", "f", "exec"⟩), ("yes", ⟨"b", "true", "f", "exec"⟩),
        ("again", ⟨"b", "false", "f", "exec"⟩), ("value", ⟨"q", "quote", "b", "value"⟩),
        ("self", ⟨"b", "false", "b", "exec"⟩)])
    let more := (e.step (.connectAs "clock" ⟨"s", "currentTimestamp", "q", "symbol"⟩)).run
      (Edit.attempts [("self", ⟨"f", "done", "f", "exec"⟩)])
    wired.graph.connections.map (·.id) = ["c", "yes", "value", "self"] ∧
    (wired.step (.remove "b")).graph = e.graph ∧
    more.graph.connections.map (·.id) = ["c", "clock", "self"] ∧
    (more.step (.disconnect "clock")).graph.connections.map (·.id) = ["c", "self"] := by
  intro e n wired more
  obtain ⟨hremove, hdisconnect⟩ := edited_graph_undoes repeatedIds loopBeside
  have hwired : wired.graph.connections.map (·.id) = ["c", "yes", "value", "self"] := by
    decide +kernel
  have hmore : more.graph.connections.map (·.id) = ["c", "clock", "self"] := by decide +kernel
  have hmade : (e.connect ⟨"s", "currentTimestamp", "q", "symbol"⟩ "clock").1 =
      .ok ⟨⟨"s", "currentTimestamp", "q", "symbol"⟩, "clock"⟩ := by decide +kernel
  refine ⟨hwired, (hremove n _ (by decide) ⟨_, rfl⟩ (by decide +kernel) (by decide)).2.2, hmore, ?_⟩
  obtain ⟨-, further, hgraph, hback⟩ :=
    hdisconnect _ "clock" _ [("self", ⟨"f", "done", "f", "exec"⟩)] hmade
  have hbefore : ((Editor.new repeatedIds).run loopBeside).graph.connections.map (·.id) = ["c"] := by
    decide +kernel
  rw [show more.graph = _ from hgraph] at hmore
  rw [show (more.step (.disconnect "clock")).graph = _ from hback]
  simp only [List.map_append, List.map_cons, hbefore] at hmore ⊢
  simpa using hmore

end Graph

end TradeFlow
