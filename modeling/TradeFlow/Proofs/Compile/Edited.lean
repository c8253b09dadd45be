import TradeFlow.Proofs.Compile.Outcome
import TradeFlow.Proofs.Program.Skeleton
import Mathlib.Data.List.Perm.Subperm

/-!
Compiling an edited graph.

In a well-formed graph an input is entered once, and control enters a node by one input. So control
gets to a node from one output only, and since nothing leads to the strategy settings at the root,
the flow from there is a tree: cycles may exist, but control never gets to them. What is proved:

1. `Graph.WellFormed.no_cycle`: no cycle can be reached from the root.
2. `Graph.WellFormed.nodup_ids`: no node occurs twice in the flow.
3. `Graph.WellFormed.lowerable`: no edge brings an entry price, so every action can be lowered.
4. `Graph.edited_graph_compiles`: so the graph of every history has a program as soon as something
   is connected to its strategy settings.
-/

namespace TradeFlow

open Lower
open Relation (ReflTransGen TransGen)

/-- The outputs that are followed behind a node are control outputs. -/
theorem Kind.output?_of_followed {kind : Kind} {key : String} (h : key ∈ kind.followed) :
    ∃ port, kind.output? key = some port ∧ port.socket = .exec := by
  cases kind with
  | forEach | conditional =>
    rcases List.mem_pair.1 h with rfl | rfl
    · exact ⟨_, rfl, rfl⟩
    · exact ⟨_, rfl, rfl⟩
  | _ =>
    obtain rfl := List.mem_singleton.1 h
    exact ⟨_, rfl, rfl⟩

namespace Graph

/-- An output by which control leaves a node of the graph. -/
def IsControl (g : Graph) (ref : OutputRef) : Prop :=
  ∃ n port, g.node? ref.node = some n ∧ n.output? ref.output = some port ∧ port.socket = .exec

variable {g : Graph} {a b p q ref : OutputRef} {m n root : Node} {flow flow' : Control}
  {settings : StrategyConfig}

/-- The node that control reaches is found under its own id. -/
theorem node?_of_next? (h : g.next? ref = some n) : g.node? n.id = some n := by
  obtain ⟨c, -, hc⟩ := Option.bind_eq_some_iff.1 h
  rw [(node?_eq_some hc).2, hc]

theorem isControl_of_follow (h : g.Follow a b) : g.IsControl b := by
  obtain ⟨n, kind, hn, hk, hnode, ho⟩ := h
  obtain ⟨port, hport, hs⟩ := kind.output?_of_followed ho
  exact ⟨n, port, by rw [hnode, node?_of_next? hn], by simp [Node.output?, hk, hport], hs⟩

theorem isControl_of_reaches (ha : g.IsControl a) (h : g.Reaches a b) : g.IsControl b := by
  rcases ReflTransGen.cases_tail h with rfl | ⟨x, -, hx⟩
  · exact ha
  · exact isControl_of_follow hx

namespace WellFormed

/-- Control arrives by an edge into the `exec` input. -/
theorem exists_entering (h : g.WellFormed) (href : g.IsControl ref) (hn : g.next? ref = some n) :
    ∃ c ∈ g.connections, c.tail = ref ∧ c.head = ⟨n.id, "exec"⟩ ∧
      (n.input? "exec").isSome = true := by
  obtain ⟨c, hc, hnode⟩ := Option.bind_eq_some_iff.1 hn
  have hmem := List.mem_of_find?_eq_some hc
  have htail : c.tail = ref := by simpa using List.find?_some hc
  obtain ⟨source, target, output, input, hsource, htarget, hout, hin, hfit⟩ := h.legal c hmem
  obtain ⟨source', port, hsource', hport, hs⟩ := href
  rw [← htail] at hsource' hport
  -- the edge leaves a control output, so it can only end at a control input
  have hexec : output.socket = .exec := by
    rw [Link.tail, hsource, Option.some.injEq] at hsource'
    subst hsource'
    rw [Link.tail, hout, Option.some.injEq] at hport
    rw [hport, hs]
  rw [htarget, Option.some.injEq] at hnode
  subst hnode
  rw [hexec] at hfit
  obtain ⟨kind, hkind, hinput⟩ := Option.bind_eq_some_iff.1 hin
  have hkey := Kind.eq_exec_of_input? hinput (Socket.eq_exec_of_compatible hfit)
  refine ⟨c, hmem, htail, ?_, ?_⟩
  · rw [Link.head, hkey, (node?_eq_some htarget).2]
  · rw [← hkey, hin]
    rfl

theorem links_heads_nodup (h : g.WellFormed) : (g.links.map (·.head)).Nodup := by
  rw [links, List.map_map]
  exact h.heads_nodup

/-- Two control outputs do not lead to the same node. -/
theorem eq_of_next? (h : g.WellFormed) (ha : g.IsControl a) (hb : g.IsControl b)
    (hm : g.next? a = some m) (hn : g.next? b = some n) (hid : m.id = n.id) : a = b := by
  obtain ⟨c, hc, rfl, hchead, -⟩ := h.exists_entering ha hm
  obtain ⟨d, hd, rfl, hdhead, -⟩ := h.exists_entering hb hn
  rw [List.inj_on_of_nodup_map h.heads_nodup hc hd (by rw [hchead, hdhead, hid])]

/-- Control does not get to strategy settings. -/
theorem kind?_ne_of_next? (h : g.WellFormed) (href : g.IsControl ref) (hn : g.next? ref = some n) :
    n.kind? ≠ some .strategyConfig := by
  obtain ⟨c, -, -, -, hin⟩ := h.exists_entering href hn
  intro hk
  simp [Node.input?, hk, Kind.input?, Kind.spec] at hin

theorem kind?_ne_of_visits (h : g.WellFormed) (href : g.IsControl ref) (hn : g.Visits ref n) :
    n.kind? ≠ some .strategyConfig := by
  obtain ⟨p, hp, hn⟩ := hn
  exact h.kind?_ne_of_next? (isControl_of_reaches href hp) hn

theorem eq_of_follow (h : g.WellFormed) (hp : g.IsControl p) (hq : g.IsControl q)
    (hpa : g.Follow p a) (hqa : g.Follow q a) : p = q := by
  obtain ⟨m, -, hm, -, hmid, -⟩ := hpa
  obtain ⟨n, -, hn, -, hnid, -⟩ := hqa
  exact h.eq_of_next? hp hq hm hn (by rw [← hmid, hnid])

theorem isControl_start (h : g.WellFormed) (hmem : root ∈ g.nodes)
    (hkind : root.kind? = some .strategyConfig) : g.IsControl (start root) := by
  obtain ⟨port, hport, hs⟩ := Kind.strategyConfig.output?_of_followed List.mem_cons_self
  exact ⟨root, port, node?_of_mem h.order_nodup hmem, by simp [Node.output?, hkind, start, hport],
    hs⟩

/-- A cycle that can be reached would have to contain the root, where nothing arrives. -/
theorem no_cycle (h : g.WellFormed) (hmem : root ∈ g.nodes)
    (hkind : root.kind? = some .strategyConfig) (hp : g.Reaches (start root) p) :
    ¬ g.OnCycle p := by
  have hstart := h.isControl_start hmem hkind
  induction hp with
  | refl =>
    -- the last step of the cycle would enter the root
    intro hcycle
    obtain ⟨x, hx, hback⟩ := TransGen.tail'_iff.1 hcycle
    obtain ⟨n, kind, hn, -, hnode, -⟩ := hback
    have heq : n = root := by
      have hfound := node?_of_next? hn
      rw [← hnode, start, node?_of_mem h.order_nodup hmem, Option.some.injEq] at hfound
      exact hfound.symm
    exact h.kind?_ne_of_next? (isControl_of_reaches hstart hx) hn (heq ▸ hkind)
  | @tail q p hq hstep ih =>
    -- the cycle comes back by the one step there is, so its last output lies on it as well
    intro hcycle
    obtain ⟨x, hx, hback⟩ := TransGen.tail'_iff.1 hcycle
    have hcontrol := isControl_of_reaches (isControl_of_follow hstep) hx
    obtain rfl := h.eq_of_follow hcontrol (isControl_of_reaches hstart hq) hback hstep
    exact ih (TransGen.head' hstep hx)

/-! ## Nodes occur once -/

/-- Of two ways back from one output, one is part of the other. -/
theorem reaches_total (h : g.WellFormed) (ha : g.IsControl a) (hb : g.IsControl b)
    (hap : g.Reaches a p) (hbp : g.Reaches b p) : g.Reaches a b ∨ g.Reaches b a := by
  induction hap with
  | refl => exact .inr hbp
  | @tail x p hax hxp ih =>
    rcases ReflTransGen.cases_tail hbp with rfl | ⟨y, hby, hyp⟩
    · exact .inl (hax.tail hxp)
    · obtain rfl := h.eq_of_follow (isControl_of_reaches ha hax) (isControl_of_reaches hb hby) hxp hyp
      exact ih hby

theorem not_reaches_sibling (h : g.WellFormed) (href : g.IsControl ref) (hno : ¬ g.OnCycle ref)
    (ha : g.Follow ref a) (hb : g.Follow ref b) (hne : a ≠ b) : ¬ g.Reaches a b := by
  intro hab
  rcases ReflTransGen.cases_tail hab with rfl | ⟨x, hax, hxb⟩
  · exact hne rfl
  · obtain rfl := h.eq_of_follow (isControl_of_reaches (isControl_of_follow ha) hax) href hxb hb
    exact hno (TransGen.head' ha hax)

/-- Control does not come back to the node that it has just left. -/
theorem id_not_mem_ids (h : g.WellFormed) (href : g.IsControl ref) (hno : ¬ g.OnCycle ref)
    (hn : g.next? ref = some n) (ha : g.Follow ref a) (hflow : g.Unfolds a flow) :
    n.id ∉ flow.ids := by
  intro hmem
  obtain ⟨m, hm, hid⟩ := List.mem_map.1 hmem
  obtain ⟨p, hp, hm⟩ := hflow.mem_occurrences_iff.1 hm
  obtain rfl := h.eq_of_next? (isControl_of_reaches (isControl_of_follow ha) hp) href hm hn hid
  exact hno (TransGen.head' ha hp)

/-- The flows from two outputs of a node have no node in common. -/
theorem disjoint_ids (h : g.WellFormed) (href : g.IsControl ref) (hno : ¬ g.OnCycle ref)
    (ha : g.Follow ref a) (hb : g.Follow ref b) (hne : a ≠ b) (hflow : g.Unfolds a flow)
    (hflow' : g.Unfolds b flow') : flow.ids.Disjoint flow'.ids := by
  intro id hmem hmem'
  obtain ⟨m, hm, hid⟩ := List.mem_map.1 hmem
  obtain ⟨m', hm', hid'⟩ := List.mem_map.1 hmem'
  obtain ⟨p, hp, hm⟩ := hflow.mem_occurrences_iff.1 hm
  obtain ⟨q, hq, hm'⟩ := hflow'.mem_occurrences_iff.1 hm'
  have hca := isControl_of_follow ha
  have hcb := isControl_of_follow hb
  obtain rfl := h.eq_of_next? (isControl_of_reaches hca hp) (isControl_of_reaches hcb hq) hm hm'
    (hid.trans hid'.symm)
  -- going back from the common output, one of the two is met on the way to the other
  rcases h.reaches_total hca hcb hp hq with hab | hba
  · exact h.not_reaches_sibling href hno ha hb hne hab
  · exact h.not_reaches_sibling href hno hb ha hne.symm hba

/-- An action does not occur again in what follows it. -/
theorem action_not_mem (h : g.WellFormed) (href : g.IsControl ref) (hn : g.next? ref = some n)
    {act : Action} (hr : n.config.role = .action act) (hrest : g.Unfolds ⟨n.id, "exec"⟩ flow) :
    n.id ∉ flow.ids := by
  have hno := (Unfolds.action hn hr hrest).no_cycle .refl
  exact h.id_not_mem_ids href hno hn ((follow_iff_of_action hn hr).2 rfl) hrest

/-- A loop, its body and what follows it have no node in common. -/
theorem loop_disjoint (h : g.WellFormed) (href : g.IsControl ref) (hn : g.next? ref = some n)
    (hr : n.config.role = .loop) (hbody : g.Unfolds ⟨n.id, "loopBody"⟩ flow)
    (hrest : g.Unfolds ⟨n.id, "done"⟩ flow') :
    n.id ∉ flow.ids ∧ n.id ∉ flow'.ids ∧ flow.ids.Disjoint flow'.ids := by
  have hno := (Unfolds.loop hn hr hbody hrest).no_cycle .refl
  have hin := (follow_iff_of_loop hn hr).2 (.inl rfl)
  have hafter := (follow_iff_of_loop hn hr).2 (.inr rfl)
  exact ⟨h.id_not_mem_ids href hno hn hin hbody, h.id_not_mem_ids href hno hn hafter hrest,
    h.disjoint_ids href hno hin hafter (by simp) hbody hrest⟩

/-- A condition and its two branches have no node in common. -/
theorem branch_disjoint (h : g.WellFormed) (href : g.IsControl ref) (hn : g.next? ref = some n)
    {c : Conditional} (hr : n.config.role = .branch c) (hyes : g.Unfolds ⟨n.id, "true"⟩ flow)
    (hno : g.Unfolds ⟨n.id, "false"⟩ flow') :
    n.id ∉ flow.ids ∧ n.id ∉ flow'.ids ∧ flow.ids.Disjoint flow'.ids := by
  have hcycle := (Unfolds.branch hn hr hyes hno).no_cycle .refl
  have htrue := (follow_iff_of_branch hn hr).2 (.inl rfl)
  have hfalse := (follow_iff_of_branch hn hr).2 (.inr rfl)
  exact ⟨h.id_not_mem_ids href hcycle hn htrue hyes, h.id_not_mem_ids href hcycle hn hfalse hno,
    h.disjoint_ids href hcycle htrue hfalse (by simp) hyes hno⟩

/-- No node occurs twice in a complete flow. -/
theorem nodup_ids (h : g.WellFormed) (hflow : g.Unfolds ref flow) (href : g.IsControl ref) :
    flow.ids.Nodup := by
  induction hflow with
  | stop hn => exact List.nodup_nil
  | silent hn hr _ _ =>
    exact absurd (Node.kind?_of_silent hr) (h.kind?_ne_of_next? href hn)
  | action hn hr hrest ih =>
    have hstep := (follow_iff_of_action hn hr).2 rfl
    exact List.nodup_cons.2 ⟨h.action_not_mem href hn hr hrest, ih (isControl_of_follow hstep)⟩
  | loop hn hr hbody hrest ihbody ihrest =>
    have hin := (follow_iff_of_loop hn hr).2 (.inl rfl)
    have hafter := (follow_iff_of_loop hn hr).2 (.inr rfl)
    obtain ⟨hselfBody, hselfRest, hdisjoint⟩ := h.loop_disjoint href hn hr hbody hrest
    rw [Control.ids, Control.occurrences, List.map_append, List.map_cons]
    refine List.nodup_middle.2 (List.nodup_cons.2 ⟨?_, ?_⟩)
    · rw [List.mem_append, not_or]
      exact ⟨hselfBody, hselfRest⟩
    · exact (ihbody (isControl_of_follow hin)).append (ihrest (isControl_of_follow hafter))
        hdisjoint
  | branch hn hr hyes hno ihyes ihno =>
    have htrue := (follow_iff_of_branch hn hr).2 (.inl rfl)
    have hfalse := (follow_iff_of_branch hn hr).2 (.inr rfl)
    obtain ⟨hselfYes, hselfNo, hdisjoint⟩ := h.branch_disjoint href hn hr hyes hno
    -- the node itself stands last, after both branches
    rw [Control.ids, Control.occurrences, List.map_append, List.map_append]
    refine List.nodup_middle.2 (List.nodup_cons.2 ⟨?_, ?_⟩)
    · rw [List.map_nil, List.append_nil, List.mem_append, not_or]
      exact ⟨hselfYes, hselfNo⟩
    · rw [List.map_nil, List.append_nil]
      exact (ihyes (isControl_of_follow htrue)).append (ihno (isControl_of_follow hfalse)) hdisjoint

/-! ## Entry prices -/

/-- No output carries a number, so no edge ends at an entry price. -/
theorem targetInput_ne_entryPrice (h : g.WellFormed) {c : Connection} (hc : c ∈ g.connections) :
    c.targetInput ≠ "entryPrice" := by
  intro hkey
  obtain ⟨source, target, output, input, -, -, hout, hin, hfit⟩ := h.legal c hc
  obtain ⟨kind, -, hinput⟩ := Option.bind_eq_some_iff.1 hin
  obtain ⟨kind', -, houtput⟩ := Option.bind_eq_some_iff.1 hout
  rw [hkey] at hinput
  rw [Kind.socket_entryPrice hinput] at hfit
  exact Kind.socket_ne_number_of_output? houtput (Socket.eq_number_of_compatible hfit)

theorem links_ne_entryPrice (h : g.WellFormed) : ∀ l ∈ g.links, l.targetInput ≠ "entryPrice" := by
  intro l hl
  obtain ⟨c, hc, rfl⟩ := List.mem_map.1 hl
  exact h.targetInput_ne_entryPrice hc

theorem input?_entryPrice (h : g.WellFormed) (known : Known) (n : Node) :
    input? g.links known n "entryPrice" = none :=
  input?_entryPrice_eq_none h.links_ne_entryPrice known n

theorem lowerable (h : g.WellFormed) (n : Node) (a : Action) : Lowerable g.links n a :=
  lowerable_of_no_entryPrice h.links_ne_entryPrice n a

/-! ## Compiling -/

/-- Nothing is reached from a control output exactly when no connection leaves it. -/
theorem visits_only_config_iff (h : g.WellFormed) (href : g.IsControl ref) :
    (∀ n, g.Visits ref n → n.kind? = some .strategyConfig) ↔ ∀ c ∈ g.connections, c.tail ≠ ref := by
  constructor
  · intro hall c hc htail
    obtain ⟨d, hd⟩ : ∃ d, g.leaving? ref = some d :=
      Option.isSome_iff_exists.1 (List.find?_isSome.2 ⟨c, hc, by simpa using htail⟩)
    obtain ⟨-, target, -, -, -, htarget, -⟩ := h.legal d (List.mem_of_find?_eq_some hd)
    have hvisits : g.Visits ref target :=
      ⟨ref, .refl, Option.bind_eq_some_iff.2 ⟨d, hd, htarget⟩⟩
    exact h.kind?_ne_of_visits href hvisits (hall target hvisits)
  · intro hall n hn
    have hnone : g.next? ref = none := by
      have hleaving : g.leaving? ref = none := by simpa [leaving?] using hall
      rw [next?, hleaving]
      rfl
    exact absurd hn (not_visits_of_next?_eq_none hnone)

/-- Control from the root of a well-formed graph unfolds to its end and becomes a block. -/
theorem compile_cases (h : g.WellFormed) (hroot : g.root? = some (root, settings)) :
    ∃ flow known block, g.Unfolds (start root) flow ∧
      Lowered g.links flow (initialScope root) known block ∧
      emittedNodes g.compile.events = flow.emissions.map (·.id) ∧
      g.compile.result =
        if block.length = 0 then .error (.failed .emptyChain)
        else .ok ⟨root.id, settings, known.capabilities, block⟩ := by
  obtain ⟨hmem, hkind⟩ := mem_of_root? h.isSealed hroot
  rcases Graph.compile_cases h.isSealed (fun n _ a _ => h.lowerable n a) hroot with
    ⟨ref, -, hreach, hcycle⟩ | hcases
  · exact absurd hcycle (h.no_cycle hmem hkind hreach)
  · exact hcases

/-- There is a program as soon as a connection leaves the root. -/
theorem exists_program (h : g.WellFormed) (hroot : g.root? = some (root, settings)) {c : Connection}
    (hc : c ∈ g.connections) (htail : c.tail = start root) :
    ∃ p, g.compile.result = .ok p ∧ p.configNode = root.id := by
  obtain ⟨hmem, hkind⟩ := mem_of_root? h.isSealed hroot
  obtain ⟨flow, known, block, hflow, hlow, -, hresult⟩ := h.compile_cases hroot
  have hne : block.length ≠ 0 := by
    intro hzero
    rw [hflow.length_eq_zero_iff hlow, h.visits_only_config_iff (h.isControl_start hmem hkind)]
      at hzero
    exact hzero c hc htail
  rw [if_neg hne] at hresult
  exact ⟨_, hresult, rfl⟩

/-- Where a program comes from: the flow from strategy settings, which became its body. -/
theorem program_cases (h : g.WellFormed) {p : Program} (hp : g.compile.result = .ok p) :
    ∃ root flow known, root ∈ g.nodes ∧ root.kind? = some .strategyConfig ∧
      p.configNode = root.id ∧ g.Unfolds (start root) flow ∧
      Lowered g.links flow (initialScope root) known p.body ∧
      emittedNodes g.compile.events = flow.emissions.map (·.id) := by
  cases hroot : g.root? with
  | none => simp [compile_of_no_root hroot] at hp
  | some found =>
    obtain ⟨root, settings⟩ := found
    obtain ⟨hmem, hkind⟩ := mem_of_root? h.isSealed hroot
    obtain ⟨flow, known, block, hflow, hlow, hevents, hresult⟩ := h.compile_cases hroot
    rw [hresult] at hp
    split at hp
    · cases hp
    · cases hp
      exact ⟨root, flow, known, hmem, hkind, rfl, hflow, hlow, hevents⟩

/-- There is always a text: a program, or the comment that says why there is none. -/
theorem exists_text (h : g.WellFormed) : ∃ text, g.generate? = some text := by
  cases hroot : g.root? with
  | none =>
    rw [generate?, compile_of_no_root hroot]
    exact ⟨_, rfl⟩
  | some found =>
    obtain ⟨flow, known, block, -, -, -, hresult⟩ := h.compile_cases hroot
    rw [generate?, hresult]
    by_cases hzero : block.length = 0
    · rw [if_pos hzero]
      exact ⟨_, rfl⟩
    · rw [if_neg hzero]
      exact ⟨_, rfl⟩

/-- The root does not occur in the flow that it starts. -/
theorem root_id_not_mem_ids (h : g.WellFormed) (hmem : root ∈ g.nodes)
    (hkind : root.kind? = some .strategyConfig) (hflow : g.Unfolds (start root) flow) :
    root.id ∉ flow.ids := by
  intro hid
  obtain ⟨m, hm, hid⟩ := List.mem_map.1 hid
  obtain ⟨p, hp, hm⟩ := hflow.mem_occurrences_iff.1 hm
  obtain rfl := List.inj_on_of_nodup_map h.order_nodup (mem_nodes_of_next? hm) hmem hid
  exact h.kind?_ne_of_visits (h.isControl_start hmem hkind) ⟨p, hp, hm⟩ hkind

theorem ids_subset_order (hflow : g.Unfolds ref flow) : flow.ids ⊆ g.order := by
  intro id hid
  obtain ⟨m, hm, rfl⟩ := List.mem_map.1 hid
  obtain ⟨p, -, hp⟩ := hflow.mem_occurrences_iff.1 hm
  exact List.mem_map_of_mem (mem_nodes_of_next? hp)

/-- The nodes of a flow are fewer than those of the graph, which has the root as well. -/
theorem length_occurrences_lt (h : g.WellFormed) (hmem : root ∈ g.nodes)
    (hkind : root.kind? = some .strategyConfig) (hflow : g.Unfolds (start root) flow) :
    flow.occurrences.length < g.nodes.length := by
  have hnodup : (root.id :: flow.ids).Nodup :=
    List.nodup_cons.2 ⟨h.root_id_not_mem_ids hmem hkind hflow,
      h.nodup_ids hflow (h.isControl_start hmem hkind)⟩
  have hsub : root.id :: flow.ids ⊆ g.order :=
    List.cons_subset.2 ⟨List.mem_map_of_mem hmem, ids_subset_order hflow⟩
  have hle := (List.subperm_of_subset hnodup hsub).length_le
  rw [List.length_cons, Control.ids, order, List.length_map, List.length_map] at hle
  exact hle

/-- The nodes that become code are distinct, and one for each statement of the program. -/
theorem emitted_of_program (h : g.WellFormed) {p : Program} (hp : g.compile.result = .ok p) :
    (emittedNodes g.compile.events).Nodup ∧ p.emitted = (emittedNodes g.compile.events).length ∧
      p.emitted < g.nodes.length := by
  obtain ⟨root, flow, known, hmem, hkind, -, hflow, hlow, hevents⟩ := h.program_cases hp
  have hsize : p.emitted = flow.emissions.length := hlow.size_eq
  rw [hevents, List.length_map]
  refine ⟨?_, hsize, ?_⟩
  · have hnodup := h.nodup_ids hflow (h.isControl_start hmem hkind)
    exact (flow.emissions_sublist.map _).nodup hnodup
  · calc p.emitted = flow.emissions.length := hsize
      _ ≤ flow.occurrences.length := flow.emissions_sublist.length_le
      _ < g.nodes.length := h.length_occurrences_lt hmem hkind hflow

end WellFormed

/-- An edited graph compiles cleanly: there is no program only if there are no strategy settings or
if nothing is connected to them, all placeholders of the program have values, and no node becomes
code twice. -/
theorem edited_graph_compiles (ids : Nat → String) (edits : List Edit) :
    let g := edited ids edits
    (g.compile.result ≠ .error .aborted ∧
      (∀ ref, g.compile.result ≠ .error (.failed (.cycle ref))) ∧
      ∀ config, g.compile.result ≠ .error (.failed (.unknownKind config))) ∧
    (g.compile.result = .error (.failed .noConfigNode) ↔
      ∀ n ∈ g.nodes, n.kind? ≠ some .strategyConfig) ∧
    (∀ root, g.firstConfig? = some root →
      (g.compile.result = .error (.failed .emptyChain) ↔
        ∀ c ∈ g.connections, c.tail ≠ start root) ∧
      ((∃ p, g.compile.result = .ok p) ↔ ∃ c ∈ g.connections, c.tail = start root)) ∧
    ∀ p, g.compile.result = .ok p →
      Template.expand Program.template p.values = (p.source, []) ∧
      (emittedNodes g.compile.events).Nodup ∧
      p.emitted = (emittedNodes g.compile.events).length ∧
      p.emitted < g.nodes.length := by
  intro g
  have h : g.WellFormed := wellFormed_edited ids edits
  rw [← root?_eq_none_iff h.isSealed]
  refine and_assoc.1 (and_assoc.1 ⟨?_, fun p hp => ⟨p.expand_template, h.emitted_of_program hp⟩⟩)
  cases hroot : g.root? with
  | none =>
    have hresult := compile_of_no_root hroot
    have hnone : g.firstConfig? = none := by rw [← root?_map_fst h.isSealed, hroot]; rfl
    simp [hresult, hnone]
  | some found =>
    obtain ⟨root, settings⟩ := found
    obtain ⟨hmem, hkind⟩ := mem_of_root? h.isSealed hroot
    obtain ⟨flow, known, block, hflow, hlow, -, hresult⟩ := h.compile_cases hroot
    have hempty := (hflow.length_eq_zero_iff hlow).trans
      (h.visits_only_config_iff (h.isControl_start hmem hkind))
    have hsome : (∃ c ∈ g.connections, c.tail = start root) ↔ block.length ≠ 0 := by
      simp [hempty]
    have hfirst : g.firstConfig? = some root := by rw [← root?_map_fst h.isSealed, hroot]; rfl
    rw [hresult, hfirst]
    refine ⟨⟨?_, ?_⟩, ?_⟩
    · split <;> simp
    · split <;> simp
    · rintro _ ⟨⟩
      rw [← hempty, hsome]
      split
      · next hzero => simp [hzero]
      · next hzero => simp [hzero]

end Graph

end TradeFlow
