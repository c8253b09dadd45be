import TradeFlow.Proofs.Compile.Correspondence
import TradeFlow.Proofs.Compile.Edited

/-!
Removing a node that does not become code.

Such a node may still have connections of all sorts: it may feed inputs of nodes that do become code,
control may leave it for them, or it may stand second behind an output that control leaves. What is
proved about a well-formed graph:

1. `Graph.WellFormed.id_mem_emittedNodes`: a node that control gets to from the root becomes code.
2. `Graph.WellFormed.next?_without`: control takes the same way without the other nodes.
3. `Graph.WellFormed.input?_without`: an input that a removed node fed brings what it brought before,
   which was nothing.
4. `Graph.removal_keeps_text`: so the program, or the comment in its place, stays as it is.
-/

namespace TradeFlow

/-- What is found first is found in a part of the list as well if it is kept. -/
theorem find?_filter_of_kept {α : Type} {p q : α → Bool} {l : List α}
    (h : ∀ a, l.find? q = some a → p a = true) : (l.filter p).find? q = l.find? q := by
  induction l with
  | nil => rfl
  | cons a l ih =>
    by_cases hq : q a = true
    · rw [List.find?_cons_of_pos hq] at h ⊢
      rw [List.filter_cons_of_pos (h a rfl), List.find?_cons_of_pos hq]
    · rw [List.find?_cons_of_neg hq] at h ⊢
      rw [List.filter_cons]
      split
      · rw [List.find?_cons_of_neg hq, ih h]
      · exact ih h

namespace Graph

/-- The graph without the nodes that have an id, and without their connections. -/
def without (g : Graph) (id : String) : Graph :=
  ⟨g.nodes.filter (·.id != id), g.connections.filter fun c => !c.touches id⟩

variable {g : Graph} {id : String} {ref : OutputRef} {root n : Node} {settings : StrategyConfig}

theorem remove_of_mem (h : id ∈ g.order) : g.remove id = .ok (g.without id) := by
  rw [remove, if_pos (mem_order_iff.1 h), without]

theorem links_without (g : Graph) (id : String) :
    (g.without id).links = g.links.filter fun l => !l.touches id := by
  rw [links, links, List.filter_map]
  rfl

theorem not_touches {l : Link} (hs : l.source ≠ id) (ht : l.target ≠ id) :
    (!l.touches id) = true := by
  simp [Link.touches, hs, ht]

theorem firstConfig?_without (h : ∀ root, g.firstConfig? = some root → root.id ≠ id) :
    (g.without id).firstConfig? = g.firstConfig? :=
  find?_filter_of_kept fun root hroot => by simpa using h root hroot

namespace WellFormed

/-- The nodes that control gets to from the root become code. -/
theorem id_mem_emittedNodes (h : g.WellFormed) (hroot : g.root? = some (root, settings))
    (hn : g.Visits (start root) n) : n.id ∈ emittedNodes g.compile.events := by
  obtain ⟨hmem, hkind⟩ := mem_of_root? h.isSealed hroot
  obtain ⟨flow, known, block, hflow, -, hevents, -⟩ := h.compile_cases hroot
  have hcode : n ∈ flow.emissions := by
    rw [hflow.mem_emissions_iff, hflow.mem_occurrences_iff]
    exact ⟨hn, h.kind?_ne_of_visits (h.isControl_start hmem hkind) hn⟩
  rw [hevents]
  exact List.mem_map_of_mem hcode

/-- Control leaves an output by the same connection, unless the node is at one of its ends. -/
theorem next?_without (h : g.WellFormed) (href : ref.node ≠ id)
    (hn : ∀ n, g.next? ref = some n → n.id ≠ id) : (g.without id).next? ref = g.next? ref := by
  have htarget : ∀ c, g.leaving? ref = some c → c.target ≠ id := by
    intro c hc
    obtain ⟨-, target, -, -, -, hnode, -⟩ := h.legal c (List.mem_of_find?_eq_some hc)
    have hne := hn target (Option.bind_eq_some_iff.2 ⟨c, hc, hnode⟩)
    rwa [(node?_eq_some hnode).2] at hne
  have hleaving : (g.without id).leaving? ref = g.leaving? ref := by
    refine find?_filter_of_kept fun c hc => not_touches ?_ (htarget c hc)
    have htail : c.tail = ref := by simpa using List.find?_some hc
    rwa [← htail] at href
  rw [next?, next?, hleaving]
  cases hc : g.leaving? ref with
  | none => rfl
  | some c => exact node?_filter_of_ne (htarget c hc)

/-- An input that the node fed is free without it, and nothing was known of the node. -/
theorem input?_without (h : g.WellFormed) {known : Known} (hknown : known.Within {x | x ≠ id})
    {x : String} (hx : x ≠ id) (key : String) :
    known.input? (g.without id).links ⟨x, key⟩ = known.input? g.links ⟨x, key⟩ := by
  rw [Scope.input?, Scope.input?, links_without]
  cases hl : g.links.find? (·.head == ⟨x, key⟩) with
  | none => rw [find?_filter_of_kept (by simp [hl]), hl]
  | some l =>
    have hhead : l.head = ⟨x, key⟩ := by simpa using List.find?_some hl
    have htarget : l.target = x := congrArg InputRef.node hhead
    by_cases hsource : l.source = id
    · -- it was the only edge into the input
      have hnone : (g.links.filter fun l => !l.touches id).find? (·.head == ⟨x, key⟩) = none := by
        rw [List.find?_eq_none]
        intro l' hmem hhead'
        obtain ⟨hl', htouches⟩ := List.mem_filter.1 hmem
        have heq : l' = l := by
          apply List.inj_on_of_nodup_map h.links_heads_nodup hl' (List.mem_of_find?_eq_some hl)
          rw [hhead, beq_iff_eq.1 hhead']
        rw [heq] at htouches
        simp [Link.touches, hsource] at htouches
      have hunbound : known.output? l.tail = none := by
        apply hknown.output?_eq_none
        simp [Link.tail, hsource]
      rw [hnone]
      exact hunbound.symm
    · rw [find?_filter_of_kept, hl]
      intro l' hl'
      rw [hl, Option.some.injEq] at hl'
      subst hl'
      exact not_touches hsource (htarget ▸ hx)

/-- Nothing of the compilation changes without a node that control does not get to. -/
theorem compile_without (h : g.WellFormed) (hfirst : ∀ root, g.firstConfig? = some root → root.id ≠ id)
    (hdead : id ∉ emittedNodes g.compile.events) :
    (g.without id).compile.result = g.compile.result := by
  have hsealed : ∀ n ∈ (g.without id).nodes, n.IsSealed :=
    fun n hn => h.isSealed n (List.mem_filter.1 hn).1
  have hsame : (g.without id).root? = g.root? :=
    root?_eq_of_firstConfig? h.isSealed hsealed (firstConfig?_without hfirst)
  cases hroot : g.root? with
  | none => rw [compile_of_no_root hroot, compile_of_no_root (hsame.trans hroot)]
  | some found =>
    obtain ⟨root, settings⟩ := found
    have hmet : ∀ ref, g.Reaches (start root) ref → ∀ n, g.next? ref = some n → n.id ≠ id := by
      rintro ref href n hn rfl
      exact hdead (h.id_mem_emittedNodes hroot ⟨ref, href, hn⟩)
    have hnode : ∀ ref, g.Reaches (start root) ref → ref.node ≠ id := by
      intro ref href
      rcases Relation.ReflTransGen.cases_tail href with rfl | ⟨p, hp, n, kind, hn, -, hid, -⟩
      · apply hfirst root
        rw [← root?_map_fst h.isSealed, hroot]
        rfl
      · rw [hid]
        exact hmet p hp n hn
    refine compile_eq_of_agree (S := {x | x ≠ id}) (T := {ref | g.Reaches (start root) ref}) hsame
      ?_ (fun a ha b hb => ha.tail hb) hnode
      (fun ref href => h.next?_without (hnode ref href) (hmet ref href)) hmet
      (fun known hknown x hx key => h.input?_without hknown hx key)
    intro root' settings' hroot'
    rw [hroot] at hroot'
    cases hroot'
    exact .refl

end WellFormed

/-- A node of an edited graph that is not the first one with strategy settings and does not become
code can be removed with all its connections, and the text that the graph generates stays the same. -/
theorem removal_keeps_text (ids : Nat → String) (edits : List Edit) (id : String)
    (hid : id ∈ (edited ids edits).order)
    (hfirst : ∀ root, (edited ids edits).firstConfig? = some root → root.id ≠ id)
    (hdead : id ∉ emittedNodes (edited ids edits).compile.events) :
    ∃ g', (edited ids edits).remove id = .ok g' ∧
      g'.compile.result = (edited ids edits).compile.result ∧
      ∃ text, (edited ids edits).generate? = some text ∧ g'.generate? = some text := by
  have h := wellFormed_edited ids edits
  have hsame := h.compile_without hfirst hdead
  obtain ⟨text, htext⟩ := h.exists_text
  refine ⟨_, remove_of_mem hid, hsame, text, htext, ?_⟩
  rw [generate?, hsame]
  exact htext

/-- A loop runs over a shortlist that control does not get to: it is only the second node behind the
strategy settings. -/
def loopOverDeadShortlist : List Edit :=
  [.insert (some (.ofKind "s" .strategyConfig)), .insert (some (.ofKind "f" .forEach)),
    .insert (some (.ofKind "a" .fetchShortlist)), .insert (some (.ofKind "o" .placeOrder)),
    .connectAs "c1" ⟨"s", "exec", "f", "exec"⟩, .connectAs "c2" ⟨"s", "exec", "a", "exec"⟩,
    .connectAs "c3" ⟨"a", "results", "f", "array"⟩, .connectAs "c4" ⟨"f", "loopBody", "o", "exec"⟩,
    .connectAs "c5" ⟨"s", "currentTimestamp", "a", "datetime"⟩]

/-- The shortlist is removed with its three connections, and the program is still the same. -/
theorem loopOverDeadShortlist_removal :
    "a" ∉ emittedNodes (edited (fun _ => "") loopOverDeadShortlist).compile.events ∧
    ∃ g', (edited (fun _ => "") loopOverDeadShortlist).remove "a" = .ok g' ∧
      g'.connections.length = 2 ∧
      ∃ p, (edited (fun _ => "") loopOverDeadShortlist).compile.result = .ok p ∧
        g'.generate? = some p.source := by
  have h := wellFormed_edited (fun _ => "") loopOverDeadShortlist
  have hflow : (edited (fun _ => "") loopOverDeadShortlist).Unfolds ⟨"s", "exec"⟩ _ :=
    .loop rfl rfl (.action rfl rfl (.stop rfl)) (.stop rfl)
  have hdead : "a" ∉ emittedNodes (edited (fun _ => "") loopOverDeadShortlist).compile.events := by
    obtain ⟨flow, -, -, hflow', -, hevents, -⟩ := h.compile_cases rfl
    rw [hevents, ← hflow.unique hflow']
    simp [Control.emissions, Node.ofKind]
  have hfirst : ∀ root, (edited (fun _ => "") loopOverDeadShortlist).firstConfig? = some root →
      root.id ≠ "a" := by
    rintro root ⟨⟩
    simp [Node.ofKind]
  obtain ⟨p, hp, -⟩ := h.exists_program rfl List.mem_cons_self rfl
  obtain ⟨g', hremove, hsame, -⟩ := removal_keeps_text (fun _ => "") loopOverDeadShortlist "a"
    (by decide) hfirst hdead
  refine ⟨hdead, g', hremove, ?_, p, hp, ?_⟩
  · rw [remove_eq_ok hremove]
    rfl
  · rw [generate?, hsame, hp]

end Graph

end TradeFlow
