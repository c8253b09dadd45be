import TradeFlow.Graph.Arrange
import TradeFlow.Graph.Edit
import TradeFlow.Proofs.Catalogue
import Mathlib.Data.List.Nodup

/-!
What every edited graph satisfies.

A history is any list of edits, whatever their arguments and whether they succeed or fail, carried
out on the empty graph with any supply of ids. What is proved:

1. `Editor.change_step`: an edit leaves the graph alone or changes it by one successful operation.
2. `Graph.WellFormed.change`: each of these changes keeps a well-formed graph well formed.
3. `Editor.wellFormed_run`: hence every history ends in a well-formed graph.

Settings are replaced by settings of the same kind only, so a change of settings moves no port.
-/

namespace TradeFlow

/-- The input with the given key, if the node has a kind and the kind has the input. -/
def Node.input? (n : Node) (key : String) : Option Port := n.kind?.bind (·.input? key)

/-- Whether a node carries sealed settings. -/
def Node.IsSealed (n : Node) : Prop := ∃ s, n.config = .sealed s

/-- An operation of the editor with its arguments. A connection without an id of its own gets one
from the supply. -/
inductive Edit where
  | add (kind : String) (position : Position)
  | insert (node : Option Node)
  | remove (id : String)
  | setConfig (id : String) (config : NodeConfig)
  | clear
  | connect (link : Link)
  | connectAs (id : String) (link : Link)
  | disconnect (id : String)
  | arrange

namespace Editor

/-- An editor with an empty graph. -/
def new (ids : Nat → String) : Editor := ⟨.empty, { ids }⟩

/-- Carries out one edit; a refused one may still have drawn an id. -/
def step (e : Editor) : Edit → Editor
  | .add kind position => (e.add kind position).2
  | .insert none => e
  | .insert (some n) => (e.apply (·.insert n)).2
  | .remove id => (e.apply (·.remove id)).2
  | .setConfig id config => (e.apply (·.setConfig id config)).2
  | .clear => { e with graph := .empty }
  | .connect link => (e.connect link "").2
  | .connectAs id link => (e.connect link id).2
  | .disconnect id => (e.apply (·.disconnect id)).2
  | .arrange => { e with graph := e.graph.arrange.1 }

/-- Carries out a history. -/
def run (e : Editor) (edits : List Edit) : Editor := edits.foldl step e

end Editor

namespace Graph

/-- The graph at the end of a history that starts with nothing. -/
def edited (ids : Nat → String) (edits : List Edit) : Graph := ((Editor.new ids).run edits).graph

/-- The ids of the nodes in the order in which they were added. -/
def order (g : Graph) : List String := g.nodes.map (·.id)

/-- The edge joins an output and an input of nodes of the graph, and the sockets fit. -/
def Legal (g : Graph) (l : Link) : Prop :=
  ∃ source target output input, g.node? l.source = some source ∧ g.node? l.target = some target ∧
    source.output? l.sourceOutput = some output ∧ target.input? l.targetInput = some input ∧
    output.socket.compatible input.socket = true

/-- What the operations of the editor keep. -/
structure WellFormed (g : Graph) : Prop where
  order_nodup : g.order.Nodup
  id_ne_empty : ∀ n ∈ g.nodes, n.id ≠ ""
  isSealed : ∀ n ∈ g.nodes, n.IsSealed
  legal : ∀ c ∈ g.connections, g.Legal c.toLink
  /-- No input is entered twice. -/
  heads_nodup : (g.connections.map (·.head)).Nodup
  ids_nodup : (g.connections.map (·.id)).Nodup

/-! ## Look-ups -/

theorem node?_eq_some {g : Graph} {id : String} {n : Node} (h : g.node? id = some n) :
    n ∈ g.nodes ∧ n.id = id :=
  ⟨List.mem_of_find?_eq_some h, by simpa using List.find?_some h⟩

/-- The ids in order are the ids that a look-up finds. -/
theorem mem_order_iff {g : Graph} {id : String} : id ∈ g.order ↔ (g.node? id).isSome = true := by
  simp [order, node?, List.find?_isSome]

/-- With distinct ids, a node is found under its own id. -/
theorem node?_of_mem {g : Graph} (h : g.order.Nodup) {n : Node} (hn : n ∈ g.nodes) :
    g.node? n.id = some n := by
  obtain ⟨m, hm⟩ := Option.isSome_iff_exists.1 (mem_order_iff.1 (List.mem_map_of_mem hn))
  obtain ⟨hmem, hid⟩ := node?_eq_some hm
  rw [hm, List.inj_on_of_nodup_map h hmem hn hid]

theorem node?_append_of_some {g : Graph} {id : String} {n m : Node} (h : g.node? id = some m) :
    node? { g with nodes := g.nodes ++ [n] } id = some m := by
  simp only [node?, List.find?_append] at h ⊢
  rw [h]
  rfl

theorem node?_filter_of_ne {g : Graph} {id removed : String} {connections : List Connection}
    (h : id ≠ removed) :
    node? ⟨g.nodes.filter (·.id != removed), connections⟩ id = g.node? id := by
  simp only [node?, List.find?_filter]
  congr 1
  funext n
  by_cases hn : n.id = id
  · simp [hn, h]
  · simp [hn]

theorem node?_map {g : Graph} {f : Node → Node} (hid : ∀ n, (f n).id = n.id) (id : String) :
    node? { g with nodes := g.nodes.map f } id = (g.node? id).map f := by
  simp only [node?, List.find?_map]
  congr 2
  funext n
  simp [hid]

/-- An edge stays legal as long as its nodes are still found. -/
theorem Legal.mono {g g' : Graph} {l : Link} (h : g.Legal l)
    (hs : ∀ n, g.node? l.source = some n → g'.node? l.source = some n)
    (ht : ∀ n, g.node? l.target = some n → g'.node? l.target = some n) : g'.Legal l := by
  obtain ⟨source, target, output, input, hsource, htarget, rest⟩ := h
  exact ⟨source, target, output, input, hs _ hsource, ht _ htarget, rest⟩

/-! ## What each operation does when it succeeds -/

theorem insert_eq_ok {g g' : Graph} {n : Node} (h : g.insert n = .ok g') :
    n.id ≠ "" ∧ n.IsSealed ∧ g.node? n.id = none ∧ g' = { g with nodes := g.nodes ++ [n] } := by
  unfold insert at h
  split at h
  · cases h
  · next hid =>
    split at h
    · cases h
    · cases h
    · next s hs =>
      split at h
      · cases h
      · next hnone =>
        cases h
        exact ⟨hid, ⟨s, hs⟩, by simpa using hnone, rfl⟩

theorem remove_eq_ok {g g' : Graph} {id : String} (h : g.remove id = .ok g') :
    g' = ⟨g.nodes.filter (·.id != id), g.connections.filter fun c => !c.touches id⟩ := by
  unfold remove at h
  split at h
  · cases h
    rfl
  · cases h

theorem setConfig_eq_ok {g g' : Graph} {id : String} {config : NodeConfig}
    (h : g.setConfig id config = .ok g') :
    ∃ n s, g.node? id = some n ∧ n.kind? = some s.kind ∧ config = .sealed s ∧
      g' = g.modifyNode id ({ · with config := .sealed s }) := by
  unfold setConfig at h
  split at h
  · cases h
  · next n hn =>
    split at h
    · cases h
    · next kind hkind =>
      split at h
      · next s =>
        split at h
        · next hk =>
          cases h
          exact ⟨n, s, hn, by rw [hkind, hk], rfl, rfl⟩
        · cases h
      · cases h

theorem disconnect_eq_ok {g g' : Graph} {id : String} (h : g.disconnect id = .ok g') :
    g' = { g with connections := g.connections.eraseP (·.id == id) } := by
  unfold disconnect at h
  split at h
  · cases h
    rfl
  · cases h

/-- An edge that the checks let pass is legal, and its input is free: the catalogue has no input
that takes several connections. -/
theorem admits_eq_ok {g : Graph} {link : Link} (h : g.admits link = .ok ()) :
    g.Legal link ∧ g.entering? link.head = none := by
  unfold admits at h
  split at h
  · cases h
  next source hsource =>
  split at h
  · cases h
  next target htarget =>
  split at h
  · cases h
  next sourceKind hsourceKind =>
  split at h
  · cases h
  next output houtput =>
  split at h
  · cases h
  next targetKind htargetKind =>
  split at h
  · cases h
  next input hinput =>
  split at h
  · cases h
  next hcompatible =>
  split at h
  · cases h
  next hfree =>
  refine ⟨⟨source, target, output, input, hsource, htarget, ?_, ?_, by simpa using hcompatible⟩, ?_⟩
  · simp [Node.output?, hsourceKind, houtput]
  · simp [Node.input?, htargetKind, hinput]
  · -- every input takes one connection, so the last check asks that there is none yet
    simpa [Kind.multiple_eq_false hinput] using hfree

/-- The checks let pass every legal edge into a free input. -/
theorem admits_of_legal {g : Graph} {link : Link} (h : g.Legal link)
    (hfree : g.entering? link.head = none) : g.admits link = .ok () := by
  obtain ⟨source, target, output, input, hsource, htarget, hout, hin, hfit⟩ := h
  obtain ⟨sourceKind, hsourceKind, houtput⟩ := Option.bind_eq_some_iff.1 hout
  obtain ⟨targetKind, htargetKind, hinput⟩ := Option.bind_eq_some_iff.1 hin
  simp [admits, hsource, htarget, hsourceKind, houtput, htargetKind, hinput, hfit, hfree]

theorem attach_eq_ok {g g' : Graph} {link : Link} {id : String} (h : g.attach link id = .ok g') :
    (∀ c ∈ g.connections, c.id ≠ id) ∧
      g' = { g with connections := g.connections ++ [{ link with id }] } := by
  unfold attach at h
  split at h
  · cases h
  · next hany =>
    cases h
    exact ⟨by simpa using hany, rfl⟩

/-- Arranging changes the positions of nodes and nothing else. -/
theorem arrange_eq (g : Graph) : ∃ f : Node → Node,
    (∀ n, (f n).id = n.id ∧ (f n).config = n.config) ∧
      g.arrange.1 = { g with nodes := g.nodes.map f } := by
  have hplace : ∀ places, ∃ f : Node → Node,
      (∀ n, (f n).id = n.id ∧ (f n).config = n.config) ∧
        g.place places = { g with nodes := g.nodes.map f } := by
    intro places
    refine ⟨_, fun n => ?_, rfl⟩
    split <;> exact ⟨rfl, rfl⟩
  unfold arrange
  split
  · exact ⟨id, fun n => ⟨rfl, rfl⟩, by simp⟩
  · dsimp only
    split
    · exact hplace _
    · exact hplace _

/-! ## One change -/

/-- The changes that an edit can make to a graph. -/
inductive Change (g : Graph) : Graph → Prop where
  | refused : Change g g
  | inserted {n : Node} {g' : Graph} (h : g.insert n = .ok g') : Change g g'
  | removed {id : String} {g' : Graph} (h : g.remove id = .ok g') : Change g g'
  | configured {id : String} {config : NodeConfig} {g' : Graph}
      (h : g.setConfig id config = .ok g') : Change g g'
  | cleared : Change g .empty
  | connected {link : Link} {id : String} {g' : Graph} (hadmits : g.admits link = .ok ())
      (hattach : g.attach link id = .ok g') : Change g g'
  | disconnected {id : String} {g' : Graph} (h : g.disconnect id = .ok g') : Change g g'
  | arranged : Change g g.arrange.1

namespace WellFormed

variable {g g' : Graph}

theorem empty : Graph.empty.WellFormed where
  order_nodup := List.nodup_nil
  id_ne_empty := by simp [Graph.empty]
  isSealed := by simp [Graph.empty]
  legal := by simp [Graph.empty]
  heads_nodup := List.nodup_nil
  ids_nodup := List.nodup_nil

/-- Fewer connections between the same nodes. -/
theorem sublist (h : g.WellFormed) {connections : List Connection}
    (hsub : connections.Sublist g.connections) :
    WellFormed { g with connections } where
  order_nodup := h.order_nodup
  id_ne_empty := h.id_ne_empty
  isSealed := h.isSealed
  legal := fun c hc => (h.legal c (hsub.subset hc)).mono (fun _ hn => hn) (fun _ hn => hn)
  heads_nodup := (hsub.map _).nodup h.heads_nodup
  ids_nodup := (hsub.map _).nodup h.ids_nodup

/-- Nodes changed one by one, each keeping its id, its kind and its seal. -/
theorem mapNodes (h : g.WellFormed) {f : Node → Node} (hid : ∀ n, (f n).id = n.id)
    (hkind : ∀ n ∈ g.nodes, (f n).kind? = n.kind?) (hseal : ∀ n ∈ g.nodes, (f n).IsSealed) :
    WellFormed { g with nodes := g.nodes.map f } where
  order_nodup := by
    have heq : order { g with nodes := g.nodes.map f } = g.order := by
      simp [order, Function.comp_def, hid]
    rw [heq]
    exact h.order_nodup
  id_ne_empty := by
    intro n hn
    obtain ⟨m, hm, rfl⟩ := List.mem_map.1 hn
    rw [hid]
    exact h.id_ne_empty m hm
  isSealed := by
    intro n hn
    obtain ⟨m, hm, rfl⟩ := List.mem_map.1 hn
    exact hseal m hm
  legal := by
    intro c hc
    obtain ⟨source, target, output, input, hsource, htarget, hout, hin, hfit⟩ := h.legal c hc
    refine ⟨f source, f target, output, input, ?_, ?_, ?_, ?_, hfit⟩
    · rw [node?_map hid, hsource]; rfl
    · rw [node?_map hid, htarget]; rfl
    · rw [← hout]; simp only [Node.output?, hkind source (node?_eq_some hsource).1]
    · rw [← hin]; simp only [Node.input?, hkind target (node?_eq_some htarget).1]
  heads_nodup := h.heads_nodup
  ids_nodup := h.ids_nodup

theorem insert (h : g.WellFormed) {n : Node} (hi : g.insert n = .ok g') : g'.WellFormed := by
  obtain ⟨hid, hseal, hnone, rfl⟩ := insert_eq_ok hi
  have hfresh : n.id ∉ g.order := by
    intro hmem
    rw [mem_order_iff, hnone] at hmem
    cases hmem
  constructor
  · simp only [order, List.map_append, List.map_cons, List.map_nil]
    exact List.nodup_append.2 ⟨h.order_nodup, List.nodup_singleton _, by
      intro a ha b hb
      rw [List.mem_singleton.1 hb]
      exact fun he => hfresh (he ▸ ha)⟩
  · intro m hm
    rcases List.mem_append.1 hm with hm | hm
    · exact h.id_ne_empty m hm
    · rw [List.mem_singleton.1 hm]; exact hid
  · intro m hm
    rcases List.mem_append.1 hm with hm | hm
    · exact h.isSealed m hm
    · rw [List.mem_singleton.1 hm]; exact hseal
  · intro c hc
    exact (h.legal c hc).mono (fun _ => node?_append_of_some) (fun _ => node?_append_of_some)
  · exact h.heads_nodup
  · exact h.ids_nodup

theorem remove (h : g.WellFormed) {id : String} (hr : g.remove id = .ok g') : g'.WellFormed := by
  rw [remove_eq_ok hr]
  constructor
  · exact (List.filter_sublist.map _).nodup h.order_nodup
  · exact fun n hn => h.id_ne_empty n (List.mem_filter.1 hn).1
  · exact fun n hn => h.isSealed n (List.mem_filter.1 hn).1
  · -- a connection that is kept touches the removed node at neither end
    intro c hc
    obtain ⟨hmem, htouch⟩ := List.mem_filter.1 hc
    simp only [Link.touches, Bool.not_eq_true', Bool.or_eq_false_iff, beq_eq_false_iff_ne] at htouch
    refine (h.legal c hmem).mono (fun n hn => ?_) (fun n hn => ?_)
    · rw [node?_filter_of_ne htouch.1]; exact hn
    · rw [node?_filter_of_ne htouch.2]; exact hn
  · exact (List.filter_sublist.map _).nodup h.heads_nodup
  · exact (List.filter_sublist.map _).nodup h.ids_nodup

theorem setConfig (h : g.WellFormed) {id : String} {config : NodeConfig}
    (hc : g.setConfig id config = .ok g') : g'.WellFormed := by
  obtain ⟨n, s, hn, hkind, -, rfl⟩ := setConfig_eq_ok hc
  refine h.mapNodes (fun m => ?_) (fun m hm => ?_) (fun m hm => ?_)
  · split <;> rfl
  · split
    · next hid =>
      -- ids are distinct, so the node that changes is the one whose kind was checked
      have hfound := node?_of_mem h.order_nodup hm
      rw [beq_iff_eq.1 hid, hn, Option.some.injEq] at hfound
      rw [← hfound, hkind]
      rfl
    · rfl
  · split
    · exact ⟨s, rfl⟩
    · exact h.isSealed m hm

theorem connect (h : g.WellFormed) {link : Link} {id : String} (hadmits : g.admits link = .ok ())
    (hattach : g.attach link id = .ok g') : g'.WellFormed := by
  obtain ⟨hlegal, hfree⟩ := admits_eq_ok hadmits
  obtain ⟨hid, rfl⟩ := attach_eq_ok hattach
  have hhead : ∀ c ∈ g.connections, c.head ≠ link.head := by
    simpa [entering?] using hfree
  refine ⟨h.order_nodup, h.id_ne_empty, h.isSealed, ?_, ?_, ?_⟩
  · intro c hc
    rcases List.mem_append.1 hc with hc | hc
    · exact (h.legal c hc).mono (fun _ hn => hn) (fun _ hn => hn)
    · rw [List.mem_singleton.1 hc]
      exact hlegal.mono (fun _ hn => hn) (fun _ hn => hn)
  · rw [List.map_append, List.nodup_append]
    refine ⟨h.heads_nodup, List.nodup_singleton _, ?_⟩
    intro a ha b hb
    obtain ⟨c, hc, rfl⟩ := List.mem_map.1 ha
    rw [List.mem_singleton.1 hb]
    exact hhead c hc
  · rw [List.map_append, List.nodup_append]
    refine ⟨h.ids_nodup, List.nodup_singleton _, ?_⟩
    intro a ha b hb
    obtain ⟨c, hc, rfl⟩ := List.mem_map.1 ha
    rw [List.mem_singleton.1 hb]
    exact hid c hc

theorem arrange (h : g.WellFormed) : g.arrange.1.WellFormed := by
  obtain ⟨f, hf, heq⟩ := arrange_eq g
  rw [heq]
  refine h.mapNodes (fun n => (hf n).1) (fun n _ => ?_) (fun n hn => ?_)
  · simp only [Node.kind?, (hf n).2]
  · obtain ⟨s, hs⟩ := h.isSealed n hn
    exact ⟨s, by rw [(hf n).2, hs]⟩

theorem change (h : g.WellFormed) (hc : Change g g') : g'.WellFormed := by
  cases hc with
  | refused => exact h
  | inserted hi => exact h.insert hi
  | removed hr => exact h.remove hr
  | configured hs => exact h.setConfig hs
  | cleared => exact empty
  | connected hadmits hattach => exact h.connect hadmits hattach
  | disconnected hd =>
    rw [disconnect_eq_ok hd]
    exact h.sublist List.eraseP_sublist
  | arranged => exact h.arrange

end WellFormed

end Graph

namespace Editor

theorem change_apply {ε : Type} (e : Editor) (edit : Graph → Except ε Graph)
    (h : ∀ g', edit e.graph = .ok g' → e.graph.Change g') :
    e.graph.Change (e.apply edit).2.graph := by
  unfold apply
  split
  · exact .refused
  · next g' hg' => exact h g' hg'

theorem change_add (e : Editor) (kind : String) (position : Position) :
    e.graph.Change (e.add kind position).2.graph := by
  unfold add
  split
  · exact .refused
  · dsimp only
    split
    · exact .refused
    · next hi => exact .inserted hi

theorem change_connect (e : Editor) (link : Link) (id : String) :
    e.graph.Change (e.connect link id).2.graph := by
  unfold connect
  split
  · exact .refused
  · next hadmits =>
    dsimp only
    split
    · exact .refused
    · next hattach => exact .connected hadmits hattach

/-- Every edit makes one of the changes. -/
theorem change_step (e : Editor) (edit : Edit) : e.graph.Change (e.step edit).graph := by
  cases edit with
  | add kind position => exact e.change_add kind position
  | insert n =>
    cases n with
    | none => exact .refused
    | some n => exact e.change_apply _ fun _ h => .inserted h
  | remove id => exact e.change_apply _ fun _ h => .removed h
  | setConfig id config => exact e.change_apply _ fun _ h => .configured h
  | clear => exact .cleared
  | connect link => exact e.change_connect link ""
  | connectAs id link => exact e.change_connect link id
  | disconnect id => exact e.change_apply _ fun _ h => .disconnected h
  | arrange => exact .arranged

/-- Well-formedness is kept along every history. -/
theorem wellFormed_run {e : Editor} (h : e.graph.WellFormed) (edits : List Edit) :
    (e.run edits).graph.WellFormed := by
  induction edits generalizing e with
  | nil => exact h
  | cons edit edits ih => exact ih (h.change (e.change_step edit))

end Editor

namespace Graph

theorem wellFormed_edited (ids : Nat → String) (edits : List Edit) :
    (edited ids edits).WellFormed :=
  Editor.wellFormed_run .empty edits

end Graph

end TradeFlow
