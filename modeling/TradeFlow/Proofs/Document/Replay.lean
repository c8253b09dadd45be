import TradeFlow.Proofs.Document.Build
import TradeFlow.Proofs.Overlay

/-!
What building makes of a document, part by part.

Nodes are inserted and connections are made one after the other, and whatever is refused is reported.
A connection is judged by the connections that were made before it. What is proved:

1. `DocumentNode.Valid.errors_eq`: the settings of a node are reported if their choice is refused.
2. `Editor.decides_connect`: an attempt to connect is decided by the ports, then by what enters the
   input already, then by the id.
3. `Document.replays_buildConnections`: so every connection of a list is decided by those that were
   made before it, and the reports are those of the refused ones.
4. `Document.build_replays`: building a document, with its reports in order.
-/

namespace TradeFlow

/-! ## Nodes -/

/-- What is reported about a node: the choice of its kind, if the value for it is not in the list. -/
def DocumentNode.report? (n : DocumentNode) : Option BuildError :=
  (Kind.ofName? n.kind).bind fun kind =>
    ((n.config.getD []).refused? kind).map fun cause => .fields [{ node := n.id, cause }]

theorem DocumentNode.Valid.errors_eq {n : DocumentNode} (h : n.Valid) :
    n.errors = n.report?.toList := by
  obtain ⟨kind, hkind⟩ := Option.isSome_iff_exists.1 h.kind_known
  have herrors := (Settings.default kind).overlay_errors (n.config.getD [])
  rw [Settings.kind_default] at herrors
  simp only [errors, reading, report?, hkind, NodeConfig.overlay, herrors, Option.bind_some]
  cases (n.config.getD []).refused? kind with
  | none => rfl
  | some cause => rfl

/-- The kind of the node that is described, by its name. -/
theorem DocumentNode.Valid.kind_eq {n : DocumentNode} (h : n.Valid) :
    n.node.kind?.map Kind.name = some n.kind := by
  obtain ⟨s, hs, hkind⟩ := h.exists_sealed
  have hname := List.find?_some hkind
  rw [beq_iff_eq] at hname
  rw [Node.kind?, hs, ← hname]
  rfl

/-! ## One connection -/

/-- What became of a connection: it was made, or it was refused. -/
abbrev Verdict := Except ConnectionError Connection

namespace Verdict

/-- The connection that was made. -/
def made? : Verdict → Option Connection
  | .ok c => some c
  | .error _ => none

/-- The report of a refusal. -/
def report? : Verdict → Option BuildError
  | .ok _ => none
  | .error e => some (.connection e)

/-- Whether the id was looked at: it is the last thing to be checked. -/
def reachesId : Verdict → Bool
  | .ok _ => true
  | .error ⟨_, .duplicate _⟩ => true
  | .error _ => false

end Verdict

namespace Graph

/-- What has to hold of a connection that is made after `earlier` ones. -/
structure Accepts (g : Graph) (earlier : List Connection) (c : Connection) : Prop where
  legal : g.Legal c.toLink
  free : ∀ a ∈ earlier, a.head ≠ c.head
  new_id : ∀ a ∈ earlier, a.id ≠ c.id

/-- How a connection is decided after `earlier` ones were made. -/
inductive Decides (g : Graph) (earlier : List Connection) (c : Connection) : Verdict → Prop where
  | made (h : g.Accepts earlier c) : Decides g earlier c (.ok c)
  | repeated (hlegal : g.Legal c.toLink) (hfree : ∀ a ∈ earlier, a.head ≠ c.head)
      (hid : ∃ a ∈ earlier, a.id = c.id) :
      Decides g earlier c (.error ⟨c.toLink, .duplicate c.id⟩)
  | occupied (hlegal : g.Legal c.toLink) (hhead : ∃ a ∈ earlier, a.head = c.head) :
      Decides g earlier c (.error ⟨c.toLink, .occupied⟩)
  | illegal {cause : Rejection} (hillegal : ¬ g.Legal c.toLink)
      (hcause : ∀ id, cause ≠ .duplicate id) :
      Decides g earlier c (.error ⟨c.toLink, cause⟩)

variable {g : Graph} {earlier : List Connection} {c : Connection} {o : Verdict}

/-- Of the four ways, making the connection is the one in which everything holds. -/
theorem Decides.made_iff (h : g.Decides earlier c o) :
    (∃ made, o = .ok made) ↔ g.Accepts earlier c := by
  constructor
  · rintro ⟨made, rfl⟩
    cases h with
    | made h => exact h
  · intro haccepts
    cases h with
    | made h => exact ⟨c, rfl⟩
    | repeated _ _ hid =>
      obtain ⟨a, ha, heq⟩ := hid
      exact absurd heq (haccepts.new_id a ha)
    | occupied _ hhead =>
      obtain ⟨a, ha, heq⟩ := hhead
      exact absurd heq (haccepts.free a ha)
    | illegal hillegal => exact absurd haccepts.legal hillegal

/-- Only the nodes of the graph and the earlier connections matter. -/
theorem Decides.congr {g' : Graph} (h : g.Decides earlier c o) (hnodes : g'.nodes = g.nodes) :
    g'.Decides earlier c o := by
  have hlegal : g'.Legal c.toLink ↔ g.Legal c.toLink := by
    simp only [Legal, node?, hnodes]
  cases h with
  | made h => exact .made ⟨hlegal.2 h.legal, h.free, h.new_id⟩
  | repeated h hfree hid => exact .repeated (hlegal.2 h) hfree hid
  | occupied h hhead => exact .occupied (hlegal.2 h) hhead
  | illegal h hcause => exact .illegal (mt hlegal.1 h) hcause

/-- The checks before the last one do not look at ids. -/
theorem admits_ne_duplicate (g : Graph) (link : Link) (id : String) :
    g.admits link ≠ .error (.duplicate id) := by
  unfold admits
  repeat' split
  all_goals simp

/-- An occupied input is the only thing that keeps a legal edge out. -/
theorem admits_of_occupied {link : Link} (h : g.Legal link) (hhead : (g.entering? link.head).isSome) :
    g.admits link = .error .occupied := by
  obtain ⟨source, target, output, input, hsource, htarget, hout, hin, hfit⟩ := h
  obtain ⟨sourceKind, hsourceKind, houtput⟩ := Option.bind_eq_some_iff.1 hout
  obtain ⟨targetKind, htargetKind, hinput⟩ := Option.bind_eq_some_iff.1 hin
  simp [admits, hsource, htarget, hsourceKind, houtput, htargetKind, hinput, hfit, hhead,
    Kind.multiple_eq_false hinput]

end Graph

namespace IdSupply

/-- The supply after more ids were drawn. -/
def skip (s : IdSupply) (n : Nat) : IdSupply := { s with drawn := s.drawn + n }

theorem skip_skip (s : IdSupply) (m n : Nat) : (s.skip m).skip n = s.skip (m + n) := by
  simp [skip, Nat.add_assoc]

end IdSupply

/-- How many ids were drawn for connections with the given outcomes: one for each connection without
an id of its own whose id was looked at. -/
def idsDrawn (decided : List (Connection × Verdict)) : Nat :=
  decided.countP fun (c, o) => c.id == "" && o.reachesId

namespace Editor

/-- The editor after a connection was decided. -/
def decided (e : Editor) (c : Connection) (o : Verdict) : Editor where
  graph := { e.graph with connections := e.graph.connections ++ o.made?.toList }
  supply := e.supply.skip (idsDrawn [(c, o)])

theorem pick_snd (s : IdSupply) (c : Connection) (o : Verdict) (h : o.reachesId = true) :
    (s.pick c.id).2 = s.skip (idsDrawn [(c, o)]) := by
  by_cases hid : c.id = ""
  · simp [IdSupply.pick, idsDrawn, hid, h, IdSupply.draw, IdSupply.skip]
  · simp [IdSupply.pick, idsDrawn, hid, IdSupply.skip]

/-- When everything but the id is legal, the id decides. -/
theorem connect_of_admits {e : Editor} {c : Connection} (h : e.graph.admits c.toLink = .ok ()) :
    e.connect c.toLink c.id =
      match e.graph.attach c.toLink (e.supply.pick c.id).1 with
      | .error cause => (.error ⟨c.toLink, cause⟩, { e with supply := (e.supply.pick c.id).2 })
      | .ok graph => (.ok { c with id := (e.supply.pick c.id).1 },
          { graph, supply := (e.supply.pick c.id).2 }) := by
  rw [connect, h]
  rfl

/-- Connecting looks at the ports first, then at the input, and at the id last. -/
theorem decides_connect (e : Editor) (c : Connection) :
    ∃ o, e.connect c.toLink c.id = (o, e.decided c o) ∧
      e.graph.Decides e.graph.connections { c with id := (e.supply.pick c.id).1 } o := by
  by_cases hlegal : e.graph.Legal c.toLink
  · cases hentering : e.graph.entering? c.head with
    | some a =>
      have hadmits := Graph.admits_of_occupied hlegal (Option.isSome_iff_exists.2 ⟨a, hentering⟩)
      refine ⟨.error ⟨c.toLink, .occupied⟩, ?_, .occupied hlegal ⟨a, ?_, ?_⟩⟩
      · simp [connect, hadmits, decided, idsDrawn, Verdict.made?, Verdict.reachesId, IdSupply.skip]
      · exact List.mem_of_find?_eq_some hentering
      · simpa using List.find?_some hentering
    | none =>
      have hadmits := Graph.admits_of_legal hlegal hentering
      have hfree : ∀ a ∈ e.graph.connections, a.head ≠ c.head := by
        simpa [Graph.entering?] using hentering
      rw [connect_of_admits hadmits]
      by_cases hid : ∃ a ∈ e.graph.connections, a.id = (e.supply.pick c.id).1
      · refine ⟨.error ⟨c.toLink, .duplicate (e.supply.pick c.id).1⟩, ?_,
          .repeated hlegal hfree hid⟩
        rw [Graph.attach, if_pos (by simpa using hid),
          pick_snd e.supply c (.error ⟨c.toLink, .duplicate (e.supply.pick c.id).1⟩) rfl]
        simp [decided, Verdict.made?]
      · refine ⟨.ok { c with id := (e.supply.pick c.id).1 }, ?_, .made ⟨hlegal, hfree, ?_⟩⟩
        · rw [Graph.attach, if_neg (by simpa using hid),
            pick_snd e.supply c (.ok { c with id := (e.supply.pick c.id).1 }) rfl]
          simp [decided, Verdict.made?]
        · simpa using hid
  · obtain ⟨cause, hadmits⟩ : ∃ cause, e.graph.admits c.toLink = .error cause := by
      cases hadmits : e.graph.admits c.toLink with
      | ok => exact absurd (Graph.admits_eq_ok hadmits).1 hlegal
      | error cause => exact ⟨cause, rfl⟩
    have hcause : ∀ id, cause ≠ .duplicate id := by
      rintro id rfl
      exact Graph.admits_ne_duplicate _ _ id hadmits
    have hearly : Verdict.reachesId (.error ⟨c.toLink, cause⟩) = false := by
      cases cause with
      | duplicate id => exact absurd rfl (hcause id)
      | _ => rfl
    refine ⟨.error ⟨c.toLink, cause⟩, ?_, .illegal hlegal hcause⟩
    simp [connect, hadmits, decided, idsDrawn, Verdict.made?, hearly, IdSupply.skip]

end Editor

/-! ## All connections -/

namespace Document

/-- A connection at its turn, with the id that it gets if it has none. -/
def atTurn (supply : IdSupply) (decided : List (Connection × Verdict)) (c : Connection) : Connection :=
  { c with id := ((supply.skip (idsDrawn decided)).pick c.id).1 }

/-- Every connection is decided in turn, after those that were made before it. -/
structure Replays (g : Graph) (supply : IdSupply) (before cs : List Connection)
    (outcomes : List Verdict) : Prop where
  length_eq : outcomes.length = cs.length
  decides : ∀ i c o, cs[i]? = some c → outcomes[i]? = some o →
    g.Decides (before ++ (outcomes.take i).filterMap Verdict.made?)
      (atTurn supply ((cs.zip outcomes).take i) c) o

variable {g : Graph} {supply : IdSupply} {before cs : List Connection} {outcomes : List Verdict}
  {c : Connection} {o : Verdict}

theorem Replays.nil : Replays g supply before [] [] where
  length_eq := rfl
  decides := by simp

theorem Replays.cons (hfirst : g.Decides before (atTurn supply [] c) o)
    (hrest : Replays g (supply.skip (idsDrawn [(c, o)])) (before ++ o.made?.toList) cs outcomes) :
    Replays g supply before (c :: cs) (o :: outcomes) where
  length_eq := by simp [hrest.length_eq]
  decides := by
    intro i c' o' hc ho
    cases i with
    | zero =>
      cases hc
      cases ho
      simpa using hfirst
    | succ i =>
      have hnext := hrest.decides i c' o' hc ho
      have hdrawn : idsDrawn ((c, o) :: (cs.zip outcomes).take i) =
          idsDrawn [(c, o)] + idsDrawn ((cs.zip outcomes).take i) := by
        rw [idsDrawn, ← List.singleton_append, List.countP_append]
        rfl
      have hmade : before ++ ((o :: outcomes).take (i + 1)).filterMap Verdict.made? =
          before ++ o.made?.toList ++ (outcomes.take i).filterMap Verdict.made? := by
        cases hm : o.made? <;> simp [hm]
      rw [hmade, List.zip_cons_cons, List.take_succ_cons, atTurn, hdrawn, ← IdSupply.skip_skip]
      exact hnext

theorem Replays.congr {g' : Graph} (h : Replays g supply before cs outcomes)
    (hnodes : g'.nodes = g.nodes) : Replays g' supply before cs outcomes where
  length_eq := h.length_eq
  decides := fun i c o hc ho => (h.decides i c o hc ho).congr hnodes

/-- Connections are replayed behind those that were made before. -/
theorem replays_buildConnections (e : Editor) (cs : List Connection) :
    ∃ outcomes, Replays e.graph e.supply e.graph.connections cs outcomes ∧
      (buildConnections e cs).1.graph =
        { e.graph with connections := e.graph.connections ++ outcomes.filterMap Verdict.made? } ∧
      (buildConnections e cs).2 = outcomes.filterMap Verdict.report? := by
  induction cs generalizing e with
  | nil => exact ⟨[], .nil, by simp [buildConnections], rfl⟩
  | cons c cs ih =>
    obtain ⟨o, hconnect, hdecides⟩ := e.decides_connect c
    obtain ⟨outcomes, hreplays, hgraph, hreports⟩ := ih (e.decided c o)
    refine ⟨o :: outcomes, .cons hdecides (hreplays.congr rfl), ?_, ?_⟩
    · have hrest : (buildConnections e (c :: cs)).1 = (buildConnections (e.decided c o) cs).1 := by
        simp only [buildConnections, hconnect]
        split <;> rfl
      rw [hrest, hgraph]
      cases hm : o.made? <;> simp [Editor.decided, hm]
    · simp only [buildConnections, hconnect]
      cases o with
      | ok made => exact hreports
      | error error => exact congrArg _ hreports

/-! ## Documents -/

variable {d : Document}

theorem Valid.flatMap_errors (h : d.Valid) :
    d.nodeList.flatMap (·.errors) = d.nodeList.filterMap DocumentNode.report? := by
  rw [List.filterMap_eq_flatMap_toList]
  exact List.flatMap_congr fun n hn => (h.nodes n hn).errors_eq

theorem filterMap_report?_eq_nil_iff {outcomes : List Verdict} :
    outcomes.filterMap Verdict.report? = [] ↔ ∀ o ∈ outcomes, ∃ made, o = .ok made := by
  rw [List.filterMap_eq_nil_iff]
  refine forall₂_congr fun o _ => ?_
  cases o <;> simp [Verdict.report?]

/-- A document that breaks a rule has no graph. Of any other one every node is inserted, with the id,
the kind and the position that it has in the document, and every connection is made or refused in
turn: it is made exactly when both ports exist, the sockets fit, and neither its input nor its id was
taken by a connection made before. The reports are those of the refused choices in the order of the
nodes and then those of the refused connections in their order; there are none exactly when nothing
was refused. -/
theorem build_replays (d : Document) (supply : IdSupply) :
    (∀ e, d.build supply = .error e ↔ d.validate = .error e) ∧
    (d.validate = .ok () → ∃ e reports outcomes, d.build supply = .ok (e, reports) ∧
      reports = d.nodeList.filterMap DocumentNode.report? ++ outcomes.filterMap Verdict.report? ∧
      e.graph.nodes.map (fun n => (n.id, n.kind?.map Kind.name, n.position)) =
        d.nodeList.map (fun n => (n.id, some n.kind, n.position)) ∧
      e.graph.connections = outcomes.filterMap Verdict.made? ∧
      outcomes.length = d.connectionList.length ∧
      (∀ i c o, d.connectionList[i]? = some c → outcomes[i]? = some o →
        let earlier := (outcomes.take i).filterMap Verdict.made?
        let c' := atTurn supply ((d.connectionList.zip outcomes).take i) c
        e.graph.Decides earlier c' o ∧ ((∃ made, o = .ok made) ↔ e.graph.Accepts earlier c')) ∧
      (reports = [] ↔
        (∀ n ∈ d.nodeList, n.report? = none) ∧ ∀ o ∈ outcomes, ∃ made, o = .ok made)) := by
  refine ⟨fun e => ?_, fun hok => ?_⟩
  · cases hvalidate : d.validate with
    | error e' =>
      have hbuild : d.build supply = .error e' := by
        simp only [build, hvalidate]
        rfl
      rw [hbuild, Except.error.injEq, Except.error.injEq]
    | ok =>
      rw [(validate_eq_ok_iff.1 hvalidate).build_eq]
      exact ⟨fun h => (by cases h), fun h => (by cases h)⟩
  · have hvalid := validate_eq_ok_iff.1 hok
    obtain ⟨outcomes, hreplays, hgraph, hreports⟩ := replays_buildConnections
      ⟨⟨d.nodeList.map (·.node), []⟩, supply⟩ d.connectionList
    have hnodes : (buildConnections ⟨⟨d.nodeList.map (·.node), []⟩, supply⟩
        d.connectionList).1.graph.nodes = d.nodeList.map (·.node) := by
      rw [hgraph]
    refine ⟨_, _, outcomes, hvalid.build_eq supply, ?_, ?_, ?_, hreplays.length_eq, ?_, ?_⟩
    · rw [hvalid.flatMap_errors, hreports]
    · rw [hnodes, List.map_map]
      refine List.map_congr_left fun n hn => ?_
      simp only [Function.comp_apply, (hvalid.nodes n hn).kind_eq]
      rfl
    · rw [hgraph]
      rfl
    · intro i c o hc ho
      have hdecides := (hreplays.decides i c o hc ho).congr hnodes
      exact ⟨hdecides, hdecides.made_iff⟩
    · rw [hvalid.flatMap_errors, hreports, List.append_eq_nil_iff, List.filterMap_eq_nil_iff,
        filterMap_report?_eq_nil_iff]

/-- An order behind a condition whose operator does not exist. Two connections bring no id, one enters
an input that is taken, and one joins sockets that do not fit. -/
def faultyDocument : Document where
  version := currentVersion
  nodes := some
    [⟨"s", "StrategyConfig", ⟨0, 0⟩, none⟩,
      ⟨"b", "Conditional", ⟨0, 0⟩, some [("operator", .string "=>")]⟩,
      ⟨"o", "PlaceOrder", ⟨0, 0⟩, none⟩]
  connections := some
    [⟨⟨"s", "exec", "b", "exec"⟩, ""⟩, ⟨⟨"b", "true", "o", "exec"⟩, ""⟩,
      ⟨⟨"b", "true", "o", "exec"⟩, "c1"⟩, ⟨⟨"b", "false", "o", "exec"⟩, "c2"⟩,
      ⟨⟨"s", "currentTimestamp", "o", "exec"⟩, "c3"⟩]

/-- A supply that repeats itself. -/
def repeatingIds : IdSupply where
  ids := fun _ => "id"

/-- One choice and three connections are refused; the second id that is drawn is in use. -/
theorem faultyDocument_replays :
    ∃ e reports, ∃ outcomes : List Verdict,
      faultyDocument.build repeatingIds = .ok (e, reports) ∧
      reports = faultyDocument.nodeList.filterMap DocumentNode.report? ++
        outcomes.filterMap Verdict.report? ∧
      e.graph.connections = outcomes.filterMap Verdict.made? ∧
      e.graph.connections.map (·.id) = ["id", "c1"] ∧
      reports.map BuildError.message =
        ["node b: operator: => is not one of >, <, >=, <=, ==, !=",
          "connect b.true -> o.exec: duplicate connection ID: id",
          "connect b.false -> o.exec: input already connected",
          "connect s.currentTimestamp -> o.exec: incompatible sockets: string -> exec"] := by
  have hproblems : faultyDocument.problems.isEmpty = true := by decide +kernel
  have hvalid : faultyDocument.validate = .ok () := if_pos hproblems
  obtain ⟨e, reports, outcomes, hbuild, hreports, -, hmade, -⟩ :=
    (build_replays faultyDocument repeatingIds).2 hvalid
  have hrun : (faultyDocument.build repeatingIds).toOption.map (fun built =>
      (built.1.graph.connections.map (·.id), built.2.map BuildError.message)) = some
        (["id", "c1"],
          ["node b: operator: => is not one of >, <, >=, <=, ==, !=",
            "connect b.true -> o.exec: duplicate connection ID: id",
            "connect b.false -> o.exec: input already connected",
            "connect s.currentTimestamp -> o.exec: incompatible sockets: string -> exec"]) := by
    decide +kernel
  rw [hbuild] at hrun
  obtain ⟨hids, hmessages⟩ := Prod.mk.inj (Option.some.inj hrun)
  exact ⟨e, reports, outcomes, hbuild, hreports, hmade, hids, hmessages⟩

end Document

end TradeFlow
