import TradeFlow.Proofs.Document.Replay

/-!
Edits that are refused.

An edit answers that it was carried out, or why it was not. Of a new connection seven things are
required; they are checked one after the other. What is proved:

1. `Editor.graph_step_of_refused`: an edit that is refused leaves the graph as it was, although it may
   have drawn an id.
2. `Graph.WellFormed.connect_of_violated` and `Graph.connect_of_all`: the first requirement that is
   violated is the cause of the refusal, and a connection that violates none is made.
3. `Graph.edited_graph_refuses`: so of every edited graph the answers to new connections are known.
-/

namespace TradeFlow

/-! ## Answers -/

/-- Why an edit was refused. -/
inductive Refusal where
  | edit (e : EditError)
  | connection (e : ConnectionError)

namespace Editor

/-- What an edit answers. No node at all is refused like a node without an id. -/
def answer (e : Editor) : Edit → Except Refusal Unit
  | .add kind position => ((e.add kind position).1.mapError .edit).map fun _ => ()
  | .insert none => .error (.edit .emptyId)
  | .insert (some n) => (e.apply (·.insert n)).1.mapError .edit
  | .remove id => (e.apply (·.remove id)).1.mapError .edit
  | .setConfig id config => (e.apply (·.setConfig id config)).1.mapError .edit
  | .clear => .ok ()
  | .connect link => ((e.connect link "").1.mapError .connection).map fun _ => ()
  | .connectAs id link => ((e.connect link id).1.mapError .connection).map fun _ => ()
  | .disconnect id => (e.apply (·.disconnect id)).1.mapError .edit
  | .arrange => .ok ()

variable {e : Editor}

theorem apply_of_error {ε : Type} {edit : Graph → Except ε Graph} {err : ε}
    (h : (e.apply edit).1 = .error err) : (e.apply edit).2 = e := by
  unfold apply at h ⊢
  split
  · rfl
  · next hok =>
    rw [hok] at h
    cases h

theorem graph_add_of_error {kind : String} {position : Position} {err : EditError}
    (h : (e.add kind position).1 = .error err) : (e.add kind position).2.graph = e.graph := by
  unfold add at h ⊢
  split
  · rfl
  · next hkind =>
    simp only [hkind] at h
    dsimp only
    split
    · rfl
    · next hinsert =>
      rw [hinsert] at h
      cases h

theorem graph_connect_of_error {link : Link} {id : String} {err : ConnectionError}
    (h : (e.connect link id).1 = .error err) : (e.connect link id).2.graph = e.graph := by
  unfold connect at h ⊢
  split
  · rfl
  · next hadmits =>
    simp only [hadmits] at h
    dsimp only
    split
    · rfl
    · next hattach =>
      rw [hattach] at h
      cases h

/-- Whatever is refused changes nothing but the supply of ids. -/
theorem graph_step_of_refused {edit : Edit} {refusal : Refusal}
    (h : e.answer edit = .error refusal) : (e.step edit).graph = e.graph := by
  have happly : ∀ {f : Graph → Except EditError Graph},
      (e.apply f).1.mapError Refusal.edit = .error refusal → (e.apply f).2.graph = e.graph := by
    intro f h
    cases hf : (e.apply f).1 with
    | ok => simp [hf, Except.mapError] at h
    | error err => rw [apply_of_error hf]
  have hconnect : ∀ {link : Link} {id : String},
      ((e.connect link id).1.mapError Refusal.connection).map (fun _ => ()) = .error refusal →
        (e.connect link id).2.graph = e.graph := by
    intro link id h
    cases hmade : (e.connect link id).1 with
    | ok made => simp [hmade, Except.mapError, Except.map] at h
    | error err => exact graph_connect_of_error hmade
  cases edit with
  | add kind position =>
    cases hadd : (e.add kind position).1 with
    | ok n => simp [answer, hadd, Except.mapError, Except.map] at h
    | error err => exact graph_add_of_error hadd
  | insert n =>
    cases n with
    | none => rfl
    | some n => exact happly h
  | remove id => exact happly h
  | setConfig id config => exact happly h
  | clear => cases h
  | connect link => exact hconnect h
  | connectAs id link => exact hconnect h
  | disconnect id => exact happly h
  | arrange => cases h

end Editor

/-! ## Requirements -/

namespace Graph

/-- The output at which an edge starts, if there is one. -/
def sourcePort? (g : Graph) (link : Link) : Option Port :=
  (g.node? link.source).bind (·.output? link.sourceOutput)

/-- The input at which an edge ends, if there is one. -/
def targetPort? (g : Graph) (link : Link) : Option Port :=
  (g.node? link.target).bind (·.input? link.targetInput)

/-- The kind of the node with an id. -/
def kind? (g : Graph) (id : String) : Option Kind := (g.node? id).bind Node.kind?

end Graph

/-- What is required of a new connection. -/
inductive Requirement where
  | source
  | target
  | output
  | input
  | sockets
  | free
  | newId
  deriving DecidableEq

namespace Requirement

/-- The requirements in the order in which they are checked. -/
def all : List Requirement := [.source, .target, .output, .input, .sockets, .free, .newId]

/-- The requirements that are checked before one. -/
def earlier (r : Requirement) : List Requirement := all.takeWhile (· != r)

/-- Whether a connection under an id meets a requirement. -/
def Holds (g : Graph) (link : Link) (id : String) : Requirement → Prop
  | .source => (g.node? link.source).isSome
  | .target => (g.node? link.target).isSome
  | .output => (g.sourcePort? link).isSome
  | .input => (g.targetPort? link).isSome
  | .sockets => ∀ output ∈ g.sourcePort? link, ∀ input ∈ g.targetPort? link,
      output.socket.compatible input.socket = true
  | .free => ∀ c ∈ g.connections, c.head ≠ link.head
  | .newId => ∀ c ∈ g.connections, c.id ≠ id

/-- The cause that stands for the violation of a requirement. -/
def cause? (g : Graph) (link : Link) (id : String) : Requirement → Option Rejection
  | .source => some (.nodeNotFound link.source)
  | .target => some (.nodeNotFound link.target)
  | .output => (g.kind? link.source).map (.noOutput · link.sourceOutput)
  | .input => (g.kind? link.target).map (.noInput · link.targetInput)
  | .sockets => do
    let output ← g.sourcePort? link
    let input ← g.targetPort? link
    some (.incompatible output.socket input.socket)
  | .free => some .occupied
  | .newId => some (.duplicate id)

/-- The requirement is violated, and those that are checked before it are met. -/
def FirstViolated (g : Graph) (link : Link) (id : String) (r : Requirement) : Prop :=
  (∀ q ∈ r.earlier, q.Holds g link id) ∧ ¬ r.Holds g link id

theorem mem_all (r : Requirement) : r ∈ all := by cases r <;> decide

/-- Something comes first among what is violated. -/
theorem exists_firstViolated {g : Graph} {link : Link} {id : String} {r : Requirement}
    (h : ¬ r.Holds g link id) : ∃ r, FirstViolated g link id r := by
  have hlist : ∀ l : List Requirement, (∃ q ∈ l, ¬ q.Holds g link id) →
      ∃ q ∈ l, (∀ p ∈ l.takeWhile (· != q), p.Holds g link id) ∧ ¬ q.Holds g link id := by
    intro l
    induction l with
    | nil => simp
    | cons a l ih =>
      rintro ⟨q, hq, hviolated⟩
      by_cases ha : a.Holds g link id
      · have hne : q ≠ a := fun he => hviolated (he ▸ ha)
        obtain ⟨r, hr, hearlier, hr'⟩ := ih ⟨q, (List.mem_cons.1 hq).resolve_left hne, hviolated⟩
        have hra : a ≠ r := fun he => hr' (he ▸ ha)
        refine ⟨r, List.mem_cons_of_mem _ hr, ?_, hr'⟩
        rw [List.takeWhile_cons_of_pos (by simpa using hra)]
        exact List.forall_mem_cons.2 ⟨ha, hearlier⟩
      · exact ⟨a, List.mem_cons_self, by simp, ha⟩
  obtain ⟨q, -, hq⟩ := hlist all ⟨r, r.mem_all, h⟩
  exact ⟨q, hq⟩

end Requirement

namespace Graph

variable {g : Graph} {link : Link} {id : String} {e : Editor} {output input : Port}

theorem sourcePort?_eq_some : g.sourcePort? link = some output ↔
    ∃ n, g.node? link.source = some n ∧ n.output? link.sourceOutput = some output :=
  Option.bind_eq_some_iff

theorem targetPort?_eq_some : g.targetPort? link = some input ↔
    ∃ n, g.node? link.target = some n ∧ n.input? link.targetInput = some input :=
  Option.bind_eq_some_iff

/-- An edge is legal if both ports are there and their sockets fit. -/
theorem legal_iff : g.Legal link ↔ ∃ output input, g.sourcePort? link = some output ∧
    g.targetPort? link = some input ∧ output.socket.compatible input.socket = true := by
  simp only [sourcePort?_eq_some, targetPort?_eq_some]
  constructor
  · rintro ⟨source, target, output, input, hsource, htarget, hout, hin, hfit⟩
    exact ⟨output, input, ⟨source, hsource, hout⟩, ⟨target, htarget, hin⟩, hfit⟩
  · rintro ⟨output, input, ⟨source, hsource, hout⟩, ⟨target, htarget, hin⟩, hfit⟩
    exact ⟨source, target, output, input, hsource, htarget, hout, hin, hfit⟩

theorem legal_of_holds (hout : Requirement.Holds g link id .output)
    (hin : Requirement.Holds g link id .input) (hfit : Requirement.Holds g link id .sockets) :
    g.Legal link := by
  obtain ⟨output, hout⟩ := Option.isSome_iff_exists.1 hout
  obtain ⟨input, hin⟩ := Option.isSome_iff_exists.1 hin
  exact legal_iff.2 ⟨output, input, hout, hin, hfit output hout input hin⟩

theorem entering?_eq_none_iff :
    g.entering? link.head = none ↔ Requirement.Holds g link id .free := by
  simp [entering?, Requirement.Holds]

/-- A connection that meets every requirement is made, behind those that were there. -/
theorem connect_of_all (h : ∀ r, Requirement.Holds e.graph link (e.supply.pick id).1 r) :
    (e.connect link id).1 = .ok { link with id := (e.supply.pick id).1 } ∧
      (e.connect link id).2.graph =
        { e.graph with
          connections := e.graph.connections ++ [{ link with id := (e.supply.pick id).1 }] } := by
  have hlegal := legal_of_holds (h .output) (h .input) (h .sockets)
  have hadmits := admits_of_legal hlegal (entering?_eq_none_iff.2 (h .free))
  have hattach : e.graph.attach link (e.supply.pick id).1 = .ok _ :=
    if_neg (by simpa [Requirement.Holds] using h .newId)
  have hconnect := Editor.connect_of_admits (c := { link with id }) hadmits
  dsimp only at hconnect
  rw [hattach] at hconnect
  rw [hconnect]
  exact ⟨rfl, rfl⟩

/-- The checks refuse an edge for the first requirement that it violates, up to the id. -/
theorem WellFormed.admits_of_violated (hg : g.WellFormed) {r : Requirement} (hr : r ≠ .newId)
    (h : r.FirstViolated g link id) :
    ∃ cause, r.cause? g link id = some cause ∧ g.admits link = .error cause := by
  obtain ⟨hearlier, hviolated⟩ := h
  have hkind : ∀ {key n}, g.node? key = some n → ∃ kind, n.kind? = some kind := by
    intro key n hn
    obtain ⟨s, hs⟩ := hg.isSealed n (node?_eq_some hn).1
    exact ⟨s.kind, by rw [Node.kind?, hs]; rfl⟩
  cases r with
  | source =>
    have hnone : g.node? link.source = none := by simpa [Requirement.Holds] using hviolated
    exact ⟨_, rfl, by rw [admits, hnone]⟩
  | target =>
    obtain ⟨n, hn⟩ := Option.isSome_iff_exists.1 (hearlier .source (by decide))
    have hnone : g.node? link.target = none := by simpa [Requirement.Holds] using hviolated
    exact ⟨_, rfl, by simp only [admits, hn, hnone]⟩
  | output =>
    obtain ⟨n, hn⟩ := Option.isSome_iff_exists.1 (hearlier .source (by decide))
    obtain ⟨m, hm⟩ := Option.isSome_iff_exists.1 (hearlier .target (by decide))
    obtain ⟨kind, hk⟩ := hkind hn
    have hnone : kind.output? link.sourceOutput = none := by
      simpa [Requirement.Holds, sourcePort?, hn, Node.output?, hk] using hviolated
    exact ⟨.noOutput kind link.sourceOutput, by simp [Requirement.cause?, kind?, hn, hk],
      by simp only [admits, hn, hm, hk, hnone]⟩
  | input =>
    obtain ⟨m, hm⟩ := Option.isSome_iff_exists.1 (hearlier .target (by decide))
    obtain ⟨output, hout⟩ := Option.isSome_iff_exists.1 (hearlier .output (by decide))
    obtain ⟨n, hn, hout⟩ := sourcePort?_eq_some.1 hout
    obtain ⟨sourceKind, hsourceKind, hout⟩ := Option.bind_eq_some_iff.1 hout
    obtain ⟨kind, hk⟩ := hkind hm
    have hnone : kind.input? link.targetInput = none := by
      simpa [Requirement.Holds, targetPort?, hm, Node.input?, hk] using hviolated
    exact ⟨.noInput kind link.targetInput, by simp [Requirement.cause?, kind?, hm, hk],
      by simp only [admits, hn, hm, hsourceKind, hout, hk, hnone]⟩
  | sockets =>
    obtain ⟨output, hout⟩ := Option.isSome_iff_exists.1 (hearlier .output (by decide))
    obtain ⟨input, hin⟩ := Option.isSome_iff_exists.1 (hearlier .input (by decide))
    have hfit : output.socket.compatible input.socket = false := by
      simpa [Requirement.Holds, hout, hin] using hviolated
    refine ⟨.incompatible output.socket input.socket, by simp [Requirement.cause?, hout, hin], ?_⟩
    obtain ⟨n, hn, hout⟩ := sourcePort?_eq_some.1 hout
    obtain ⟨m, hm, hin⟩ := targetPort?_eq_some.1 hin
    obtain ⟨sourceKind, hsourceKind, hout⟩ := Option.bind_eq_some_iff.1 hout
    obtain ⟨targetKind, htargetKind, hin⟩ := Option.bind_eq_some_iff.1 hin
    simp [admits, hn, hm, hsourceKind, hout, htargetKind, hin, hfit]
  | free =>
    have hlegal := legal_of_holds (hearlier .output (by decide)) (hearlier .input (by decide))
      (hearlier .sockets (by decide))
    refine ⟨.occupied, rfl, admits_of_occupied hlegal ?_⟩
    rw [← Option.ne_none_iff_isSome]
    exact fun hnone => hviolated (entering?_eq_none_iff.1 hnone)
  | newId => exact absurd rfl hr

/-- The cause of a refusal is the first requirement that is violated. -/
theorem WellFormed.connect_of_violated (hg : e.graph.WellFormed) {r : Requirement}
    (h : r.FirstViolated e.graph link (e.supply.pick id).1) :
    ∃ cause, r.cause? e.graph link (e.supply.pick id).1 = some cause ∧
      (e.connect link id).1 = .error ⟨link, cause⟩ := by
  by_cases hr : r = .newId
  · subst hr
    obtain ⟨hearlier, hviolated⟩ := h
    have hlegal := legal_of_holds (hearlier .output (by decide)) (hearlier .input (by decide))
      (hearlier .sockets (by decide))
    have hadmits := admits_of_legal hlegal
      (entering?_eq_none_iff.2 (hearlier .free (by decide)))
    have hattach : e.graph.attach link (e.supply.pick id).1 = .error _ :=
      if_pos (by simpa [Requirement.Holds] using hviolated)
    have hconnect := Editor.connect_of_admits (c := { link with id }) hadmits
    dsimp only at hconnect
    rw [hattach] at hconnect
    exact ⟨_, rfl, by rw [hconnect]⟩
  · obtain ⟨cause, hcause, hadmits⟩ := hg.admits_of_violated hr h
    exact ⟨cause, hcause, by rw [Editor.connect, hadmits]⟩

/-- A connection meets every requirement and is made, or it is refused for the first that it
violates. -/
theorem WellFormed.connect_cases (hg : e.graph.WellFormed) (link : Link) (id : String) :
    ((∀ r, Requirement.Holds e.graph link (e.supply.pick id).1 r) ∧
      (e.connect link id).1 = .ok { link with id := (e.supply.pick id).1 }) ∨
    ∃ r cause, Requirement.FirstViolated e.graph link (e.supply.pick id).1 r ∧
      r.cause? e.graph link (e.supply.pick id).1 = some cause ∧
      (e.connect link id).1 = .error ⟨link, cause⟩ := by
  by_cases hall : ∀ r, Requirement.Holds e.graph link (e.supply.pick id).1 r
  · exact .inl ⟨hall, (connect_of_all hall).1⟩
  · obtain ⟨r, hr⟩ := not_forall.1 hall
    obtain ⟨first, hfirst⟩ := Requirement.exists_firstViolated hr
    obtain ⟨cause, hcause, hconnect⟩ := hg.connect_of_violated hfirst
    exact .inr ⟨first, cause, hfirst, hcause, hconnect⟩

/-- An edit that is refused leaves nodes, positions, settings, order and connections as they were. A
connection is made exactly if it meets every requirement, and then it stands behind the others under
its own id or the next one of the supply; else the cause of the refusal is the first requirement that
it violates. -/
theorem edited_graph_refuses (ids : Nat → String) (edits : List Edit) :
    let e := (Editor.new ids).run edits
    (∀ edit refusal, e.answer edit = .error refusal → (e.step edit).graph = e.graph) ∧
    ∀ (link : Link) (id : String),
      let chosen := (e.supply.pick id).1
      ((∃ made, (e.connect link id).1 = .ok made) ↔
        ∀ r, Requirement.Holds e.graph link chosen r) ∧
      (∀ made, (e.connect link id).1 = .ok made → made = { link with id := chosen } ∧
        (e.step (.connectAs id link)).graph =
          { e.graph with connections := e.graph.connections ++ [made] }) ∧
      ∀ err, (e.connect link id).1 = .error err ↔ err.link = link ∧
        ∃ r, Requirement.FirstViolated e.graph link chosen r ∧
          r.cause? e.graph link chosen = some err.cause := by
  intro e
  have hg : e.graph.WellFormed := wellFormed_edited ids edits
  refine ⟨fun edit refusal h => Editor.graph_step_of_refused h, fun link id => ?_⟩
  intro chosen
  rcases hg.connect_cases link id with ⟨hall, hmade⟩ | ⟨r, cause, hfirst, hcause, hrefused⟩
  · refine ⟨⟨fun _ => hall, fun _ => ⟨_, hmade⟩⟩, fun made hok => ?_, fun err => ?_⟩
    · obtain rfl : _ = made := Except.ok.inj (hmade.symm.trans hok)
      exact ⟨rfl, (connect_of_all hall).2⟩
    · rw [hmade]
      refine ⟨fun h => (by cases h), ?_⟩
      rintro ⟨-, r, hr, -⟩
      exact absurd (hall r) hr.2
  · refine ⟨⟨?_, fun hall => absurd (hall r) hfirst.2⟩, fun made hok => ?_, fun err => ?_⟩
    · rintro ⟨made, hok⟩
      rw [hrefused] at hok
      cases hok
    · rw [hrefused] at hok
      cases hok
    · constructor
      · intro h
        obtain rfl : _ = err := Except.error.inj (hrefused.symm.trans h)
        exact ⟨rfl, r, hfirst, hcause⟩
      · rintro ⟨rfl, r', hfirst', hcause'⟩
        obtain ⟨cause', hsame, hrefused'⟩ := hg.connect_of_violated hfirst'
        obtain rfl : err.cause = cause' := Option.some.inj (hcause'.symm.trans hsame)
        exact hrefused'

/-- Ids for two nodes, and the same id for everything else. -/
def repeatedIds (i : Nat) : String := ["s", "q"].getD i "c"

/-- A quote behind the root. -/
def quoteEdits : List Edit :=
  [.add "StrategyConfig" ⟨0, 0⟩, .add "FetchQuote" ⟨360, 0⟩, .connect ⟨"s", "exec", "q", "exec"⟩]

/-- Everything about the second connection is legal but the id that is drawn for it, so this id is the
cause, and the graph stays as it is. -/
theorem repeatedIds_refuse :
    let e := (Editor.new repeatedIds).run quoteEdits
    let clock : Link := ⟨"s", "currentTimestamp", "q", "symbol"⟩
    (∃ refusal, e.answer (.connect clock) = .error refusal) ∧
    (e.step (.connect clock)).graph = e.graph ∧
    (e.connect clock "").1 = .error ⟨clock, .duplicate "c"⟩ ∧
    ∃ r, Requirement.FirstViolated e.graph clock "c" r ∧
      r.cause? e.graph clock "c" = some (.duplicate "c") := by
  intro e clock
  have hrefused : (e.connect clock "").1 = .error ⟨clock, .duplicate "c"⟩ := by decide +kernel
  have hanswer : e.answer (.connect clock) = .error (.connection ⟨clock, .duplicate "c"⟩) := by
    simp only [Editor.answer, hrefused]
    rfl
  obtain ⟨hunchanged, hconnect⟩ := edited_graph_refuses repeatedIds quoteEdits
  obtain ⟨-, -, hcause⟩ := hconnect clock ""
  exact ⟨⟨_, hanswer⟩, hunchanged _ _ hanswer, hrefused, ((hcause _).1 hrefused).2⟩

end Graph

end TradeFlow
