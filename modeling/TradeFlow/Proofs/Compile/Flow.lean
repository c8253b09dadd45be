import TradeFlow.Compile.Lower
import Mathlib.Logic.Relation

/-!
Control flow as a relation between outputs.

`Graph.Follow` is one step of control, said without the unfolding: from an output to an output of
the node that it reaches. The unfolding of `Graph.controlFrom` is compared with it.

1. `Graph.unfolds_controlFrom`: a flow that was unfolded to its end satisfies `Graph.Unfolds`, a
   description that does not mention the outputs being followed.
2. `Graph.Unfolds.no_cycle`: from such a flow no cycle can be reached.
3. `Graph.exists_cut_controlFrom`: a flow that was not unfolded to its end was cut at an output that
   can be reached and lies on a cycle.
4. `Graph.Unfolds.mem_occurrences_iff`: the nodes of the flow are the nodes that can be reached.
-/

namespace TradeFlow

open Relation (ReflTransGen TransGen)

/-- The control outputs that are followed behind a node of a kind. -/
def Kind.followed : Kind → List String
  | .forEach => ["loopBody", "done"]
  | .conditional => ["true", "false"]
  | _ => ["exec"]

/-- The kind of the nodes that play a part. -/
def Role.kind? : Role → Option Kind
  | .silent => some .strategyConfig
  | .action a => some (Lower.actionKind a)
  | .loop => some .forEach
  | .branch _ => some .conditional
  | .unusable => none

theorem Node.kind?_of_role {n : Node} {kind : Kind} (h : n.config.role.kind? = some kind) :
    n.kind? = some kind := by
  rw [← h, kind?]
  cases hc : n.config with
  | bare => simp [hc, NodeConfig.role, Role.kind?] at h
  | draft s => simp [hc, NodeConfig.role, Role.kind?] at h
  | sealed s => cases s <;> rfl

section Kinds

variable {n : Node}

theorem Node.kind?_of_silent (h : n.config.role = .silent) : n.kind? = some .strategyConfig :=
  kind?_of_role (by rw [h]; rfl)

theorem Node.kind?_of_action {a : Action} (h : n.config.role = .action a) :
    n.kind? = some (Lower.actionKind a) :=
  kind?_of_role (by rw [h]; rfl)

theorem Node.kind?_of_loop (h : n.config.role = .loop) : n.kind? = some .forEach :=
  kind?_of_role (by rw [h]; rfl)

theorem Node.kind?_of_branch {c : Conditional} (h : n.config.role = .branch c) :
    n.kind? = some .conditional :=
  kind?_of_role (by rw [h]; rfl)

end Kinds

theorem Lower.followed_actionKind (a : Action) : (actionKind a).followed = ["exec"] := by
  cases a <;> rfl

namespace Graph

/-- One step of control: the first connection that leaves an output leads to a node of the graph,
and control goes on from an output that is followed behind the node. -/
def Follow (g : Graph) (a b : OutputRef) : Prop :=
  ∃ n kind, g.next? a = some n ∧ n.kind? = some kind ∧ b.node = n.id ∧ b.output ∈ kind.followed

/-- Control gets from one output to another. -/
abbrev Reaches (g : Graph) : OutputRef → OutputRef → Prop := ReflTransGen g.Follow

/-- Control comes back to an output. -/
def OnCycle (g : Graph) (ref : OutputRef) : Prop := TransGen g.Follow ref ref

variable {g : Graph} {ref : OutputRef} {n : Node}

theorem not_follow_of_next?_eq_none (h : g.next? ref = none) (b : OutputRef) :
    ¬ g.Follow ref b := by
  rintro ⟨n, kind, hn, -⟩
  rw [h] at hn
  cases hn

/-- The steps from an output, by the kind of the node that it reaches. -/
theorem follow_iff {kind : Kind} (hn : g.next? ref = some n) (hk : n.kind? = some kind)
    {b : OutputRef} : g.Follow ref b ↔ ∃ o ∈ kind.followed, b = ⟨n.id, o⟩ := by
  constructor
  · rintro ⟨m, kind', hm, hk', hnode, ho⟩
    rw [hn, Option.some.injEq] at hm
    subst hm
    rw [hk, Option.some.injEq] at hk'
    subst hk'
    exact ⟨b.output, ho, by rw [← hnode]⟩
  · rintro ⟨o, ho, rfl⟩
    exact ⟨n, kind, hn, hk, rfl, ho⟩

theorem follow_iff_of_silent (hn : g.next? ref = some n) (hr : n.config.role = .silent)
    {b : OutputRef} : g.Follow ref b ↔ b = ⟨n.id, "exec"⟩ := by
  rw [follow_iff hn (Node.kind?_of_silent hr)]
  simp [Kind.followed]

theorem follow_iff_of_action {a : Action} (hn : g.next? ref = some n)
    (hr : n.config.role = .action a) {b : OutputRef} :
    g.Follow ref b ↔ b = ⟨n.id, "exec"⟩ := by
  rw [follow_iff hn (Node.kind?_of_action hr), Lower.followed_actionKind]
  simp

theorem follow_iff_of_loop (hn : g.next? ref = some n) (hr : n.config.role = .loop)
    {b : OutputRef} : g.Follow ref b ↔ b = ⟨n.id, "loopBody"⟩ ∨ b = ⟨n.id, "done"⟩ := by
  rw [follow_iff hn (Node.kind?_of_loop hr)]
  simp [Kind.followed]

theorem follow_iff_of_branch {c : Conditional} (hn : g.next? ref = some n)
    (hr : n.config.role = .branch c) {b : OutputRef} :
    g.Follow ref b ↔ b = ⟨n.id, "true"⟩ ∨ b = ⟨n.id, "false"⟩ := by
  rw [follow_iff hn (Node.kind?_of_branch hr)]
  simp [Kind.followed]

/-! ## The unfolding, by the node that is reached -/

variable {active : List OutputRef}

theorem controlFrom_of_next? (ha : ref ∉ active) (hn : g.next? ref = some n) :
    g.controlFrom active ref =
      match n.config.role with
      | .unusable => .unusable n
      | .silent => .silent n (g.controlFrom (ref :: active) ⟨n.id, "exec"⟩)
      | .action a => .action n a (g.controlFrom (ref :: active) ⟨n.id, "exec"⟩)
      | .loop =>
        .loop n (g.controlFrom (ref :: active) ⟨n.id, "loopBody"⟩)
          (if (g.controlFrom (ref :: active) ⟨n.id, "loopBody"⟩).isComplete then
            g.controlFrom (ref :: active) ⟨n.id, "done"⟩ else .stop)
      | .branch c =>
        .branch n c (g.controlFrom (ref :: active) ⟨n.id, "true"⟩)
          (if (g.controlFrom (ref :: active) ⟨n.id, "true"⟩).isComplete then
            g.controlFrom (ref :: active) ⟨n.id, "false"⟩ else .stop) := by
  rw [controlFrom, dif_neg ha]
  split
  · next hnone =>
    rw [hn] at hnone
    cases hnone
  · next m hm =>
    rw [hn, Option.some.injEq] at hm
    subst hm
    rfl

theorem controlFrom_of_next?_eq_none (ha : ref ∉ active) (hn : g.next? ref = none) :
    g.controlFrom active ref = .stop := by
  rw [controlFrom, dif_neg ha]
  split
  · rfl
  · next m hm =>
    rw [hn] at hm
    cases hm

/-! ## Flows that were unfolded to their end -/

/-- The flow from an output, unfolded to its end. -/
inductive Unfolds (g : Graph) : OutputRef → Control → Prop where
  | stop {ref : OutputRef} (hn : g.next? ref = none) : Unfolds g ref .stop
  | silent {ref : OutputRef} {n : Node} {rest : Control} (hn : g.next? ref = some n)
      (hr : n.config.role = .silent) (hrest : Unfolds g ⟨n.id, "exec"⟩ rest) :
      Unfolds g ref (.silent n rest)
  | action {ref : OutputRef} {n : Node} {a : Action} {rest : Control} (hn : g.next? ref = some n)
      (hr : n.config.role = .action a) (hrest : Unfolds g ⟨n.id, "exec"⟩ rest) :
      Unfolds g ref (.action n a rest)
  | loop {ref : OutputRef} {n : Node} {body rest : Control} (hn : g.next? ref = some n)
      (hr : n.config.role = .loop) (hbody : Unfolds g ⟨n.id, "loopBody"⟩ body)
      (hrest : Unfolds g ⟨n.id, "done"⟩ rest) : Unfolds g ref (.loop n body rest)
  | branch {ref : OutputRef} {n : Node} {c : Conditional} {yes no : Control}
      (hn : g.next? ref = some n) (hr : n.config.role = .branch c)
      (hyes : Unfolds g ⟨n.id, "true"⟩ yes) (hno : Unfolds g ⟨n.id, "false"⟩ no) :
      Unfolds g ref (.branch n c yes no)

/-- The flow from an output is determined by the graph. -/
theorem Unfolds.unique {flow flow' : Control} (h : g.Unfolds ref flow) (h' : g.Unfolds ref flow') :
    flow = flow' := by
  -- the node that is reached, and its part, decide which rule made the other flow
  induction h generalizing flow' with
  | stop hn => cases h' <;> grind
  | silent hn hr _ ih => cases h' <;> grind
  | action hn hr _ ih => cases h' <;> grind
  | loop hn hr _ _ ihbody ihrest => cases h' <;> grind
  | branch hn hr _ _ ihyes ihno => cases h' <;> grind

theorem unfolds_controlFrom {active : List OutputRef}
    (h : (g.controlFrom active ref).isComplete = true) :
    g.Unfolds ref (g.controlFrom active ref) := by
  fun_induction controlFrom g active ref with
  | case1 active ref ha => simp [Control.isComplete] at h
  | case2 active ref ha hn => exact .stop hn
  | case3 active ref ha n hn hr => simp [Control.isComplete] at h
  | case4 active ref ha n hn hr ih => exact .silent hn hr (ih h)
  | case5 active ref ha n hn a hr ih => exact .action hn hr (ih h)
  | case6 active ref ha n hn hr body ihbody ihrest =>
    -- what follows the loop is unfolded only behind a complete body
    obtain ⟨hbody, hrest⟩ := Bool.and_eq_true_iff.1 h
    rw [if_pos hbody] at hrest ⊢
    exact .loop hn hr (ihbody hbody) (ihrest hrest)
  | case7 active ref ha n hn c hr yes ihyes ihno =>
    obtain ⟨hyes, hno⟩ := Bool.and_eq_true_iff.1 h
    rw [if_pos hyes] at hno ⊢
    exact .branch hn hr (ihyes hyes) (ihno hno)

/-- Every sequence of steps from the output ends. -/
theorem Unfolds.acc {flow : Control} (h : g.Unfolds ref flow) :
    Acc (fun a b => g.Follow b a) ref := by
  induction h with
  | stop hn => exact ⟨_, fun b hb => absurd hb (not_follow_of_next?_eq_none hn b)⟩
  | silent hn hr _ ih => exact ⟨_, fun b hb => (follow_iff_of_silent hn hr).1 hb ▸ ih⟩
  | action hn hr _ ih => exact ⟨_, fun b hb => (follow_iff_of_action hn hr).1 hb ▸ ih⟩
  | loop hn hr _ _ ihbody ihrest =>
    refine ⟨_, fun b hb => ?_⟩
    rcases (follow_iff_of_loop hn hr).1 hb with rfl | rfl
    · exact ihbody
    · exact ihrest
  | branch hn hr _ _ ihyes ihno =>
    refine ⟨_, fun b hb => ?_⟩
    rcases (follow_iff_of_branch hn hr).1 hb with rfl | rfl
    · exact ihyes
    · exact ihno

/-- Control that always ends does not come back to an output that it gets to. -/
theorem not_onCycle_of_acc (h : Acc (fun a b => g.Follow b a) ref) {p : OutputRef}
    (hp : g.Reaches ref p) : ¬ g.OnCycle p := by
  induction h generalizing p with
  | intro ref _ ih =>
    rcases ReflTransGen.cases_head hp with rfl | ⟨b, hb, hbp⟩
    · -- the next output of a cycle lies on the same cycle
      intro hcycle
      obtain ⟨b, hb, hback⟩ := TransGen.head'_iff.1 hcycle
      exact ih b hb hback hcycle
    · exact ih b hb hbp

theorem Unfolds.no_cycle {flow : Control} (h : g.Unfolds ref flow) {p : OutputRef}
    (hp : g.Reaches ref p) : ¬ g.OnCycle p :=
  not_onCycle_of_acc h.acc hp

/-! ## Flows that were cut -/

end Graph

/-- `flow.CutAt ref`: lowered in order, the flow first comes to a cycle at an output. -/
inductive Control.CutAt : Control → OutputRef → Prop where
  | here {ref : OutputRef} : CutAt (.cycle ref) ref
  | silent {n : Node} {rest : Control} {ref : OutputRef} (h : CutAt rest ref) :
      CutAt (.silent n rest) ref
  | action {n : Node} {a : Action} {rest : Control} {ref : OutputRef} (h : CutAt rest ref) :
      CutAt (.action n a rest) ref
  | body {n : Node} {body rest : Control} {ref : OutputRef} (h : CutAt body ref) :
      CutAt (.loop n body rest) ref
  | rest {n : Node} {body rest : Control} {ref : OutputRef} (hbody : body.isComplete = true)
      (h : CutAt rest ref) : CutAt (.loop n body rest) ref
  | yes {n : Node} {c : Conditional} {yes no : Control} {ref : OutputRef} (h : CutAt yes ref) :
      CutAt (.branch n c yes no) ref
  | no {n : Node} {c : Conditional} {yes no : Control} {ref : OutputRef}
      (hyes : yes.isComplete = true) (h : CutAt no ref) : CutAt (.branch n c yes no) ref

namespace Graph

variable {g : Graph} {ref : OutputRef}

/-- The node that control reaches is a node of the graph. -/
theorem mem_nodes_of_next? {n : Node} (h : g.next? ref = some n) : n ∈ g.nodes := by
  obtain ⟨c, -, hc⟩ := Option.bind_eq_some_iff.1 h
  exact List.mem_of_find?_eq_some hc

theorem transGen_of_mem_cons {active : List OutputRef} {b : OutputRef}
    (hactive : ∀ a ∈ active, TransGen g.Follow a ref) (hstep : g.Follow ref b) :
    ∀ a ∈ ref :: active, TransGen g.Follow a b := by
  intro a ha
  rcases List.mem_cons.1 ha with rfl | ha
  · exact .single hstep
  · exact (hactive a ha).tail hstep

/-- The outputs being followed lead to the one that is unfolded next, so coming back to one of them
closes a cycle. -/
theorem exists_cut_controlFrom (hg : ∀ n ∈ g.nodes, n.config.role ≠ .unusable)
    {active : List OutputRef} (hactive : ∀ a ∈ active, TransGen g.Follow a ref)
    (h : (g.controlFrom active ref).isComplete = false) :
    ∃ p, (g.controlFrom active ref).CutAt p ∧ g.Reaches ref p ∧ g.OnCycle p := by
  -- along the unfolding `hactive` is kept: a step adds the output that it leaves
  fun_induction controlFrom g active ref with
  | case1 active ref ha => exact ⟨ref, .here, .refl, hactive ref ha⟩
  | case2 active ref ha hn => simp [Control.isComplete] at h
  | case3 active ref ha n hn hr => exact absurd hr (hg n (mem_nodes_of_next? hn))
  | case4 active ref ha n hn hr ih =>
    have hstep := (follow_iff_of_silent hn hr).2 rfl
    obtain ⟨p, hcut, hreach, hcycle⟩ := ih (transGen_of_mem_cons hactive hstep) h
    exact ⟨p, .silent hcut, hreach.head hstep, hcycle⟩
  | case5 active ref ha n hn a hr ih =>
    have hstep := (follow_iff_of_action hn hr).2 rfl
    obtain ⟨p, hcut, hreach, hcycle⟩ := ih (transGen_of_mem_cons hactive hstep) h
    exact ⟨p, .action hcut, hreach.head hstep, hcycle⟩
  | case6 active ref ha n hn hr body ihbody ihrest =>
    cases hbody : body.isComplete with
    | false =>
      -- a cut in the body comes before whatever follows the loop
      have hstep := (follow_iff_of_loop hn hr).2 (.inl rfl)
      obtain ⟨p, hcut, hreach, hcycle⟩ := ihbody (transGen_of_mem_cons hactive hstep) hbody
      exact ⟨p, .body hcut, hreach.head hstep, hcycle⟩
    | true =>
      have hstep := (follow_iff_of_loop hn hr).2 (.inr rfl)
      simp only [Control.isComplete, hbody, if_true, Bool.true_and] at h ⊢
      obtain ⟨p, hcut, hreach, hcycle⟩ := ihrest (transGen_of_mem_cons hactive hstep) h
      exact ⟨p, .rest hbody hcut, hreach.head hstep, hcycle⟩
  | case7 active ref ha n hn c hr yes ihyes ihno =>
    cases hyes : yes.isComplete with
    | false =>
      have hstep := (follow_iff_of_branch hn hr).2 (.inl rfl)
      obtain ⟨p, hcut, hreach, hcycle⟩ := ihyes (transGen_of_mem_cons hactive hstep) hyes
      exact ⟨p, .yes hcut, hreach.head hstep, hcycle⟩
    | true =>
      have hstep := (follow_iff_of_branch hn hr).2 (.inr rfl)
      simp only [Control.isComplete, hyes, if_true, Bool.true_and] at h ⊢
      obtain ⟨p, hcut, hreach, hcycle⟩ := ihno (transGen_of_mem_cons hactive hstep) h
      exact ⟨p, .no hyes hcut, hreach.head hstep, hcycle⟩

end Graph

/-! ## The nodes of a flow -/

namespace Control

/-- The nodes of a flow, each as often as it occurs, in the order in which their code is
complete. -/
def occurrences : Control → List Node
  | .stop => []
  | .cycle _ => []
  | .unusable n => [n]
  | .silent n rest => n :: rest.occurrences
  | .action n _ rest => n :: rest.occurrences
  | .loop n body rest => body.occurrences ++ n :: rest.occurrences
  | .branch n _ yes no => yes.occurrences ++ no.occurrences ++ [n]

/-- The ids of the nodes of a flow, each as often as the node occurs. -/
def ids (flow : Control) : List String := flow.occurrences.map (·.id)

/-- Every action of a flow satisfies a condition. -/
def AllActions (P : Node → Action → Prop) : Control → Prop
  | .stop => True
  | .cycle _ => True
  | .unusable _ => True
  | .silent _ rest => rest.AllActions P
  | .action n a rest => P n a ∧ rest.AllActions P
  | .loop _ body rest => body.AllActions P ∧ rest.AllActions P
  | .branch _ _ yes no => yes.AllActions P ∧ no.AllActions P

section Ids

variable {n : Node} {a : Action} {c : Conditional} {body rest yes no : Control} {id : String}

@[simp] theorem not_mem_ids_stop : id ∉ stop.ids := List.not_mem_nil

@[simp] theorem mem_ids_silent : id ∈ (silent n rest).ids ↔ id = n.id ∨ id ∈ rest.ids :=
  List.mem_cons

@[simp] theorem mem_ids_action : id ∈ (action n a rest).ids ↔ id = n.id ∨ id ∈ rest.ids :=
  List.mem_cons

@[simp] theorem mem_ids_loop :
    id ∈ (loop n body rest).ids ↔ id = n.id ∨ id ∈ body.ids ∨ id ∈ rest.ids := by
  rw [ids, occurrences, List.map_append, List.mem_append, List.map_cons, List.mem_cons]
  exact or_left_comm

@[simp] theorem mem_ids_branch :
    id ∈ (branch n c yes no).ids ↔ id = n.id ∨ id ∈ yes.ids ∨ id ∈ no.ids := by
  rw [ids, occurrences, List.map_append, List.mem_append, List.map_append, List.mem_append,
    List.map_singleton, List.mem_singleton]
  exact or_comm

end Ids

end Control

namespace Graph

variable {g : Graph} {ref : OutputRef} {n m : Node}

theorem allActions_controlFrom {P : Node → Action → Prop}
    (h : ∀ n ∈ g.nodes, ∀ a, n.config.role = .action a → P n a) (active : List OutputRef)
    (ref : OutputRef) : (g.controlFrom active ref).AllActions P := by
  fun_induction controlFrom g active ref with
  | case1 => trivial
  | case2 => trivial
  | case3 => trivial
  | case4 active ref ha n hn hr ih => exact ih
  | case5 active ref ha n hn a hr ih => exact ⟨h n (mem_nodes_of_next? hn) a hr, ih⟩
  | case6 active ref ha n hn hr body ihbody ihrest =>
    refine ⟨ihbody, ?_⟩
    split
    · exact ihrest
    · trivial
  | case7 active ref ha n hn c hr yes ihyes ihno =>
    refine ⟨ihyes, ?_⟩
    split
    · exact ihno
    · trivial

/-- Control that leaves an output gets to a node. -/
def Visits (g : Graph) (ref : OutputRef) (m : Node) : Prop :=
  ∃ p, g.Reaches ref p ∧ g.next? p = some m

theorem visits_iff : g.Visits ref m ↔ g.next? ref = some m ∨ ∃ b, g.Follow ref b ∧ g.Visits b m := by
  constructor
  · rintro ⟨p, hp, hm⟩
    rcases ReflTransGen.cases_head hp with rfl | ⟨b, hb, hbp⟩
    · exact .inl hm
    · exact .inr ⟨b, hb, p, hbp, hm⟩
  · rintro (hm | ⟨b, hb, p, hbp, hm⟩)
    · exact ⟨ref, .refl, hm⟩
    · exact ⟨p, hbp.head hb, hm⟩

theorem not_visits_of_next?_eq_none (h : g.next? ref = none) : ¬ g.Visits ref m := by
  rw [visits_iff, h]
  simp [not_follow_of_next?_eq_none h]

theorem visits_iff_of_silent (hn : g.next? ref = some n) (hr : n.config.role = .silent) :
    g.Visits ref m ↔ m = n ∨ g.Visits ⟨n.id, "exec"⟩ m := by
  rw [visits_iff, hn, Option.some.injEq, eq_comm]
  simp [follow_iff_of_silent hn hr]

theorem visits_iff_of_action {a : Action} (hn : g.next? ref = some n)
    (hr : n.config.role = .action a) : g.Visits ref m ↔ m = n ∨ g.Visits ⟨n.id, "exec"⟩ m := by
  rw [visits_iff, hn, Option.some.injEq, eq_comm]
  simp [follow_iff_of_action hn hr]

theorem visits_iff_of_loop (hn : g.next? ref = some n) (hr : n.config.role = .loop) :
    g.Visits ref m ↔ m = n ∨ g.Visits ⟨n.id, "loopBody"⟩ m ∨ g.Visits ⟨n.id, "done"⟩ m := by
  rw [visits_iff, hn, Option.some.injEq, eq_comm]
  simp [follow_iff_of_loop hn hr]

theorem visits_iff_of_branch {c : Conditional} (hn : g.next? ref = some n)
    (hr : n.config.role = .branch c) :
    g.Visits ref m ↔ m = n ∨ g.Visits ⟨n.id, "true"⟩ m ∨ g.Visits ⟨n.id, "false"⟩ m := by
  rw [visits_iff, hn, Option.some.injEq, eq_comm]
  simp [follow_iff_of_branch hn hr]

/-- The nodes of a complete flow are the nodes that control gets to. -/
theorem Unfolds.mem_occurrences_iff {flow : Control} (h : g.Unfolds ref flow) {m : Node} :
    m ∈ flow.occurrences ↔ g.Visits ref m := by
  induction h with
  | stop hn => simp [Control.occurrences, not_visits_of_next?_eq_none hn]
  | silent hn hr _ ih =>
    rw [visits_iff_of_silent hn hr, ← ih]
    exact List.mem_cons
  | action hn hr _ ih =>
    rw [visits_iff_of_action hn hr, ← ih]
    exact List.mem_cons
  | loop hn hr _ _ ihbody ihrest =>
    rw [visits_iff_of_loop hn hr, ← ihbody, ← ihrest]
    simp [Control.occurrences, or_left_comm]
  | branch hn hr _ _ ihyes ihno =>
    rw [visits_iff_of_branch hn hr, ← ihyes, ← ihno]
    simp only [Control.occurrences, List.mem_append, List.mem_singleton]
    exact or_comm

end Graph

end TradeFlow
