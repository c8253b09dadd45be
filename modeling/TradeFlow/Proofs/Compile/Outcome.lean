import TradeFlow.Compile.Basic
import TradeFlow.Proofs.Compile.Lowering
import TradeFlow.Proofs.Graph.WellFormed
import TradeFlow.Proofs.Program.Factors

/-!
How a compilation ends.

Graphs are of any form here: ids may repeat, and connections may lead nowhere, leave an output
twice or close cycles. Only the settings are sealed. What is proved:

1. `Graph.compile_cases`: if every action can be lowered, a graph with a root either closes a cycle
   that can be reached, or its flow unfolds to the end and becomes a block.
2. `Graph.compile_outcome_iff`: with finite percentages the outcome is decided by what control
   reaches from the root.

An action can always be lowered, except for an order with a connected entry price and a percentage
that is not finite (`lowerable_of_finite`).
-/

namespace TradeFlow

open Lower

/-! ## Actions -/

/-- An action can be lowered unless it is an order whose entry price is known while a percentage is
not finite. -/
theorem lowerable_of_finite {links : List Link} {n : Node} {a : Action}
    (h : ∀ s, a = .placeOrder s → ∀ known entry, input? links known n "entryPrice" = some entry →
      s.stopLossPercent.isFinite = true ∧ s.takeProfitPercent.isFinite = true) :
    Lowerable links n a := by
  intro known
  cases a with
  | fetchShortlist s => exact ⟨_, rfl⟩
  | fetchShortlistPersistence s => exact ⟨_, rfl⟩
  | fetchCandles s => exact ⟨_, rfl⟩
  | fetchQuote s => exact ⟨_, rfl⟩
  | fetchDates => exact ⟨_, rfl⟩
  | fetchHolidays => exact ⟨_, rfl⟩
  | placeOrder s =>
    simp only [Lower.action, order]
    split
    · -- the legs of the order are computed from the percentages only behind an entry price
      next entry _ hentry =>
      obtain ⟨hstop, hprofit⟩ := h s rfl _ _ hentry
      obtain ⟨below, hbelow, -⟩ := exists_percentFactor hstop .below
      obtain ⟨above, habove, -⟩ := exists_percentFactor hprofit .above
      simp only [legs, hbelow, habove]
      exact ⟨_, rfl⟩
    · exact ⟨_, rfl⟩
    · exact ⟨_, rfl⟩

/-- Where no edge ends at an entry price, none is known. -/
theorem input?_entryPrice_eq_none {links : List Link}
    (h : ∀ l ∈ links, l.targetInput ≠ "entryPrice") (known : Known) (n : Node) :
    input? links known n "entryPrice" = none := by
  have hfind : links.find? (·.head == ⟨n.id, "entryPrice"⟩) = none := by
    rw [List.find?_eq_none]
    intro l hl hhead
    exact h l hl (congrArg InputRef.input (by simpa using hhead))
  rw [input?, Scope.input?, hfind]
  rfl

theorem lowerable_of_no_entryPrice {links : List Link}
    (h : ∀ l ∈ links, l.targetInput ≠ "entryPrice") (n : Node) (a : Action) :
    Lowerable links n a := by
  refine lowerable_of_finite fun s _ known entry hentry => ?_
  rw [input?_entryPrice_eq_none h] at hentry
  cases hentry

/-- The edges of a graph. -/
def Graph.links (g : Graph) : List Link := g.connections.map (·.toLink)

/-- A node with the settings that its kind starts with. -/
def Node.ofKind (id : String) (kind : Kind) : Node := ⟨id, ⟨0, 0⟩, .sealed (.default kind)⟩

/-! ## Empty flows -/

variable {links : List Link} {flow : Control} {known known' : Known} {block : Block}

theorem Lowered.length_eq_zero_iff (h : Lowered links flow known known' block) :
    block.length = 0 ↔ flow.emissions = [] := by
  induction h with
  | stop => simp [Block.length, Control.emissions]
  | silent _ ih => exact ih
  | action _ _ _ => simp [Block.length, Control.emissions]
  | loop _ _ _ _ => simp [Block.length, Control.emissions]
  | branch _ _ _ _ => simp [Block.length, Control.emissions]

namespace Graph

variable {g : Graph} {ref : OutputRef} {root : Node} {settings : StrategyConfig}

/-- The nodes of a complete flow that become code are all but the strategy settings. -/
theorem Unfolds.mem_emissions_iff (h : g.Unfolds ref flow) {m : Node} :
    m ∈ flow.emissions ↔ m ∈ flow.occurrences ∧ m.kind? ≠ some .strategyConfig := by
  induction h with
  | stop hn => simp [Control.emissions, Control.occurrences]
  | @silent _ n _ hn hr _ ih =>
    have hk := Node.kind?_of_silent hr
    rw [Control.emissions, Control.occurrences, ih, List.mem_cons, or_and_right]
    refine (or_iff_right ?_).symm
    rintro ⟨rfl, hne⟩
    exact hne hk
  | @action _ n a _ hn hr _ ih =>
    have hk := Node.kind?_of_action hr
    have hne : n.kind? ≠ some .strategyConfig := by
      rw [hk]
      cases a <;> simp [actionKind]
    rw [Control.emissions, Control.occurrences, List.mem_cons, ih, List.mem_cons, or_and_right]
    refine or_congr_left ⟨fun he => ⟨he, he ▸ hne⟩, And.left⟩
  | @loop _ n _ _ hn hr _ _ ihbody ihrest =>
    have hk := Node.kind?_of_loop hr
    have hne : n.kind? ≠ some .strategyConfig := by simp [hk]
    rw [Control.emissions, Control.occurrences, List.mem_append, List.mem_cons, ihbody, ihrest,
      List.mem_append, List.mem_cons, or_and_right, or_and_right]
    refine or_congr_right (or_congr_left ⟨fun he => ⟨he, he ▸ hne⟩, And.left⟩)
  | @branch _ n _ _ _ hn hr _ _ ihyes ihno =>
    have hk := Node.kind?_of_branch hr
    have hne : n.kind? ≠ some .strategyConfig := by simp [hk]
    rw [Control.emissions, Control.occurrences, List.mem_append, List.mem_append, ihyes, ihno,
      List.mem_append, List.mem_append, List.mem_singleton, or_and_right, or_and_right]
    refine or_congr_right ⟨fun he => ⟨he, he ▸ hne⟩, And.left⟩

/-- Control only asks for the two ends of a connection. -/
theorem next?_eq_links (g : Graph) (ref : OutputRef) :
    g.next? ref = (g.links.find? (·.tail == ref)).bind fun l => g.node? l.target := by
  rw [next?, leaving?, links, List.find?_map, Option.bind_map]
  rfl

/-! ## The root -/

/-- The first node that carries strategy settings. -/
def firstConfig? (g : Graph) : Option Node :=
  g.nodes.find? fun n => n.kind? == some .strategyConfig

/-- Among sealed settings the root is the first node with strategy settings. -/
theorem root?_map_fst (hg : ∀ n ∈ g.nodes, n.IsSealed) :
    g.root?.map Prod.fst = g.firstConfig? := by
  obtain ⟨nodes, connections⟩ := g
  simp only [root?, firstConfig?]
  induction nodes with
  | nil => rfl
  | cons n nodes ih =>
    have ih := ih fun m hm => hg m (List.mem_cons_of_mem n hm)
    obtain ⟨s, hs⟩ := hg n List.mem_cons_self
    have hk : n.kind? = some s.kind := by rw [Node.kind?, hs]; rfl
    rw [List.findSome?_cons, List.find?_cons, hs, hk]
    cases s with
    | strategyConfig settings => rfl
    | _ => exact ih

theorem exists_root? (hg : ∀ n ∈ g.nodes, n.IsSealed) (h : g.firstConfig? = some root) :
    ∃ settings, g.root? = some (root, settings) := by
  rw [← root?_map_fst hg] at h
  obtain ⟨⟨n, settings⟩, hroot, rfl⟩ := Option.map_eq_some_iff.1 h
  exact ⟨settings, hroot⟩

theorem root?_eq_none_iff (hg : ∀ n ∈ g.nodes, n.IsSealed) :
    g.root? = none ↔ ∀ n ∈ g.nodes, n.kind? ≠ some .strategyConfig := by
  rw [← Option.map_eq_none_iff (f := Prod.fst), root?_map_fst hg, firstConfig?, List.find?_eq_none]
  simp

theorem root?_eq_some (h : g.root? = some (root, settings)) :
    root ∈ g.nodes ∧ root.config = .sealed (.strategyConfig settings) := by
  obtain ⟨n, hn, hsome⟩ := List.exists_of_findSome?_eq_some h
  split at hsome
  · next s hs =>
    cases hsome
    exact ⟨hn, hs⟩
  · cases hsome

/-- The settings of the root come from the node. -/
theorem root?_eq_of_firstConfig? {g' : Graph} (hg : ∀ n ∈ g.nodes, n.IsSealed)
    (hg' : ∀ n ∈ g'.nodes, n.IsSealed) (h : g'.firstConfig? = g.firstConfig?) :
    g'.root? = g.root? := by
  cases hfirst : g.firstConfig? with
  | none =>
    rw [hfirst, ← root?_map_fst hg', Option.map_eq_none_iff] at h
    rw [← root?_map_fst hg, Option.map_eq_none_iff] at hfirst
    rw [h, hfirst]
  | some root =>
    obtain ⟨settings, hroot⟩ := exists_root? hg hfirst
    obtain ⟨settings', hroot'⟩ := exists_root? hg' (h.trans hfirst)
    have hconfig := (root?_eq_some hroot).2
    rw [(root?_eq_some hroot').2] at hconfig
    cases hconfig
    rw [hroot, hroot']

/-- The root is a node of the graph with strategy settings. -/
theorem mem_of_root? (hg : ∀ n ∈ g.nodes, n.IsSealed) (h : g.root? = some (root, settings)) :
    root ∈ g.nodes ∧ root.kind? = some .strategyConfig := by
  have hfirst : g.firstConfig? = some root := by
    rw [← root?_map_fst hg, h]
    rfl
  exact ⟨List.mem_of_find?_eq_some hfirst, by simpa using List.find?_some hfirst⟩

/-! ## Outcomes -/

theorem compile_of_no_root (h : g.root? = none) :
    g.compile.result = .error (.failed .noConfigNode) := by
  simp only [compile, h]
  rfl

theorem compile_of_root (h : g.root? = some (root, settings)) :
    g.compile.result = (g.lowerFrom root settings).result ∧
      g.compile.events = (g.lowerFrom root settings).events := by
  unfold compile
  rw [h]
  exact ⟨rfl, rfl⟩

/-- Where the program of any graph comes from: the flow from the root was unfolded to its end and
became its body, which is not empty. -/
theorem compiled_cases {p : Program} (h : g.compile.result = .ok p) :
    ∃ root settings flow known, g.root? = some (root, settings) ∧ g.Unfolds (start root) flow ∧
      Lowered g.links flow (initialScope root) known p.body ∧ p.body.length ≠ 0 ∧
      p = { configNode := root.id, settings, capabilities := known.capabilities, body := p.body } := by
  cases hroot : g.root? with
  | none => simp [compile_of_no_root hroot] at h
  | some found =>
    obtain ⟨root, settings⟩ := found
    rw [(compile_of_root hroot).1, lowerFrom, ← links, Run.bind_eq_ok] at h
    obtain ⟨⟨known, block⟩, hlower, hp⟩ := h
    have hlow := lowered_of_lower hlower
    dsimp only at hp
    split at hp
    · cases hp
    · next hne =>
      cases hp
      exact ⟨root, settings, _, known, rfl, unfolds_controlFrom hlow.isComplete, hlow, hne, rfl⟩

theorem role_ne_unusable (hg : ∀ n ∈ g.nodes, n.IsSealed) :
    ∀ n ∈ g.nodes, n.config.role ≠ .unusable := by
  intro n hn
  obtain ⟨s, hs⟩ := hg n hn
  rw [hs]
  cases s <;> simp [NodeConfig.role]

/-- What a node does in control flow comes from its settings; strategy settings do nothing. -/
theorem config_eq_of_role {n : Node} {s : Settings}
    (h : n.config.role = (NodeConfig.sealed s).role)
    (hs : (NodeConfig.sealed s).role ≠ .silent) : n.config = .sealed s := by
  generalize n.config = config at h ⊢
  cases config with
  | bare => cases s <;> cases h
  | draft t => cases s <;> cases h
  | sealed t =>
    cases s with
    | strategyConfig s => exact absurd rfl hs
    | _ =>
      cases t <;> cases h
      rfl

/-- Control from the root closes a cycle, or it unfolds to its end and becomes a block; the program
is the block unless it is empty. -/
theorem compile_cases (hg : ∀ n ∈ g.nodes, n.IsSealed)
    (ha : ∀ n ∈ g.nodes, ∀ a, n.config.role = .action a → Lowerable g.links n a)
    (hroot : g.root? = some (root, settings)) :
    (∃ ref, g.compile.result = .error (.failed (.cycle ref)) ∧ g.Reaches (start root) ref ∧
      g.OnCycle ref) ∨
    ∃ flow known block, g.Unfolds (start root) flow ∧
      Lowered g.links flow (initialScope root) known block ∧
      emittedNodes g.compile.events = flow.emissions.map (·.id) ∧
      g.compile.result =
        if block.length = 0 then .error (.failed .emptyChain)
        else .ok { configNode := root.id, settings, capabilities := known.capabilities,
                   body := block } := by
  obtain ⟨hresult, hevents⟩ := compile_of_root hroot
  have hall := allActions_controlFrom ha [] (start root)
  cases hflow : (g.controlFrom [] (start root)).isComplete with
  | false =>
    left
    obtain ⟨ref, hcut, hreach, hcycle⟩ :=
      exists_cut_controlFrom (role_ne_unusable hg) (by simp) hflow
    refine ⟨ref, ?_, hreach, hcycle⟩
    rw [hresult]
    exact Run.result_bind_of_error (lower_eq_error_of_cutAt hcut hall _)
  | true =>
    right
    obtain ⟨known, block, hlow⟩ := exists_lowered hflow hall (initialScope root)
    refine ⟨_, known, block, unfolds_controlFrom hflow, hlow, ?_, ?_⟩
    · rw [hevents, lowerFrom, ← links, emittedNodes_bind (lower_eq_ok hlow), emittedNodes_lower hlow]
      dsimp only
      split <;> exact List.append_nil _
    · rw [hresult, lowerFrom, ← links, Run.bind_of_ok (lower_eq_ok hlow)]
      dsimp only
      split <;> rfl

theorem compile_ne_noConfigNode (hg : ∀ n ∈ g.nodes, n.IsSealed)
    (ha : ∀ n ∈ g.nodes, ∀ a, n.config.role = .action a → Lowerable g.links n a)
    (hroot : g.root? = some (root, settings)) :
    g.compile.result ≠ .error (.failed .noConfigNode) := by
  rcases compile_cases hg ha hroot with ⟨ref, h, -⟩ | ⟨flow, known, block, -, -, -, h⟩
  · simp [h]
  · rw [h]
    split <;> simp

/-- A flow that has an end becomes a program if a node of it becomes code. -/
theorem exists_compiled (hg : ∀ n ∈ g.nodes, n.IsSealed)
    (ha : ∀ n ∈ g.nodes, ∀ a, n.config.role = .action a → Lowerable g.links n a)
    (hroot : g.root? = some (root, settings)) (hflow : g.Unfolds (start root) flow)
    (hne : flow.emissions ≠ []) : ∃ p, g.compile.result = .ok p := by
  rcases compile_cases hg ha hroot with
    ⟨ref, -, hreach, hcycle⟩ | ⟨flow', known, block, hflow', hlow, -, hresult⟩
  · exact absurd hcycle (hflow.no_cycle hreach)
  · obtain rfl := hflow.unique hflow'
    rw [if_neg (mt hlow.length_eq_zero_iff.1 hne)] at hresult
    exact ⟨_, hresult⟩

/-- Finite percentages let every action of a graph be lowered. -/
theorem lowerable_of_finite_percentages
    (hfinite : ∀ n ∈ g.nodes, ∀ s, n.config = .sealed (.placeOrder s) →
      s.stopLossPercent.isFinite = true ∧ s.takeProfitPercent.isFinite = true) :
    ∀ n ∈ g.nodes, ∀ a, n.config.role = .action a → Lowerable g.links n a := by
  intro n hn a hr
  refine lowerable_of_finite ?_
  rintro s rfl _ _ -
  exact hfinite n hn s (config_eq_of_role (s := .placeOrder s) hr (by simp [NodeConfig.role]))

/-- A complete flow becomes an empty block exactly when control meets strategy settings only. -/
theorem Unfolds.length_eq_zero_iff (h : g.Unfolds ref flow)
    (hlow : Lowered links flow known known' block) :
    block.length = 0 ↔ ∀ n, g.Visits ref n → n.kind? = some .strategyConfig := by
  rw [hlow.length_eq_zero_iff, List.eq_nil_iff_forall_not_mem]
  refine forall_congr' fun n => ?_
  rw [h.mem_emissions_iff, h.mem_occurrences_iff, not_and, not_not]

/-- The outcome of a compilation of sealed settings with finite percentages. -/
theorem compile_outcome_iff (g : Graph) (hg : ∀ n ∈ g.nodes, n.IsSealed)
    (hfinite : ∀ n ∈ g.nodes, ∀ s, n.config = .sealed (.placeOrder s) →
      s.stopLossPercent.isFinite = true ∧ s.takeProfitPercent.isFinite = true) :
    (g.compile.result = .error (.failed .noConfigNode) ↔
      ∀ n ∈ g.nodes, n.kind? ≠ some .strategyConfig) ∧
    ∀ root, g.firstConfig? = some root →
      ((∃ ref, g.compile.result = .error (.failed (.cycle ref))) ↔
        ∃ ref, g.Reaches (start root) ref ∧ g.OnCycle ref) ∧
      (∀ ref, g.compile.result = .error (.failed (.cycle ref)) →
        g.Reaches (start root) ref ∧ g.OnCycle ref) ∧
      ((∀ ref, g.Reaches (start root) ref → ¬ g.OnCycle ref) →
        (g.compile.result = .error (.failed .emptyChain) ↔
          ∀ n, g.Visits (start root) n → n.kind? = some .strategyConfig) ∧
        ((∃ p, g.compile.result = .ok p) ↔
          ∃ n, g.Visits (start root) n ∧ n.kind? ≠ some .strategyConfig)) := by
  have hall := lowerable_of_finite_percentages hfinite
  refine ⟨?_, fun root hroot => ?_⟩
  · rw [← root?_eq_none_iff hg]
    refine ⟨fun h => ?_, compile_of_no_root⟩
    cases hroot : g.root? with
    | none => rfl
    | some found => exact absurd h (compile_ne_noConfigNode hg hall hroot)
  · obtain ⟨settings, hroot⟩ := exists_root? hg hroot
    rcases compile_cases hg hall hroot with
      ⟨ref, hresult, hreach, hcycle⟩ | ⟨flow, known, block, hflow, hlow, -, hresult⟩
    · -- the flow was cut, so a cycle is reported
      rw [hresult]
      refine ⟨⟨fun _ => ⟨ref, hreach, hcycle⟩, fun _ => ⟨ref, rfl⟩⟩, ?_, ?_⟩
      · rintro _ ⟨⟩
        exact ⟨hreach, hcycle⟩
      · exact fun hno => absurd hcycle (hno ref hreach)
    · -- the flow has an end, so there is no cycle, and the block decides
      rw [hresult]
      have hempty := hflow.length_eq_zero_iff hlow
      have hne : ∀ ref, (if block.length = 0 then .error (.failed .emptyChain)
          else .ok ⟨root.id, settings, known.capabilities, block⟩ : Except Halt Program) ≠
            .error (.failed (.cycle ref)) := by
        intro ref
        split <;> simp
      refine ⟨?_, fun ref h => absurd h (hne ref), fun _ => ?_⟩
      · refine ⟨fun ⟨ref, h⟩ => absurd h (hne ref), fun ⟨ref, hreach, hcycle⟩ => ?_⟩
        exact absurd hcycle (hflow.no_cycle hreach)
      · have hsome : (∃ n, g.Visits (start root) n ∧ n.kind? ≠ some .strategyConfig) ↔
            block.length ≠ 0 := by
          rw [Ne, hempty, not_forall]
          simp only [Classical.not_imp, ne_eq]
        rw [← hempty, hsome]
        split
        · next hzero => simp [hzero]
        · next hzero => simp [hzero]

/-- A loop whose body is an order that leads back to the loop. -/
def loopedOrder : Graph where
  nodes := [.ofKind "s" .strategyConfig, .ofKind "f" .forEach, .ofKind "o" .placeOrder]
  connections :=
    [⟨⟨"s", "exec", "f", "exec"⟩, "c1"⟩, ⟨⟨"f", "loopBody", "o", "exec"⟩, "c2"⟩,
      ⟨⟨"o", "exec", "f", "exec"⟩, "c3"⟩]

/-- The cycle closes through the body of the loop, and the compilation reports it. -/
theorem compile_loopedOrder_cycle :
    (∀ n ∈ loopedOrder.nodes, n.IsSealed) ∧
    (∀ n ∈ loopedOrder.nodes, ∀ s, n.config = .sealed (.placeOrder s) →
      s.stopLossPercent.isFinite = true ∧ s.takeProfitPercent.isFinite = true) ∧
    ∃ ref, loopedOrder.compile.result = .error (.failed (.cycle ref)) := by
  have hg : ∀ n ∈ loopedOrder.nodes, n.IsSealed := by
    simp [loopedOrder, Node.ofKind, Node.IsSealed]
  have hfinite : ∀ n ∈ loopedOrder.nodes, ∀ s, n.config = .sealed (.placeOrder s) →
      s.stopLossPercent.isFinite = true ∧ s.takeProfitPercent.isFinite = true := by
    simp only [loopedOrder, List.forall_mem_cons, Node.ofKind, Settings.default]
    refine ⟨by simp, by simp, ?_, by simp⟩
    rintro s ⟨⟩
    exact ⟨by decide +kernel, by decide +kernel⟩
  have henter : loopedOrder.Follow ⟨"s", "exec"⟩ ⟨"f", "loopBody"⟩ :=
    ⟨.ofKind "f" .forEach, .forEach, rfl, rfl, rfl, by decide⟩
  have hbody : loopedOrder.Follow ⟨"f", "loopBody"⟩ ⟨"o", "exec"⟩ :=
    ⟨.ofKind "o" .placeOrder, .placeOrder, rfl, rfl, rfl, by decide⟩
  have hback : loopedOrder.Follow ⟨"o", "exec"⟩ ⟨"f", "loopBody"⟩ :=
    ⟨.ofKind "f" .forEach, .forEach, rfl, rfl, rfl, by decide⟩
  refine ⟨hg, hfinite, ?_⟩
  refine ((compile_outcome_iff loopedOrder hg hfinite).2 (.ofKind "s" .strategyConfig) rfl).1.2 ?_
  exact ⟨⟨"f", "loopBody"⟩, .single henter, .tail (.single hbody) hback⟩

end Graph

end TradeFlow
