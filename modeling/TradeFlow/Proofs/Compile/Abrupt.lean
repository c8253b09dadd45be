import TradeFlow.Proofs.Compile.LexicalScope
import TradeFlow.Proofs.Compile.Walk

/-!
Compilations that stop abruptly.

Among sealed settings only an order can stop a compilation without an error: it takes its prices in
percent, one of the percentages is not finite, and its entry price is known when its turn comes. What
is proved:

1. `action_eq_aborted_iff`: which action stops abruptly, from what is known.
2. `Control.outputs_eq`: what is known comes from the nodes whose turn was before.
3. `lower_eq_aborted_iff`: a flow stops abruptly if it comes to such an order.
4. `Graph.compile_eq_aborted_iff`: the same of a whole compilation. Graphs of an editor never stop
   abruptly, since nothing fits an entry price (`Graph.WellFormed.not_meetsUnpriceable`).
-/

namespace TradeFlow

open Lower

/-! ## Elements and what stands before them -/

section ComesTo

variable {α : Type} {P : List α → α → Prop} {seen xs ys : List α} {x : α}

/-- After some elements, a list comes to one with a property that depends on all elements before. -/
def ComesTo (P : List α → α → Prop) (seen xs : List α) : Prop :=
  ∃ before x after, xs = before ++ x :: after ∧ P (seen ++ before) x

theorem not_comesTo_nil : ¬ ComesTo P seen [] := by
  rintro ⟨before, x, after, h, -⟩
  simp at h

theorem comesTo_cons : ComesTo P seen (x :: xs) ↔ P seen x ∨ ComesTo P (seen ++ [x]) xs := by
  constructor
  · rintro ⟨before, y, after, h, hy⟩
    cases before with
    | nil =>
      cases h
      exact .inl (by simpa using hy)
    | cons z before =>
      cases h
      exact .inr ⟨before, y, after, rfl, by simpa using hy⟩
  · rintro (hx | ⟨before, y, after, rfl, hy⟩)
    · exact ⟨[], x, xs, rfl, by simpa using hx⟩
    · exact ⟨x :: before, y, after, rfl, by simpa using hy⟩

theorem comesTo_append :
    ComesTo P seen (xs ++ ys) ↔ ComesTo P seen xs ∨ ComesTo P (seen ++ xs) ys := by
  induction xs generalizing seen with
  | nil => simp [not_comesTo_nil]
  | cons x xs ih => simp [comesTo_cons, ih, or_assoc]

end ComesTo

/-! ## Orders that cannot be computed -/

/-- An order that works with percentages of which one is not finite. -/
def PlaceOrder.Unpriceable (s : PlaceOrder) : Prop :=
  s.priceMode = "percentage" ∧
    ¬ (s.stopLossPercent.isFinite = true ∧ s.takeProfitPercent.isFinite = true)

variable {links : List Link} {known known' : Known} {n : Node} {a : Action}

theorem legs_eq_aborted_iff (entry : Source) (s : PlaceOrder) :
    legs entry s = .error .aborted ↔
      ¬ (s.stopLossPercent.isFinite = true ∧ s.takeProfitPercent.isFinite = true) := by
  rw [← isSome_percentFactor? s.stopLossPercent .below,
    ← isSome_percentFactor? s.takeProfitPercent .above, legs]
  cases percentFactor? s.stopLossPercent .below <;>
    cases percentFactor? s.takeProfitPercent .above <;> simp

/-- An action stops abruptly exactly if it is such an order and its entry price is known. -/
theorem action_eq_aborted_iff : Lower.action links known n a = .error .aborted ↔
    ∃ s, a = .placeOrder s ∧ s.Unpriceable ∧ (input? links known n "entryPrice").isSome = true := by
  cases a with
  | placeOrder s =>
    have hinput : input? links (known.require .placeOrder) n "entryPrice" =
      input? links known n "entryPrice" := rfl
    simp only [Lower.action, order, hinput, PlaceOrder.Unpriceable, Action.placeOrder.injEq,
      exists_eq_left']
    split
    · next entry hmode hentry =>
      rw [← legs_eq_aborted_iff entry.expr s, hmode, hentry]
      cases legs entry.expr s <;> simp [Except.map]
    · next hmode =>
      simp [hmode]
    · next hother =>
      refine iff_of_false (by simp) ?_
      rintro ⟨⟨hmode, -⟩, hentry⟩
      obtain ⟨entry, hentry⟩ := Option.isSome_iff_exists.1 hentry
      exact hother entry hmode hentry
  | _ => simp [Lower.action]

/-! ## Nodes in the order of their turns -/

/-- The output that a node binds when it is its turn. Strategy settings inside of a flow bind
nothing. -/
def Node.bound? (n : Node) : Option OutputRef :=
  match n.config.role with
  | .action a => (actionKind a).value?.map (⟨n.id, ·⟩)
  | .loop => some ⟨n.id, "item"⟩
  | _ => none

theorem Node.bound?_of_silent (h : n.config.role = .silent) : n.bound? = none := by
  rw [bound?, h]

theorem Node.bound?_of_action (h : n.config.role = .action a) :
    n.bound? = (actionKind a).value?.map (⟨n.id, ·⟩) := by
  rw [bound?, h]

theorem Node.bound?_of_loop (h : n.config.role = .loop) : n.bound? = some ⟨n.id, "item"⟩ := by
  rw [bound?, h]

theorem Node.bound?_of_branch {c : Conditional} (h : n.config.role = .branch c) :
    n.bound? = none := by
  rw [bound?, h]

theorem Node.filterMap_bound?_of_action (h : n.config.role = .action a) :
    [n].filterMap Node.bound? = a.outputs n := by
  rw [List.filterMap_cons, bound?_of_action h, Action.outputs]
  cases (actionKind a).value? <;> rfl

namespace Control

/-- The nodes of a flow in the order in which work on them begins. -/
def begun : Control → List Node
  | .stop => []
  | .cycle _ => []
  | .unusable n => [n]
  | .silent n rest => n :: rest.begun
  | .action n _ rest => n :: rest.begun
  | .loop n body rest => n :: (body.begun ++ rest.begun)
  | .branch n _ yes no => n :: (yes.begun ++ no.begun)

/-- Every node can be compiled and plays the part that it has in the flow, and nothing follows a
cut. -/
def Regular : Control → Prop
  | .stop => True
  | .cycle _ => True
  | .unusable _ => False
  | .silent n rest => n.config.role = .silent ∧ rest.Regular
  | .action n a rest => n.config.role = .action a ∧ rest.Regular
  | .loop n body rest =>
    n.config.role = .loop ∧ body.Regular ∧ rest.Regular ∧ (body.isComplete = false → rest = .stop)
  | .branch n c yes no =>
    n.config.role = .branch c ∧ yes.Regular ∧ no.Regular ∧ (yes.isComplete = false → no = .stop)

variable {flow : Control}

theorem not_comesTo_of_eq_stop {P : List Node → Node → Prop} {seen : List Node}
    (h : flow = .stop) : ¬ ComesTo P seen flow.begun := by
  subst h
  exact not_comesTo_nil

/-- The outputs of a flow are those that its nodes bind. -/
theorem outputs_eq (h : flow.Regular) : flow.outputs = flow.begun.filterMap Node.bound? := by
  induction flow with
  | stop => rfl
  | cycle ref => rfl
  | unusable n => exact h.elim
  | silent n rest ih =>
    rw [outputs, begun, List.filterMap_cons_none (Node.bound?_of_silent h.1), ih h.2]
  | action n a rest ih =>
    rw [outputs, begun, ← List.singleton_append, List.filterMap_append,
      Node.filterMap_bound?_of_action h.1, ih h.2]
  | loop n body rest ihbody ihrest =>
    obtain ⟨hr, hbody, hrest, -⟩ := h
    rw [outputs, begun, List.filterMap_cons_some (Node.bound?_of_loop hr), List.filterMap_append,
      ihbody hbody, ihrest hrest, List.cons_append]
  | branch n c yes no ihyes ihno =>
    obtain ⟨hr, hyes, hno, -⟩ := h
    rw [outputs, begun, List.filterMap_cons_none (Node.bound?_of_branch hr), List.filterMap_append,
      ihyes hyes, ihno hno]

end Control

/-- The unfolding of sealed settings is regular. -/
theorem Graph.regular_controlFrom {g : Graph} (hg : ∀ n ∈ g.nodes, n.IsSealed)
    (active : List OutputRef) (ref : OutputRef) : (g.controlFrom active ref).Regular := by
  fun_induction controlFrom g active ref with
  | case1 => trivial
  | case2 => trivial
  | case3 active ref ha n hn hr => exact role_ne_unusable hg n (mem_nodes_of_next? hn) hr
  | case4 active ref ha n hn hr ih => exact ⟨hr, ih⟩
  | case5 active ref ha n hn a hr ih => exact ⟨hr, ih⟩
  | case6 active ref ha n hn hr body ihbody ihrest =>
    refine ⟨hr, ihbody, ?_, fun hcut => if_neg (by simp [hcut])⟩
    split
    · exact ihrest
    · trivial
  | case7 active ref ha n hn c hr yes ihyes ihno =>
    refine ⟨hr, ihyes, ?_, fun hcut => if_neg (by simp [hcut])⟩
    split
    · exact ihno
    · trivial

/-! ## Lowering that stops abruptly -/

/-- The outputs that are known are those of some nodes, and one more: the time of the run. -/
def Known.ComesFrom (known : Known) (clock : OutputRef) (seen : List Node) : Prop :=
  ∀ ref, (known.output? ref).isSome = true ↔ ref = clock ∨ ref ∈ seen.filterMap Node.bound?

variable {clock ref : OutputRef} {seen : List Node} {flow : Control} {block : Block}

/-- Nodes that bind some outputs have their turn. -/
theorem Known.ComesFrom.extend {outputs : List OutputRef} {nodes : List Node}
    (h : known.ComesFrom clock seen) (hextends : Known.Extends outputs known known')
    (houtputs : outputs = nodes.filterMap Node.bound?) :
    known'.ComesFrom clock (seen ++ nodes) := by
  intro ref
  rw [List.filterMap_append, List.mem_append, ← houtputs, ← or_assoc, ← h ref]
  by_cases href : ref ∈ outputs
  · obtain ⟨b, v, hb, -⟩ := hextends.fresh ref href
    simp [hb, href]
  · simp [hextends.frame ref href, href]

/-- An order that stops everything when its turn comes after some nodes: it cannot be computed, and
what brings its entry price is known. -/
def StopsAfter (links : List Link) (clock : OutputRef) (before : List Node) (n : Node) : Prop :=
  ∃ s, n.config.role = .action (.placeOrder s) ∧ s.Unpriceable ∧
    ∃ l, links.find? (·.head == ⟨n.id, "entryPrice"⟩) = some l ∧
      (l.tail = clock ∨ l.tail ∈ before.filterMap Node.bound?)

theorem StopsAfter.role_eq (h : StopsAfter links clock seen n) :
    ∃ s, n.config.role = .action (.placeOrder s) := by
  obtain ⟨s, hr, -⟩ := h
  exact ⟨s, hr⟩

theorem action_eq_aborted_iff_stopsAfter (hr : n.config.role = .action a)
    (h : known.ComesFrom clock seen) :
    Lower.action links known n a = .error .aborted ↔ StopsAfter links clock seen n := by
  have hentry : (input? links known n "entryPrice").isSome = true ↔
      ∃ l, links.find? (·.head == ⟨n.id, "entryPrice"⟩) = some l ∧
        (l.tail = clock ∨ l.tail ∈ seen.filterMap Node.bound?) := by
    simp only [input?, Scope.input?, ← h _]
    cases links.find? (·.head == ⟨n.id, "entryPrice"⟩) <;> simp
  rw [action_eq_aborted_iff, hentry, StopsAfter, hr]
  simp

/-! ## Errors of each form of a flow -/

theorem Run.bind_eq_error {α β : Type} {x : Run α} {f : α → Run β} {halt : Halt} :
    (x >>= f).result = .error halt ↔
      x.result = .error halt ∨ ∃ a, x.result = .ok a ∧ (f a).result = .error halt := by
  cases h : x.result with
  | error halt' => simp [result_bind_of_error h]
  | ok a => simp [bind_of_ok h]

section

variable {halt : Halt} {c : Conditional} {body rest yes no : Control}

theorem result_lower_silent :
    (lower links (.silent n rest) known).result = (lower links rest known).result := by
  rw [lower, Run.bind_of_ok (a := known) rfl]

theorem lower_action_eq_error_iff : (lower links (.action n a rest) known).result = .error halt ↔
    Lower.action links known n a = .error halt ∨ ∃ r, Lower.action links known n a = .ok r ∧
      (lower links rest r.1).result = .error halt := by
  cases ha : Lower.action links known n a with
  | error halt' =>
    simp [lower, Run.bind_eq_error, Run.result_within, ha, Run.bind_eq_ok]
  | ok r =>
    rw [lower_action ha]
    cases hrest : (lower links rest r.1).result <;> simp [hrest, Except.map]

theorem lower_loop_eq_error_iff : (lower links (.loop n body rest) known).result = .error halt ↔
    (lower links body (known.entered n)).result = .error halt ∨
      ∃ r, (lower links body (known.entered n)).result = .ok r ∧
        (lower links rest r.1).result = .error halt := by
  cases hbody : (lower links body (known.entered n)).result with
  | error halt' => simp [lower_loop_of_error hbody]
  | ok r =>
    rw [lower_loop_of_ok hbody]
    cases hrest : (lower links rest r.1).result <;> simp [hrest, Except.map]

theorem lower_branch_eq_error_iff : (lower links (.branch n c yes no) known).result = .error halt ↔
    (lower links yes known).result = .error halt ∨
      ∃ r, (lower links yes known).result = .ok r ∧ (lower links no r.1).result = .error halt := by
  cases hyes : (lower links yes known).result with
  | error halt' => simp [lower_branch_of_yes_error hyes]
  | ok r =>
    cases hno : (lower links no r.1).result with
    | error halt' => simp [lower_branch_of_no_error hyes hno, hno]
    | ok r' => simp [lower_branch_of_ok hyes hno, hno]

end

/-- A flow without a cut does not fail: it becomes a block, or it stops abruptly. -/
theorem not_failed_of_isComplete (h : flow.isComplete = true) (known : Known) (e : CompileError) :
    (lower links flow known).result ≠ .error (.failed e) := by
  intro hfailed
  induction flow generalizing known with
  | stop => cases hfailed
  | cycle ref => cases h
  | unusable n => cases h
  | silent n rest ih => exact ih h known (result_lower_silent ▸ hfailed)
  | action n a rest ih =>
    rcases lower_action_eq_error_iff.1 hfailed with ha | ⟨r, -, hrest⟩
    · cases action_eq_error ha
    · exact ih h r.1 hrest
  | loop n body rest ihbody ihrest =>
    obtain ⟨hbody, hrest⟩ := Bool.and_eq_true_iff.1 h
    rcases lower_loop_eq_error_iff.1 hfailed with hfailed | ⟨r, -, hfailed⟩
    · exact ihbody hbody _ hfailed
    · exact ihrest hrest r.1 hfailed
  | branch n c yes no ihyes ihno =>
    obtain ⟨hyes, hno⟩ := Bool.and_eq_true_iff.1 h
    rcases lower_branch_eq_error_iff.1 hfailed with hfailed | ⟨r, -, hfailed⟩
    · exact ihyes hyes known hfailed
    · exact ihno hno r.1 hfailed

/-- Two flows, one after the other: the second one has its turn only behind a block, and behind a cut
nothing follows. -/
theorem lower_both_aborted_iff {first second : Control} {P Q : Prop}
    (hfirst : (lower links first known).result = .error .aborted ↔ P)
    (hsecond : ∀ known' block, Lowered links first known known' block →
      ((lower links second known').result = .error .aborted ↔ Q))
    (hcut : first.isComplete = false → ¬ Q) :
    ((lower links first known).result = .error .aborted ∨
      ∃ r, (lower links first known).result = .ok r ∧
        (lower links second r.1).result = .error .aborted) ↔ P ∨ Q := by
  rw [hfirst]
  refine or_congr_right' fun hP => ?_
  cases hresult : (lower links first known).result with
  | ok r => simpa using hsecond r.1 r.2 (lowered_of_lower hresult)
  | error halt =>
    cases halt with
    | aborted => exact absurd (hfirst.1 hresult) hP
    | failed e =>
      have hincomplete : first.isComplete = false :=
        Bool.eq_false_iff.2 fun hfull => not_failed_of_isComplete hfull known e hresult
      simpa using hcut hincomplete

/-- Lowered in order, a flow stops abruptly exactly if it comes to an order that cannot be computed
and whose entry price is known by then. -/
theorem lower_eq_aborted_iff (hflow : flow.Regular) (hsound : known.Sound)
    (hknown : known.ComesFrom clock seen) : (lower links flow known).result = .error .aborted ↔
      ComesTo (StopsAfter links clock) seen flow.begun := by
  -- what is known always comes from the nodes that had their turn, and only orders stop
  induction flow generalizing known seen with
  | stop => exact iff_of_false (by simp [lower, pure, Run.pure]) not_comesTo_nil
  | cycle ref => exact iff_of_false (by simp [lower, Run.halt]) not_comesTo_nil
  | unusable n => exact hflow.elim
  | silent n rest ih =>
    obtain ⟨hr, hrest⟩ := hflow
    have hbound : [n].filterMap Node.bound? = [] :=
      List.filterMap_cons_none (Node.bound?_of_silent hr)
    have hnot : ¬ StopsAfter links clock seen n := fun h => by simpa [hr] using h.role_eq
    rw [result_lower_silent, Control.begun, comesTo_cons, or_iff_right hnot]
    exact ih hrest hsound (hknown.extend (.refl _) hbound.symm)
  | action n a rest ih =>
    obtain ⟨hr, hrest⟩ := hflow
    rw [lower_action_eq_error_iff, Control.begun, comesTo_cons,
      action_eq_aborted_iff_stopsAfter hr hknown]
    refine or_congr_right' fun hnot => ?_
    rw [← action_eq_aborted_iff_stopsAfter hr hknown] at hnot
    cases ha : Lower.action links known n a with
    | error halt =>
      obtain rfl := action_eq_error ha
      exact absurd ha hnot
    | ok r =>
      obtain ⟨hsound', hextends⟩ := action_extends ha hsound
      simpa using ih hrest hsound' (hknown.extend hextends (Node.filterMap_bound?_of_action hr).symm)
  | loop n body rest ihbody ihrest =>
    obtain ⟨hr, hbody, hrest, hcut⟩ := hflow
    have hbound : [n].filterMap Node.bound? = [⟨n.id, "item"⟩] :=
      List.filterMap_cons_some (Node.bound?_of_loop hr)
    have hnot : ¬ StopsAfter links clock seen n := fun h => by simpa [hr] using h.role_eq
    have hopens := known.opens_entered n
    have hentered := hknown.extend (hopens.extends hsound) hbound.symm
    rw [lower_loop_eq_error_iff, Control.begun, comesTo_cons, or_iff_right hnot, comesTo_append]
    refine lower_both_aborted_iff (ihbody hbody (hopens.sound hsound) hentered)
      (fun known' block hlow => ?_) fun h => Control.not_comesTo_of_eq_stop (hcut h)
    obtain ⟨hsound', hextends⟩ := hlow.extends (hopens.sound hsound)
    exact ihrest hrest hsound' (hentered.extend hextends (Control.outputs_eq hbody))
  | branch n c yes no ihyes ihno =>
    obtain ⟨hr, hyes, hno, hcut⟩ := hflow
    have hbound : [n].filterMap Node.bound? = [] :=
      List.filterMap_cons_none (Node.bound?_of_branch hr)
    have hnot : ¬ StopsAfter links clock seen n := fun h => by simpa [hr] using h.role_eq
    have hentered := hknown.extend (.refl _) hbound.symm
    rw [lower_branch_eq_error_iff, Control.begun, comesTo_cons, or_iff_right hnot, comesTo_append]
    refine lower_both_aborted_iff (ihyes hyes hsound hentered)
      (fun known' block hlow => ?_) fun h => Control.not_comesTo_of_eq_stop (hcut h)
    obtain ⟨hsound', hextends⟩ := hlow.extends hsound
    exact ihno hno hsound' (hentered.extend hextends (Control.outputs_eq hyes))

/-! ## Compilations that stop abruptly -/

namespace Graph

variable {g : Graph} {root : Node}

/-- An order that stops the compilation when its turn comes after some nodes: it cannot be computed,
and its entry price is connected to the time of the run or to what one of these nodes gave. -/
def StopsAt (g : Graph) (root : Node) (before : List Node) (n : Node) : Prop :=
  ∃ s, n.config = .sealed (.placeOrder s) ∧ s.Unpriceable ∧
    ∃ c, g.entering? ⟨n.id, "entryPrice"⟩ = some c ∧
      (c.tail = ⟨root.id, "currentTimestamp"⟩ ∨ ∃ m ∈ before, m.bound? = some c.tail)

/-- Control from the root comes to an order that stops the compilation. -/
def MeetsUnpriceable (g : Graph) : Prop :=
  ∃ root, g.firstConfig? = some root ∧
    ComesTo (g.StopsAt root) [] (g.controlFrom [] (start root)).begun

theorem stopsAfter_links_iff {before : List Node} {n : Node} :
    StopsAfter g.links ⟨root.id, "currentTimestamp"⟩ before n ↔ g.StopsAt root before n := by
  refine exists_congr fun s => and_congr ?_ (and_congr_right fun _ => ?_)
  · refine ⟨fun h => config_eq_of_role (s := .placeOrder s) h (by simp [NodeConfig.role]), fun h => ?_⟩
    rw [h]
    rfl
  · simp only [links, List.find?_map, Option.map_eq_some_iff, List.mem_filterMap]
    constructor
    · rintro ⟨_, ⟨c, hc, rfl⟩, htail⟩
      exact ⟨c, hc, htail⟩
    · rintro ⟨c, hc, htail⟩
      exact ⟨_, ⟨c, hc, rfl⟩, htail⟩

/-- At first, the time of the run is known and nothing else. -/
theorem initialScope_comesFrom (root : Node) :
    (initialScope root).ComesFrom ⟨root.id, "currentTimestamp"⟩ [] := by
  intro ref
  have hbind := Known.output?_bindOutput (Scope.empty.require .currentTimestamp) root
    .strategyConfig "currentTimestamp" .timestamp ref
  by_cases href : ref = ⟨root.id, "currentTimestamp"⟩
  · obtain ⟨shape, hself⟩ := hbind.1
    simp [initialScope, href, hself]
  · rw [initialScope, hbind.2 href]
    simp [href, Scope.output?, Scope.require, Scope.empty]

/-- Exactly the compilations that come to such an order stop abruptly. -/
theorem compile_eq_aborted_iff (hg : ∀ n ∈ g.nodes, n.IsSealed) :
    g.compile.result = .error .aborted ↔ g.MeetsUnpriceable := by
  rw [MeetsUnpriceable, ← root?_map_fst hg]
  cases hroot : g.root? with
  | none => simp [compile_of_no_root hroot]
  | some found =>
    obtain ⟨root, settings⟩ := found
    have hresult : g.compile.result = .error .aborted ↔
        (lower g.links (g.controlFrom [] (start root)) (initialScope root)).result =
          .error .aborted := by
      rw [(compile_of_root hroot).1, lowerFrom, ← links, Run.bind_eq_error]
      refine or_iff_left ?_
      rintro ⟨⟨known, block⟩, -, hblock⟩
      dsimp only at hblock
      split at hblock <;> cases hblock
    rw [hresult, lower_eq_aborted_iff (regular_controlFrom hg [] (start root))
      (sound_initialScope root) (initialScope_comesFrom root)]
    simp [ComesTo, stopsAfter_links_iff]

/-- In a well-formed graph nothing is connected to an entry price. -/
theorem WellFormed.not_meetsUnpriceable (h : g.WellFormed) : ¬ g.MeetsUnpriceable := by
  rintro ⟨root, -, before, n, after, -, s, -, -, c, hc, -⟩
  have hhead : c.head = ⟨n.id, "entryPrice"⟩ := by simpa using List.find?_some hc
  exact h.targetInput_ne_entryPrice (List.mem_of_find?_eq_some hc) (congrArg InputRef.input hhead)

end Graph

end TradeFlow
