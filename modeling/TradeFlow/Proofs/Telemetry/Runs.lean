import TradeFlow.Proofs.Compile.Abrupt
import TradeFlow.Proofs.Telemetry.Mirror

/-!
How compilations are counted.

Every compilation counts as one run, and as a failed one exactly if it ended with an error
(`Compilation.counts_one_run`). A compilation that stops abruptly has no error and no program, so it
is counted as a success. `Graph.compile_counts_outcome_iff` says which compilations are counted by
their outcome: those that do not come to an order that stops them.
-/

namespace TradeFlow

namespace Compilation

/-- The mark of a run that counts as a success, and of one that does not. -/
def successMark (success : Bool) : String := if success then "success=true" else "success=false"

/-- How many runs are counted under a mark. -/
def runs (c : Compilation) (success : Bool) : Nat :=
  c.counter "stratgraph.compile.runs" (successMark success)

/-- The run is counted under the mark of the outcome: as a success if there is a program, and as none
otherwise. -/
def CountsOutcome (c : Compilation) : Prop :=
  (c.runs true = 1 ↔ ∃ p, c.result = .ok p) ∧ (c.runs false = 1 ↔ ¬ ∃ p, c.result = .ok p)

variable {c : Compilation}

/-- A single run is counted, under one mark. -/
theorem counts_one_run (c : Compilation) :
    c.metrics.filter (·.1 == "stratgraph.compile.runs") =
      [("stratgraph.compile.runs", [(successMark c.countsAsSuccess, 1)])] := by
  simp only [metrics, successMark]
  generalize (Kind.all.filter (c.emittedKinds.contains ·)).map _ = emitted
  cases emitted <;> cases c.countsAsSuccess <;> simp

theorem runs_eq (c : Compilation) (success : Bool) :
    c.runs success = if c.countsAsSuccess = success then 1 else 0 := by
  have hlookup : c.metrics.lookup "stratgraph.compile.runs" =
      some [(successMark c.countsAsSuccess, 1)] := by
    simp [metrics, successMark]
  rw [runs, counter, hlookup]
  cases c.countsAsSuccess <;> cases success <;> rfl

/-- Only an error counts against a run. -/
theorem countsAsSuccess_iff :
    c.countsAsSuccess = true ↔ (∃ p, c.result = .ok p) ∨ c.result = .error .aborted := by
  rw [countsAsSuccess, error?]
  rcases c.result with (e | _) | p <;> simp [Halt.error?]

/-- The outcome is what is counted unless there is none. -/
theorem countsOutcome_iff : c.CountsOutcome ↔ c.result ≠ .error .aborted := by
  have htrue : c.runs true = 1 ↔ c.countsAsSuccess = true := by simp [runs_eq]
  have hfalse : c.runs false = 1 ↔ ¬ c.countsAsSuccess = true := by simp [runs_eq]
  rw [CountsOutcome, htrue, hfalse, not_iff_not, and_self_iff, countsAsSuccess_iff,
    or_iff_left_iff_imp]
  refine ⟨fun h haborted => ?_, fun h haborted => absurd haborted h⟩
  obtain ⟨p, hp⟩ := h haborted
  simp [hp] at haborted

end Compilation

namespace Graph

/-- Every compilation of sealed settings counts as one run. It is counted by its outcome unless
control comes to an order that stops it; then it is a success without a program. -/
theorem compile_counts_outcome_iff (g : Graph) (hg : ∀ n ∈ g.nodes, n.IsSealed) :
    (∃ success, g.compile.metrics.filter (·.1 == "stratgraph.compile.runs") =
      [("stratgraph.compile.runs", [(Compilation.successMark success, 1)])]) ∧
    (g.compile.CountsOutcome ↔ ¬ g.MeetsUnpriceable) ∧
    (g.MeetsUnpriceable → g.compile.result = .error .aborted ∧ g.compile.runs true = 1 ∧
      g.compile.runs false = 0) := by
  refine ⟨⟨_, g.compile.counts_one_run⟩, ?_, fun h => ?_⟩
  · rw [Compilation.countsOutcome_iff, Ne, compile_eq_aborted_iff hg]
  · have haborted := (compile_eq_aborted_iff hg).2 h
    have hsuccess := Compilation.countsAsSuccess_iff.2 (.inr haborted)
    exact ⟨haborted, by simp [Compilation.runs_eq, hsuccess],
      by simp [Compilation.runs_eq, hsuccess]⟩

/-- Graphs of an editor are always counted by their outcome. -/
theorem WellFormed.countsOutcome {g : Graph} (h : g.WellFormed) : g.compile.CountsOutcome :=
  Compilation.countsOutcome_iff.2 fun haborted =>
    h.not_meetsUnpriceable ((compile_eq_aborted_iff h.isSealed).1 haborted)

/-- An order with a stop loss that is not a number. -/
def nanOrder : Node :=
  ⟨"o", ⟨0, 0⟩, .sealed (.placeOrder
    { nseSymbol := ""
      entryPrice := 0
      stopLossPrice := 0
      takeProfitPrice := 0
      useCurrentTimestamp := true
      datetime := ""
      priceMode := "percentage"
      stopLossPercent := .nan
      takeProfitPercent := 2 })⟩

/-- Control from the root gets to two nodes, and what the fetch of dates gives is connected to the
entry price of the order. -/
def datedOrder (first second : String) : Graph where
  nodes := [.ofKind "s" .strategyConfig, .ofKind "d" .fetchDates, nanOrder]
  connections :=
    [⟨⟨"s", "exec", first, "exec"⟩, "c1"⟩, ⟨⟨first, "exec", second, "exec"⟩, "c2"⟩,
      ⟨⟨"d", "dates", "o", "entryPrice"⟩, "c3"⟩]

theorem isSealed_datedOrder (first second : String) :
    ∀ n ∈ (datedOrder first second).nodes, n.IsSealed := by
  simp [datedOrder, nanOrder, Node.ofKind, Node.IsSealed]

/-- Control that comes to two actions and ends there. -/
theorem begun_of_two_actions {g : Graph} {ref : OutputRef} {m n : Node} {a b : Action}
    (hm : g.next? ref = some m) (ha : m.config.role = .action a)
    (hn : g.next? ⟨m.id, "exec"⟩ = some n) (hb : n.config.role = .action b)
    (hend : g.next? ⟨n.id, "exec"⟩ = none)
    (hnodup : [⟨n.id, "exec"⟩, ⟨m.id, "exec"⟩, ref].Nodup) :
    (g.controlFrom [] ref).begun = [m, n] := by
  obtain ⟨hlast, hnodup⟩ := List.nodup_cons.1 hnodup
  obtain ⟨hsecond, -⟩ := List.nodup_cons.1 hnodup
  rw [controlFrom_of_next? List.not_mem_nil hm, ha]
  dsimp only
  rw [controlFrom_of_next? hsecond hn, hb]
  dsimp only
  rw [controlFrom_of_next?_eq_none hlast hend]
  rfl

/-- Behind the fetch, the order has an entry price and cannot be computed. -/
theorem meetsUnpriceable_dates_first : (datedOrder "d" "o").MeetsUnpriceable := by
  have hbegun : ((datedOrder "d" "o").controlFrom [] ⟨"s", "exec"⟩).begun =
      [.ofKind "d" .fetchDates, nanOrder] :=
    begun_of_two_actions rfl rfl rfl rfl rfl (by decide)
  refine ⟨.ofKind "s" .strategyConfig, rfl, [.ofKind "d" .fetchDates], nanOrder, [], hbegun, ?_⟩
  refine ⟨_, rfl, ⟨rfl, by simp [Binary64.isFinite]⟩, _, rfl, .inr ⟨_, List.mem_cons_self, rfl⟩⟩

/-- Before the fetch, the order has no entry price, and its prices are left open. -/
theorem not_meetsUnpriceable_order_first : ¬ (datedOrder "o" "d").MeetsUnpriceable := by
  have hbegun : ((datedOrder "o" "d").controlFrom [] ⟨"s", "exec"⟩).begun =
      [nanOrder, .ofKind "d" .fetchDates] :=
    begun_of_two_actions rfl rfl rfl rfl rfl (by decide)
  rintro ⟨root, hroot, hmeets⟩
  obtain rfl : .ofKind "s" .strategyConfig = root := Option.some.inj hroot
  have hstart : start (.ofKind "s" .strategyConfig) = ⟨"s", "exec"⟩ := rfl
  rw [hstart, hbegun, comesTo_cons, comesTo_cons] at hmeets
  rcases hmeets with ⟨s, -, -, c, hc, htail⟩ | ⟨s, hs, -⟩ | hnil
  · have hfirst : (datedOrder "o" "d").entering? ⟨nanOrder.id, "entryPrice"⟩ =
        some ⟨⟨"d", "dates", "o", "entryPrice"⟩, "c3"⟩ := rfl
    obtain rfl := Option.some.inj (hfirst.symm.trans hc)
    simp [Link.tail, Node.ofKind] at htail
  · cases hs
  · exact not_comesTo_nil hnil

/-- The compilation stops abruptly at the order, and is counted as a success. -/
theorem stopped_run_counts_as_success :
    (∀ n ∈ (datedOrder "d" "o").nodes, n.IsSealed) ∧
    (datedOrder "d" "o").compile.result = .error .aborted ∧
    (datedOrder "d" "o").compile.runs true = 1 ∧ (datedOrder "d" "o").compile.runs false = 0 ∧
    ¬ (datedOrder "d" "o").compile.CountsOutcome := by
  have hsealed := isSealed_datedOrder "d" "o"
  have haborted := (compile_eq_aborted_iff hsealed).2 meetsUnpriceable_dates_first
  have hsuccess := Compilation.countsAsSuccess_iff.2 (.inr haborted)
  refine ⟨hsealed, haborted, ?_, ?_, fun h => Compilation.countsOutcome_iff.1 h haborted⟩
  · simp [Compilation.runs_eq, hsuccess]
  · simp [Compilation.runs_eq, hsuccess]

/-- The same order earlier in the flow is compiled, and counted by its outcome. -/
theorem early_order_counts_outcome :
    (∀ n ∈ (datedOrder "o" "d").nodes, n.IsSealed) ∧ ¬ (datedOrder "o" "d").MeetsUnpriceable ∧
    (datedOrder "o" "d").compile.CountsOutcome := by
  have hsealed := isSealed_datedOrder "o" "d"
  exact ⟨hsealed, not_meetsUnpriceable_order_first,
    (compile_counts_outcome_iff (datedOrder "o" "d") hsealed).2.1.2 not_meetsUnpriceable_order_first⟩

end Graph

end TradeFlow
