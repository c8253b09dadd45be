import TradeFlow.Proofs.Catalogue
import TradeFlow.Proofs.Telemetry.Spans
import TradeFlow.Proofs.Text.Lines
import TradeFlow.Telemetry.Log
import TradeFlow.Telemetry.Metric

/-!
Telemetry of a compilation.

Log, counters and spans are three views of the walk that a compilation is. What is proved:

1. `Walk.filterMap_events`: whatever is made of the reports of code alone follows the nodes of the
   walk that became code.
2. `Compilation.Follows.counter_eq`: the counter of a kind is the number of its log records.
3. `Graph.compile_mirrors`: all three views of a compilation that does not stop abruptly.
-/

namespace TradeFlow

/-! ## Reports of code -/

/-- The log record of a node that became code. -/
def FinishedNode.record (e : FinishedNode) : LogRecord :=
  ⟨.debug, "node emitted",
    [("node_id", .text e.node), ("kind", .text e.kind.name),
      ("lines", .number (lines e.code.toList).length)]⟩

/-- What ignores the starts and the ends of nodes sees the nodes that became code. -/
theorem Walk.filterMap_events {α : Type} (f : Event → Option α)
    (hopened : ∀ node kind, f (.opened node kind) = none) (hclosed : ∀ error, f (.closed error) = none)
    (w : Walk) : w.events.filterMap f =
      w.emissions.filterMap fun e => f (.emitted e.node e.kind (lineCount e.code)) := by
  induction w with
  | ends => rfl
  | stops e => rfl
  | silent node rest ih => simp [events, emissions, hopened, hclosed, ih]
  | finished node kind inner code rest ihinner ih =>
    simp only [events, emissions, List.filterMap_append, List.filterMap_cons, hopened, hclosed,
      ihinner, ih]
  | unfinished node kind inner ih => simp [events, emissions, hopened, hclosed, ih]

namespace LogRecord

/-- Whether a record reports that a node of a kind became code. -/
def Reports (r : LogRecord) (kind : Kind) : Prop :=
  r.message = "node emitted" ∧ ("kind", .text kind.name) ∈ r.attributes

instance (r : LogRecord) (kind : Kind) : Decidable (r.Reports kind) := instDecidableAnd

end LogRecord

theorem FinishedNode.reports_record {e : FinishedNode} {kind : Kind} :
    e.record.Reports kind ↔ e.kind = kind := by
  simp [LogRecord.Reports, record, Kind.name_injective.eq_iff, eq_comm]

namespace Compilation

/-- The value of a counter under a mark; a counter without data is at zero. -/
def counter (c : Compilation) (name mark : String) : Nat :=
  ((c.metrics.lookup name).bind (·.lookup mark)).getD 0

/-- The counter of the nodes of a kind that became code. -/
def emittedOf (c : Compilation) (kind : Kind) : Nat :=
  c.counter "stratgraph.node.emitted" ("kind=" ++ kind.name)

variable {c : Compilation} {w : Walk}

theorem lookup_kind (kinds : List Kind) (f : Kind → Nat) (kind : Kind) :
    (kinds.map fun k => ("kind=" ++ k.name, f k)).lookup ("kind=" ++ kind.name) =
      if kind ∈ kinds then some (f kind) else none := by
  induction kinds with
  | nil => rfl
  | cons k kinds ih =>
    rw [List.map_cons, List.lookup_cons, ih]
    by_cases hk : kind = k
    · simp [hk]
    · have hname : ("kind=" ++ kind.name == "kind=" ++ k.name) = false := by
        rw [beq_eq_false_iff_ne, Ne, String.append_right_inj]
        exact fun h => hk (Kind.name_injective h)
      simp [hk, hname]

theorem lookup_emitted (c : Compilation) :
    (c.metrics.lookup "stratgraph.node.emitted").getD [] =
      (Kind.all.filter (c.emittedKinds.contains ·)).map fun k =>
        ("kind=" ++ k.name, c.emittedKinds.count k) := by
  simp only [metrics]
  generalize (Kind.all.filter (c.emittedKinds.contains ·)).map _ = emitted
  generalize (if c.countsAsSuccess then "success=true" else "success=false") = success
  cases emitted <;> simp [List.lookup_cons]

/-- The counters hold how often each kind became code. -/
theorem emittedOf_eq (c : Compilation) (kind : Kind) :
    c.emittedOf kind = c.emittedKinds.count kind := by
  have hmem : kind ∈ Kind.all.filter (c.emittedKinds.contains ·) ↔ kind ∈ c.emittedKinds := by
    simp [Kind.mem_all]
  have hbind : c.emittedOf kind =
      (((c.metrics.lookup "stratgraph.node.emitted").getD []).lookup ("kind=" ++ kind.name)).getD
        0 := by
    rw [emittedOf, counter]
    cases c.metrics.lookup "stratgraph.node.emitted" <;> rfl
  rw [hbind, lookup_emitted, lookup_kind]
  split
  · rfl
  · next hnot => exact (List.count_eq_zero.2 fun h => hnot (hmem.2 h)).symm

/-- The counters of all kinds together. -/
def emittedTotal (c : Compilation) : Nat :=
  Kind.all.foldr (fun kind total => c.emittedOf kind + total) 0

/-- Counting by kind counts everything once. -/
theorem emittedTotal_eq (c : Compilation) : c.emittedTotal = c.emittedKinds.length := by
  rw [emittedTotal, funext c.emittedOf_eq]
  induction c.emittedKinds with
  | nil => rfl
  | cons k kinds ih =>
    rw [List.length_cons, ← ih]
    cases k <;> simp [Kind.all] <;> omega

theorem Follows.emittedKinds_eq (h : c.Follows w) : c.emittedKinds = w.emissions.map (·.kind) := by
  rw [emittedKinds, h.events, Walk.filterMap_events _ (fun _ _ => rfl) (fun _ => rfl)]
  simp

theorem Follows.records_eq (h : c.Follows w) :
    c.records = c.startRecord :: w.emissions.map FinishedNode.record ++ c.endRecord?.toList := by
  rw [records, h.events, Walk.filterMap_events _ (fun _ _ => rfl) (fun _ => rfl)]
  simp [eventRecord?, FinishedNode.record, lineCount_eq_length_lines]

/-- The counter of a kind is the number of log records that report the kind. -/
theorem Follows.counter_eq (h : c.Follows w) (kind : Kind) :
    c.emittedOf kind = c.records.countP (·.Reports kind) := by
  have hstart : ¬c.startRecord.Reports kind := by simp [LogRecord.Reports, startRecord]
  have hend : c.endRecord?.toList.countP (·.Reports kind) = 0 := by
    rw [List.countP_eq_zero]
    intro r hr
    rw [Option.mem_toList, endRecord?] at hr
    split at hr <;> cases hr <;> simp [LogRecord.Reports]
  rw [emittedOf_eq, h.emittedKinds_eq, h.records_eq, List.cons_append, List.countP_cons,
    List.countP_append, hend, List.countP_map, List.count, List.countP_map]
  simp [hstart, Function.comp_def, FinishedNode.reports_record, Bool.beq_eq_decide_eq]

/-- A compilation that is a walk has a program, or it failed; then the walk may have had an end. -/
theorem Follows.ok_or_failed (h : c.Follows w) :
    (∃ p, c.result = .ok p ∧ w.error? = none ∧ w.emissions.map (·.code) = p.body.codes) ∨
      ∃ e, c.result = .error (.failed e) ∧ (w.error? = some e ∨ w.error? = none) := by
  cases hw : w.error? with
  | some e => exact .inr ⟨e, h.stopped e hw, .inl rfl⟩
  | none =>
    rcases h.ended hw with ⟨p, hp, hcodes⟩ | hnone | hempty
    · exact .inl ⟨p, hp, rfl, hcodes⟩
    · exact .inr ⟨_, hnone, .inr rfl⟩
    · exact .inr ⟨_, hempty, .inr rfl⟩

theorem Follows.exists_endRecord (h : c.Follows w) : ∃ last, c.endRecord? = some last := by
  rcases h.ok_or_failed with ⟨p, hp, -, -⟩ | ⟨e, he, -⟩
  · exact ⟨_, by rw [endRecord?, hp]⟩
  · exact ⟨_, by rw [endRecord?, he]⟩

theorem debug_le_level {r : LogRecord} (h : r ∈ c.records) : LogLevel.debug ≤ r.level := by
  have hinfo : LogLevel.debug ≤ LogLevel.info := by decide
  have hwarn : LogLevel.debug ≤ LogLevel.warn := by decide
  simp only [records, List.mem_cons, List.mem_append, List.mem_filterMap, Option.mem_toList] at h
  rcases h with (rfl | ⟨e, -, he⟩) | hend
  · exact hinfo
  · cases e with
    | emitted node kind lines =>
      cases he
      exact Int.le_refl _
    | _ => cases he
  · rw [endRecord?] at hend
    split at hend <;> cases hend
    · exact hinfo
    · exact hwarn

/-- What a compilation shows of a walk. -/
structure Mirrors (c : Compilation) (w : Walk) : Prop where
  /-- A record for the start, one for each node that became code, and one for the end. -/
  log : ∃ last, c.endRecord? = some last ∧
    c.records = c.startRecord :: w.emissions.map FinishedNode.record ++ [last]
  /-- All of it is visible at the lowest level. -/
  visible : LogRecord.visible c.records .debug = c.records
  counted : ∀ kind, c.emittedOf kind = c.records.countP (·.Reports kind)
  total : ∀ p, c.result = .ok p → c.emittedTotal = p.emitted
  /-- The spans of the walk, each inside of the node around it, and the compilation around them. -/
  spans : c.spans = w.spans 0 w.size ++ [⟨.compilation, none, c.error?⟩]
  /-- What starts is what ends. -/
  started : (c.events.filterMap Event.started?).Perm (c.spans.dropLast.map (·.subject))
  parents : ∀ before node kind after, c.events = before ++ .opened node kind :: after →
    ∃ (i j : Nat) (error : Option CompileError),
      c.spans[i]? = some ⟨.node node kind, some j, error⟩ ∧
      c.spans[j]?.map (·.subject) = some (Walk.enclosing (underWay [] before))
  succeeded : ∀ p, c.result = .ok p → ∀ s ∈ c.spans, s.error = none
  /-- The error ends the nodes that are under way when it arises, and the compilation. -/
  failed : ∀ e, c.error? = some e →
    c.spans.filterMap Span.failure? =
      w.pending.map (fun (node, kind) => (.node node kind, e)) ++ [(.compilation, e)] ∧
    ∃ before, c.events = before ++ List.replicate w.pending.length (.closed (some e)) ∧
      (∀ error, .closed error ∈ before → error = none) ∧ underWay [] before = w.pending

theorem Follows.mirrors (h : c.Follows w) : c.Mirrors w where
  log := by
    obtain ⟨last, hlast⟩ := h.exists_endRecord
    exact ⟨last, hlast, by rw [h.records_eq, hlast]; rfl⟩
  visible := List.filter_eq_self.2 fun r hr => decide_eq_true (debug_le_level hr)
  counted := h.counter_eq
  total p hp := by
    rcases h.ok_or_failed with ⟨p', hp', -, hcodes⟩ | ⟨e, he, -⟩
    · obtain rfl : p = p' := by simpa [hp] using hp'
      rw [emittedTotal_eq, h.emittedKinds_eq, Program.emitted, ← Block.length_codes, ← hcodes]
      simp
    · simp [hp] at he
  spans := h.spans_eq
  started := by
    rw [h.events, h.spans_eq, List.dropLast_concat]
    exact w.started_perm 0 w.size
  parents _ _ _ _ := h.exists_parent
  succeeded p hp := by
    rcases h.ok_or_failed with ⟨p', -, hnone, -⟩ | ⟨e, he, -⟩
    · have hfailures := Walk.failures_spans h.proper 0 w.size
      rw [Walk.pending_eq_nil h.proper hnone, List.filterMap_nil, List.filterMap_eq_nil_iff]
        at hfailures
      rw [h.spans_eq, List.forall_mem_append]
      refine ⟨fun s hs => by simpa [Span.failure?] using hfailures s hs, ?_⟩
      simp [error?, hp]
    · simp [hp] at he
  failed e he := by
    have hfailures := Walk.failures_spans h.proper 0 w.size
    obtain ⟨before, hevents, hnone, hstack⟩ := Walk.events_split h.proper
    have hw : w.error? = some e ∨ w.pending = [] := by
      rcases h.ok_or_failed with ⟨p, hp, -, -⟩ | ⟨e', he', hw⟩
      · simp [error?, hp] at he
      · obtain rfl : e' = e := by simpa [error?, he', Halt.error?] using he
        exact hw.imp_right (Walk.pending_eq_nil h.proper)
    have hlast : Span.failure? ⟨.compilation, none, c.error?⟩ = some (.compilation, e) := by
      rw [he]
      rfl
    rw [h.spans_eq, List.filterMap_append, hfailures, h.events, hevents]
    rcases hw with hw | hw
    · refine ⟨by simp [hw, hlast], before, by rw [hw], hnone, ?_⟩
      rw [hstack, List.append_nil]
    · refine ⟨by simp [hw, hlast], before, by simp [hw], hnone, ?_⟩
      rw [hstack, List.append_nil]

end Compilation

/-- Log, counters and spans of every compilation that does not stop abruptly show the walk that the
compilation is. -/
theorem Graph.compile_mirrors (g : Graph) (h : g.compile.result ≠ .error .aborted) :
    ∃ w, g.Walks w ∧ g.compile.Follows w ∧ g.compile.Mirrors w := by
  obtain ⟨w, hwalks, hw⟩ := exists_walks h
  exact ⟨w, hwalks, hw, hw.mirrors⟩

namespace Graph

/-- A loop whose body fetches dates and leads back to the loop. -/
def loopedDates : Graph where
  nodes := [.ofKind "s" .strategyConfig, .ofKind "f" .forEach, .ofKind "d" .fetchDates]
  connections :=
    [⟨⟨"s", "exec", "f", "exec"⟩, "c1"⟩, ⟨⟨"f", "loopBody", "d", "exec"⟩, "c2"⟩,
      ⟨⟨"d", "exec", "f", "exec"⟩, "c3"⟩]

/-- The loop is entered once more before the cycle is seen. -/
theorem controlFrom_loopedDates :
    loopedDates.controlFrom [] ⟨"s", "exec"⟩ = .loop (.ofKind "f" .forEach)
      (.action (.ofKind "d" .fetchDates) .fetchDates
        (.loop (.ofKind "f" .forEach) (.cycle ⟨"f", "loopBody"⟩) .stop)) .stop := by
  have hcycle : loopedDates.controlFrom [⟨"d", "exec"⟩, ⟨"f", "loopBody"⟩, ⟨"s", "exec"⟩]
      ⟨"f", "loopBody"⟩ = .cycle ⟨"f", "loopBody"⟩ := by
    rw [controlFrom, dif_pos (by decide)]
  have hagain : loopedDates.controlFrom [⟨"f", "loopBody"⟩, ⟨"s", "exec"⟩] ⟨"d", "exec"⟩ =
      .loop (.ofKind "f" .forEach) (.cycle ⟨"f", "loopBody"⟩) .stop := by
    rw [controlFrom_of_next? (n := .ofKind "f" .forEach) (by decide) rfl]
    simp only [Node.ofKind, NodeConfig.role, Settings.default, hcycle, Control.isComplete]
    rfl
  have hbody : loopedDates.controlFrom [⟨"s", "exec"⟩] ⟨"f", "loopBody"⟩ =
      .action (.ofKind "d" .fetchDates) .fetchDates
        (.loop (.ofKind "f" .forEach) (.cycle ⟨"f", "loopBody"⟩) .stop) := by
    rw [controlFrom_of_next? (n := .ofKind "d" .fetchDates) (by decide) rfl, ← hagain]
    rfl
  rw [controlFrom_of_next? (n := .ofKind "f" .forEach) (by decide) rfl]
  simp only [Node.ofKind, NodeConfig.role, Settings.default, hbody, Control.isComplete]
  rfl

/-- The fetch ends without an error, both turns of the loop and the compilation with the cycle. -/
theorem loopedDates_mirrors :
    loopedDates.compile.result ≠ .error .aborted ∧
    (∃ w, loopedDates.Walks w ∧ loopedDates.compile.Follows w ∧ loopedDates.compile.Mirrors w) ∧
    loopedDates.compile.spans =
      [⟨.node "d" .fetchDates, some 2, none⟩,
        ⟨.node "f" .forEach, some 2, some (.cycle ⟨"f", "loopBody"⟩)⟩,
        ⟨.node "f" .forEach, some 3, some (.cycle ⟨"f", "loopBody"⟩)⟩,
        ⟨.compilation, none, some (.cycle ⟨"f", "loopBody"⟩)⟩] := by
  have hcompile : loopedDates.compile = ⟨3, 3,
      [.opened "f" .forEach, .opened "d" .fetchDates, .emitted "d" .fetchDates 1, .closed none,
        .opened "f" .forEach, .closed (some (.cycle ⟨"f", "loopBody"⟩)),
        .closed (some (.cycle ⟨"f", "loopBody"⟩))],
      .error (.failed (.cycle ⟨"f", "loopBody"⟩))⟩ := by
    have hroot : ∃ settings, loopedDates.root? = some (.ofKind "s" .strategyConfig, settings) :=
      ⟨_, rfl⟩
    obtain ⟨settings, hroot⟩ := hroot
    have hstart : start (.ofKind "s" .strategyConfig) = ⟨"s", "exec"⟩ := rfl
    simp only [compile, hroot, lowerFrom, hstart, controlFrom_loopedDates]
    rfl
  have hresult : loopedDates.compile.result ≠ .error .aborted := by simp [hcompile]
  refine ⟨hresult, compile_mirrors loopedDates hresult, ?_⟩
  rw [hcompile]
  rfl

end Graph

end TradeFlow
