import TradeFlow.Proofs.Document.Json

/-!
Graphs stored as JSON.

JSON writes a whole number with all its digits and reads it as a double, so an interval comes back
only if it is a double itself. What is proved:

1. `Settings.restored_viaJson_eq_iff`: settings come back unchanged exactly if their interval is a
   double. Up to `2 ^ 53` every interval is (`Settings.intervalExact_of_le`).
2. `Graph.Storable.exists_viaJson`: a graph is written, accepted and built again without a report,
   with the settings that JSON restores.
3. `Document.build_viaJson`: both together.
-/

namespace TradeFlow

/-! ## Settings -/

/-- The names under which the settings of a kind are written out. -/
def Kind.settingNames : Kind → List String
  | .strategyConfig => ["endTime", "intervalMinutes", "startTime", "strategyName", "tags"]
  | .fetchShortlist => ["datetime", "shortlistType", "useCurrentTimestamp"]
  | .fetchShortlistPersistence => ["endDatetime", "shortlistType", "startDatetime"]
  | .fetchCandles =>
    ["endDatetime", "interval", "startDatetime", "symbol", "useCurrentTimestampAsEnd"]
  | .fetchQuote => ["symbol"]
  | .placeOrder =>
    ["datetime", "entryPrice", "nseSymbol", "priceMode", "stopLossPercent", "stopLossPrice",
      "takeProfitPercent", "takeProfitPrice", "useCurrentTimestamp"]
  | .conditional => ["compareValue", "field", "operator"]
  | .fetchDates | .fetchHolidays | .forEach => []

theorem Kind.nodup_settingNames (kind : Kind) : kind.settingNames.Nodup := by
  cases kind <;> decide

theorem Kind.clean_settingNames (kind : Kind) : ∀ name ∈ kind.settingNames, Clean name := by
  cases kind <;> decide

theorem Kind.clean_name (kind : Kind) : Clean kind.name := by
  cases kind <;> decide

namespace Settings

theorem keys_eq (s : Settings) : (s.entries?.getD []).map (·.1) = s.kind.settingNames := by
  cases s <;> rfl

/-- The interval, if there is one, is a double. -/
def IntervalExact : Settings → Prop
  | .strategyConfig s => ∃ x : Binary64, x.toInt? = some s.intervalMinutes
  | _ => True

theorem fitsInt64_interval {s : StrategyConfig}
    (h : ∀ e ∈ (strategyConfig s).entries?.getD [], e.2.Writable) :
    Value.fitsInt64 s.intervalMinutes = true := by
  have hnodup := (strategyConfig s).keys_eq ▸ Kind.nodup_settingNames _
  have hmem : ("intervalMinutes", Value.int s.intervalMinutes) ∈
      (strategyConfig s).entries?.getD [] := (Entries.get?_eq_some_iff hnodup).1 rfl
  exact h _ hmem

instance : DecidablePred IntervalExact
  | .strategyConfig _ => decidable_of_iff _ Binary64.toInt?_ofInt_iff
  | .fetchShortlist _ | .fetchShortlistPersistence _ | .fetchCandles _ | .fetchQuote _ | .fetchDates
  | .fetchHolidays | .placeOrder _ | .forEach | .conditional _ => .isTrue trivial

/-- Intervals up to `2 ^ 53` are doubles. -/
theorem intervalExact_of_le {s : StrategyConfig} (h : s.intervalMinutes.natAbs ≤ Nat.pow 2 53) :
    (strategyConfig s).IntervalExact := Binary64.exists_toInt?_of_le h

/-- The interval that is read back, or the one of the default. -/
theorem intervalMinutes_viaJson {i : Int} (h : Value.fitsInt64 i = true) :
    ((Binary64.ofInt i).toInt?.filter Value.fitsInt64).getD 1 = i ↔
      (Binary64.ofInt i).toInt? = some i := by
  constructor
  · intro heq
    cases hread : (Binary64.ofInt i).toInt?.filter Value.fitsInt64 with
    | some j =>
      rw [hread] at heq
      exact (Option.filter_eq_some_iff.1 hread).1.trans (congrArg some heq)
    | none =>
      -- the default is a double itself
      rw [hread] at heq
      obtain rfl : 1 = i := heq
      exact Binary64.toInt?_ofInt_iff.2 (Binary64.exists_toInt?_of_le (by decide))
  · intro heq
    rw [heq, Option.filter_some, h]
    rfl

/-- Settings stay as they are exactly if their interval is a double. -/
theorem restored_viaJson_eq_iff {s : Settings} (h : ∀ e ∈ s.entries?.getD [], e.2.Writable) :
    restored Value.viaJson (default s.kind) s = s ↔ s.IntervalExact := by
  cases s with
  | strategyConfig s =>
    rw [IntervalExact, ← Binary64.toInt?_ofInt_iff,
      ← intervalMinutes_viaJson (fitsInt64_interval h)]
    obtain ⟨start, stop, interval, name, tags⟩ := s
    constructor
    · intro heq
      exact congrArg StrategyConfig.intervalMinutes (Settings.strategyConfig.inj heq)
    · intro heq
      exact congrArg (fun i => strategyConfig ⟨start, stop, i, name, tags⟩) heq
  | _ => exact ⟨fun _ => trivial, fun _ => rfl⟩

end Settings

/-! ## Graphs -/

/-- The interval of sealed settings, if there is one, is a double. -/
def NodeConfig.IntervalExact : NodeConfig → Prop
  | .sealed s => s.IntervalExact
  | _ => True

instance : DecidablePred NodeConfig.IntervalExact
  | .sealed s => inferInstanceAs (Decidable s.IntervalExact)
  | .draft _ | .bare => .isTrue trivial

namespace Node

/-- A node whose texts are clean and whose numbers JSON has a form for. -/
structure Writable (n : Node) : Prop where
  id_clean : Clean n.id
  settings : ∀ e ∈ n.config.entries?.getD [], e.2.Writable

instance (n : Node) : Decidable n.Writable :=
  decidable_of_iff (Clean n.id ∧ ∀ e ∈ n.config.entries?.getD [], e.2.Writable)
    ⟨fun ⟨hid, hsettings⟩ => ⟨hid, hsettings⟩, fun h => ⟨h.1, h.2⟩⟩

variable {n : Node}

theorem described_writable (h : n.Writable) {s : Settings} (hs : n.config = .sealed s)
    (hx : n.position.x.isFinite = true) (hy : n.position.y.isFinite = true) :
    n.described.Writable where
  id_clean := h.id_clean
  kind_clean := by
    rw [described, kind?, hs]
    exact s.kind.clean_name
  x_finite := hx
  y_finite := hy
  config := by
    intro e he
    refine ⟨?_, h.settings e he⟩
    rw [described, hs] at he
    exact s.kind.clean_settingNames e.1 (s.keys_eq ▸ List.mem_map_of_mem he)

theorem describedBy_viaJson {s : Settings} (hs : n.config = .sealed s) :
    n.DescribedBy Value.viaJson n.described.viaJson where
  id_eq := rfl
  kind_eq := rfl
  position_eq := rfl
  get?_eq := by
    refine Document.get?_configViaJson ?_
    rw [described, hs]
    exact s.keys_eq ▸ s.kind.nodup_settingNames

/-- A node stays as it is exactly if its interval, if it has one, is a double. -/
theorem restored_viaJson_eq_iff (h : n.Writable) {s : Settings} (hs : n.config = .sealed s) :
    n.restored Value.viaJson = n ↔ n.config.IntervalExact := by
  have hsettings : ∀ e ∈ s.entries?.getD [], e.2.Writable := by
    have hall := h.settings
    rwa [hs] at hall
  have hexact : n.config.IntervalExact ↔ s.IntervalExact := by
    rw [hs]
    rfl
  rw [hexact, ← Settings.restored_viaJson_eq_iff hsettings]
  obtain ⟨i, p, config⟩ := n
  subst hs
  constructor
  · intro heq
    exact NodeConfig.sealed.inj (congrArg Node.config heq)
  · intro heq
    exact congrArg (fun s => (⟨i, p, .sealed s⟩ : Node)) heq

end Node

namespace Graph

/-- A graph whose texts are clean and whose numbers JSON has a form for. -/
structure Writable (g : Graph) : Prop where
  nodes : ∀ n ∈ g.nodes, n.Writable
  connections : ∀ c ∈ g.connections, c.Writable

instance (g : Graph) : Decidable g.Writable :=
  decidable_of_iff ((∀ n ∈ g.nodes, n.Writable) ∧ ∀ c ∈ g.connections, c.Writable)
    ⟨fun ⟨hnodes, hconnections⟩ => ⟨hnodes, hconnections⟩, fun h => ⟨h.1, h.2⟩⟩

variable {g : Graph}

/-- The document of a graph without bare nodes. -/
def described (g : Graph) : Document :=
  ⟨Document.currentVersion, some (g.nodes.map Node.described), some g.connections⟩

theorem Storable.described_writable (h : g.Storable) (hwritable : g.Writable) :
    g.described.Writable where
  version_fits := (by decide : Value.fitsInt64 Document.currentVersion = true)
  nodes := by
    refine List.forall_mem_map.2 fun n hn => ?_
    obtain ⟨s, hs, -⟩ := h.fits n hn
    exact Node.described_writable (hwritable.nodes n hn) hs (h.finite n hn).1 (h.finite n hn).2
  connections := hwritable.connections

theorem Storable.describedBy_viaJson (h : g.Storable) :
    ∀ n ∈ g.nodes, n.DescribedBy Value.viaJson n.described.viaJson := by
  intro n hn
  obtain ⟨s, hs, -⟩ := h.fits n hn
  exact Node.describedBy_viaJson hs

/-- A graph that can be stored comes back from JSON with its settings as JSON restores them. -/
theorem Storable.exists_viaJson (h : g.Storable) (hwritable : g.Writable) (supply : IdSupply) :
    ∃ saved text read e, Document.ofGraph? g = some saved ∧ saved.encode "json" = .ok text ∧
      Document.decode "json" text = .ok read ∧ read.build supply = .ok (e, []) ∧
      e.graph = g.restored Value.viaJson := by
  have hsaved : Document.ofGraph? g = some g.described := ofGraph?_eq h.wellFormed.isSealed
  have hnodes : g.described.viaJson.nodeList = g.nodes.map fun n => n.described.viaJson :=
    List.map_map
  obtain ⟨text, htext, hread⟩ := (h.described_writable hwritable).exists_text
  obtain ⟨e, hbuild, hgraph⟩ := h.exists_build Value.transparent_viaJson
    (d := g.described.viaJson) rfl hnodes h.describedBy_viaJson rfl supply
  exact ⟨g.described, text, g.described.viaJson, e, hsaved, Document.encode_json htext,
    Document.decode_json hread (Document.valid_of_build hbuild), hbuild, hgraph⟩

/-- A graph stays as it is exactly if every interval is a double. -/
theorem Storable.restored_viaJson_eq_iff (h : g.Storable) (hwritable : g.Writable) :
    g.restored Value.viaJson = g ↔ ∀ n ∈ g.nodes, n.config.IntervalExact := by
  have hnodes : g.restored Value.viaJson = g ↔
      ∀ n ∈ g.nodes, n.restored Value.viaJson = n := by
    constructor
    · intro heq
      have hmap : g.nodes.map (Node.restored Value.viaJson) = g.nodes.map id :=
        (congrArg Graph.nodes heq).trans (List.map_id _).symm
      exact List.map_inj_left.1 hmap
    · intro hall
      have hmap : g.nodes.map (Node.restored Value.viaJson) = g.nodes :=
        (List.map_congr_left hall).trans (List.map_id _)
      exact congrArg (fun nodes => (⟨nodes, g.connections⟩ : Graph)) hmap
  rw [hnodes]
  refine forall₂_congr fun n hn => ?_
  obtain ⟨s, hs, -⟩ := h.fits n hn
  exact Node.restored_viaJson_eq_iff (hwritable.nodes n hn) hs

end Graph

namespace Document

/-- A graph that was built without a report is written as JSON, and this is accepted and built again
without a report. The graph is the same again exactly if every interval is a double; otherwise the
intervals are the only settings that differ. -/
theorem build_viaJson {d : Document} {supply : IdSupply} {e : Editor}
    (hbuild : d.build supply = .ok (e, [])) (hids : ∀ i, supply.ids i ≠ "")
    (hwritable : e.graph.Writable) (supply' : IdSupply) :
    ∃ saved text read e', ofGraph? e.graph = some saved ∧ saved.encode "json" = .ok text ∧
      decode "json" text = .ok read ∧ read.build supply' = .ok (e', []) ∧
      e'.graph = e.graph.restored Value.viaJson ∧
      (e'.graph = e.graph ↔ ∀ n ∈ e.graph.nodes, n.config.IntervalExact) := by
  have hstorable := Graph.Storable.of_build hbuild hids
  obtain ⟨saved, text, read, e', hsaved, htext, hread, hbuild', hgraph⟩ :=
    hstorable.exists_viaJson hwritable supply'
  refine ⟨saved, text, read, e', hsaved, htext, hread, hbuild', hgraph, ?_⟩
  rw [hgraph]
  exact hstorable.restored_viaJson_eq_iff hwritable

/-- A strategy that runs at an interval. -/
def scheduledDocument (interval : Int) : Document where
  version := currentVersion
  nodes := some
    [⟨"s", "StrategyConfig", ⟨0, 0⟩,
        some [("intervalMinutes", .int interval), ("tags", .strings ["a<b", "c"])]⟩,
      ⟨"o", "PlaceOrder", ⟨0, 1⟩, some [("nseSymbol", .string "INFY")]⟩]
  connections := some [⟨⟨"s", "exec", "o", "exec"⟩, ""⟩]

theorem repeatingIds_ne_empty (i : Nat) : repeatingIds.ids i ≠ "" := by
  show "id" ≠ ""
  decide

/-- The largest interval up to which every interval is kept. -/
theorem scheduledDocument_kept :
    ∃ e saved text read e', (scheduledDocument (2 ^ 53)).build repeatingIds = .ok (e, []) ∧
      ofGraph? e.graph = some saved ∧ saved.encode "json" = .ok text ∧
      decode "json" text = .ok read ∧ read.build repeatingIds = .ok (e', []) ∧
      e'.graph = e.graph := by
  obtain ⟨e, hbuild⟩ : ∃ e, (scheduledDocument (2 ^ 53)).build repeatingIds = .ok (e, []) :=
    exists_build_of_run (by decide +kernel)
  obtain ⟨-, hgraph, -⟩ := graph_of_build hbuild
  have hwritable : e.graph.Writable := by
    rw [hgraph]
    decide +kernel
  obtain ⟨saved, text, read, e', hsaved, htext, hread, hbuild', -, hsame⟩ :=
    build_viaJson hbuild repeatingIds_ne_empty hwritable repeatingIds
  refine ⟨e, saved, text, read, e', hbuild, hsaved, htext, hread, hbuild', hsame.2 ?_⟩
  rw [hgraph]
  decide +kernel

/-- The next interval is not kept. -/
theorem scheduledDocument_changed :
    ∃ e saved text read e', (scheduledDocument (2 ^ 53 + 1)).build repeatingIds = .ok (e, []) ∧
      e.graph.Writable ∧ ofGraph? e.graph = some saved ∧ saved.encode "json" = .ok text ∧
      decode "json" text = .ok read ∧ read.build repeatingIds = .ok (e', []) ∧
      e'.graph ≠ e.graph ∧
      e.graph.root?.map (·.2.intervalMinutes) = some (2 ^ 53 + 1) ∧
      e'.graph.root?.map (·.2.intervalMinutes) = some (2 ^ 53) := by
  obtain ⟨e, hbuild⟩ : ∃ e, (scheduledDocument (2 ^ 53 + 1)).build repeatingIds = .ok (e, []) :=
    exists_build_of_run (by decide +kernel)
  obtain ⟨-, hgraph, -⟩ := graph_of_build hbuild
  have hwritable : e.graph.Writable := by
    rw [hgraph]
    decide +kernel
  obtain ⟨saved, text, read, e', hsaved, htext, hread, hbuild', hgraph'⟩ :=
    (Graph.Storable.of_build hbuild repeatingIds_ne_empty).exists_viaJson hwritable repeatingIds
  have hinterval : e.graph.root?.map (·.2.intervalMinutes) = some (2 ^ 53 + 1) := by
    rw [hgraph]
    decide +kernel
  have hinterval' : e'.graph.root?.map (·.2.intervalMinutes) = some (2 ^ 53) := by
    rw [hgraph', hgraph]
    decide +kernel
  refine ⟨e, saved, text, read, e', hbuild, hwritable, hsaved, htext, hread, hbuild', ?_, hinterval,
    hinterval'⟩
  intro heq
  rw [heq, hinterval] at hinterval'
  exact absurd hinterval' (by decide)

end Document

end TradeFlow
