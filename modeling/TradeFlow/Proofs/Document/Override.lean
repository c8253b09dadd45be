import TradeFlow.Document.Build
import TradeFlow.Proofs.Compile.Capabilities
import TradeFlow.Proofs.Compile.Edited
import TradeFlow.Proofs.Compile.Walk
import TradeFlow.Proofs.Json.Number
import TradeFlow.Proofs.Program.Segments

/-!
Settings read on top of those of a strategy.

The settings of the root stand at the end of the program and nowhere else: control never comes back to
the root, and what its outputs stand for does not depend on its settings. What is proved:

1. `Program.lines_source_settings`: the lines of a program, with those of the settings behind the line
   that closes the function.
2. `Settings.overlay_strategyConfig`: strategy settings take every well-typed value and report nothing.
3. `Graph.WellFormed.compile_withSettings`: other settings at the root leave everything about the
   compilation but the settings of its program.
4. `Graph.edited_graph_settings`: so applying settings to an edited graph changes the lines that show
   them, and nothing else of the text.
-/

namespace TradeFlow

/-! ## Lines that show settings -/

namespace Program

/-- The lines that show settings. The name and the tags have theirs only if there are any. -/
def settingLines (s : StrategyConfig) : List String :=
  ["  startTime: " ++ (strategyLiteral "startTime" s.startTime).text ++ ",",
    "  endTime: " ++ (strategyLiteral "endTime" s.endTime).text ++ ",",
    "  intervalMinutes: " ++ intText s.intervalMinutes ++ ","] ++
  (if s.strategyName = "" then []
    else ["  name: " ++ (strategyLiteral "strategyName" s.strategyName).text ++ ","]) ++
  (if s.tags = [] then []
    else ["  tags: [" ++ ",".intercalate ((tagLiterals s.tags).map TextLiteral.text) ++ "],"])

theorem newline_not_mem_tags (tags : List String) :
    '\n' ∉ (",".intercalate ((tagLiterals tags).map TextLiteral.text)).toList := by
  rw [String.toList_intercalate]
  refine newline_not_mem_intercalate (by decide) fun line hline => ?_
  rw [List.map_map] at hline
  obtain ⟨l, -, rfl⟩ := List.mem_map.1 hline
  exact l.newline_not_mem

theorem newline_not_mem_settingLines (s : StrategyConfig) :
    ∀ line ∈ settingLines s, '\n' ∉ line.toList := by
  have hline : ∀ before value after : String, '\n' ∉ before.toList → '\n' ∉ value.toList →
      '\n' ∉ after.toList → '\n' ∉ (before ++ value ++ after).toList :=
    fun _ _ _ hbefore hvalue hafter =>
      newline_not_mem_append (newline_not_mem_append hbefore hvalue) hafter
  intro line hmem
  simp only [settingLines, List.mem_append, List.mem_cons, List.not_mem_nil, or_false,
    List.mem_ite_nil_left] at hmem
  rcases hmem with ((rfl | rfl | rfl) | ⟨-, rfl⟩) | ⟨-, rfl⟩
  · exact hline _ _ _ (by decide) (TextLiteral.newline_not_mem _) (by decide)
  · exact hline _ _ _ (by decide) (TextLiteral.newline_not_mem _) (by decide)
  · exact hline _ _ _ (by decide) (Json.newline_not_mem_intText _) (by decide)
  · exact hline _ _ _ (by decide) (TextLiteral.newline_not_mem _) (by decide)
  · exact hline _ _ _ (by decide) (newline_not_mem_tags _) (by decide)

theorem closing_eq_under (s : StrategyConfig) :
    closing s = under (settingLines s) "\x7d);\n" := by
  have hcomma : ",\n" = "," ++ "\n" := by decide
  have hname : "\n  name: " = "\n" ++ "  name: " := by decide
  have htags : "\n  tags: [" = "\n" ++ "  tags: [" := by decide
  have hend : "\n\x7d);\n" = "\n" ++ "\x7d);\n" := by decide
  unfold closing nameLine tagsLine settingLines
  rw [hcomma, hname, htags, hend]
  by_cases hn : s.strategyName = "" <;> by_cases ht : s.tags = [] <;>
    simp only [hn, ht, under, List.isEmpty_iff, List.isEmpty_nil, if_true, if_false, List.append_nil,
      List.cons_append, List.nil_append, List.foldr_cons, List.foldr_nil, String.append_assoc,
      String.empty_append]

/-- The lines of a program: the heading, the body, the end of the function, the settings and the end. -/
theorem lines_source_settings (p : Program) :
    lines p.source.toList =
      (heading p.capabilities).map String.toList ++ linesAt 2 p.body.text ++ ["  \x7d,".toList] ++
        (settingLines p.settings).map String.toList ++ ["\x7d);".toList, []] := by
  have hclose : lines ("  \x7d,\n" ++ closing p.settings).toList =
      ["  \x7d,".toList] ++ lines (closing p.settings).toList := by
    have htext : ("  \x7d,\n" ++ closing p.settings).toList =
        "  \x7d,".toList ++ '\n' :: (closing p.settings).toList := by
      rw [String.toList_append]
      rfl
    rw [htext, lines_append]
    rfl
  have hend : lines "\x7d);\n".toList = ["\x7d);".toList, []] := by decide
  rw [lines_source, hclose, closing_eq_under,
    lines_under (newline_not_mem_settingLines p.settings), hend]
  simp only [List.append_assoc]

end Program

/-! ## Overlaid settings -/

/-- The setting under a key is what the entry says, if there is one of the right type, and else what it
was. -/
def Entries.Overrides {α : Type} (c : Entries) (key : String) (read? : Value → Option α)
    (old new : α) : Prop :=
  (∃ value, c.get? key = some value ∧ read? value = some new) ∨
    ((∀ value, c.get? key = some value → read? value = none) ∧ new = old)

theorem Entries.overrides_getD {α : Type} (c : Entries) (key : String) (read? : Value → Option α)
    (old : α) : c.Overrides key read? old (((c.get? key).bind read?).getD old) := by
  cases hvalue : c.get? key with
  | none => exact .inr ⟨by simp [hvalue], rfl⟩
  | some value =>
    cases hread : read? value with
    | none => exact .inr ⟨by simp [hvalue, hread], by simp [hread]⟩
    | some new => exact .inl ⟨value, hvalue, by simp [hread]⟩

/-- Strategy settings with entries on top of them. -/
structure StrategyConfig.Overlaid (s : StrategyConfig) (c : Entries) (s' : StrategyConfig) : Prop where
  startTime : c.Overrides "startTime" Value.asString? s.startTime s'.startTime
  endTime : c.Overrides "endTime" Value.asString? s.endTime s'.endTime
  intervalMinutes : c.Overrides "intervalMinutes" Value.asInt? s.intervalMinutes s'.intervalMinutes
  strategyName : c.Overrides "strategyName" Value.asString? s.strategyName s'.strategyName
  tags : c.Overrides "tags" Value.asStrings? s.tags s'.tags

theorem Settings.overlay_strategyConfig (s : StrategyConfig) (c : Entries) :
    ∃ s', s.Overlaid c s' ∧ (Settings.strategyConfig s).overlay c = (.strategyConfig s', []) :=
  ⟨_, ⟨c.overrides_getD _ _ _, c.overrides_getD _ _ _, c.overrides_getD _ _ _,
    c.overrides_getD _ _ _, c.overrides_getD _ _ _⟩, rfl⟩

/-! ## Other settings at the root -/

namespace Graph

variable {g g' : Graph} {ref : OutputRef} {flow : Control} {root : Node}
  {settings settings' : StrategyConfig}

/-- A flow depends only on the steps of control from its start. -/
theorem Unfolds.congr (h : g.Unfolds ref flow)
    (hnext : ∀ p, g.Reaches ref p → g'.next? p = g.next? p) : g'.Unfolds ref flow := by
  induction h with
  | stop hn => exact .stop ((hnext _ .refl).trans hn)
  | silent hn hr _ ih =>
    have hstep := (follow_iff_of_silent hn hr).2 rfl
    exact .silent ((hnext _ .refl).trans hn) hr (ih fun p hp => hnext p (.head hstep hp))
  | action hn hr _ ih =>
    have hstep := (follow_iff_of_action hn hr).2 rfl
    exact .action ((hnext _ .refl).trans hn) hr (ih fun p hp => hnext p (.head hstep hp))
  | loop hn hr _ _ ihbody ihrest =>
    have hbody := (follow_iff_of_loop hn hr).2 (.inl rfl)
    have hrest := (follow_iff_of_loop hn hr).2 (.inr rfl)
    exact .loop ((hnext _ .refl).trans hn) hr (ihbody fun p hp => hnext p (.head hbody hp))
      (ihrest fun p hp => hnext p (.head hrest hp))
  | branch hn hr _ _ ihyes ihno =>
    have hyes := (follow_iff_of_branch hn hr).2 (.inl rfl)
    have hno := (follow_iff_of_branch hn hr).2 (.inr rfl)
    exact .branch ((hnext _ .refl).trans hn) hr (ihyes fun p hp => hnext p (.head hyes hp))
      (ihno fun p hp => hnext p (.head hno hp))

/-- The graph with other strategy settings at a node. -/
def withSettings (g : Graph) (root : Node) (settings : StrategyConfig) : Graph :=
  { g with nodes := g.nodes.map fun n =>
      if n = root then { n with config := .sealed (.strategyConfig settings) } else n }

namespace WellFormed

theorem modifyNode_eq_withSettings (h : g.WellFormed) (hmem : root ∈ g.nodes) :
    g.modifyNode root.id ({ · with config := .sealed (.strategyConfig settings') }) =
      g.withSettings root settings' := by
  rw [modifyNode, withSettings]
  congr 1
  refine List.map_congr_left fun n hn => ?_
  have hsame : (n.id == root.id) = true ↔ n = root := by
    rw [beq_iff_eq]
    exact ⟨List.inj_on_of_nodup_map h.order_nodup hn hmem, congrArg Node.id⟩
  simp only [hsame]

theorem setConfig_root (h : g.WellFormed) (hroot : g.root? = some (root, settings)) :
    g.setConfig root.id (.sealed (.strategyConfig settings')) =
      .ok (g.withSettings root settings') := by
  obtain ⟨hmem, hkind⟩ := mem_of_root? h.isSealed hroot
  rw [Graph.setConfig, node?_of_mem h.order_nodup hmem]
  simp only [hkind, Settings.kind, if_true, h.modifyNode_eq_withSettings hmem]

theorem withSettings (h : g.WellFormed) (hroot : g.root? = some (root, settings))
    (settings' : StrategyConfig) : (g.withSettings root settings').WellFormed :=
  h.setConfig (h.setConfig_root hroot)

/-- The root stays the root. -/
theorem root?_withSettings (h : g.WellFormed) (hroot : g.root? = some (root, settings)) :
    (g.withSettings root settings').root? =
      some ({ root with config := .sealed (.strategyConfig settings') }, settings') := by
  have hkind := (mem_of_root? h.isSealed hroot).2
  -- every node keeps its kind, so the same node is the first one with strategy settings
  have hkinds : ∀ n : Node,
      (if n = root then { n with config := .sealed (.strategyConfig settings') } else n).kind? =
        n.kind? := by
    intro n
    split
    · next heq => rw [heq, hkind]; rfl
    · rfl
  have hfirst : (g.withSettings root settings').firstConfig? =
      some { root with config := .sealed (.strategyConfig settings') } := by
    have hroot' : g.firstConfig? = some root := by
      rw [← root?_map_fst h.isSealed, hroot]
      rfl
    rw [firstConfig?] at hroot'
    rw [firstConfig?, Graph.withSettings, List.find?_map]
    simp only [Function.comp_def, hkinds, hroot', Option.map_some, if_true]
  obtain ⟨settings'', hroot''⟩ :=
    exists_root? (h.withSettings hroot settings').isSealed hfirst
  have hconfig := (root?_eq_some hroot'').2
  cases hconfig
  exact hroot''

/-- Control does not come back to the root, so it takes the same way. -/
theorem next?_withSettings (h : g.WellFormed) (hroot : g.root? = some (root, settings))
    (href : g.Reaches (start root) ref) :
    (g.withSettings root settings').next? ref = g.next? ref := by
  obtain ⟨hmem, hkind⟩ := mem_of_root? h.isSealed hroot
  have hnode : ∀ id, (g.withSettings root settings').node? id = (g.node? id).map fun n =>
      if n = root then { n with config := .sealed (.strategyConfig settings') } else n :=
    node?_map fun n => by split <;> rfl
  have hleaving : (g.withSettings root settings').leaving? ref = g.leaving? ref := rfl
  rw [next?, next?, hleaving]
  cases hc : g.leaving? ref with
  | none => rfl
  | some c =>
    rw [Option.bind_some, Option.bind_some, hnode]
    cases hn : g.node? c.target with
    | none => rfl
    | some n =>
      have hvisits : g.Visits (start root) n :=
        ⟨ref, href, Option.bind_eq_some_iff.2 ⟨c, hc, hn⟩⟩
      have hne : n ≠ root := by
        rintro rfl
        exact h.kind?_ne_of_visits (h.isControl_start hmem hkind) hvisits hkind
      rw [Option.map_some, if_neg hne]

/-- Other settings at the root change the settings of the program, and nothing else. -/
theorem compile_withSettings (h : g.WellFormed) (hroot : g.root? = some (root, settings))
    (settings' : StrategyConfig) :
    (g.withSettings root settings').compile.result =
      g.compile.result.map fun p => { p with settings := settings' } := by
  obtain ⟨flow, known, block, hflow, hlow, -, hresult⟩ := h.compile_cases hroot
  obtain ⟨flow', known', block', hflow', hlow', -, hresult'⟩ :=
    (h.withSettings hroot settings').compile_cases (h.root?_withSettings hroot)
  -- the flow is the same, and what the root brings into scope depends on its id alone
  obtain rfl : flow = flow' :=
    (hflow.congr fun p hp => h.next?_withSettings hroot hp).unique hflow'
  obtain ⟨rfl, rfl⟩ := hlow.unique hlow'
  rw [hresult, hresult']
  split <;> rfl

/-- Applying settings replaces those of the root. -/
theorem applySettings_eq (h : g.WellFormed) (hroot : g.root? = some (root, settings)) (c : Entries) :
    ∃ settings', settings.Overlaid c settings' ∧
      g.applySettings c = .ok (g.withSettings root settings') := by
  obtain ⟨settings', hoverlaid, hoverlay⟩ := Settings.overlay_strategyConfig settings c
  refine ⟨settings', hoverlaid, ?_⟩
  have hconfig := (root?_eq_some hroot).2
  simp only [applySettings, hroot, NodeConfig.overlay, hconfig, hoverlay, List.map_nil,
    List.isEmpty_nil, if_true, h.setConfig_root hroot, Except.mapError]

end WellFormed

theorem applySettings_of_no_root (h : g.root? = none) (c : Entries) :
    g.applySettings c = .error .noConfigNode := by
  rw [applySettings, h]

/-- Settings can be applied to an edited graph unless it has no strategy settings, and then it stays as
it is. They change the settings of the root, from which every compilation starts. The graph compiles
as before, and of the program only the lines behind the end of its function change: they show the old
settings with the well-typed entries on top of them. -/
theorem edited_graph_settings (ids : Nat → String) (edits : List Edit) (c : Entries) :
    let g := edited ids edits
    ((∃ err, g.applySettings c = .error err) ↔ ∀ n ∈ g.nodes, n.kind? ≠ some .strategyConfig) ∧
    (∀ err, g.applySettings c = .error err → err = .noConfigNode ∧
      ∀ e : Editor, e.graph = g → e.apply (·.applySettings c) = (.error err, e)) ∧
    ∀ g', g.applySettings c = .ok g' → ∃ root settings settings',
      g.root? = some (root, settings) ∧ settings.Overlaid c settings' ∧
      g' = { g with nodes := g.nodes.map fun n =>
        if n = root then { n with config := .sealed (.strategyConfig settings') } else n } ∧
      (∀ halt, g'.compile.result = .error halt ↔ g.compile.result = .error halt) ∧
      ∀ p, g.compile.result = .ok p → ∃ p', g'.compile.result = .ok p' ∧
        p.configNode = root.id ∧ p.settings = settings ∧ p' = { p with settings := settings' } ∧
        p'.statements = p.statements ∧ p'.emitted = p.emitted ∧
        let front := (Program.heading p.capabilities).map String.toList ++ linesAt 2 p.body.text ++
          ["  \x7d,".toList]
        lines p.source.toList =
            front ++ (Program.settingLines settings).map String.toList ++ ["\x7d);".toList, []] ∧
          lines p'.source.toList =
            front ++ (Program.settingLines settings').map String.toList ++ ["\x7d);".toList, []] := by
  intro g
  have h : g.WellFormed := wellFormed_edited ids edits
  rw [← root?_eq_none_iff h.isSealed]
  cases hroot : g.root? with
  | none =>
    have hnone := applySettings_of_no_root hroot c
    refine ⟨⟨fun _ => rfl, fun _ => ⟨_, hnone⟩⟩, fun err herr => ?_, fun g' hok => ?_⟩
    · refine ⟨(Except.error.inj (hnone.symm.trans herr)).symm, ?_⟩
      intro e he
      rw [Editor.apply, he, herr]
    · rw [hnone] at hok
      cases hok
  | some found =>
    obtain ⟨root, settings⟩ := found
    obtain ⟨settings', hoverlaid, happlied⟩ := h.applySettings_eq hroot c
    have hcompile := h.compile_withSettings hroot settings'
    refine ⟨⟨?_, by simp⟩, fun err herr => ?_, fun g' hok => ?_⟩
    · rintro ⟨err, herr⟩
      rw [happlied] at herr
      cases herr
    · rw [happlied] at herr
      cases herr
    · rw [happlied] at hok
      cases hok
      refine ⟨root, settings, settings', rfl, hoverlaid, rfl, fun halt => ?_, fun p hp => ?_⟩
      · rw [hcompile]
        cases g.compile.result with
        | ok p => simp [Except.map]
        | error halt' => simp [Except.map]
      · rw [hp] at hcompile
        have hprogram : p.configNode = root.id ∧ p.settings = settings := by
          obtain ⟨root', settings'', _, _, hroot', -, -, -, hsame⟩ := compiled_cases hp
          rw [hroot] at hroot'
          cases hroot'
          exact ⟨congrArg Program.configNode hsame, congrArg Program.settings hsame⟩
        refine ⟨_, hcompile, hprogram.1, hprogram.2, rfl, rfl, rfl, ?_, ?_⟩
        · rw [p.lines_source_settings, hprogram.2]
        · rw [Program.lines_source_settings]

/-- A quote behind strategy settings that have neither a name nor tags. -/
def scheduledQuote : List Edit :=
  [.insert (some (.ofKind "s" .strategyConfig)), .insert (some (.ofKind "q" .fetchQuote)),
    .connectAs "c" ⟨"s", "exec", "q", "exec"⟩]

/-- A name, and an interval that is no number. -/
def namedEntries : Entries :=
  [("intervalMinutes", .string "5"), ("strategyName", .string "Momentum")]

/-- The program gets a line with the name, and the interval stays as it was. -/
theorem scheduledQuote_named :
    let g := edited (fun _ => "") scheduledQuote
    ∃ g' p p', g.applySettings namedEntries = .ok g' ∧ g.compile.result = .ok p ∧
      g'.compile.result = .ok p' ∧ p'.settings.strategyName = "Momentum" ∧
      p'.settings.intervalMinutes = p.settings.intervalMinutes ∧
      (lines p'.source.toList).length = (lines p.source.toList).length + 1 := by
  intro g
  obtain ⟨hfails, -, happly⟩ := edited_graph_settings (fun _ => "") scheduledQuote namedEntries
  have hsome : ¬ ∀ n ∈ g.nodes, n.kind? ≠ some .strategyConfig := by decide
  obtain ⟨g', hg'⟩ : ∃ g', g.applySettings namedEntries = .ok g' := by
    cases happlied : g.applySettings namedEntries with
    | error err => exact absurd (hfails.1 ⟨err, happlied⟩) hsome
    | ok g' => exact ⟨g', rfl⟩
  obtain ⟨root, settings, settings', hroot, hoverlaid, -, -, hprogram⟩ := happly g' hg'
  have hfound : g.root? = some (.ofKind "s" .strategyConfig, _) := rfl
  obtain ⟨rfl, rfl⟩ := Prod.mk.inj (Option.some.inj (hfound.symm.trans hroot))
  obtain ⟨p, hp, -⟩ := (wellFormed_edited (fun _ => "") scheduledQuote).exists_program hroot
    List.mem_cons_self rfl
  obtain ⟨p', hp', -, hsettings, rfl, -, -, hlines, hlines'⟩ := hprogram p hp
  have hname : settings'.strategyName = "Momentum" := by
    rcases hoverlaid.strategyName with ⟨value, hvalue, hread⟩ | ⟨hnone, -⟩
    · obtain rfl : Value.string "Momentum" = value := Option.some.inj hvalue
      exact (Option.some.inj hread).symm
    · exact absurd (hnone _ rfl) (by simp [Value.asString?])
  have hinterval : settings'.intervalMinutes = 1 := by
    rcases hoverlaid.intervalMinutes with ⟨value, hvalue, hread⟩ | ⟨-, hsame⟩
    · obtain rfl : Value.string "5" = value := Option.some.inj hvalue
      cases hread
    · exact hsame
  have htags : settings'.tags = [] := by
    rcases hoverlaid.tags with ⟨value, hvalue, hread⟩ | ⟨-, hsame⟩
    · cases hvalue
    · exact hsame
  refine ⟨g', p, _, hg', hp, hp', hname, by rw [hinterval, hsettings], ?_⟩
  rw [hlines, hlines']
  simp only [List.length_append, List.length_map, Program.settingLines, hname, htags]
  simp

end Graph

end TradeFlow
