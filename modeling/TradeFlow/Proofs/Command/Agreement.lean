import TradeFlow.Command.Run
import TradeFlow.Proofs.Compile.Capabilities
import TradeFlow.Proofs.Document.Order
import TradeFlow.Proofs.Json.Number

/-!
What checking a document says about generating its program.

A check goes on after a refusal and reports all it finds, and generating stops at the first one. Both
succeed on the same documents nevertheless: on those that are read, built without a report, and
compiled. What is proved:

1. `Document.exists_build_of_interchangeable`: two supplies of ids build the same nodes and edges.
2. `runCheck_error_iff` and `runGenerate_error_iff`: when the two commands succeed.
3. `runGenerate_silent`: generating either fails or gives something out.
4. `check_agrees_with_generate`: so a check without problems is a promise that there is a program.
-/

namespace TradeFlow

/-! ## The same document with other ids -/

/-- Two supplies that do the same for some connections: they are equal, or no connection needs an id, or
both give fresh ones. -/
def IdSupply.Interchangeable (s s' : IdSupply) (cs : List Connection) : Prop :=
  s = s' ∨ (∀ c ∈ cs, c.id ≠ "") ∨ s.Fresh (givenIds cs) ∧ s'.Fresh (givenIds cs)

theorem IdSupply.Interchangeable.symm {s s' : IdSupply} {cs : List Connection}
    (h : s.Interchangeable s' cs) : s'.Interchangeable s cs :=
  h.imp Eq.symm (Or.imp_right And.symm)

/-- A compilation does not see the ids of connections. -/
theorem Graph.compile_eq_of_links {g g' : Graph} (hnodes : g'.nodes = g.nodes)
    (hlinks : g'.links = g.links) : g'.compile.result = g.compile.result := by
  have hnode : ∀ id, g'.node? id = g.node? id := fun id => by rw [node?, node?, hnodes]
  refine compile_eq_of_agree (S := Set.univ) (T := Set.univ) (by rw [root?, root?, hnodes]) ?_ ?_ ?_
    ?_ ?_ ?_
  · exact fun _ _ _ => trivial
  · exact fun _ _ _ _ => trivial
  · exact fun _ _ => trivial
  · intro ref _
    rw [next?_eq_links, next?_eq_links, hlinks]
    simp only [hnode]
  · exact fun _ _ _ _ => trivial
  · intro known _ id _ key
    rw [hlinks]

/-- A well-formed graph has a program or an error. -/
theorem Graph.WellFormed.ok_or_failed {g : Graph} (h : g.WellFormed) :
    (∃ p, g.compile.result = .ok p) ∨ ∃ e, g.compile.result = .error (.failed e) := by
  obtain ⟨text, htext⟩ := h.exists_text
  rw [generate?] at htext
  split at htext
  · next p hp => exact .inl ⟨p, hp⟩
  · next e he => exact .inr ⟨e, he⟩
  · cases htext

/-- Another supply builds the same nodes and edges, and reports nothing either. -/
theorem Document.exists_build_of_interchangeable {d : Document} {s s' : IdSupply} {e : Editor}
    (hids : s.Interchangeable s' d.connectionList) (hbuild : d.build s = .ok (e, [])) :
    ∃ e', d.build s' = .ok (e', []) ∧ e'.graph.nodes = e.graph.nodes ∧
      e'.graph.links = e.graph.links := by
  rcases hids with rfl | hids
  · exact ⟨e, hbuild, rfl, rfl⟩
  · obtain ⟨hread, hgraph, hwell⟩ := graph_of_build hbuild
    rw [hgraph] at hwell ⊢
    have hlinks : (d.graph s').links = (d.graph s).links := by rw [links_graph, links_graph]
    have hperm : (d.graph s).Reordered (d.graph s') := ⟨.refl _, .of_eq hlinks.symm⟩
    have hwell' : (d.graph s').WellFormed :=
      hwell.reordered hperm
        (IdSupply.nodup_ids_of_perm (.refl _) hwell.ids_nodup (hids.imp_right And.right))
    obtain ⟨e', hbuild'⟩ := exists_build_iff.2 ⟨valid_of_build hbuild, hread, hwell'⟩
    obtain ⟨-, hgraph', -⟩ := graph_of_build hbuild'
    exact ⟨e', hbuild', by rw [hgraph']; rfl, by rw [hgraph', hlinks]⟩

/-! ## Outcomes -/

namespace Outcome

/-- The outcome of a success that gives out a text where it was asked for, and nothing elsewhere. -/
def Delivers (o : Outcome) (out : Option String) (text : String) : Prop :=
  o.error = none ∧
    match out with
    | none => o.stdout = text ∧ o.written = none
    | some path => o.stdout = "" ∧ o.written = some (path, text)

/-- Nothing is printed and no file is written. -/
def Silent (o : Outcome) : Prop := o.stdout = "" ∧ o.written = none

end Outcome

/-- Nothing stands in the way of the output that was asked for. -/
def Workspace.Accepts (w : Workspace) (out : Option String) : Prop :=
  ∀ path, out = some path → w.obstacle? path = none

namespace Command

variable {w : Workspace} {supply supply' : IdSupply} {compileId path : String}
  {out settings : Option String} {strict : Bool} {g : Graph}

/-- The document is read, and its graph is built without a report. -/
def Builds (w : Workspace) (supply : IdSupply) (path : String) (g : Graph) : Prop :=
  ∃ d e, loadDocument w path = .ok d ∧ d.build supply = .ok (e, []) ∧ e.graph = g

theorem Builds.wellFormed (h : Builds w supply path g) : g.WellFormed := by
  obtain ⟨d, e, -, hbuild, rfl⟩ := h
  exact (Document.graph_of_build hbuild).2.2

/-- With another supply, the document gives the same nodes, edges and programs. -/
theorem Builds.interchange (h : Builds w supply path g)
    (hids : ∀ d, loadDocument w path = .ok d → supply.Interchangeable supply' d.connectionList) :
    ∃ g', Builds w supply' path g' ∧ g'.nodes = g.nodes ∧ g'.links = g.links ∧
      g'.compile.result = g.compile.result := by
  obtain ⟨d, e, hload, hbuild, rfl⟩ := h
  obtain ⟨e', hbuild', hnodes, hlinks⟩ :=
    Document.exists_build_of_interchangeable (hids d hload) hbuild
  exact ⟨e'.graph, ⟨d, e', hload, hbuild', rfl⟩, hnodes, hlinks,
    Graph.compile_eq_of_links hnodes hlinks⟩

theorem eq_ok_of_toOption {ε α : Type} {x : Except ε α} {a : α} (h : x.toOption = some a) :
    x = .ok a := by
  cases x with
  | error e => cases h
  | ok b =>
    cases h
    rfl

theorem loadGraph_eq_ok_iff :
    loadGraph w supply path = .ok (g, []) ↔ Builds w supply path g := by
  simp only [loadGraph, Builds]
  cases hload : loadDocument w path with
  | error e => simp [bind, Except.bind]
  | ok d =>
    cases hbuild : d.build supply with
    | error e => simp [bind, Except.bind, Except.mapError, hbuild]
    | ok built =>
      obtain ⟨e, errors⟩ := built
      simp [bind, Except.bind, Except.mapError, hbuild, pure, Except.pure, and_comm]

theorem Builds.unique {g' : Graph} (h : Builds w supply path g) (h' : Builds w supply path g') :
    g = g' := by
  have hload := (loadGraph_eq_ok_iff.2 h).symm.trans (loadGraph_eq_ok_iff.2 h')
  exact (Prod.mk.inj (Except.ok.inj hload)).1

/-! ## Checking -/

/-- What a check says about a graph without problems. -/
def summary (g : Graph) (p : Program) : String :=
  "ok: " ++ intText g.nodes.length ++ " nodes, " ++ intText g.connections.length
    ++ " connections, " ++ intText p.emitted ++ " emitted, uses "
    ++ ", ".intercalate (p.capabilities.map Capability.name)

/-- It is one line. -/
theorem newline_not_mem_summary (g : Graph) (p : Program) : '\n' ∉ (summary g p).toList := by
  have hnames : '\n' ∉ (", ".intercalate (p.capabilities.map Capability.name)).toList := by
    have hline := Program.newline_not_mem_functionLine p.capabilities
    rw [Program.functionLine, String.toList_append, String.toList_append, List.mem_append,
      List.mem_append, not_or, not_or] at hline
    exact hline.1.2
  simp only [summary, String.toList_append, List.mem_append, not_or, and_assoc]
  exact ⟨by decide, Json.newline_not_mem_intText _, by decide, Json.newline_not_mem_intText _, by decide,
    Json.newline_not_mem_intText _, by decide, hnames⟩

theorem runCheck_of_compiled {p : Program} (h : Builds w supply path g)
    (hp : g.compile.result = .ok p) : runCheck w supply compileId path =
      { stdout := summary g p ++ "\n", records := g.compile.markedRecords (some compileId) } := by
  simp only [runCheck, loadGraph_eq_ok_iff.2 h, hp]
  rfl

/-- A check succeeds if the document is built without a report and compiled. -/
theorem runCheck_error_iff : (runCheck w supply compileId path).error = none ↔
    ∃ g p, Builds w supply path g ∧ g.compile.result = .ok p := by
  constructor
  · intro h
    rw [runCheck] at h
    split at h
    · cases h
    · next g errors hload =>
      dsimp only at h
      split at h
      · next p hp =>
        split at h
        · next hempty =>
          obtain rfl : errors = [] := by simpa using hempty
          exact ⟨g, p, loadGraph_eq_ok_iff.1 hload, hp⟩
        · cases h
      · cases h
      · cases h
  · rintro ⟨g, p, hbuilds, hp⟩
    rw [runCheck_of_compiled hbuilds hp]

/-! ## Generating -/

theorem prepare_eq_ok_iff : prepare w supply path none = .ok g ↔ Builds w supply path g := by
  rw [← loadGraph_eq_ok_iff, prepare]
  cases hload : loadGraph w supply path with
  | error e => simp [bind, Except.bind]
  | ok loaded =>
    obtain ⟨g', errors⟩ := loaded
    cases errors with
    | nil => simp [bind, Except.bind, pure, Except.pure]
    | cons e errors => simp [bind, Except.bind, throw, throwThe, MonadExceptOf.throw]

theorem deliver_delivers (h : w.Accepts out) (records : List LogRecord) (text : String) :
    (deliver w out records text).Delivers out text := by
  cases out with
  | none => exact ⟨rfl, rfl, rfl⟩
  | some path =>
    simp only [deliver, h path rfl]
    exact ⟨rfl, rfl, rfl⟩

/-- What cannot be written is not printed either. -/
theorem deliver_silent {records : List LogRecord} {text : String}
    (h : (deliver w out records text).error ≠ none) : (deliver w out records text).Silent := by
  cases out with
  | none => exact absurd rfl h
  | some path =>
    simp only [deliver] at h ⊢
    split at h
    · exact ⟨rfl, rfl⟩
    · exact absurd rfl h

theorem runGenerate_of_compiled {p : Program} (h : Builds w supply path g)
    (hp : g.compile.result = .ok p) : runGenerate w supply compileId path out strict none =
      deliver w out (g.compile.markedRecords (some compileId)) p.source := by
  simp only [runGenerate, prepare_eq_ok_iff.2 h, hp]

/-- Generating succeeds if the document is built without a report; strictly, it has to be compiled as
well. -/
theorem runGenerate_error_iff (hout : w.Accepts out) :
    (runGenerate w supply compileId path out strict none).error = none ↔
      ∃ g, Builds w supply path g ∧ (strict = true → ∃ p, g.compile.result = .ok p) := by
  cases hprepare : prepare w supply path none with
  | error e =>
    refine iff_of_false (by simp [runGenerate, hprepare]) ?_
    rintro ⟨g, hbuilds, -⟩
    simp [prepare_eq_ok_iff.2 hbuilds] at hprepare
  | ok g =>
    have hbuilds := prepare_eq_ok_iff.1 hprepare
    have hunique : (∃ g, Builds w supply path g ∧ (strict = true → ∃ p, g.compile.result = .ok p)) ↔
        (strict = true → ∃ p, g.compile.result = .ok p) := by
      refine ⟨?_, fun h => ⟨g, hbuilds, h⟩⟩
      rintro ⟨g', hbuilds', h⟩
      obtain rfl := hbuilds.unique hbuilds'
      exact h
    rw [hunique]
    rcases hbuilds.wellFormed.ok_or_failed with ⟨p, hp⟩ | ⟨e, he⟩
    · rw [runGenerate_of_compiled hbuilds hp]
      exact iff_of_true (deliver_delivers hout _ _).1 fun _ => ⟨p, hp⟩
    · simp only [runGenerate, hprepare, he]
      cases strict with
      | true => simp
      | false => simpa using (deliver_delivers hout _ _).1

/-- Whatever goes wrong, nothing is given out. -/
theorem runGenerate_silent
    (h : (runGenerate w supply compileId path out strict settings).error ≠ none) :
    (runGenerate w supply compileId path out strict settings).Silent := by
  rw [runGenerate] at h ⊢
  split at h
  · exact ⟨rfl, rfl⟩
  · next g hprepare =>
    dsimp only at h ⊢
    split at h
    · exact deliver_silent h
    · cases strict with
      | true => exact ⟨rfl, rfl⟩
      | false => exact deliver_silent h
    · exact ⟨rfl, rfl⟩

/-! ## Both commands -/

/-- A check and a strict generation succeed on the same documents; then the one prints a line about the
graph, and the other gives out the program. Without strictness a document only has to be read and built,
and a generation that fails gives nothing out. The two runs may draw their ids from different supplies
and write to any place that can be written. -/
theorem check_agrees_with_generate (w : Workspace) (supply supply' : IdSupply)
    (checkId generateId path : String)
    (hids : ∀ d, loadDocument w path = .ok d → supply.Interchangeable supply' d.connectionList) :
    let check := run w supply checkId (.check path)
    let generate := fun out strict settings =>
      run w supply' generateId (.generate path out strict settings)
    (∀ out, w.Accepts out →
      (check.error = none ↔ (generate out true none).error = none) ∧
      (check.error = none → ∃ g g' p, Builds w supply path g ∧ Builds w supply' path g' ∧
        g'.nodes = g.nodes ∧ g'.links = g.links ∧
        g.compile.result = .ok p ∧ g'.compile.result = .ok p ∧
        (generate out true none).Delivers out p.source ∧
        check.stdout = summary g p ++ "\n" ∧ '\n' ∉ (summary g p).toList ∧ check.written = none) ∧
      ((generate out false none).error = none ↔
        ∃ d e, loadDocument w path = .ok d ∧ d.build supply' = .ok (e, []))) ∧
    ∀ out strict settings, (generate out strict settings).error ≠ none →
      (generate out strict settings).Silent := by
  intro check generate
  have hids' := fun d hd => (hids d hd).symm
  refine ⟨fun out hout => ⟨?_, fun h => ?_, ?_⟩, fun _ _ _ => runGenerate_silent⟩
  · refine runCheck_error_iff.trans (Iff.trans ?_ (runGenerate_error_iff hout).symm)
    constructor
    · rintro ⟨g, p, hbuilds, hp⟩
      obtain ⟨g', hbuilds', -, -, hresult⟩ := hbuilds.interchange hids
      exact ⟨g', hbuilds', fun _ => ⟨p, hresult.trans hp⟩⟩
    · rintro ⟨g', hbuilds', hcompiled⟩
      obtain ⟨p, hp⟩ := hcompiled rfl
      obtain ⟨g, hbuilds, -, -, hresult⟩ := hbuilds'.interchange hids'
      exact ⟨g, p, hbuilds, hresult.trans hp⟩
  · obtain ⟨g, p, hbuilds, hp⟩ := runCheck_error_iff.1 h
    obtain ⟨g', hbuilds', hnodes, hlinks, hresult⟩ := hbuilds.interchange hids
    have hp' := hresult.trans hp
    have hcheck : check = _ := runCheck_of_compiled hbuilds hp
    have hgenerate : generate out true none = _ := runGenerate_of_compiled hbuilds' hp'
    refine ⟨g, g', p, hbuilds, hbuilds', hnodes, hlinks, hp, hp', ?_, ?_,
      newline_not_mem_summary g p, ?_⟩
    · rw [hgenerate]
      exact deliver_delivers hout _ _
    · rw [hcheck]
    · rw [hcheck]
  · refine (runGenerate_error_iff hout).trans ?_
    constructor
    · rintro ⟨g, ⟨d, e, hload, hbuild, -⟩, -⟩
      exact ⟨d, e, hload, hbuild⟩
    · rintro ⟨d, e, hload, hbuild⟩
      exact ⟨e.graph, ⟨d, e, hload, hbuild, rfl⟩, by simp⟩

/-- A directory whose files all hold the same document: a strategy that fetches dates. Its connection
brings no id. -/
def fetchWorkspace : Workspace where
  read := fun _ => .ok ("\x7b\"version\":1,\"nodes\":["
    ++ "\x7b\"id\":\"s\",\"kind\":\"StrategyConfig\"\x7d,\x7b\"id\":\"d\",\"kind\":\"FetchDates\"\x7d],"
    ++ "\"connections\":[\x7b\"source\":\"s\",\"sourceOutput\":\"exec\",\"target\":\"d\","
    ++ "\"targetInput\":\"exec\"\x7d]\x7d")
  obstacle? := fun _ => none

/-- The graph of the document, with an id for its connection. -/
def fetchGraph (id : String) : Graph where
  nodes := [.ofKind "s" .strategyConfig, .ofKind "d" .fetchDates]
  connections := [⟨⟨"s", "exec", "d", "exec"⟩, id⟩]

/-- No id is given in the document, and its graph is built with the first id of the supply. -/
theorem load_fetchWorkspace : ∃ d e, loadDocument fetchWorkspace "graph.json" = .ok d ∧
    givenIds d.connectionList = [] ∧ d.build Document.lengthening = .ok (e, []) ∧
    e.graph = fetchGraph "x" := by
  have hloaded : (loadDocument fetchWorkspace "graph.json").toOption.map (fun d =>
      (givenIds d.connectionList, (d.build Document.lengthening).toOption.map fun built =>
        (built.1.graph, built.2.isEmpty))) = some ([], some (fetchGraph "x", true)) := by
    decide +kernel
  obtain ⟨d, hd, hfacts⟩ := Option.map_eq_some_iff.1 hloaded
  obtain ⟨hgiven, hbuilt⟩ := Prod.mk.inj hfacts
  obtain ⟨⟨e, errors⟩, hbuild, hfacts⟩ := Option.map_eq_some_iff.1 hbuilt
  obtain ⟨hgraph, hempty⟩ := Prod.mk.inj hfacts
  obtain rfl : errors = [] := List.isEmpty_iff.1 hempty
  exact ⟨d, e, eq_ok_of_toOption hd, hgiven, eq_ok_of_toOption hbuild, hgraph⟩

/-- The check and the generation draw different ids, and agree on the program. -/
theorem fetch_promised :
    (∀ d, loadDocument fetchWorkspace "graph.json" = .ok d →
      Document.lengthening.Interchangeable Document.lengthening.draw.2 d.connectionList) ∧
    fetchWorkspace.Accepts none ∧
    ∃ p, (fetchGraph "x").compile.result = .ok p ∧
      (run fetchWorkspace Document.lengthening "check" (.check "graph.json")).stdout =
        summary (fetchGraph "x") p ++ "\n" ∧
      (run fetchWorkspace Document.lengthening.draw.2 "generate"
        (.generate "graph.json" none true none)).Delivers none p.source := by
  obtain ⟨d, e, hd, hgiven, hbuild, hgraph⟩ := load_fetchWorkspace
  have hids : ∀ d, loadDocument fetchWorkspace "graph.json" = .ok d →
      Document.lengthening.Interchangeable Document.lengthening.draw.2 d.connectionList := by
    have hfresh : Document.lengthening.Fresh [] := by
      refine ⟨fun i j _ _ h => ?_, fun _ _ => List.not_mem_nil⟩
      have hlength := congrArg String.length h
      simpa [Document.lengthening] using hlength
    intro d' hd'
    obtain rfl : d = d' := Except.ok.inj (hd.symm.trans hd')
    exact .inr (.inr (hgiven ▸ ⟨hfresh, hfresh.draw⟩))
  have haccepts : fetchWorkspace.Accepts none := by
    intro path h
    cases h
  have hbuilds : Builds fetchWorkspace Document.lengthening "graph.json" (fetchGraph "x") :=
    ⟨d, e, hd, hbuild, hgraph⟩
  have hroot : ∃ settings, (fetchGraph "x").root? = some (.ofKind "s" .strategyConfig, settings) :=
    ⟨_, rfl⟩
  obtain ⟨settings, hroot⟩ := hroot
  obtain ⟨p, hp, -⟩ := hbuilds.wellFormed.exists_program hroot List.mem_cons_self rfl
  have hcheck :
      (run fetchWorkspace Document.lengthening "check" (.check "graph.json")).error = none := by
    rw [run]
    exact runCheck_error_iff.2 ⟨_, p, hbuilds, hp⟩
  obtain ⟨-, hagree, -⟩ := (check_agrees_with_generate fetchWorkspace Document.lengthening
    Document.lengthening.draw.2 "check" "generate" "graph.json" hids).1 none haccepts
  obtain ⟨g, -, p', hbuilds', -, -, -, hp', -, hdelivers, hstdout, -⟩ := hagree hcheck
  obtain rfl := hbuilds.unique hbuilds'
  exact ⟨hids, haccepts, p', hp', hstdout, hdelivers⟩

end Command

end TradeFlow
