import TradeFlow.Proofs.Compile.Outcome
import TradeFlow.Proofs.Program.Block

/-!
The layout of a program.

The body of a program shows the unfolding of control from the root. `Control.Laid` says how, line by
line and without any text that is indented again: a statement of a chain that is owned by `depth`
other statements stands `2 * depth` spaces to the right, whatever it is nested in. What is proved:

1. `Graph.Unfolds.laid`: the block of a complete flow has the layout of the flow at every depth.
2. `Graph.Unfolds.length_eq` and `Graph.Unfolds.emissions_eq`: a block has a statement for each node
   that is no strategy settings, on the chain of the flow and at any depth.
3. `Graph.lowerFrom_eq`: a program is refused as empty iff its body is blank.
4. `Graph.program_layout`: the body of the program of any graph is the layout of its control flow.
-/

namespace TradeFlow

open Lower

/-! ## Layouts -/

/-- A line of a text. -/
abbrev Line := List Char

/-- The lines of a text, two spaces to the right for each level of depth. -/
def linesAt (depth : Nat) (text : String) : List Line :=
  (lines text.toList).map (indentLine (2 * depth))

/-- The lines of a chain, with one blank line between neighbouring statements. A chain without
statements is one empty line. -/
def chainLines : List (List Line) → List Line
  | [] => [[]]
  | [statement] => statement
  | statement :: rest => statement ++ [] :: chainLines rest

/-- How a loop begins. -/
def loopHead (item : Variable) (array : Option Source) : String :=
  "for (const " ++ item.name ++ " of "
    ++ (match array with
      | some source => source.text
      | none => "[]")
    ++ " ?? []) \x7b"

/-- How a branch begins. -/
def branchHead (condition : Condition) : String := "if (" ++ condition.text ++ ") \x7b"

/-- The condition that the settings of a node make of a value. -/
def Conditional.condition (c : Conditional) (value : Option (Binding Source)) : Condition :=
  ⟨value, c.field, (Operator.ofSymbol? c.operator).getD .greater, c.compareValue⟩

/-- The function that an action calls. -/
def Action.function : Action → Capability
  | .fetchShortlist _ => .fetchShortlist
  | .fetchShortlistPersistence _ => .fetchShortlistPersistence
  | .fetchCandles _ => .fetchCandles
  | .fetchQuote _ => .fetchQuote
  | .fetchDates => .fetchDates
  | .fetchHolidays => .fetchHolidays
  | .placeOrder _ => .placeOrder

namespace Control

/-- The nodes of a flow that no other node of it owns, in order. -/
def chain : Control → List Node
  | .stop => []
  | .cycle _ => []
  | .unusable n => [n]
  | .silent n rest => n :: rest.chain
  | .action n _ rest => n :: rest.chain
  | .loop n _ rest => n :: rest.chain
  | .branch n _ _ _ => [n]

/-- The statements of a flow as lines, at a depth. Strategy settings have none; what a loop or a
branch owns stands one level deeper between its braces. -/
inductive Laid : Nat → Control → List (List Line) → Prop where
  | stop {depth : Nat} : Laid depth .stop []
  | silent {depth : Nat} {n : Node} {rest : Control} {statements : List (List Line)}
      (hrest : Laid depth rest statements) : Laid depth (.silent n rest) statements
  | action {depth : Nat} {n : Node} {a : Action} {rest : Control} {statements : List (List Line)}
      {call : Call} (hcall : call.function = a.function) (hrest : Laid depth rest statements) :
      Laid depth (.action n a rest) (linesAt depth call.text :: statements)
  | loop {depth number : Nat} {n : Node} {body rest : Control} {inner statements : List (List Line)}
      {array : Option Source} (hbody : Laid (depth + 1) body inner)
      (hrest : Laid depth rest statements) :
      Laid depth (.loop n body rest)
        ((linesAt depth (loopHead ⟨"item", number⟩ array) ++ chainLines inner ++ linesAt depth "\x7d")
          :: statements)
  /-- Nothing becomes code on the chain of the second block, so the block is left out. -/
  | branch {depth : Nat} {n : Node} {c : Conditional} {yes no : Control} {inner : List (List Line)}
      {value : Option (Binding Source)} (hyes : Laid (depth + 1) yes inner)
      (hno : ∀ m ∈ no.chain, m.kind? = some .strategyConfig) :
      Laid depth (.branch n c yes no)
        [linesAt depth (branchHead (c.condition value)) ++ chainLines inner ++ linesAt depth "\x7d"]
  | branchElse {depth : Nat} {n : Node} {c : Conditional} {yes no : Control}
      {inner other : List (List Line)} {value : Option (Binding Source)}
      (hyes : Laid (depth + 1) yes inner) (hno : Laid (depth + 1) no other)
      (hsome : ∃ m ∈ no.chain, m.kind? ≠ some .strategyConfig) :
      Laid depth (.branch n c yes no)
        [linesAt depth (branchHead (c.condition value)) ++ chainLines inner
          ++ linesAt depth "\x7d else \x7b" ++ chainLines other ++ linesAt depth "\x7d"]

end Control

/-! ## Lines of texts -/

theorem linesAt_append (depth : Nat) (a b : String) :
    linesAt depth (a ++ "\n" ++ b) = linesAt depth a ++ linesAt depth b := by
  rw [linesAt, lines_append_newline, List.map_append]
  rfl

theorem linesAt_indent (depth width : Nat) (text : String) :
    linesAt depth (indent width text) = (lines text.toList).map (indentLine (2 * depth + width)) := by
  rw [linesAt, indent, String.toList_ofList, lines_indentChars, List.map_map]
  refine List.map_congr_left fun line _ => ?_
  exact indentLine_indentLine (2 * depth) width line

/-- What stands between braces is one level deeper. -/
theorem linesAt_braced (depth : Nat) (head text : String) :
    linesAt depth (head ++ braced text) =
      linesAt depth (head ++ "\x7b") ++ linesAt (depth + 1) text ++ linesAt depth "\x7d" := by
  have htext : head ++ braced text =
      head ++ "\x7b" ++ "\n" ++ indent 2 text ++ "\n" ++ "\x7d" := by
    rw [← String.toList_inj]
    simp [braced]
  rw [htext, linesAt_append, linesAt_append, linesAt_indent]
  rfl

theorem indentLine_nil (width : Nat) : indentLine width [] = [] := rfl

/-- The blank lines of a chain stay empty when the chain is indented. -/
theorem map_chainLines (width : Nat) (statements : List (List Line)) :
    (chainLines statements).map (indentLine width) =
      chainLines (statements.map fun s => s.map (indentLine width)) := by
  induction statements with
  | nil => rfl
  | cons s rest ih =>
    cases rest with
    | nil => rfl
    | cons t rest =>
      rw [chainLines, List.map_append, List.map_cons, ih, indentLine_nil]
      · rfl
      · simp

/-- A chain has the lines of its statements. -/
theorem lines_joinStatements (statements : List String) :
    lines (joinStatements statements).toList =
      chainLines (statements.map fun s => lines s.toList) := by
  induction statements with
  | nil => rfl
  | cons s rest ih =>
    cases rest with
    | nil => simp [joinStatements, chainLines]
    | cons t rest =>
      have htext : (joinStatements (s :: t :: rest)).toList =
          s.toList ++ '\n' :: ([] ++ '\n' :: (joinStatements (t :: rest)).toList) := by
        simp [joinStatements]
      rw [htext, lines_append, lines_append, ih]
      rfl

theorem linesAt_joinStatements (depth : Nat) (statements : List String) :
    linesAt depth (joinStatements statements) = chainLines (statements.map (linesAt depth)) := by
  rw [linesAt, lines_joinStatements, map_chainLines, List.map_map]
  rfl

theorem indent_eq_linesAt (depth : Nat) (text : String) :
    indent (2 * depth) text = String.ofList (unlines (linesAt depth text)) := rfl

theorem eq_linesAt_zero (text : String) : text = String.ofList (unlines (linesAt 0 text)) := by
  have hline : indentLine (2 * 0) = id := by
    funext line
    simp [indentLine]
  rw [linesAt, hline, List.map_id, unlines_lines, String.ofList_toList]

/-! ## Blocks of flows -/

variable {links : List Link} {flow : Control} {known known' : Known} {block : Block}

theorem linesAt_loopText (depth : Nat) (item : Variable) (array : Option Source)
    (statements : List String) :
    linesAt depth (loopText item array (joinStatements statements)) =
      linesAt depth (loopHead item array) ++ chainLines (statements.map (linesAt (depth + 1)))
        ++ linesAt depth "\x7d" := by
  have hbrace : ∀ head : String, head ++ " ?? []) " ++ "\x7b" = head ++ " ?? []) \x7b" := by
    intro head
    rw [String.append_assoc]
    rfl
  rw [← linesAt_joinStatements]
  refine (linesAt_braced depth _ _).trans ?_
  exact congrArg (linesAt depth · ++ linesAt (depth + 1) (joinStatements statements) ++
    linesAt depth "\x7d") (hbrace _)

theorem linesAt_branchText_nil (depth : Nat) (condition : Condition) (yes : List String) :
    linesAt depth (branchText condition yes []) =
      linesAt depth (branchHead condition) ++ chainLines (yes.map (linesAt (depth + 1)))
        ++ linesAt depth "\x7d" := by
  have hbrace : ") " ++ "\x7b" = ") \x7b" := by decide
  simp only [branchText, List.isEmpty_nil, if_true, String.append_empty]
  rw [linesAt_braced, linesAt_joinStatements, branchHead]
  simp only [String.append_assoc, hbrace]

theorem linesAt_branchText_cons (depth : Nat) (condition : Condition) (yes : List String)
    {no : List String} (hno : no ≠ []) :
    linesAt depth (branchText condition yes no) =
      linesAt depth (branchHead condition) ++ chainLines (yes.map (linesAt (depth + 1)))
        ++ linesAt depth "\x7d else \x7b" ++ chainLines (no.map (linesAt (depth + 1)))
        ++ linesAt depth "\x7d" := by
  have hbrace : ") " ++ "\x7b" = ") \x7b" := by decide
  have helse : "\x7d" ++ " else " ++ "\x7b" = "\x7d else \x7b" := by decide
  have htext : branchText condition yes no =
      "if (" ++ condition.text ++ ") " ++ "\x7b" ++ "\n" ++ indent 2 (joinStatements yes) ++ "\n"
        ++ ("\x7d" ++ " else " ++ braced (joinStatements no)) := by
    rw [← String.toList_inj]
    simp [branchText, braced, hno]
  rw [htext, linesAt_append, linesAt_append, linesAt_braced, helse, linesAt_indent,
    linesAt_joinStatements]
  have hyes : (lines (joinStatements yes).toList).map (indentLine (2 * depth + 2)) =
      chainLines (yes.map (linesAt (depth + 1))) := by
    rw [← linesAt_joinStatements]
    rfl
  rw [hyes, branchHead]
  simp only [String.append_assoc, List.append_assoc, hbrace]

theorem function_of_action {n : Node} {a : Action} {call : Call}
    (h : Lower.action links known n a = .ok (known', call)) : call.function = a.function := by
  cases a with
  | placeOrder s =>
    simp only [Lower.action, order] at h
    split at h
    · next entry _ _ =>
      cases hlegs : legs entry.expr s with
      | error halt => simp [hlegs, Except.map] at h
      | ok pair =>
        simp only [hlegs, Except.map, Except.ok.injEq, Prod.mk.injEq] at h
        rw [← h.2]
        rfl
    · cases h
      rfl
    · cases h
      rfl
  | _ =>
    cases h
    rfl

/-- Whether a node becomes code: strategy settings do not. -/
def Node.isCode (n : Node) : Bool := n.kind? != some .strategyConfig

theorem Node.isCode_iff {n : Node} : n.isCode = true ↔ n.kind? ≠ some .strategyConfig := bne_iff_ne

section Codes

variable {n : Node}

theorem Node.isCode_of_silent (h : n.config.role = .silent) : n.isCode = false := by
  simp [isCode, kind?_of_silent h]

theorem Node.isCode_of_action {a : Action} (h : n.config.role = .action a) : n.isCode = true := by
  rw [isCode_iff, kind?_of_action h]
  cases a <;> simp [actionKind]

theorem Node.isCode_of_loop (h : n.config.role = .loop) : n.isCode = true := by
  simp [isCode, kind?_of_loop h]

theorem Node.isCode_of_branch {c : Conditional} (h : n.config.role = .branch c) :
    n.isCode = true := by
  simp [isCode, kind?_of_branch h]

end Codes

namespace Graph

variable {g : Graph} {ref : OutputRef}

/-- The statements of a block are the nodes on the chain of its flow that become code. -/
theorem Unfolds.length_eq (h : g.Unfolds ref flow) (hlow : Lowered links flow known known' block) :
    block.length = flow.chain.countP Node.isCode := by
  induction h generalizing known known' block with
  | stop hn =>
    cases hlow
    rfl
  | silent hn hr _ ih =>
    cases hlow with
    | silent hlow => rw [Control.chain, List.countP_cons, Node.isCode_of_silent hr, ih hlow]; rfl
  | action hn hr _ ih =>
    cases hlow with
    | action _ hlow =>
      rw [Block.length, Control.chain, List.countP_cons, Node.isCode_of_action hr, ih hlow]
      rfl
  | loop hn hr _ _ _ ihrest =>
    cases hlow with
    | loop _ hlow =>
      rw [Block.length, Control.chain, List.countP_cons, Node.isCode_of_loop hr, ihrest hlow]
      rfl
  | branch hn hr _ _ _ _ =>
    cases hlow with
    | branch _ _ =>
      rw [Block.length, Control.chain, List.countP_cons, Node.isCode_of_branch hr]
      rfl

/-- The nodes of a flow that become code, at any depth, are all but strategy settings. -/
theorem Unfolds.emissions_eq (h : g.Unfolds ref flow) :
    flow.emissions = flow.occurrences.filter Node.isCode := by
  induction h with
  | stop hn => rfl
  | silent hn hr _ ih =>
    rw [Control.emissions, Control.occurrences, List.filter_cons, Node.isCode_of_silent hr, ih]
    rfl
  | action hn hr _ ih =>
    rw [Control.emissions, Control.occurrences, List.filter_cons, Node.isCode_of_action hr, ih]
    rfl
  | loop hn hr _ _ ihbody ihrest =>
    rw [Control.emissions, Control.occurrences, List.filter_append, List.filter_cons,
      Node.isCode_of_loop hr, ihbody, ihrest]
    rfl
  | branch hn hr _ _ ihyes ihno =>
    rw [Control.emissions, Control.occurrences, List.filter_append, List.filter_append,
      List.filter_singleton, Node.isCode_of_branch hr, ihyes, ihno]
    rfl

/-- A chain has no statements exactly when it holds strategy settings only. -/
theorem Unfolds.statements_eq_nil_iff (h : g.Unfolds ref flow)
    (hlow : Lowered links flow known known' block) :
    block.statements = [] ↔ ∀ m ∈ flow.chain, m.kind? = some .strategyConfig := by
  rw [block.statements_eq_nil_iff, h.length_eq hlow, List.countP_eq_zero]
  simp only [Node.isCode_iff, not_not]

/-- The block of a complete flow has the layout of the flow, at every depth. -/
theorem Unfolds.laid (h : g.Unfolds ref flow) (hlow : Lowered links flow known known' block)
    (depth : Nat) : flow.Laid depth (block.statements.map (linesAt depth)) := by
  induction h generalizing known known' block depth with
  | stop hn =>
    cases hlow
    exact .stop
  | silent hn hr _ ih =>
    cases hlow with
    | silent hlow => exact .silent (ih hlow depth)
  | action hn hr _ ih =>
    cases hlow with
    | action ha hlow => exact .action (function_of_action ha) (ih hlow depth)
  | loop hn hr _ _ ihbody ihrest =>
    cases hlow with
    | loop hbody hrest =>
      rw [Block.statements, List.map_cons, linesAt_loopText]
      exact .loop (ihbody hbody (depth + 1)) (ihrest hrest depth)
  | branch hn hr hyes hno ihyes ihno =>
    cases hlow with
    | @branch _ _ _ _ _ _ _ yesBlock noBlock hlowYes hlowNo =>
      have hempty := hno.statements_eq_nil_iff hlowNo
      rw [Block.statements, List.map_singleton]
      by_cases hnone : noBlock.statements = []
      · rw [hnone, linesAt_branchText_nil]
        exact .branch (ihyes hlowYes (depth + 1)) (hempty.1 hnone)
      · rw [linesAt_branchText_cons _ _ _ hnone]
        refine .branchElse (ihyes hlowYes (depth + 1)) (ihno hlowNo (depth + 1)) ?_
        rw [hempty, not_forall] at hnone
        obtain ⟨m, hm⟩ := hnone
        exact ⟨m, Classical.not_imp.1 hm⟩

end Graph

/-! ## Lines that are not blank -/

/-- A text that is not blank has a line that is not. -/
theorem exists_line_not_blank {text : List Char} (h : isBlank text = false) :
    ∃ line ∈ lines text, isBlank line = false := by
  rw [isBlank_eq_all_lines, List.all_eq_false] at h
  obtain ⟨line, hline, hblank⟩ := h
  exact ⟨line, hline, by simpa using hblank⟩

theorem exists_linesAt_not_blank {text : String} (h : isBlank text.toList = false) (depth : Nat) :
    ∃ line ∈ linesAt depth text, isBlank line = false := by
  obtain ⟨line, hline, hblank⟩ := exists_line_not_blank h
  refine ⟨_, List.mem_map_of_mem hline, ?_⟩
  rw [isBlank_indentLine, hblank]

/-- Every statement of a block has a line that is not blank. -/
theorem Block.exists_line_not_blank (b : Block) (depth : Nat) :
    ∀ s ∈ b.statements.map (linesAt depth), ∃ line ∈ s, isBlank line = false := by
  intro s hs
  obtain ⟨text, htext, rfl⟩ := List.mem_map.1 hs
  exact exists_linesAt_not_blank (b.not_blank_of_mem text htext) depth

/-! ## Programs -/

namespace Graph

/-- The chain is empty iff the text of the body is blank. -/
theorem lowerFrom_eq (g : Graph) (root : Node) (settings : StrategyConfig) :
    g.lowerFrom root settings = (do
      let flow := g.controlFrom [] (start root)
      let (known, body) ← lower g.links flow (initialScope root)
      if isBlank body.text.toList then Run.halt (.failed .emptyChain)
      else
        pure { configNode := root.id, settings, capabilities := known.capabilities, body }) := by
  simp only [lowerFrom, Block.isBlank_text_iff_length]
  rfl

/-- The body of the program of any graph is the layout of the control flow from the root, and in the
source it stands two levels deep. The statements of the program are the nodes on the chain from the
root that are no strategy settings, and the emitted nodes are those at any depth. -/
theorem program_layout {g : Graph} {p : Program} (h : g.compile.result = .ok p) :
    ∃ root settings flow statements inner, g.root? = some (root, settings) ∧
      p.configNode = root.id ∧ (∀ unfolding, g.Unfolds (start root) unfolding ↔ unfolding = flow) ∧
      flow.Laid 0 statements ∧ p.body.text = String.ofList (unlines (chainLines statements)) ∧
      flow.Laid 2 inner ∧ indent 4 p.body.text = String.ofList (unlines (chainLines inner)) ∧
      (∀ s ∈ statements, ∃ line ∈ s, isBlank line = false) ∧
      p.statements = statements.length ∧
      p.statements = flow.chain.countP Node.isCode ∧ p.statements ≠ 0 ∧
      p.emitted = flow.occurrences.countP Node.isCode := by
  obtain ⟨root, settings, flow, known, hroot, hflow, hlow, hne, hp⟩ := compiled_cases h
  have hlaid := hflow.laid hlow
  have htext : ∀ depth, linesAt depth p.body.text =
      chainLines (p.body.statements.map (linesAt depth)) :=
    fun depth => linesAt_joinStatements depth p.body.statements
  have hunique : ∀ unfolding, g.Unfolds (start root) unfolding ↔ unfolding = flow :=
    fun unfolding => ⟨fun hu => hu.unique hflow, fun he => he ▸ hflow⟩
  have hlength : p.statements = flow.chain.countP Node.isCode := hflow.length_eq hlow
  have hcount : p.emitted = flow.occurrences.countP Node.isCode := by
    rw [List.countP_eq_length_filter, ← hflow.emissions_eq]
    exact hlow.size_eq
  refine ⟨root, settings, flow, _, _, hroot, by rw [hp], hunique, hlaid 0, ?_, hlaid 2, ?_,
    p.body.exists_line_not_blank 0, ?_, hlength, hne, hcount⟩
  · rw [← htext]
    exact eq_linesAt_zero p.body.text
  · rw [← htext]
    exact indent_eq_linesAt 2 p.body.text
  · rw [List.length_map]
    exact p.body.length_statements.symm

/-- A condition whose two branches place the same order. -/
def sharedOrder : Graph where
  nodes := [.ofKind "s" .strategyConfig, .ofKind "b" .conditional, .ofKind "o" .placeOrder]
  connections :=
    [⟨⟨"s", "exec", "b", "exec"⟩, "c1"⟩, ⟨⟨"b", "true", "o", "exec"⟩, "c2"⟩,
      ⟨⟨"b", "false", "o", "exec"⟩, "c3"⟩]

/-- The order is emitted once in each branch, and both belong to one statement. -/
theorem sharedOrder_layout :
    ∃ p, sharedOrder.compile.result = .ok p ∧ p.statements = 1 ∧ p.emitted = 3 := by
  have horder : sharedOrder.Unfolds ⟨"o", "exec"⟩ .stop := .stop rfl
  have hflow : sharedOrder.Unfolds ⟨"s", "exec"⟩ _ :=
    .branch rfl rfl (.action rfl rfl horder) (.action rfl rfl horder)
  have hg : ∀ n ∈ sharedOrder.nodes, n.IsSealed := by
    simp [sharedOrder, Node.ofKind, Node.IsSealed]
  have ha : ∀ n ∈ sharedOrder.nodes, ∀ a, n.config.role = .action a →
      Lowerable sharedOrder.links n a := by
    -- no edge of the graph brings an entry price
    refine fun n _ a _ => lowerable_of_finite fun s _ known entry hentry => ?_
    simp [sharedOrder, links, input?, Scope.input?, Link.head] at hentry
  obtain ⟨p, hp⟩ := exists_compiled hg ha rfl hflow (by simp [Control.emissions])
  obtain ⟨root, settings, flow, -, -, hroot, -, hunique, -, -, -, -, -, -, hchain, -, hcount⟩ :=
    program_layout hp
  obtain ⟨rfl, -⟩ : Node.ofKind "s" .strategyConfig = root ∧ _ = settings := by
    simpa using Option.some.inj hroot
  rw [← (hunique _).1 hflow] at hchain hcount
  exact ⟨p, hp, hchain, hcount⟩

end Graph

end TradeFlow
