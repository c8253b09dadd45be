import TradeFlow.Proofs.Compile.Brackets
import TradeFlow.Proofs.Compile.Capabilities
import TradeFlow.Proofs.Program.Calls

/-!
What programs call and what they name.

A program names the functions that its statements call. It calls more than that if the field of a
condition does, for the field stands in the program as it is. What is proved:

1. `Block.mem_called`: the text of a block calls the functions of its calls and what stands in the lines
   of its conditions.
2. `Graph.mem_called_source`: so does the text of a program, and nothing else.
3. `Graph.program_capabilities`: hence the program of any graph names exactly what its statements call,
   and what its text calls exactly if the lines of its conditions call nothing else.
-/

namespace TradeFlow

open Lower Brackets Calls

/-- The conditions of a block at any depth. -/
def Block.conditions : Block → List Condition
  | .nil => []
  | .call _ rest => rest.conditions
  | .loop _ _ body rest => body.conditions ++ rest.conditions
  | .branch condition yes no => condition :: (yes.conditions ++ no.conditions)

/-- A program names the time of the run and exactly the functions that its text calls. -/
def Program.NamesItsCalls (p : Program) : Prop :=
  ∀ f, f ∈ p.capabilities ↔ f = .currentTimestamp ∨ f ∈ called p.source

/-! ## Blocks -/

namespace Block

variable {b : Block} {f : Capability}

/-- What a block calls is called by one of its calls or stands in the line of one of its conditions. -/
theorem mem_called : f ∈ b.called ↔
    (∃ call ∈ b.calls, call.function = f) ∨ ∃ c ∈ b.conditions, f ∈ TradeFlow.called (conditionLine c) := by
  induction b with
  | nil => simp [called, calls, conditions]
  | call c rest ih =>
    simp only [called, calls, conditions, List.mem_cons, exists_eq_or_imp, or_assoc, ih]
    rw [@eq_comm _ f c.function]
  | loop item array body rest ihbody ihrest =>
    simp only [called, calls, conditions, List.mem_append, ihbody, ihrest, or_and_right, exists_or]
    exact or_or_or_comm
  | branch condition yes no ihyes ihno =>
    simp only [called, calls, conditions, List.mem_append, List.mem_cons, ihyes, ihno, or_and_right,
      exists_or, exists_eq_left]
    rw [or_assoc, or_or_or_comm, or_left_comm]

/-- Conditions on fields without parentheses call nothing. -/
theorem Plain.called_conditionLine (h : b.Plain fun field => '(' ∉ field.toList) :
    ∀ c ∈ b.conditions, TradeFlow.called (conditionLine c) = [] := by
  induction b with
  | nil => exact nofun
  | call c rest ih => exact ih h.2
  | loop item array body rest ihbody ihrest =>
    obtain ⟨-, -, hbody, hrest⟩ := h
    exact List.forall_mem_append.2 ⟨ihbody hbody, ihrest hrest⟩
  | branch condition yes no ihyes ihno =>
    obtain ⟨hvalue, hfield, hyes, hno⟩ := h
    exact List.forall_mem_cons.2 ⟨Calls.called_conditionLine hvalue hfield,
      List.forall_mem_append.2 ⟨ihyes hyes, ihno hno⟩⟩

end Block

/-! ## Programs -/

namespace Graph

variable {g : Graph} {p : Program} {f : Capability}

/-- The body of a program is plain. -/
theorem plain_body {allowed : String → Prop} (hp : g.compile.result = .ok p)
    (hfields : g.FieldsSatisfy allowed ⟨p.configNode, "exec"⟩) : p.body.Plain allowed := by
  obtain ⟨root, settings, flow, known, -, hflow, hlow, -, hprogram⟩ := compiled_cases hp
  have hroot : p.configNode = root.id := by rw [hprogram]
  rw [hroot] at hfields
  exact (hflow.plain hlow (plain_initialScope root) hfields).2

/-- A function that the text of a program calls is called by one of its calls or in the line of one of
its conditions. -/
theorem mem_called_source (hp : g.compile.result = .ok p) : f ∈ called p.source ↔
    (∃ call ∈ p.body.calls, call.function = f) ∨
      ∃ c ∈ p.body.conditions, f ∈ called (conditionLine c) := by
  have hplain : p.body.Plain fun _ => True := plain_body hp fun _ _ _ _ => trivial
  rw [Program.called_source hplain, Block.mem_called]

/-- The named functions are those of the calls. -/
theorem mem_capabilities (hp : g.compile.result = .ok p) : f ∈ p.capabilities ↔
    f = .currentTimestamp ∨ ∃ call ∈ p.body.calls, call.function = f := by
  obtain ⟨root, settings, flow, known, -, -, hlow, -, hprogram⟩ := compiled_cases hp
  have hcapabilities : p.capabilities = known.capabilities := by rw [hprogram]
  have hrequired : (initialScope root).required = [.currentTimestamp] := rfl
  rw [hcapabilities, Scope.mem_capabilities, hlow.mem_required_iff, hrequired, List.mem_singleton]

theorem namesItsCalls_iff (hp : g.compile.result = .ok p) : p.NamesItsCalls ↔
    ∀ c ∈ p.body.conditions, ∀ f ∈ called (conditionLine c), f ∈ p.capabilities := by
  constructor
  · intro h c hc f hf
    exact (h f).2 (.inr ((mem_called_source hp).2 (.inr ⟨c, hc, hf⟩)))
  · intro h f
    rw [mem_called_source hp]
    constructor
    · intro hf
      exact ((mem_capabilities hp).1 hf).imp_right .inl
    · rintro (rfl | hcall | ⟨c, hc, hf⟩)
      · exact (mem_capabilities hp).2 (.inl rfl)
      · exact (mem_capabilities hp).2 (.inr hcall)
      · exact h c hc f hf

/-- If no field of a condition has a parenthesis, a program names what it calls. -/
theorem namesItsCalls_of_fields (hp : g.compile.result = .ok p)
    (hfields : g.FieldsSatisfy (fun field => '(' ∉ field.toList) ⟨p.configNode, "exec"⟩) :
    p.NamesItsCalls := by
  refine (namesItsCalls_iff hp).2 fun c hc f hf => ?_
  rw [(plain_body hp hfields).called_conditionLine c hc] at hf
  cases hf

/-- **What programs name.** The program of any graph names, in the order of all capabilities and each
    once, the time of the run and the functions that its statements call. These are the functions of the
    nodes that control gets to from the root, at any depth, and every call stands in the text. A function
    that the text calls besides is called in the line of a condition. So the program names what its text
    calls exactly if these lines call nothing else, and they do not if no field of a condition has a
    parenthesis. -/
theorem program_capabilities {g : Graph} {p : Program} (h : g.compile.result = .ok p) :
    ∃ root settings flow, g.root? = some (root, settings) ∧
      (∀ unfolding, g.Unfolds (start root) unfolding ↔ unfolding = flow) ∧
      p.capabilities.Sublist Capability.all ∧ p.capabilities.Nodup ∧
      (∀ f, f ∈ p.capabilities ↔
        f = .currentTimestamp ∨ ∃ call ∈ p.body.calls, call.function = f) ∧
      (∀ f, (∃ call ∈ p.body.calls, call.function = f) ↔
        ∃ n ∈ flow.occurrences, n.function? = some f) ∧
      (lines p.source.toList)[3]? = some (Program.functionLine p.capabilities).toList ∧
      (∀ call ∈ p.body.calls, ∃ depth, linesAt depth call.text <:+: lines p.source.toList ∧
        ∃ line ∈ linesAt depth call.text, call.function.callHead.toList <:+: line) ∧
      (∀ f, f ∈ called p.source ↔ (∃ call ∈ p.body.calls, call.function = f) ∨
        ∃ c ∈ p.body.conditions, f ∈ called (conditionLine c)) ∧
      (p.NamesItsCalls ↔
        ∀ c ∈ p.body.conditions, ∀ f ∈ called (conditionLine c), f ∈ p.capabilities) ∧
      (g.FieldsSatisfy (fun field => '(' ∉ field.toList) ⟨p.configNode, "exec"⟩ →
        p.NamesItsCalls) := by
  obtain ⟨root, settings, flow, known, hroot, hflow, hlow, -, hp⟩ := compiled_cases h
  have hcapabilities : p.capabilities = known.capabilities := by rw [hp]
  have hunique : ∀ unfolding, g.Unfolds (start root) unfolding ↔ unfolding = flow :=
    fun unfolding => ⟨fun hu => hu.unique hflow, fun he => he ▸ hflow⟩
  have hlines := p.lines_source
  refine ⟨root, settings, flow, hroot, hunique, ?_, ?_, fun f => mem_capabilities h,
    hflow.exists_call_iff hlow, ?_, ?_, fun f => mem_called_source h, namesItsCalls_iff h,
    namesItsCalls_of_fields h⟩
  · rw [hcapabilities]
    exact known.capabilities_sublist
  · rw [hcapabilities]
    exact known.capabilities_sublist.nodup Capability.nodup_all
  · rw [hlines]
    rfl
  · intro call hcall
    obtain ⟨s, hs, depth, hinfix⟩ := p.body.exists_infix_of_mem_calls hcall 2
    have hbody : linesAt 2 p.body.text = chainLines (p.body.statements.map (linesAt 2)) :=
      linesAt_joinStatements 2 p.body.statements
    refine ⟨depth, ?_, call.exists_line depth⟩
    rw [hlines, hbody]
    exact infix_of_mem_statements hs hinfix

/-- A condition that does nothing if it holds and fetches a quote otherwise. -/
def quoteOtherwise : Graph where
  nodes := [.ofKind "s" .strategyConfig, .ofKind "b" .conditional, .ofKind "q" .fetchQuote,
    .ofKind "o" .placeOrder]
  connections := [⟨⟨"s", "exec", "b", "exec"⟩, "c1"⟩, ⟨⟨"b", "false", "q", "exec"⟩, "c2"⟩]

/-- The quote of the second block is named, the order that control does not get to is not. -/
theorem quoteOtherwise_capabilities :
    ∃ p, quoteOtherwise.compile.result = .ok p ∧ .fetchQuote ∈ p.capabilities ∧
      .placeOrder ∉ p.capabilities := by
  have hflow : quoteOtherwise.Unfolds ⟨"s", "exec"⟩ _ :=
    .branch rfl rfl (.stop rfl) (.action rfl rfl (.stop rfl))
  have hg : ∀ n ∈ quoteOtherwise.nodes, n.IsSealed := by
    simp [quoteOtherwise, Node.ofKind, Node.IsSealed]
  have hlinks : ∀ l ∈ quoteOtherwise.links, l.targetInput ≠ "entryPrice" := by decide
  obtain ⟨p, hp⟩ := exists_compiled hg (fun n _ a _ => lowerable_of_no_entryPrice hlinks n a) rfl hflow
    (by simp [Control.emissions])
  obtain ⟨root, settings, flow, hroot, hunique, -, -, hmem, hcall, -⟩ := program_capabilities hp
  obtain ⟨rfl, -⟩ : Node.ofKind "s" .strategyConfig = root ∧ _ = settings := by
    simpa using Option.some.inj hroot
  rw [← (hunique _).1 hflow] at hcall
  refine ⟨p, hp, ?_, ?_⟩
  · rw [hmem, hcall]
    exact .inr ⟨.ofKind "q" .fetchQuote, by simp [Control.occurrences], rfl⟩
  · rw [hmem, hcall]
    simp [Control.occurrences, Node.function?, Node.kind?, NodeConfig.kind?, Node.ofKind,
      Settings.default, Settings.kind, Kind.function?]

/-- A field with a call in it is called in the program and not named. -/
theorem callingField_not_named :
    ∃ p, (edited (fun _ => "") (conditionOn "x + (await placeOrder(\x7b\x7d))")).compile.result =
        .ok p ∧
      .placeOrder ∈ called p.source ∧ .placeOrder ∉ p.capabilities := by
  obtain ⟨p, condition, hp, -, hbody, hvalue, hfield⟩ :=
    exists_conditionOn (fun _ => "") "x + (await placeOrder(\x7b\x7d))"
  refine ⟨p, hp, (mem_called_source hp).2 (.inr ⟨condition, ?_, ?_⟩), ?_⟩
  · rw [hbody]
    exact List.mem_cons_self
  · have hline : conditionLine condition = "if (null?.x + (await placeOrder(" ++ ("\x7b\x7d)) " ++
        (condition.operator.symbol ++ " " ++ condition.compareValue.literal) ++ ") \x7b\n") := by
      rw [conditionLine_eq]
      simp only [Condition.access, hvalue, optionalField, List.foldl_cons, List.foldl_nil, hfield]
      exact String.toList_inj.1 (by simp)
    rw [hline]
    exact mem_called_append (by decide) _
  · rw [mem_capabilities hp, hbody]
    simp [Block.calls]

end Graph

end TradeFlow
