import TradeFlow.Proofs.Compile.DataFlow
import TradeFlow.Proofs.Program.Brackets

/-!
When the brackets of compiled programs are balanced.

Text from settings stands in string literals, which no text can leave. The field of a condition stands
in the program as it is. What is proved:

1. `Graph.Unfolds.plain`: apart from these fields, everything that is lowered is plain.
2. `Graph.balanced_of_harmless`: so a program is balanced if the fields of its conditions are harmless.
3. `Graph.moves_of_balanced_conditionOn` and `Graph.moves_of_balanced_conditionInLoop`: what a field
   has to do to leave a program balanced, at the top level and inside of a loop.
4. `Graph.edited_programs_balanced_iff`: so the fields that keep all programs of edited graphs balanced
   are exactly the harmless ones.
-/

namespace TradeFlow

open Lower Brackets

/-! ## Lowering -/

/-- Every bound variable has an inert name. -/
def Known.Plain (known : Known) : Prop := ∀ ref b, known.output? ref = some b → b.expr.Plain

section Lowering

variable {links : List Link} {known known' : Known} {n : Node} {a : Action} {call : Call}

theorem Known.Plain.bindOutput (h : known.Plain) {source : Source} (hsource : source.Plain)
    (n : Node) (kind : Kind) (output : String) : (bindOutput known n kind output source).Plain := by
  intro ref b hb
  obtain ⟨⟨shape, hself⟩, hother⟩ := Known.output?_bindOutput known n kind output source ref
  by_cases href : ref = ⟨n.id, output⟩
  · rw [href, hself, Option.some.injEq] at hb
    rw [← hb]
    exact hsource
  · rw [hother href] at hb
    exact h ref b hb

theorem Known.Plain.input? (h : known.Plain) {key : String} {b : Binding Source}
    (hb : Lower.input? links known n key = some b) : b.expr.Plain := by
  obtain ⟨l, -, hb⟩ := Option.bind_eq_some_iff.1 hb
  exact h _ b hb

theorem Argument.Plain.of_source? {a : Argument} (h : a.source? = none) : a.Plain := by
  intro s hs
  rw [h] at hs
  cases hs

theorem Known.Plain.supply (h : known.Plain) (links : List Link) (n : Node) (key : String)
    {fallback : Argument} (hfallback : fallback.source? = none) : (supply links known n key fallback).Plain := by
  rw [Lower.supply]
  cases hb : Lower.input? links known n key with
  | none => exact Argument.Plain.of_source? hfallback
  | some b =>
    rintro s ⟨⟩
    exact h.input? hb

/-- A fetch with an inert stem and plain fields. -/
theorem fetch_plain {kind : Kind} {function : Capability} {stem output : String}
    {source : Variable → Source} {fields : Known → List Field} (hknown : known.Plain)
    (hstem : Inert stem) (hsource : ∀ v, (source v).reads? = some v)
    (hfields : ∀ known : Known, known.Plain → ∀ f ∈ fields known, f.Plain)
    (h : Except.ok (fetch known n kind function stem output source fields) =
      (Except.ok (known', call) : Except Halt (Known × Call))) : known'.Plain ∧ call.Plain := by
  cases h
  have hsourcePlain : (source ((known.require function).allocate stem).1).Plain := by
    intro v hv
    rw [hsource, Option.some.injEq] at hv
    rw [← hv]
    exact hstem
  have hallocated : Known.Plain ((known.require function).allocate stem).2 := hknown
  have hplain := hallocated.bindOutput hsourcePlain n kind output
  refine ⟨hplain, nofun, ?_, hfields _ hplain⟩
  rintro _ ⟨⟩
  exact hstem

theorem Field.Plain.of {name : String} {value : Argument} (hname : Inert name) (hvalue : value.Plain) :
    Field.Plain { name, value } :=
  ⟨hname, hvalue, nofun⟩

theorem Argument.Plain.number (x : Binary64) : (Argument.number x).Plain := .of_source? rfl

/-- The two legs of a plain entry price are plain. -/
theorem legs_plain {entry : Source} {s : PlaceOrder} {stop profit : Argument} (hentry : entry.Plain)
    (h : legs entry s = .ok (stop, profit)) : stop.Plain ∧ profit.Plain := by
  unfold legs at h
  split at h
  · cases h
    constructor <;>
    · rintro _ ⟨⟩
      exact hentry
  · cases h

/-- The fields of an order. -/
theorem order_fields_plain {symbol stop profit moment : Argument} {entry : Field}
    (hsymbol : symbol.Plain) (hentry : entry.Plain) (hstop : stop.Plain) (hprofit : profit.Plain)
    (hmoment : moment.Plain) :
    ∀ f ∈ [{ name := "nseSymbol", value := symbol }, entry,
      { name := "stopLossPrice", value := stop }, { name := "takeProfitPrice", value := profit },
      { name := "datetime", value := moment }], Field.Plain f := by
  simp only [List.forall_mem_cons]
  exact ⟨.of (by decide) hsymbol, hentry, .of (by decide) hstop, .of (by decide) hprofit,
    .of (by decide) hmoment, nofun⟩

theorem order_plain {s : PlaceOrder} (hknown : known.Plain)
    (h : order links known n s = .ok (known', call)) : known'.Plain ∧ call.Plain := by
  have hsymbol : (textArgument links (known.require .placeOrder) n "nseSymbol" s.nseSymbol).Plain := by
    rw [textArgument_eq]
    exact Known.Plain.supply hknown links n "nseSymbol" rfl
  have hmoment : (datetime n s.useCurrentTimestamp s.datetime).Plain :=
    Argument.Plain.of_source? (source?_datetime _ _ _)
  simp only [order] at h
  split at h
  · next entry _ hentry =>
    have hsource : entry.expr.Plain := Known.Plain.input? hknown hentry
    cases hlegs : legs entry.expr s with
    | error halt => simp [hlegs, Except.map] at h
    | ok pair =>
      obtain ⟨stop, profit⟩ := pair
      obtain ⟨hstop, hprofit⟩ := legs_plain hsource hlegs
      rw [hlegs] at h
      cases h
      refine ⟨hknown, by simp, by simp, order_fields_plain hsymbol ?_ hstop hprofit hmoment⟩
      refine .of (by decide) ?_
      rintro _ ⟨⟩
      exact hsource
  · cases h
    exact ⟨hknown, by simp, by simp, order_fields_plain hsymbol (.of (by decide) (.number _))
      (.number _) (.number _) hmoment⟩
  · cases h
    refine ⟨hknown, ?_, by simp, order_fields_plain hsymbol ⟨?_, .number _, ?_⟩ (.number _)
      (.number _) hmoment⟩
    · rintro _ ⟨⟩
      decide
    · decide
    · rintro _ ⟨⟩
      decide

/-- An action binds and calls plainly. -/
theorem action_plain (hknown : known.Plain)
    (h : Lower.action links known n a = .ok (known', call)) : known'.Plain ∧ call.Plain := by
  have hliteral : ∀ key value, (literal n key value).Plain := fun _ _ => .of_source? rfl
  have htext : ∀ (known : Known), known.Plain → ∀ key value,
      (textArgument links known n key value).Plain := by
    intro known hknown key value
    rw [textArgument_eq]
    exact hknown.supply links n key rfl
  cases a with
  | placeOrder s => exact order_plain hknown h
  | fetchShortlist s =>
    refine fetch_plain hknown (by decide) (fun _ => rfl) (fun known hknown => ?_) h
    simp only [List.forall_mem_cons]
    refine ⟨.of (by decide) (hliteral _ _), .of (by decide) ?_, nofun⟩
    have hsupply := hknown.supply links n "datetime"
      (source?_datetime n s.useCurrentTimestamp s.datetime)
    rw [supply] at hsupply
    cases hb : Lower.input? links known n "datetime" with
    | none => simpa [hb] using hsupply
    | some b => simpa [hb] using hsupply
  | fetchShortlistPersistence s =>
    refine fetch_plain hknown (by decide) (fun _ => rfl) (fun known hknown => ?_) h
    simp only [List.forall_mem_cons]
    exact ⟨.of (by decide) (hliteral _ _), .of (by decide) (hliteral _ _),
      .of (by decide) (hliteral _ _), nofun⟩
  | fetchCandles s =>
    refine fetch_plain hknown (by decide) (fun _ => rfl) (fun known hknown => ?_) h
    simp only [List.forall_mem_cons]
    refine ⟨.of (by decide) (htext known hknown _ _), .of (by decide) (hliteral _ _),
      .of (by decide) (hliteral _ _), .of (by decide) ?_, nofun⟩
    split
    · exact .of_source? rfl
    · exact hliteral _ _
  | fetchQuote s =>
    refine fetch_plain hknown (by decide) (fun _ => rfl) (fun known hknown => ?_) h
    simp only [List.forall_mem_cons]
    exact ⟨.of (by decide) (htext known hknown _ _), nofun⟩
  | fetchDates =>
    exact fetch_plain hknown (by decide) (fun _ => rfl)
      (fun _ _ _ hf => absurd hf List.not_mem_nil) h
  | fetchHolidays =>
    exact fetch_plain hknown (by decide) (fun _ => rfl)
      (fun _ _ _ hf => absurd hf List.not_mem_nil) h

/-- A loop binds its item plainly. -/
theorem Known.Plain.entered (h : known.Plain) (n : Node) : (known.entered n).Plain := by
  have hitem : (Source.symbol (known.allocate "item").1).Plain := by
    rintro _ ⟨⟩
    show Inert "item"
    decide
  have hallocated : Known.Plain (known.allocate "item").2 := h
  exact hallocated.bindOutput hitem n .forEach "item"

end Lowering

namespace Graph

variable {g : Graph} {ref : OutputRef} {flow : Control} {links : List Link} {known known' : Known}
  {block : Block} {p : Program}

/-- Every condition that control gets to from an output is on a field with a property. -/
def FieldsSatisfy (g : Graph) (allowed : String → Prop) (ref : OutputRef) : Prop :=
  ∀ n, g.Visits ref n → ∀ c, n.config = .sealed (.conditional c) → allowed c.field

/-- Apart from the fields of its conditions, a lowered flow is plain. -/
theorem Unfolds.plain {allowed : String → Prop} (h : g.Unfolds ref flow)
    (hlow : Lowered links flow known known' block) (hknown : known.Plain)
    (hfields : g.FieldsSatisfy allowed ref) : known'.Plain ∧ block.Plain allowed := by
  induction h generalizing known known' block with
  | stop hn =>
    cases hlow
    exact ⟨hknown, trivial⟩
  | silent hn hr _ ih =>
    cases hlow with
    | silent hlow =>
      exact ih hlow hknown fun m hm => hfields m ((visits_iff_of_silent hn hr).2 (.inr hm))
  | action hn hr _ ih =>
    cases hlow with
    | action ha hlow =>
      obtain ⟨hknown₁, hcall⟩ := action_plain hknown ha
      obtain ⟨hknown', hrest⟩ := ih hlow hknown₁ fun m hm =>
        hfields m ((visits_iff_of_action hn hr).2 (.inr hm))
      exact ⟨hknown', hcall, hrest⟩
  | @loop _ n _ _ hn hr _ _ ihbody ihrest =>
    cases hlow with
    | loop hbody hrest =>
      obtain ⟨hknown₁, hbody⟩ := ihbody hbody (hknown.entered n) fun m hm =>
        hfields m ((visits_iff_of_loop hn hr).2 (.inr (.inl hm)))
      obtain ⟨hknown', hrest⟩ := ihrest hrest hknown₁ fun m hm =>
        hfields m ((visits_iff_of_loop hn hr).2 (.inr (.inr hm)))
      refine ⟨hknown', show Inert "item" by decide, ?_, hbody, hrest⟩
      intro s hs
      obtain ⟨b, hb, rfl⟩ := Option.map_eq_some_iff.1 hs
      exact hknown.input? hb
  | branch hn hr _ _ ihyes ihno =>
    cases hlow with
    | branch hyes hno =>
      obtain ⟨hknown₁, hyes⟩ := ihyes hyes hknown fun m hm =>
        hfields m ((visits_iff_of_branch hn hr).2 (.inr (.inl hm)))
      obtain ⟨hknown', hno⟩ := ihno hno hknown₁ fun m hm =>
        hfields m ((visits_iff_of_branch hn hr).2 (.inr (.inr hm)))
      have hfield := hfields _ ((visits_iff_of_branch hn hr).2 (.inl rfl)) _
        (config_eq_of_role (s := .conditional _) hr (by simp [NodeConfig.role]))
      exact ⟨hknown', fun b hb => hknown.input? hb, hfield, hyes, hno⟩

theorem plain_initialScope (root : Node) : (initialScope root).Plain := by
  intro ref b hb v hv
  rw [(output?_initialScope hb).2] at hv
  cases hv

/-- A program is balanced if its conditions are on harmless fields. -/
theorem balanced_of_harmless (hp : g.compile.result = .ok p)
    (hfields : g.FieldsSatisfy Harmless ⟨p.configNode, "exec"⟩) : Balanced p.source := by
  obtain ⟨root, settings, flow, known, -, hflow, hlow, -, hprogram⟩ := compiled_cases hp
  have hroot : p.configNode = root.id := by rw [hprogram]
  rw [hroot] at hfields
  obtain ⟨-, hbody⟩ := hflow.plain hlow (plain_initialScope root) hfields
  exact Program.balanced_of_plain hbody

/-! ## Fields that do harm -/

/-- A node with a condition on a field. -/
def conditionNode (field : String) : Node := ⟨"b", ⟨0, 0⟩, .sealed (.conditional ⟨field, ">", 0⟩)⟩

/-- A condition on a field right after the start. -/
def conditionOn (field : String) : List Edit :=
  [.insert (some (.ofKind "s" .strategyConfig)), .insert (some (conditionNode field)),
    .connectAs "c1" ⟨"s", "exec", "b", "exec"⟩]

/-- The same condition inside of a loop. -/
def conditionInLoop (field : String) : List Edit :=
  [.insert (some (.ofKind "s" .strategyConfig)), .insert (some (.ofKind "f" .forEach)),
    .insert (some (conditionNode field)), .connectAs "c1" ⟨"s", "exec", "f", "exec"⟩,
    .connectAs "c2" ⟨"f", "loopBody", "b", "exec"⟩]

/-- The two graphs. -/
def withCondition (field : String) : Graph where
  nodes := [.ofKind "s" .strategyConfig, conditionNode field]
  connections := [⟨⟨"s", "exec", "b", "exec"⟩, "c1"⟩]

def withConditionInLoop (field : String) : Graph where
  nodes := [.ofKind "s" .strategyConfig, .ofKind "f" .forEach, conditionNode field]
  connections := [⟨⟨"s", "exec", "f", "exec"⟩, "c1"⟩, ⟨⟨"f", "loopBody", "b", "exec"⟩, "c2"⟩]

theorem edited_conditionOn (ids : Nat → String) (field : String) :
    edited ids (conditionOn field) = withCondition field := by
  rfl

theorem edited_conditionInLoop (ids : Nat → String) (field : String) :
    edited ids (conditionInLoop field) = withConditionInLoop field := by
  rfl

/-- The program of a graph follows from its flow and what the flow is lowered to. -/
theorem WellFormed.exists_program_of_lowered {root : Node} {settings : StrategyConfig}
    (h : g.WellFormed) (allowed : String → Prop) (hroot : g.root? = some (root, settings))
    (hflow : g.Unfolds (start root) flow) (hne : flow.emissions ≠ [])
    (hfields : ∀ n ∈ flow.occurrences, ∀ c, n.config = .sealed (.conditional c) → allowed c.field)
    (hlow : Lowered g.links flow (initialScope root) known block) :
    ∃ p, g.compile.result = .ok p ∧ g.FieldsSatisfy allowed ⟨p.configNode, "exec"⟩ ∧
      p.body = block := by
  obtain ⟨p, hp⟩ := exists_compiled h.isSealed (fun n _ a _ => h.lowerable n a) hroot hflow hne
  obtain ⟨root', settings', flow', known', hroot', hflow', hlow', -, hprogram⟩ := compiled_cases hp
  obtain ⟨rfl, -⟩ : root = root' ∧ settings = settings' := by
    rw [hroot] at hroot'
    simpa using hroot'
  obtain rfl := hflow.unique hflow'
  have hsame := (lower_eq_ok hlow).symm.trans (lower_eq_ok hlow')
  simp only [Except.ok.injEq, Prod.mk.injEq] at hsame
  refine ⟨p, hp, ?_, hsame.2.symm⟩
  have hid : p.configNode = root.id := by rw [hprogram]
  rw [hid]
  exact fun n hn => hfields n (hflow.mem_occurrences_iff.2 hn)

theorem exists_conditionOn (ids : Nat → String) (field : String) :
    ∃ p condition, (edited ids (conditionOn field)).compile.result = .ok p ∧
      (edited ids (conditionOn field)).FieldsSatisfy (· = field) ⟨p.configNode, "exec"⟩ ∧
      p.body = .branch condition .nil .nil ∧ condition.value = none ∧ condition.field = field := by
  have h := wellFormed_edited ids (conditionOn field)
  rw [edited_conditionOn] at h ⊢
  have hflow : (withCondition field).Unfolds (start (.ofKind "s" .strategyConfig))
      (.branch (conditionNode field) ⟨field, ">", 0⟩ .stop .stop) :=
    .branch rfl rfl (.stop rfl) (.stop rfl)
  have hfields : ∀ n ∈ [conditionNode field], ∀ c, n.config = .sealed (.conditional c) →
      c.field = field := by
    rintro n hn c hc
    rw [List.mem_singleton.1 hn] at hc
    cases hc
    rfl
  obtain ⟨p, hp, hsatisfy, hbody⟩ := h.exists_program_of_lowered (· = field) rfl hflow
    (List.cons_ne_nil _ _) hfields (.branch .stop .stop)
  exact ⟨p, _, hp, hsatisfy, hbody, rfl, rfl⟩

theorem exists_conditionInLoop (ids : Nat → String) (field : String) :
    ∃ p condition, (edited ids (conditionInLoop field)).compile.result = .ok p ∧
      (edited ids (conditionInLoop field)).FieldsSatisfy (· = field) ⟨p.configNode, "exec"⟩ ∧
      p.body = .loop ⟨"item", 1⟩ none (.branch condition .nil .nil) .nil ∧ condition.value = none ∧
      condition.field = field := by
  have h := wellFormed_edited ids (conditionInLoop field)
  rw [edited_conditionInLoop] at h ⊢
  have hflow : (withConditionInLoop field).Unfolds (start (.ofKind "s" .strategyConfig))
      (.loop (.ofKind "f" .forEach) (.branch (conditionNode field) ⟨field, ">", 0⟩ .stop .stop)
        .stop) :=
    .loop rfl rfl (.branch rfl rfl (.stop rfl) (.stop rfl)) (.stop rfl)
  have hfields : ∀ n ∈ [conditionNode field, .ofKind "f" .forEach], ∀ c,
      n.config = .sealed (.conditional c) → c.field = field := by
    simp only [List.forall_mem_cons]
    refine ⟨?_, nofun, by simp⟩
    rintro _ ⟨⟩
    rfl
  obtain ⟨p, hp, hsatisfy, hbody⟩ := h.exists_program_of_lowered (· = field) rfl hflow
    (List.cons_ne_nil _ _) hfields (.loop (.branch .stop .stop) .stop)
  exact ⟨p, _, hp, hsatisfy, hbody, rfl, rfl⟩

/-- If a program with nothing but a condition is balanced, the line of the condition opens one
block. -/
theorem moves_of_balanced_conditionOn {condition : Condition}
    (hbody : p.body = .branch condition .nil .nil) (hvalue : condition.value = none)
    (h : Balanced p.source) :
    Moves (fieldLine condition.field) (frame ++ [')']) ('\x7d' :: (frame ++ [')'])) := by
  have htext : p.body.text = branchText condition [] [] := by
    rw [hbody]
    exact String.toList_inj.1 (by simp [Block.text, Block.statements, joinStatements])
  rw [p.balanced_source_iff, htext] at h
  exact moves_fieldLine hvalue (Program.moves_ending p.settings) h

/-- The same for a condition that stands in a loop. -/
theorem moves_of_balanced_conditionInLoop {condition : Condition}
    (hbody : p.body = .loop ⟨"item", 1⟩ none (.branch condition .nil .nil) .nil)
    (hvalue : condition.value = none) (h : Balanced p.source) :
    Moves (fieldLine condition.field) ('\x7d' :: (frame ++ [')']))
      ('\x7d' :: '\x7d' :: (frame ++ [')'])) := by
  have htext : p.body.text = loopText ⟨"item", 1⟩ none (branchText condition [] []) := by
    rw [hbody]
    have hjoin : joinStatements [branchText condition [] []] = branchText condition [] [] :=
      String.toList_inj.1 (by simp [joinStatements])
    simp only [Block.text, Block.statements, hjoin]
    exact String.toList_inj.1 (by simp [joinStatements])
  have hclose : read ⟨.code, '\x7d' :: (frame ++ [')'])⟩ "\n\x7d".toList =
      some ⟨.code, frame ++ [')']⟩ := by decide
  have hrest : read ⟨.code, '\x7d' :: (frame ++ [')'])⟩
      ("\n\x7d".toList ++ (Program.ending p.settings).toList) = some ⟨.code, []⟩ := by
    rw [read_append, hclose, Option.bind_some]
    exact Program.moves_ending p.settings
  rw [p.balanced_source_iff, htext, read_loopText] at h
  exact moves_fieldLine hvalue hrest h

/-- The fields that keep the programs of all edited graphs balanced are exactly the harmless ones. -/
theorem edited_programs_balanced_iff (allowed : String → Prop) :
    (∀ ids edits p, (edited ids edits).compile.result = .ok p →
      (edited ids edits).FieldsSatisfy allowed ⟨p.configNode, "exec"⟩ → Balanced p.source) ↔
    ∀ field, allowed field → Harmless field := by
  constructor
  · intro hall field hallowed
    obtain ⟨p, condition, hp, hfields, hbody, hvalue, hfield⟩ := exists_conditionOn (fun _ => "") field
    obtain ⟨p', condition', hp', hfields', hbody', hvalue', hfield'⟩ :=
      exists_conditionInLoop (fun _ => "") field
    have hbalanced : Balanced p.source :=
      hall _ _ p hp fun n hn c hc => (hfields n hn c hc).symm ▸ hallowed
    have hbalanced' : Balanced p'.source :=
      hall _ _ p' hp' fun n hn c hc => (hfields' n hn c hc).symm ▸ hallowed
    have hmoves := moves_of_balanced_conditionOn hbody hvalue hbalanced
    have hmoves' := moves_of_balanced_conditionInLoop hbody' hvalue' hbalanced'
    rw [hfield] at hmoves
    rw [hfield'] at hmoves'
    exact harmless_of_moves hmoves hmoves'
  · intro hharmless ids edits p hp hfields
    exact balanced_of_harmless hp fun n hn c hc => hharmless _ (hfields n hn c hc)

/-- The field that conditions start with is harmless. -/
theorem orderPerItem_balanced :
    ∃ p, (edited (fun _ => "") orderPerItem).compile.result = .ok p ∧ Balanced p.source := by
  obtain ⟨p, hp, -⟩ := (wellFormed_edited (fun _ => "") orderPerItem).exists_program rfl
    List.mem_cons_self rfl
  refine ⟨p, hp, (edited_programs_balanced_iff (· = "last_price")).2 ?_ _ _ p hp ?_⟩
  · rintro _ rfl
    decide
  · rintro n ⟨ref, -, href⟩ c hc
    have hmem : n ∈ [Node.ofKind "s" .strategyConfig, .ofKind "a" .fetchShortlist,
        .ofKind "f" .forEach, .ofKind "q" .fetchQuote, .ofKind "b" .conditional,
        .ofKind "o" .placeOrder] := mem_nodes_of_next? href
    simp only [List.mem_cons, List.not_mem_nil, or_false] at hmem
    rcases hmem with rfl | rfl | rfl | rfl | rfl | rfl <;> cases hc
    rfl

/-- A closing parenthesis as a field closes the condition too early. -/
theorem closingField_not_balanced :
    ∃ p, (edited (fun _ => "") (conditionOn ")")).compile.result = .ok p ∧ ¬ Balanced p.source := by
  obtain ⟨p, condition, hp, -, hbody, hvalue, hfield⟩ := exists_conditionOn (fun _ => "") ")"
  refine ⟨p, hp, fun hbalanced => ?_⟩
  have hmoves := moves_of_balanced_conditionOn hbody hvalue hbalanced
  rw [hfield] at hmoves
  revert hmoves
  decide

end Graph

end TradeFlow
