import TradeFlow.Proofs.Compile.Capabilities
import TradeFlow.Proofs.Program.Variables

/-!
The variables that a program declares.

A fetch declares its result and a loop its item, each with the stem of its kind. The scope is never set
back while a flow is lowered, neither behind a block nor when a node is lowered again. What is proved:

1. `Lowered.allocated_eq`: lowering a flow allocates the variables that its block declares, in the
   order of the text.
2. `Graph.Unfolds.stems_perm`: these are as many for each stem as nodes of the flow declare.
3. `Variable.name_ne_capability`: the variables of nodes are not named like capabilities.
4. `Block.exists_line_declaring`: every declared variable is declared in a line of the text.
5. `Graph.variables_never_collide`: names that a fresh scope gives never collide, and the variables of
   the program of any graph are such names.
-/

namespace TradeFlow

open Lower

/-- The stem of the variables that nodes of a kind declare. -/
def Kind.stem? : Kind → Option String
  | .fetchShortlist => some "shortlist"
  | .fetchShortlistPersistence => some "persistence"
  | .fetchCandles => some "candles"
  | .fetchQuote => some "quote"
  | .fetchDates => some "dates"
  | .fetchHolidays => some "holidays"
  | .forEach => some "item"
  | .strategyConfig => none
  | .placeOrder => none
  | .conditional => none

/-- The stem of the variable that a node declares. -/
def Node.stem? (n : Node) : Option String := n.kind?.bind Kind.stem?

/-- The variables that the calls and loops of a block declare at any depth, in the order of the text.
Conditions declare none: a field stands in the text of its condition as it is given, and what else it
may spell there is no variable of the block. -/
def Block.declared : Block → List Variable
  | .nil => []
  | .call c rest => c.result.toList ++ rest.declared
  | .loop item _ body rest => item :: (body.declared ++ rest.declared)
  | .branch _ yes no => yes.declared ++ no.declared

/-- How the declaration of a variable begins, in a statement of its own and in the head of a loop. -/
def Variable.declaration (v : Variable) : String := "const " ++ v.name ++ " "

/-! ## Allocation -/

section Allocation

variable {links : List Link} {known known' : Known} {n : Node} {a : Action} {call : Call}
  {flow : Control} {block : Block}

/-- An action declares a variable of its kind, or none. -/
theorem action_result (h : Lower.action links known n a = .ok (known', call)) :
    call.result = (actionKind a).stem?.map (fun stem => (known.allocate stem).1) ∧
      known'.allocated = call.result.toList ++ known.allocated := by
  cases a with
  | placeOrder s =>
    obtain ⟨hresult, rfl⟩ := order_eq_ok h
    rw [hresult]
    exact ⟨rfl, rfl⟩
  | _ =>
    cases h
    exact ⟨rfl, rfl⟩

/-- Lowering a flow allocates what its block declares, the latest variable in front. -/
theorem Lowered.allocated_eq (h : Lowered links flow known known' block) :
    known'.allocated = block.declared.reverse ++ known.allocated := by
  induction h with
  | stop => rfl
  | silent _ ih => exact ih
  | @action n a rest known known₁ known' call block ha _ ih =>
    have hone : call.result.toList.reverse = call.result.toList := by
      cases call.result <;> rfl
    rw [ih, (action_result ha).2, Block.declared, List.reverse_append, List.append_assoc, hone]
  | @loop n body rest known known₁ known' bodyBlock block _ _ ihbody ihrest =>
    have hentered : (known.entered n).allocated = (known.allocate "item").1 :: known.allocated := rfl
    rw [ihrest, ihbody, hentered]
    simp [Block.declared]
  | branch _ _ ihyes ihno =>
    rw [ihno, ihyes, Block.declared, List.reverse_append, List.append_assoc]

/-- Lowering goes on with the numbering of the variables. -/
theorem Lowered.numbered (h : Lowered links flow known known' block)
    (hknown : Variable.Numbered known.allocated) : Variable.Numbered known'.allocated := by
  induction h with
  | stop => exact hknown
  | silent _ ih => exact ih hknown
  | @action n a rest known known₁ known' call block ha _ ih =>
    obtain ⟨hresult, hallocated⟩ := action_result ha
    apply ih
    rw [hallocated, hresult]
    cases (actionKind a).stem? with
    | none => exact hknown
    | some stem => exact Scope.numbered_allocate hknown stem
  | loop _ _ ihbody ihrest =>
    exact ihrest (ihbody (Scope.numbered_allocate hknown "item"))
  | branch _ _ ihyes ihno => exact ihno (ihyes hknown)

/-- What a whole flow declares is numbered from the first variable on. -/
theorem Lowered.numbered_declared {root : Node}
    (h : Lowered links flow (Graph.initialScope root) known' block) :
    Variable.Numbered block.declared.reverse := by
  have hall := h.numbered (show Variable.Numbered (Graph.initialScope root).allocated from trivial)
  rw [h.allocated_eq] at hall
  exact (List.append_nil block.declared.reverse) ▸ hall

/-- Every declared variable has the stem of a kind. -/
theorem Lowered.exists_stem (h : Lowered links flow known known' block) :
    ∀ v ∈ block.declared, ∃ kind : Kind, kind.stem? = some v.stem := by
  induction h with
  | stop => simp [Block.declared]
  | silent _ ih => exact ih
  | @action n a rest known known₁ known' call block ha _ ih =>
    rw [Block.declared, List.forall_mem_append]
    refine ⟨fun v hv => ⟨actionKind a, ?_⟩, ih⟩
    rw [(action_result ha).1] at hv
    obtain ⟨stem, hstem, rfl⟩ := Option.map_eq_some_iff.1 (Option.mem_toList.1 hv)
    exact hstem
  | loop _ _ ihbody ihrest =>
    rw [Block.declared, List.forall_mem_cons, List.forall_mem_append]
    exact ⟨⟨.forEach, rfl⟩, ihbody, ihrest⟩
  | branch _ _ ihyes ihno =>
    rw [Block.declared, List.forall_mem_append]
    exact ⟨ihyes, ihno⟩

/-- The stems of the variables are those of the nodes of the flow, each as often as a node occurs. A
loop declares its item before its body and occurs after it. -/
theorem Graph.Unfolds.stems_perm {g : Graph} {ref : OutputRef} (h : g.Unfolds ref flow)
    (hlow : Lowered links flow known known' block) :
    (block.declared.map (·.stem)).Perm (flow.occurrences.filterMap Node.stem?) := by
  induction h generalizing known known' block with
  | stop hn =>
    cases hlow
    exact .nil
  | @silent _ n _ hn hr _ ih =>
    cases hlow with
    | silent hlow =>
      have hnone : n.stem? = none := by rw [Node.stem?, Node.kind?_of_silent hr]; rfl
      rw [Control.occurrences, List.filterMap_cons_none hnone]
      exact ih hlow
  | @action _ n a _ hn hr _ ih =>
    cases hlow with
    | action ha hlow =>
      have hstem : n.stem? = (actionKind a).stem? := by rw [Node.stem?, Node.kind?_of_action hr]; rfl
      rw [Block.declared, (action_result ha).1, List.map_append, Control.occurrences]
      cases hkind : (actionKind a).stem? with
      | none =>
        rw [List.filterMap_cons_none (hstem.trans hkind)]
        exact ih hlow
      | some stem =>
        rw [List.filterMap_cons_some (hstem.trans hkind)]
        exact (ih hlow).cons stem
  | @loop _ n _ _ hn hr _ _ ihbody ihrest =>
    cases hlow with
    | loop hbody hrest =>
      have hsome : n.stem? = some "item" := by rw [Node.stem?, Node.kind?_of_loop hr]; rfl
      rw [Block.declared, List.map_cons, List.map_append, Control.occurrences, List.filterMap_append,
        List.filterMap_cons_some hsome]
      exact (((ihbody hbody).append (ihrest hrest)).cons _).trans List.perm_middle.symm
  | @branch _ n _ _ _ hn hr _ _ ihyes ihno =>
    cases hlow with
    | branch hyes hno =>
      have hnone : n.stem? = none := by rw [Node.stem?, Node.kind?_of_branch hr]; rfl
      rw [Block.declared, List.map_append, Control.occurrences, List.filterMap_append,
        List.filterMap_append, List.filterMap_cons_none hnone, List.filterMap_nil, List.append_nil]
      exact (ihyes hyes).append (ihno hno)

end Allocation

/-! ## Names -/

section Names

variable {kind : Kind} {stem : String}

theorem Kind.not_endsInDigit_of_stem? (h : kind.stem? = some stem) : ¬ EndsInDigit stem := by
  cases kind <;> cases h <;> decide

theorem Kind.newline_not_mem_of_stem? (h : kind.stem? = some stem) : '\n' ∉ stem.toList := by
  cases kind <;> cases h <;> decide

theorem Kind.stem_ne_capability (h : kind.stem? = some stem) (f : Capability) : stem ≠ f.name := by
  cases kind <;> cases h <;> cases f <;> decide

theorem Capability.not_endsInDigit_name (f : Capability) : ¬ EndsInDigit f.name := by
  cases f <;> decide

/-- The variables of nodes are not named like capabilities: what stands before the number would be a
stem that is named so. -/
theorem Variable.name_ne_capability {v : Variable} (h : kind.stem? = some v.stem) (f : Capability) :
    v.name ≠ f.name := by
  intro heq
  apply Kind.stem_ne_capability h f
  rw [← String.toList_inj, ← rdropWhile_name (Kind.not_endsInDigit_of_stem? h), heq,
    rdropWhile_of_not_endsInDigit f.not_endsInDigit_name]

theorem Variable.newline_not_mem_declaration {v : Variable} (h : kind.stem? = some v.stem) :
    '\n' ∉ v.declaration.toList := by
  have hname : '\n' ∉ v.name.toList := by
    rw [toList_name, List.mem_append, not_or]
    exact ⟨Kind.newline_not_mem_of_stem? h, fun hc => absurd (v.isDigit_suffix _ hc) (by decide)⟩
  exact newline_not_mem_append (newline_not_mem_append (by decide) hname) (by decide)

end Names

/-! ## Declarations in the text -/

/-- A statement that names its result says so in its text. -/
theorem Call.declaration_infix {c : Call} {v : Variable} (h : c.result = some v) :
    v.declaration.toList <:+: c.text.toList := by
  have happend : ∀ front rest : String,
      (front ++ ("const " ++ v.name ++ " = ") ++ rest).toList =
        front.toList ++ v.declaration.toList ++ ("= ".toList ++ rest.toList) := by
    intro front rest
    simp [Variable.declaration]
  rw [Call.text, h, String.append_assoc, String.append_assoc, String.append_assoc, happend]
  exact List.infix_append _ _ _

theorem declaration_infix_loopHead (item : Variable) (array : Option Source) :
    item.declaration.toList <:+: (loopHead item array).toList := by
  have happend : ∀ rest : String, ("for (const " ++ item.name ++ " of " ++ rest).toList =
      "for (".toList ++ item.declaration.toList ++ ("of ".toList ++ rest.toList) := by
    intro rest
    simp [Variable.declaration]
  unfold loopHead
  rw [String.append_assoc, happend]
  exact List.infix_append _ _ _

theorem mem_chainLines {line : Line} {depth : Nat} {s : String} {statements : List String}
    (hs : s ∈ statements) (hline : line ∈ linesAt depth s) :
    line ∈ chainLines (statements.map (linesAt depth)) :=
  (infix_chainLines (List.mem_map_of_mem hs)).subset hline

/-- Every variable that a block declares is declared in a line of a statement of the block. -/
theorem Block.exists_line_declaring {b : Block} {v : Variable} (h : v ∈ b.declared)
    (hline : '\n' ∉ v.declaration.toList) (depth : Nat) :
    ∃ s ∈ b.statements, ∃ line ∈ linesAt depth s, v.declaration.toList <:+: line := by
  -- by induction on the block; what is owned stands one level deeper
  induction b generalizing depth with
  | nil => cases h
  | call c rest ih =>
    rcases List.mem_append.1 h with h | h
    · have hinfix := Call.declaration_infix (Option.mem_toList.1 h)
      exact ⟨_, List.mem_cons_self, exists_linesAt_of_infix hline hinfix depth⟩
    · obtain ⟨s, hs, hfound⟩ := ih h depth
      exact ⟨s, List.mem_cons_of_mem _ hs, hfound⟩
  | loop item array body rest ihbody ihrest =>
    rw [declared, List.mem_cons, List.mem_append] at h
    rcases h with rfl | h | h
    · obtain ⟨line, hmem, hinfix⟩ :=
        exists_linesAt_of_infix hline (declaration_infix_loopHead v array) depth
      refine ⟨_, List.mem_cons_self, line, ?_, hinfix⟩
      rw [linesAt_loopText]
      exact List.mem_append_left _ (List.mem_append_left _ hmem)
    · obtain ⟨s, hs, line, hmem, hinfix⟩ := ihbody h (depth + 1)
      refine ⟨_, List.mem_cons_self, line, ?_, hinfix⟩
      rw [linesAt_loopText]
      exact List.mem_append_left _ (List.mem_append_right _ (mem_chainLines hs hmem))
    · obtain ⟨s, hs, hfound⟩ := ihrest h depth
      exact ⟨s, List.mem_cons_of_mem _ hs, hfound⟩
  | branch condition yes no ihyes ihno =>
    refine ⟨_, List.mem_singleton_self _, ?_⟩
    rcases List.mem_append.1 h with h | h
    · obtain ⟨s, hs, line, hmem, hinfix⟩ := ihyes h (depth + 1)
      refine ⟨line, ?_, hinfix⟩
      have hchain := mem_chainLines hs hmem
      by_cases hno : no.statements = []
      · rw [hno, linesAt_branchText_nil]
        simp [hchain]
      · rw [linesAt_branchText_cons _ _ _ hno]
        simp [hchain]
    · -- the second block declares something, so it is not left out
      obtain ⟨s, hs, line, hmem, hinfix⟩ := ihno h (depth + 1)
      refine ⟨line, ?_, hinfix⟩
      have hchain := mem_chainLines hs hmem
      rw [linesAt_branchText_cons _ _ _ (List.ne_nil_of_mem hs)]
      simp [hchain]

theorem Program.exists_line_declaring {p : Program} {v : Variable} (h : v ∈ p.body.declared)
    (hline : '\n' ∉ v.declaration.toList) :
    ∃ line ∈ lines p.source.toList, v.declaration.toList <:+: line := by
  obtain ⟨s, hs, line, hmem, hinfix⟩ := Block.exists_line_declaring h hline 2
  refine ⟨line, ?_, hinfix⟩
  have hbody : linesAt 2 p.body.text = chainLines (p.body.statements.map (linesAt 2)) :=
    linesAt_joinStatements 2 p.body.statements
  rw [lines_source, hbody]
  exact List.mem_append_left _ (List.mem_append_right _ (mem_chainLines hs hmem))

/-! ## Programs -/

namespace Graph

/-- **Allocated variables never collide.** The names that a fresh scope gives, one after the other, for
any stems that do not end in a digit are distinct. The program of any graph declares a variable for each
time that control gets to a fetch or a loop, and in order these are what a fresh scope gives for their
stems. Each is declared in a line of the text, their names are distinct, and none is the name of a
capability. These are the variables of calls and loops; the text of a condition is not searched for
others. -/
theorem variables_never_collide :
    (∀ stems : List String, (∀ stem ∈ stems, ¬ EndsInDigit stem) →
      (((Scope.empty : Known).allocations stems).map Variable.name).Nodup) ∧
    ∀ (g : Graph) (p : Program), g.compile.result = .ok p →
      (∃ root settings flow, g.root? = some (root, settings) ∧
        (∀ unfolding, g.Unfolds (start root) unfolding ↔ unfolding = flow) ∧
        (p.body.declared.map (·.stem)).Perm (flow.occurrences.filterMap Node.stem?)) ∧
      p.body.declared = (Scope.empty : Known).allocations (p.body.declared.map (·.stem)) ∧
      (∀ v ∈ p.body.declared, ∃ line ∈ lines p.source.toList, v.declaration.toList <:+: line) ∧
      (p.body.declared.map Variable.name).Nodup ∧
      ∀ v ∈ p.body.declared, ∀ f : Capability, v.name ≠ f.name := by
  refine ⟨fun stems => Scope.nodup_names_allocations, fun g p hp => ?_⟩
  obtain ⟨root, settings, flow, known, hroot, hflow, hlow, -, -⟩ := compiled_cases hp
  have hstems := hlow.exists_stem
  have hgiven : p.body.declared =
      (Scope.empty : Known).allocations (p.body.declared.map (·.stem)) := by
    simpa using hlow.numbered_declared.eq_allocations (ε := Source)
  refine ⟨⟨root, settings, flow, hroot, ?_, hflow.stems_perm hlow⟩, hgiven, ?_, ?_, ?_⟩
  · exact fun unfolding => ⟨fun hu => hu.unique hflow, fun he => he ▸ hflow⟩
  · intro v hv
    obtain ⟨kind, hkind⟩ := hstems v hv
    exact Program.exists_line_declaring hv (Variable.newline_not_mem_declaration hkind)
  · rw [hgiven]
    apply Scope.nodup_names_allocations
    intro stem hstem
    obtain ⟨v, hv, rfl⟩ := List.mem_map.1 hstem
    obtain ⟨kind, hkind⟩ := hstems v hv
    exact Kind.not_endsInDigit_of_stem? hkind
  · intro v hv f
    obtain ⟨kind, hkind⟩ := hstems v hv
    exact Variable.name_ne_capability hkind f

/-- A condition that either way fetches the same quote, and then loops. -/
def sharedQuote : Graph where
  nodes := [.ofKind "s" .strategyConfig, .ofKind "b" .conditional, .ofKind "q" .fetchQuote,
    .ofKind "f" .forEach]
  connections :=
    [⟨⟨"s", "exec", "b", "exec"⟩, "c1"⟩, ⟨⟨"b", "true", "q", "exec"⟩, "c2"⟩,
      ⟨⟨"b", "false", "q", "exec"⟩, "c3"⟩, ⟨⟨"q", "exec", "f", "exec"⟩, "c4"⟩]

/-- Stems may take turns and may be empty, and a node that is lowered twice declares two variables. -/
theorem sharedQuote_variables :
    ((∀ stem ∈ ["item", "", "item", ""], ¬ EndsInDigit stem) ∧
      (((Scope.empty : Known).allocations ["item", "", "item", ""]).map Variable.name).Nodup) ∧
    ∃ p, sharedQuote.compile.result = .ok p ∧
      p.body.declared.map Variable.name = ["quote", "item", "quote2", "item2"] ∧
      (p.body.declared.map Variable.name).Nodup := by
  have hstems : ∀ stem ∈ ["item", "", "item", ""], ¬ EndsInDigit stem := by decide
  refine ⟨⟨hstems, variables_never_collide.1 _ hstems⟩, ?_⟩
  have hquote : sharedQuote.Unfolds ⟨"q", "exec"⟩ _ := .loop rfl rfl (.stop rfl) (.stop rfl)
  have hflow : sharedQuote.Unfolds ⟨"s", "exec"⟩ _ :=
    .branch rfl rfl (.action rfl rfl hquote) (.action rfl rfl hquote)
  have hg : ∀ n ∈ sharedQuote.nodes, n.IsSealed := by
    simp [sharedQuote, Node.ofKind, Node.IsSealed]
  have hlinks : ∀ l ∈ sharedQuote.links, l.targetInput ≠ "entryPrice" := by decide
  obtain ⟨p, hp⟩ := exists_compiled hg (fun n _ a _ => lowerable_of_no_entryPrice hlinks n a) rfl hflow
    (by simp [Control.emissions])
  obtain ⟨root, settings, flow, known, hroot, hflow', hlow, -, -⟩ := compiled_cases hp
  obtain ⟨rfl, -⟩ : Node.ofKind "s" .strategyConfig = root ∧ _ = settings := by
    simpa using Option.some.inj hroot
  obtain rfl := hflow.unique hflow'
  have hbody := hlow.unique
    (.branch (.action rfl (.loop .stop .stop)) (.action rfl (.loop .stop .stop)))
  refine ⟨p, hp, ?_, (variables_never_collide.2 sharedQuote p hp).2.2.2.1⟩
  rw [hbody.2]
  rfl

end Graph

end TradeFlow
