import TradeFlow.Proofs.Compile.Flow

/-!
How a flow becomes a block.

`Lowered` describes successful lowering by one rule for each form of a flow, without events and
errors. What is proved:

1. `lower_eq_ok_iff`: lowering succeeds exactly as the rules say.
2. `exists_lowered` and `lower_eq_error_of_cutAt`: when every action can be lowered, a complete flow
   becomes a block, and a flow that was cut stops with the cycle at the cut.
3. `Lowered.size_eq` and `emittedNodes_lower`: the nodes that are reported as emitted are the nodes
   of the flow that become code, and the block has one statement for each of them.
-/

namespace TradeFlow

open Lower

/-! ## Runs -/

namespace Run

variable {α β : Type} {x : Run α} {f : α → Run β}

theorem bind_of_ok {a : α} (h : x.result = .ok a) :
    (x >>= f) = ⟨x.events ++ (f a).events, (f a).result⟩ := by
  show Run.bind x f = _
  simp only [Run.bind, h]

theorem result_bind_of_error {halt : Halt} (h : x.result = .error halt) :
    (x >>= f).result = .error halt := by
  show (Run.bind x f).result = _
  simp only [Run.bind, h]

theorem bind_eq_ok {b : β} :
    (x >>= f).result = .ok b ↔ ∃ a, x.result = .ok a ∧ (f a).result = .ok b := by
  cases h : x.result with
  | error halt => simp [result_bind_of_error h]
  | ok a => simp [bind_of_ok h]

@[simp] theorem result_within (node : String) (kind : Kind) (x : Run α) :
    (within node kind x).result = x.result := rfl

end Run

/-! ## The rules of lowering -/

/-- A flow becomes a block, and what is known changes on the way. -/
inductive Lowered (links : List Link) : Control → Known → Known → Block → Prop where
  | stop {known : Known} : Lowered links .stop known known .nil
  | silent {n : Node} {rest : Control} {known known' : Known} {block : Block}
      (hrest : Lowered links rest known known' block) :
      Lowered links (.silent n rest) known known' block
  | action {n : Node} {a : Action} {rest : Control} {known known₁ known' : Known} {call : Call}
      {block : Block} (ha : Lower.action links known n a = .ok (known₁, call))
      (hrest : Lowered links rest known₁ known' block) :
      Lowered links (.action n a rest) known known' (.call call block)
  | loop {n : Node} {body rest : Control} {known known₁ known' : Known}
      {bodyBlock block : Block}
      (hbody : Lowered links body
        (bindOutput (known.allocate "item").2 n .forEach "item" (.symbol (known.allocate "item").1))
        known₁ bodyBlock)
      (hrest : Lowered links rest known₁ known' block) :
      Lowered links (.loop n body rest) known known'
        (.loop (known.allocate "item").1 ((input? links known n "array").map (·.expr)) bodyBlock
          block)
  | branch {n : Node} {c : Conditional} {yes no : Control} {known known₁ known' : Known}
      {yesBlock noBlock : Block} (hyes : Lowered links yes known known₁ yesBlock)
      (hno : Lowered links no known₁ known' noBlock) :
      Lowered links (.branch n c yes no) known known'
        (.branch (condition links known n c) yesBlock noBlock)

variable {links : List Link} {flow : Control} {known known' : Known} {block : Block}

theorem lowered_of_lower (h : (lower links flow known).result = .ok (known', block)) :
    Lowered links flow known known' block := by
  induction flow generalizing known known' block with
  | stop =>
    cases h
    exact .stop
  | cycle ref => cases h
  | unusable n =>
    simp only [lower, unusable] at h
    split at h <;> cases h
  | silent n rest ih =>
    simp only [lower, Run.bind_eq_ok, Run.result_within] at h
    obtain ⟨_, ⟨⟩, h⟩ := h
    exact .silent (ih h)
  | action n a rest ih =>
    simp only [lower, Run.bind_eq_ok, Run.result_within] at h
    obtain ⟨_, ⟨_, ha, _, -, ⟨⟩⟩, _, hrest, ⟨⟩⟩ := h
    exact .action ha (ih hrest)
  | loop n body rest ihbody ihrest =>
    simp only [lower, Run.bind_eq_ok, Run.result_within] at h
    obtain ⟨_, ⟨_, hbody, _, -, ⟨⟩⟩, _, hrest, ⟨⟩⟩ := h
    exact .loop (ihbody hbody) (ihrest hrest)
  | branch n c yes no ihyes ihno =>
    simp only [lower, Run.bind_eq_ok, Run.result_within] at h
    obtain ⟨_, hyes, _, hno, _, -, ⟨⟩⟩ := h
    exact .branch (ihyes hyes) (ihno hno)

theorem lower_eq_ok (h : Lowered links flow known known' block) :
    (lower links flow known).result = .ok (known', block) := by
  induction h with
  | stop => rfl
  | silent _ ih =>
    simp only [lower, Run.bind_eq_ok, Run.result_within]
    exact ⟨_, rfl, ih⟩
  | action ha _ ih =>
    simp only [lower, Run.bind_eq_ok, Run.result_within]
    exact ⟨_, ⟨_, ha, (), rfl, rfl⟩, _, ih, rfl⟩
  | loop _ _ ihbody ihrest =>
    simp only [lower, Run.bind_eq_ok, Run.result_within]
    exact ⟨_, ⟨_, ihbody, (), rfl, rfl⟩, _, ihrest, rfl⟩
  | branch _ _ ihyes ihno =>
    simp only [lower, Run.bind_eq_ok, Run.result_within]
    exact ⟨_, ihyes, _, ihno, (), rfl, rfl⟩

theorem lower_eq_ok_iff : (lower links flow known).result = .ok (known', block) ↔
    Lowered links flow known known' block :=
  ⟨lowered_of_lower, lower_eq_ok⟩

/-- What is known before a flow decides what it becomes. -/
theorem Lowered.unique {known₁ known₂ : Known} {b₁ b₂ : Block}
    (h₁ : Lowered links flow known known₁ b₁) (h₂ : Lowered links flow known known₂ b₂) :
    known₁ = known₂ ∧ b₁ = b₂ := by
  have h := (lower_eq_ok h₁).symm.trans (lower_eq_ok h₂)
  simpa using h

theorem Lowered.isComplete (h : Lowered links flow known known' block) :
    flow.isComplete = true := by
  induction h with
  | stop => rfl
  | silent _ ih => exact ih
  | action _ _ ih => exact ih
  | loop _ _ ihbody ihrest => exact Bool.and_eq_true_iff.2 ⟨ihbody, ihrest⟩
  | branch _ _ ihyes ihno => exact Bool.and_eq_true_iff.2 ⟨ihyes, ihno⟩

/-! ## Which flows can be lowered -/

/-- An action can be lowered whatever is known. -/
def Lowerable (links : List Link) (n : Node) (a : Action) : Prop :=
  ∀ known, ∃ r, Lower.action links known n a = .ok r

theorem exists_lowered (hflow : flow.isComplete = true) (ha : flow.AllActions (Lowerable links))
    (known : Known) : ∃ known' block, Lowered links flow known known' block := by
  induction flow generalizing known with
  | stop => exact ⟨known, .nil, .stop⟩
  | cycle ref => cases hflow
  | unusable n => cases hflow
  | silent n rest ih =>
    obtain ⟨known', block, h⟩ := ih hflow ha known
    exact ⟨known', block, .silent h⟩
  | action n a rest ih =>
    obtain ⟨⟨known₁, call⟩, hcall⟩ := ha.1 known
    obtain ⟨known', block, h⟩ := ih hflow ha.2 known₁
    exact ⟨known', _, .action hcall h⟩
  | loop n body rest ihbody ihrest =>
    obtain ⟨hbody, hrest⟩ := Bool.and_eq_true_iff.1 hflow
    obtain ⟨known₁, bodyBlock, h₁⟩ := ihbody hbody ha.1 _
    obtain ⟨known', block, h⟩ := ihrest hrest ha.2 known₁
    exact ⟨known', _, .loop h₁ h⟩
  | branch n c yes no ihyes ihno =>
    obtain ⟨hyes, hno⟩ := Bool.and_eq_true_iff.1 hflow
    obtain ⟨known₁, yesBlock, h₁⟩ := ihyes hyes ha.1 known
    obtain ⟨known', noBlock, h⟩ := ihno hno ha.2 known₁
    exact ⟨known', _, .branch h₁ h⟩

/-- What stands before the cut is lowered, so the cut is what stops the run. -/
theorem lower_eq_error_of_cutAt {ref : OutputRef} (hcut : flow.CutAt ref)
    (ha : flow.AllActions (Lowerable links)) (known : Known) :
    (lower links flow known).result = .error (.failed (.cycle ref)) := by
  induction hcut generalizing known with
  | here => rfl
  | silent _ ih =>
    rw [lower, Run.bind_of_ok (a := known) rfl]
    exact ih ha known
  | action _ ih =>
    obtain ⟨⟨known₁, call⟩, hcall⟩ := ha.1 known
    rw [lower, Run.bind_of_ok (a := (known₁, call)) ?_]
    · exact Run.result_bind_of_error (ih ha.2 known₁)
    · rw [Run.result_within, Run.bind_of_ok hcall]
      rfl
  | body _ ih =>
    rw [lower]
    refine Run.result_bind_of_error ?_
    exact Run.result_bind_of_error (ih ha.1 _)
  | @rest n body rest _ hbody _ ih =>
    -- the body is complete, so the run gets past the loop
    obtain ⟨known₁, bodyBlock, h₁⟩ := exists_lowered hbody ha.1 (bindOutput
      (known.allocate "item").2 n .forEach "item" (.symbol (known.allocate "item").1))
    have hloop := lower_eq_ok h₁
    rw [lower]
    rw [Run.bind_of_ok (a := (known₁, (known.allocate "item").1,
      (input? links known n "array").map (·.expr), bodyBlock)) ?_]
    · exact Run.result_bind_of_error (ih ha.2 known₁)
    · rw [Run.result_within]
      exact Run.bind_eq_ok.2 ⟨_, hloop, rfl⟩
  | yes _ ih =>
    rw [lower, Run.result_within]
    exact Run.result_bind_of_error (ih ha.1 known)
  | no hyes _ ih =>
    obtain ⟨known₁, yesBlock, h₁⟩ := exists_lowered hyes ha.1 known
    rw [lower, Run.result_within, Run.bind_of_ok (lower_eq_ok h₁)]
    exact Run.result_bind_of_error (ih ha.2 known₁)

/-! ## The nodes that become code -/

/-- The nodes of a flow that become code, in the order in which their code is complete. -/
def Control.emissions : Control → List Node
  | .stop => []
  | .cycle _ => []
  | .unusable _ => []
  | .silent _ rest => rest.emissions
  | .action n _ rest => n :: rest.emissions
  | .loop n body rest => body.emissions ++ n :: rest.emissions
  | .branch n _ yes no => yes.emissions ++ no.emissions ++ [n]

theorem Control.emissions_sublist (flow : Control) :
    flow.emissions.Sublist flow.occurrences := by
  induction flow with
  | stop => exact .slnil
  | cycle ref => exact .slnil
  | unusable n => exact List.nil_sublist _
  | silent n rest ih => exact ih.cons n
  | action n a rest ih => exact ih.cons_cons n
  | loop n body rest ihbody ihrest => exact ihbody.append (ihrest.cons_cons n)
  | branch n c yes no ihyes ihno => exact (ihyes.append ihno).append (List.Sublist.refl _)

/-- A block has a statement for each node that becomes code. -/
theorem Lowered.size_eq (h : Lowered links flow known known' block) :
    block.size = flow.emissions.length := by
  induction h with
  | stop => rfl
  | silent _ ih => exact ih
  | action _ _ ih => simp [Block.size, Control.emissions, ih]
  | loop _ _ ihbody ihrest =>
    simp [Block.size, Control.emissions, ihbody, ihrest]
    omega
  | branch _ _ ihyes ihno =>
    simp [Block.size, Control.emissions, ihyes, ihno]
    omega

/-- The node that an event reports as emitted. -/
def Event.emittedNode? : Event → Option String
  | .emitted node _ _ => some node
  | _ => none

/-- The nodes that a list of events reports as emitted, in order. -/
def emittedNodes (events : List Event) : List String := events.filterMap Event.emittedNode?

@[simp] theorem emittedNodes_nil : emittedNodes [] = [] := rfl

@[simp] theorem emittedNodes_append (xs ys : List Event) :
    emittedNodes (xs ++ ys) = emittedNodes xs ++ emittedNodes ys :=
  List.filterMap_append

@[simp] theorem emittedNodes_pure {α : Type} (a : α) :
    emittedNodes (pure a : Run α).events = [] := rfl

/-- Opening and closing a node reports nothing as emitted. -/
@[simp] theorem emittedNodes_within {α : Type} (node : String) (kind : Kind) (x : Run α) :
    emittedNodes (Run.within node kind x).events = emittedNodes x.events := by
  simp [Run.within, emittedNodes, List.filterMap_cons, Event.emittedNode?]

/-- A node is reported once, after its code is complete. -/
@[simp] theorem emittedNodes_emit {α : Type} (n : Node) (kind : Kind) (code : String) (a : α) :
    emittedNodes (emit n kind code >>= fun _ => pure a).events = [n.id] := rfl

theorem emittedNodes_bind {α β : Type} {x : Run α} {f : α → Run β} {a : α}
    (h : x.result = .ok a) :
    emittedNodes (x >>= f).events = emittedNodes x.events ++ emittedNodes (f a).events := by
  rw [Run.bind_of_ok h, emittedNodes_append]

theorem emittedNodes_lower (h : Lowered links flow known known' block) :
    emittedNodes (lower links flow known).events = flow.emissions.map (·.id) := by
  induction h with
  | stop => rfl
  | @silent n rest known _ _ _ ih =>
    rw [lower, emittedNodes_bind (a := known) rfl, ih, emittedNodes_within]
    rfl
  | @action n a rest known known₁ known' call block ha hrest ih =>
    rw [lower, emittedNodes_bind (a := (known₁, call)) ?_]
    · rw [emittedNodes_within, emittedNodes_bind ha, emittedNodes_bind (lower_eq_ok hrest), ih]
      simp [Control.emissions]
    · exact Run.bind_eq_ok.2 ⟨_, ha, rfl⟩
  | @loop n body rest known known₁ known' bodyBlock block hbody hrest ihbody ihrest =>
    rw [lower, emittedNodes_bind (a := (known₁, (known.allocate "item").1,
      (input? links known n "array").map (·.expr), bodyBlock)) ?_]
    · rw [emittedNodes_within, emittedNodes_bind (lower_eq_ok hbody),
        emittedNodes_bind (lower_eq_ok hrest), ihbody, ihrest]
      simp [Control.emissions]
    · exact Run.bind_eq_ok.2 ⟨_, lower_eq_ok hbody, rfl⟩
  | branch hyes hno ihyes ihno =>
    rw [lower, emittedNodes_within, emittedNodes_bind (lower_eq_ok hyes),
      emittedNodes_bind (lower_eq_ok hno), ihyes, ihno]
    simp [Control.emissions]

end TradeFlow
