import TradeFlow.Proofs.Compile.Outcome

/-!
The course of a compilation.

Work on a node begins before the work on the nodes that it owns and ends after it, so what happens in
a compilation is a tree. A `Walk` is this tree: it ends, or it stops at an error, and then the nodes
around the error are never finished. What is proved:

1. `exists_walked`: lowering a flow reports the events of a walk that goes through the flow by the
   rules of `Walked`, and it stops with the error of the walk, if it does not stop abruptly.
2. `Walked.map_code_emissions`: the code of a walk is the code of the block that the flow became.
3. `Graph.exists_walks`: the same of a whole compilation.
-/

namespace TradeFlow

open Lower

/-- A node that became code. -/
structure FinishedNode where
  node : String
  kind : Kind
  code : String
  deriving DecidableEq, Repr

/-- What happens one after the other in a compilation. -/
inductive Walk where
  | ends
  /-- The error that stops everything. -/
  | stops (e : CompileError)
  /-- Strategy settings, which become nothing. -/
  | silent (node : String) (rest : Walk)
  /-- A node that became code, after the nodes that it owns. -/
  | finished (node : String) (kind : Kind) (inner : Walk) (code : String) (rest : Walk)
  /-- A node that was under way when the error arose. -/
  | unfinished (node : String) (kind : Kind) (inner : Walk)

namespace Walk

/-- The error at which the walk stops. -/
def error? : Walk → Option CompileError
  | ends => none
  | stops e => some e
  | silent _ rest => rest.error?
  | finished _ _ _ _ rest => rest.error?
  | unfinished _ _ inner => inner.error?

/-- A walk and what happens after its end. -/
def append : Walk → Walk → Walk
  | ends, w => w
  | stops e, _ => stops e
  | silent node rest, w => silent node (rest.append w)
  | finished node kind inner code rest, w => finished node kind inner code (rest.append w)
  | unfinished node kind inner, _ => unfinished node kind inner

/-- What is reported on the walk. -/
def events : Walk → List Event
  | ends => []
  | stops _ => []
  | silent node rest => .opened node .strategyConfig :: .closed none :: rest.events
  | finished node kind inner code rest =>
    .opened node kind :: (inner.events ++ .emitted node kind (lineCount code) :: .closed none
      :: rest.events)
  | unfinished node kind inner => .opened node kind :: (inner.events ++ [.closed inner.error?])

/-- The nodes that became code, in the order in which their code was complete. -/
def emissions : Walk → List FinishedNode
  | ends => []
  | stops _ => []
  | silent _ rest => rest.emissions
  | finished node kind inner code rest => inner.emissions ++ ⟨node, kind, code⟩ :: rest.emissions
  | unfinished _ _ inner => inner.emissions

/-- The nodes that were under way at the error, the innermost first. -/
def pending : Walk → List (String × Kind)
  | ends => []
  | stops _ => []
  | silent _ rest => rest.pending
  | finished _ _ _ _ rest => rest.pending
  | unfinished node kind inner => inner.pending ++ [(node, kind)]

/-- What a finished node owns was finished, and what an unfinished one owns was not. -/
def Proper : Walk → Prop
  | ends => True
  | stops _ => True
  | silent _ rest => rest.Proper
  | finished _ _ inner _ rest => inner.error? = none ∧ inner.Proper ∧ rest.Proper
  | unfinished _ _ inner => inner.error?.isSome = true ∧ inner.Proper

variable {w v : Walk}

theorem error?_append (hw : w.Proper) (h : w.error? = none) : (w.append v).error? = v.error? := by
  induction w with
  | ends => rfl
  | stops e => cases h
  | silent node rest ih => exact ih hw h
  | finished node kind inner code rest _ ih => exact ih hw.2.2 h
  | unfinished node kind inner =>
    rw [error?] at h
    simp [Proper, h] at hw

theorem events_append (hw : w.Proper) (h : w.error? = none) :
    (w.append v).events = w.events ++ v.events := by
  induction w with
  | ends => rfl
  | stops e => cases h
  | silent node rest ih => simp [append, events, ih hw h]
  | finished node kind inner code rest _ ih => simp [append, events, ih hw.2.2 h]
  | unfinished node kind inner =>
    rw [error?] at h
    simp [Proper, h] at hw

theorem emissions_append (hw : w.Proper) (h : w.error? = none) :
    (w.append v).emissions = w.emissions ++ v.emissions := by
  induction w with
  | ends => rfl
  | stops e => cases h
  | silent node rest ih => exact ih hw h
  | finished node kind inner code rest _ ih => simp [append, emissions, ih hw.2.2 h]
  | unfinished node kind inner =>
    rw [error?] at h
    simp [Proper, h] at hw

theorem proper_append (hw : w.Proper) (hv : v.Proper) : (w.append v).Proper := by
  induction w with
  | ends => exact hv
  | stops e => trivial
  | silent node rest ih => exact ih hw
  | finished node kind inner code rest _ ih => exact ⟨hw.1, hw.2.1, ih hw.2.2⟩
  | unfinished node kind inner => exact hw

end Walk

/-! ## Walks through a flow -/

/-- What is known in the body of a loop: its output stands for the item. -/
def Lower.enter (known : Known) (n : Node) : Known :=
  bindOutput (known.allocate "item").2 n .forEach "item" (.symbol (known.allocate "item").1)

/-- The walk through a flow, with what is known on the way. A node is finished when all that it owns
was lowered; its code is that of its statement. -/
inductive Walked (links : List Link) : Control → Known → Walk → Prop where
  | stop {known : Known} : Walked links .stop known .ends
  | cycle {ref : OutputRef} {known : Known} : Walked links (.cycle ref) known (.stops (.cycle ref))
  | unusable {n : Node} {kind : Kind} {known : Known} (hkind : n.kind? = some kind) :
      Walked links (.unusable n) known (.unfinished n.id kind (.stops (.unknownKind n.config)))
  | silent {n : Node} {rest : Control} {known : Known} {w : Walk}
      (hrest : Walked links rest known w) :
      Walked links (.silent n rest) known (.silent n.id w)
  | action {n : Node} {a : Action} {rest : Control} {known known₁ : Known} {call : Call} {w : Walk}
      (ha : Lower.action links known n a = .ok (known₁, call)) (hrest : Walked links rest known₁ w) :
      Walked links (.action n a rest) known (.finished n.id (actionKind a) .ends call.text w)
  | loop {n : Node} {body rest : Control} {known known₁ : Known} {block : Block} {inner w : Walk}
      (hbody : Walked links body (enter known n) inner)
      (hlow : Lowered links body (enter known n) known₁ block)
      (hrest : Walked links rest known₁ w) :
      Walked links (.loop n body rest) known
        (.finished n.id .forEach inner
          (loopText (known.allocate "item").1 ((input? links known n "array").map (·.expr))
            block.text) w)
  | stoppedLoop {n : Node} {body rest : Control} {known : Known} {inner : Walk}
      (hbody : Walked links body (enter known n) inner) (hstop : inner.error?.isSome = true) :
      Walked links (.loop n body rest) known (.unfinished n.id .forEach inner)
  | branch {n : Node} {c : Conditional} {yes no : Control} {known known₁ known₂ : Known}
      {yesBlock noBlock : Block} {yesWalk noWalk : Walk}
      (hyes : Walked links yes known yesWalk) (hyesLow : Lowered links yes known known₁ yesBlock)
      (hno : Walked links no known₁ noWalk) (hnoLow : Lowered links no known₁ known₂ noBlock) :
      Walked links (.branch n c yes no) known
        (.finished n.id .conditional (yesWalk.append noWalk)
          (branchText (condition links known n c) yesBlock.statements noBlock.statements) .ends)
  | stoppedYes {n : Node} {c : Conditional} {yes no : Control} {known : Known} {inner : Walk}
      (hyes : Walked links yes known inner) (hstop : inner.error?.isSome = true) :
      Walked links (.branch n c yes no) known (.unfinished n.id .conditional inner)
  | stoppedNo {n : Node} {c : Conditional} {yes no : Control} {known known₁ : Known}
      {yesBlock : Block} {yesWalk noWalk : Walk} (hyes : Walked links yes known yesWalk)
      (hyesLow : Lowered links yes known known₁ yesBlock) (hno : Walked links no known₁ noWalk)
      (hstop : noWalk.error?.isSome = true) :
      Walked links (.branch n c yes no) known
        (.unfinished n.id .conditional (yesWalk.append noWalk))

/-! ## What each form of a flow reports -/

/-- The error that a run stops with; an abrupt stop has none. -/
def Run.error? {α : Type} (x : Run α) : Option CompileError :=
  match x.result with
  | .ok _ => none
  | .error halt => halt.error?

/-- An action that has no call stops the run abruptly. -/
theorem action_eq_error {links : List Link} {known : Known} {n : Node} {a : Action} {halt : Halt}
    (h : Lower.action links known n a = .error halt) : halt = .aborted := by
  cases a with
  | placeOrder s =>
    simp only [Lower.action, order] at h
    split at h
    · simp only [legs] at h
      split at h
      · cases h
      · cases h
        rfl
    · cases h
    · cases h
  | _ => cases h

section

variable {links : List Link} {n : Node} {known known₁ known₂ : Known} {halt : Halt}

theorem lower_action {a : Action} {rest : Control} {call : Call}
    (ha : Lower.action links known n a = .ok (known₁, call)) :
    lower links (.action n a rest) known =
      ⟨.opened n.id (actionKind a) :: .emitted n.id (actionKind a) (lineCount call.text)
        :: .closed none :: (lower links rest known₁).events,
      (lower links rest known₁).result.map fun (known, block) => (known, .call call block)⟩ := by
  rw [lower]
  simp only [Bind.bind, Run.bind, Run.within, ha, emit, Run.report]
  cases hrest : (lower links rest known₁).result <;> simp [hrest, Except.map, pure, Run.pure]

theorem lower_loop_of_error {body rest : Control}
    (hbody : (lower links body (enter known n)).result = .error halt) :
    lower links (.loop n body rest) known =
      ⟨.opened n.id .forEach :: (lower links body (enter known n)).events ++ [.closed halt.error?],
      .error halt⟩ := by
  rw [lower]
  simp only [Bind.bind, Run.bind, Run.within, enter] at hbody ⊢
  simp [hbody]

theorem lower_loop_of_ok {body rest : Control} {block : Block}
    (hbody : (lower links body (enter known n)).result = .ok (known₁, block)) :
    lower links (.loop n body rest) known =
      ⟨.opened n.id .forEach :: ((lower links body (enter known n)).events ++
        .emitted n.id .forEach (lineCount (loopText (known.allocate "item").1
          ((input? links known n "array").map (·.expr)) block.text))
        :: .closed none :: (lower links rest known₁).events),
      (lower links rest known₁).result.map fun (known', rest) =>
        (known', .loop (known.allocate "item").1 ((input? links known n "array").map (·.expr)) block
          rest)⟩ := by
  rw [lower]
  simp only [Bind.bind, Run.bind, Run.within, enter, emit, Run.report] at hbody ⊢
  cases hrest : (lower links rest known₁).result <;>
    simp [hbody, hrest, Except.map, pure, Run.pure]

theorem lower_branch_of_yes_error {c : Conditional} {yes no : Control}
    (hyes : (lower links yes known).result = .error halt) :
    lower links (.branch n c yes no) known =
      ⟨.opened n.id .conditional :: (lower links yes known).events ++ [.closed halt.error?],
      .error halt⟩ := by
  rw [lower]
  simp only [Bind.bind, Run.bind, Run.within]
  simp [hyes]

theorem lower_branch_of_no_error {c : Conditional} {yes no : Control} {block : Block}
    (hyes : (lower links yes known).result = .ok (known₁, block))
    (hno : (lower links no known₁).result = .error halt) :
    lower links (.branch n c yes no) known =
      ⟨.opened n.id .conditional :: ((lower links yes known).events
        ++ (lower links no known₁).events) ++ [.closed halt.error?], .error halt⟩ := by
  rw [lower]
  simp only [Bind.bind, Run.bind, Run.within]
  simp [hyes, hno]

theorem lower_branch_of_ok {c : Conditional} {yes no : Control} {yesBlock noBlock : Block}
    (hyes : (lower links yes known).result = .ok (known₁, yesBlock))
    (hno : (lower links no known₁).result = .ok (known₂, noBlock)) :
    lower links (.branch n c yes no) known =
      ⟨.opened n.id .conditional :: ((lower links yes known).events
        ++ (lower links no known₁).events ++ [.emitted n.id .conditional (lineCount
          (branchText (condition links known n c) yesBlock.statements noBlock.statements)),
        .closed none]),
      .ok (known₂, .branch (condition links known n c) yesBlock noBlock)⟩ := by
  rw [lower]
  simp only [Bind.bind, Run.bind, Run.within, emit, Run.report]
  simp [hyes, hno, pure, Run.pure]

end

/-! ## Every run is a walk -/

namespace Run

variable {α β : Type} {x : Run α}

/-- A run that did not stop abruptly either gave a result or stopped with an error. -/
theorem ok_or_failed (h : x.result ≠ .error .aborted) :
    (∃ a, x.result = .ok a) ∨ ∃ e, x.result = .error (.failed e) := by
  cases hx : x.result with
  | ok a => exact .inl ⟨a, rfl⟩
  | error halt =>
    cases halt with
    | failed e => exact .inr ⟨e, rfl⟩
    | aborted => exact absurd hx h

theorem error?_of_ok {a : α} (h : x.result = .ok a) : x.error? = none := by
  rw [error?, h]

theorem error?_of_failed {e : CompileError} (h : x.result = .error (.failed e)) :
    x.error? = some e := by
  rw [error?, h]
  rfl

theorem events_bind_of_error {f : α → Run β} {halt : Halt} (h : x.result = .error halt) :
    (x >>= f).events = x.events := by
  show (Run.bind x f).events = _
  simp only [Run.bind, h]

@[simp] theorem error?_map (events : List Event) (x : Run α) (f : α → β) :
    (⟨events, x.result.map f⟩ : Run β).error? = x.error? := by
  cases h : x.result <;> simp [error?, h, Except.map]

/-- A run that is a walk, with the error that the run stops with. -/
structure Follows (x : Run α) (w : Walk) : Prop where
  proper : w.Proper
  events : x.events = w.events
  error? : x.error? = w.error?

variable {y : Run β} {w v : Walk}

theorem Follows.error?_eq_none (hw : x.Follows w) {a : α} (h : x.result = .ok a) :
    w.error? = none :=
  hw.error?.symm.trans (Run.error?_of_ok h)

theorem Follows.error?_eq_some (hw : x.Follows w) {e : CompileError}
    (h : x.result = .error (.failed e)) : w.error? = some e :=
  hw.error?.symm.trans (Run.error?_of_failed h)

theorem Follows.error?_isSome (hw : x.Follows w) {e : CompileError}
    (h : x.result = .error (.failed e)) : w.error?.isSome = true := by
  rw [hw.error?_eq_some h]
  rfl

/-- A run that goes on where another one gave its result. -/
theorem Follows.append (hw : x.Follows w) {a : α} (h : x.result = .ok a) (hv : y.Follows v) :
    (⟨x.events ++ y.events, y.result⟩ : Run β).Follows (w.append v) where
  proper := Walk.proper_append hw.proper hv.proper
  events := by
    rw [Walk.events_append hw.proper (hw.error?_eq_none h), ← hw.events, ← hv.events]
  error? := by
    rw [Walk.error?_append hw.proper (hw.error?_eq_none h), ← hv.error?]
    rfl

/-- The error of a run leaves the node around it unfinished. -/
theorem Follows.unfinished (hw : x.Follows w) {e : CompileError}
    (h : x.result = .error (.failed e)) (node : String) (kind : Kind) :
    (⟨.opened node kind :: x.events ++ [.closed (Halt.error? (.failed e))],
      .error (.failed e)⟩ : Run β).Follows (.unfinished node kind w) where
  proper := ⟨hw.error?_isSome h, hw.proper⟩
  events := by
    rw [Walk.events, hw.error?_eq_some h, ← hw.events]
    rfl
  error? := by
    rw [Walk.error?, hw.error?_eq_some h]
    rfl

/-- A node becomes code after what it owns, and the run goes on. -/
theorem Follows.finished (hw : x.Follows w) {a : α} (h : x.result = .ok a) (hv : y.Follows v)
    {γ : Type} (f : β → γ) (node : String) (kind : Kind) (code : String) :
    (⟨.opened node kind :: (x.events ++ .emitted node kind (lineCount code) :: .closed none
      :: y.events), y.result.map f⟩ : Run γ).Follows (.finished node kind w code v) where
  proper := ⟨hw.error?_eq_none h, hw.proper, hv.proper⟩
  events := by rw [Walk.events, ← hw.events, ← hv.events]
  error? := by rw [error?_map, Walk.error?, hv.error?]

/-- Where nothing happens there is nothing to walk through. -/
theorem Follows.ends (a : α) : (⟨[], .ok a⟩ : Run α).Follows .ends := ⟨trivial, rfl, rfl⟩

theorem Follows.stops (e : CompileError) :
    (⟨[], .error (.failed e)⟩ : Run α).Follows (.stops e) := ⟨trivial, rfl, rfl⟩

end Run

variable {links : List Link} {flow : Control} {known : Known}

/-- Lowering a flow is a walk through it unless it stops abruptly. -/
theorem exists_walked (h : (lower links flow known).result ≠ .error .aborted) :
    ∃ w, Walked links flow known w ∧ (lower links flow known).Follows w := by
  induction flow generalizing known with
  | stop => exact ⟨.ends, .stop, .ends _⟩
  | cycle ref => exact ⟨.stops (.cycle ref), .cycle, .stops _⟩
  | unusable n =>
    cases hkind : n.kind? with
    | none => simp [lower, unusable, hkind, Run.halt] at h
    | some kind =>
      rw [lower, unusable, hkind]
      exact ⟨_, .unusable hkind, (Run.Follows.stops (α := Unit) _).unfinished rfl _ _⟩
  | silent n rest ih =>
    rw [lower, Run.bind_of_ok (a := known) rfl] at h ⊢
    obtain ⟨w, hwalk, hw⟩ := ih h
    refine ⟨_, .silent hwalk, hw.proper, ?_, hw.error?⟩
    rw [Walk.events, ← hw.events]
    rfl
  | action n a rest ih =>
    cases ha : Lower.action links known n a with
    | error halt =>
      obtain rfl := action_eq_error ha
      refine absurd (Run.result_bind_of_error ?_) h
      rw [Run.result_within]
      exact Run.result_bind_of_error ha
    | ok r =>
      obtain ⟨known₁, call⟩ := r
      rw [lower_action ha] at h ⊢
      obtain ⟨w, hwalk, hw⟩ := @ih known₁ fun hrest => h (by simp [hrest, Except.map])
      exact ⟨_, .action ha hwalk, (Run.Follows.ends ()).finished rfl hw _ _ _ _⟩
  | loop n body rest ihbody ihrest =>
    have hbody : (lower links body (enter known n)).result ≠ .error .aborted := fun hbody =>
      h (by rw [lower_loop_of_error hbody])
    obtain ⟨inner, hinner, hwinner⟩ := ihbody hbody
    rcases Run.ok_or_failed hbody with ⟨⟨known₁, block⟩, hok⟩ | ⟨e, hfailed⟩
    · rw [lower_loop_of_ok hok] at h ⊢
      obtain ⟨w, hwalk, hw⟩ :=
        @ihrest known₁ fun hrest => h (by simp [hrest, Except.map])
      exact ⟨_, .loop hinner (lowered_of_lower hok) hwalk, hwinner.finished hok hw _ _ _ _⟩
    · rw [lower_loop_of_error hfailed]
      exact ⟨_, .stoppedLoop hinner (hwinner.error?_isSome hfailed), hwinner.unfinished hfailed _ _⟩
  | branch n c yes no ihyes ihno =>
    have hyes : (lower links yes known).result ≠ .error .aborted := fun hyes =>
      h (by rw [lower_branch_of_yes_error hyes])
    obtain ⟨yesWalk, hwalkYes, hwyes⟩ := ihyes hyes
    rcases Run.ok_or_failed hyes with ⟨⟨known₁, yesBlock⟩, hokYes⟩ | ⟨e, hfailed⟩
    · have hno : (lower links no known₁).result ≠ .error .aborted := fun hno =>
        h (by rw [lower_branch_of_no_error hokYes hno])
      obtain ⟨noWalk, hwalkNo, hwno⟩ := ihno hno
      -- the two flows are one walk, whether the second one stops or not
      have hw := hwyes.append hokYes hwno
      rcases Run.ok_or_failed hno with ⟨⟨known₂, noBlock⟩, hokNo⟩ | ⟨e, hfailed⟩
      · rw [lower_branch_of_ok hokYes hokNo]
        refine ⟨_, .branch hwalkYes (lowered_of_lower hokYes) hwalkNo (lowered_of_lower hokNo), ?_⟩
        exact hw.finished hokNo (.ends (known₂, _)) (fun r => r) _ _ _
      · rw [lower_branch_of_no_error hokYes hfailed]
        exact ⟨_, .stoppedNo hwalkYes (lowered_of_lower hokYes) hwalkNo
          (hwno.error?_isSome hfailed), hw.unfinished hfailed _ _⟩
    · rw [lower_branch_of_yes_error hfailed]
      exact ⟨_, .stoppedYes hwalkYes (hwyes.error?_isSome hfailed), hwyes.unfinished hfailed _ _⟩

/-! ## The code of a walk -/

/-- The texts of the statements of a block at any depth; what a statement owns stands before it. -/
def Block.codes : Block → List String
  | .nil => []
  | .call c rest => c.text :: rest.codes
  | .loop item array body rest => body.codes ++ loopText item array body.text :: rest.codes
  | .branch condition yes no =>
    yes.codes ++ no.codes ++ [branchText condition yes.statements no.statements]

theorem Block.length_codes (b : Block) : b.codes.length = b.size := by
  induction b with
  | nil => rfl
  | call c rest ih => simp [codes, size, ih]
  | loop item array body rest ihbody ihrest =>
    simp [codes, size, ihbody, ihrest]
    omega
  | branch condition yes no ihyes ihno =>
    simp [codes, size, ihyes, ihno]
    omega

namespace Walked

variable {w : Walk} {known' : Known} {block : Block}

/-- A walk through a flow that became a block meets no error. -/
theorem error?_eq_none (h : Walked links flow known w) (hlow : Lowered links flow known known' block) :
    w.error? = none := by
  induction h generalizing known' block with
  | stop => rfl
  | cycle => cases hlow
  | unusable => cases hlow
  | silent _ ih =>
    cases hlow with
    | silent hrest => exact ih hrest
  | action ha _ ih =>
    cases hlow with
    | action ha' hrest =>
      cases ha.symm.trans ha'
      exact ih hrest
  | loop _ hbody _ _ ih =>
    cases hlow with
    | loop hbody' hrest =>
      obtain ⟨rfl, -⟩ := hbody.unique hbody'
      exact ih hrest
  | stoppedLoop _ hstop ih =>
    cases hlow with
    | loop hbody _ => simp [ih hbody] at hstop
  | branch => rfl
  | stoppedYes _ hstop ih =>
    cases hlow with
    | branch hyes _ => simp [ih hyes] at hstop
  | stoppedNo _ hyes _ hstop _ ih =>
    cases hlow with
    | branch hyes' hno =>
      obtain ⟨rfl, -⟩ := hyes.unique hyes'
      simp [ih hno] at hstop

theorem proper (h : Walked links flow known w) : w.Proper := by
  induction h with
  | stop => trivial
  | cycle => trivial
  | unusable => exact ⟨rfl, trivial⟩
  | silent _ ih => exact ih
  | action _ _ ih => exact ⟨rfl, trivial, ih⟩
  | loop hbody hlow _ ihbody ih => exact ⟨hbody.error?_eq_none hlow, ihbody, ih⟩
  | stoppedLoop _ hstop ih => exact ⟨hstop, ih⟩
  | branch hyes hyesLow hno hnoLow ihyes ihno =>
    refine ⟨?_, Walk.proper_append ihyes ihno, trivial⟩
    rw [Walk.error?_append ihyes (hyes.error?_eq_none hyesLow)]
    exact hno.error?_eq_none hnoLow
  | stoppedYes _ hstop ih => exact ⟨hstop, ih⟩
  | stoppedNo hyes hyesLow _ hstop ihyes ihno =>
    refine ⟨?_, Walk.proper_append ihyes ihno⟩
    rw [Walk.error?_append ihyes (hyes.error?_eq_none hyesLow)]
    exact hstop

/-- The code of the nodes of a walk is the code of the statements of the block. -/
theorem map_code_emissions (h : Walked links flow known w)
    (hlow : Lowered links flow known known' block) :
    w.emissions.map (·.code) = block.codes := by
  induction h generalizing known' block with
  | stop =>
    cases hlow
    rfl
  | cycle => cases hlow
  | unusable => cases hlow
  | silent _ ih =>
    cases hlow with
    | silent hrest => exact ih hrest
  | action ha _ ih =>
    cases hlow with
    | action ha' hrest =>
      cases ha.symm.trans ha'
      simp [Walk.emissions, Block.codes, ih hrest]
  | loop _ hbody _ ihbody ih =>
    cases hlow with
    | loop hbody' hrest =>
      obtain ⟨rfl, rfl⟩ := hbody.unique hbody'
      simp [Walk.emissions, Block.codes, ihbody hbody, ih hrest]
  | stoppedLoop hbody' hstop =>
    cases hlow with
    | loop hbody _ => simp [hbody'.error?_eq_none hbody] at hstop
  | branch hyes hyesLow hno hnoLow ihyes ihno =>
    cases hlow with
    | branch hyes' hno' =>
      obtain ⟨rfl, rfl⟩ := hyesLow.unique hyes'
      obtain ⟨-, rfl⟩ := hnoLow.unique hno'
      rw [Walk.emissions, Walk.emissions_append hyes.proper (hyes.error?_eq_none hyesLow)]
      simp [Walk.emissions, Block.codes, ihyes hyesLow, ihno hnoLow]
  | stoppedYes hyes hstop =>
    cases hlow with
    | branch hyesLow _ => simp [hyes.error?_eq_none hyesLow] at hstop
  | stoppedNo _ hyesLow hno hstop =>
    cases hlow with
    | branch hyesLow' hnoLow =>
      obtain ⟨rfl, -⟩ := hyesLow.unique hyesLow'
      simp [hno.error?_eq_none hnoLow] at hstop

/-- Strategy settings never become code. -/
theorem kind_ne_strategyConfig (h : Walked links flow known w) :
    ∀ e ∈ w.emissions, e.kind ≠ .strategyConfig := by
  induction h with
  | stop => simp [Walk.emissions]
  | cycle => simp [Walk.emissions]
  | unusable => simp [Walk.emissions]
  | silent _ ih => exact ih
  | @action _ a _ _ _ _ _ _ _ ih =>
    have ha : actionKind a ≠ .strategyConfig := by cases a <;> simp [actionKind]
    simpa [Walk.emissions, ha] using ih
  | loop _ _ _ ihbody ih =>
    simp only [Walk.emissions, List.forall_mem_append, List.forall_mem_cons]
    exact ⟨ihbody, by simp, ih⟩
  | stoppedLoop _ _ ih => exact ih
  | branch hyes hyesLow _ _ ihyes ihno =>
    rw [Walk.emissions, Walk.emissions_append hyes.proper (hyes.error?_eq_none hyesLow)]
    simp only [List.forall_mem_append, List.forall_mem_cons]
    exact ⟨⟨ihyes, ihno⟩, by simp, by simp [Walk.emissions]⟩
  | stoppedYes _ _ ih => exact ih
  | stoppedNo hyes hyesLow _ _ ihyes ihno =>
    rw [Walk.emissions, Walk.emissions_append hyes.proper (hyes.error?_eq_none hyesLow)]
    exact List.forall_mem_append.2 ⟨ihyes, ihno⟩

end Walked

/-! ## Compilations -/

namespace Compilation

/-- A compilation that is a walk: it reports the events of the walk, stops with its error, and has a
program of its code. Only a missing root and an empty flow are found outside of the walk. -/
structure Follows (c : Compilation) (w : Walk) : Prop where
  proper : w.Proper
  events : c.events = w.events
  kind_ne : ∀ e ∈ w.emissions, e.kind ≠ .strategyConfig
  stopped : ∀ e, w.error? = some e → c.result = .error (.failed e)
  ended : w.error? = none →
    (∃ p, c.result = .ok p ∧ w.emissions.map (·.code) = p.body.codes) ∨
      c.result = .error (.failed .noConfigNode) ∨ c.result = .error (.failed .emptyChain)

end Compilation

namespace Graph

variable {g : Graph} {root : Node} {settings : StrategyConfig} {w : Walk}

/-- The walk through a graph: it follows the control flow from the root, and it ends at once in a
graph without a root. -/
inductive Walks (g : Graph) : Walk → Prop where
  | nowhere (hroot : g.root? = none) : g.Walks .ends
  | fromRoot {root : Node} {settings : StrategyConfig} {w : Walk}
      (hroot : g.root? = some (root, settings))
      (hw : Walked g.links (g.controlFrom [] (start root)) (initialScope root) w) : g.Walks w

/-- Every compilation is a walk unless it stops abruptly. -/
theorem exists_walks (h : g.compile.result ≠ .error .aborted) :
    ∃ w, g.Walks w ∧ g.compile.Follows w := by
  cases hroot : g.root? with
  | none =>
    refine ⟨.ends, .nowhere hroot, trivial, ?_, by simp [Walk.emissions], by simp [Walk.error?], fun _ => ?_⟩
    · simp only [compile, hroot]
      rfl
    · exact .inr (.inl (compile_of_no_root hroot))
  | some found =>
    obtain ⟨root, settings⟩ := found
    obtain ⟨hresult, hevents⟩ := compile_of_root hroot
    rw [lowerFrom, ← links] at hresult hevents
    have hlower : (lower g.links (g.controlFrom [] (start root)) (initialScope root)).result
        ≠ .error .aborted := by
      intro hlower
      rw [Run.result_bind_of_error hlower] at hresult
      exact h hresult
    obtain ⟨w, hwalk, hw⟩ := exists_walked hlower
    rcases Run.ok_or_failed hlower with ⟨⟨known, block⟩, hok⟩ | ⟨e, hfailed⟩
    · have hcodes := hwalk.map_code_emissions (lowered_of_lower hok)
      have hnone := hw.error?_eq_none hok
      rw [Run.bind_of_ok hok] at hresult hevents
      refine ⟨w, .fromRoot hroot hwalk, hw.proper, ?_, hwalk.kind_ne_strategyConfig, ?_, fun _ => ?_⟩
      · rw [hevents, ← hw.events]
        dsimp only
        split <;> exact List.append_nil _
      · simp [hnone]
      · dsimp only at hresult
        split at hresult
        · exact .inr (.inr hresult)
        · exact .inl ⟨_, hresult, hcodes⟩
    · have hsome := hw.error?_eq_some hfailed
      refine ⟨w, .fromRoot hroot hwalk, hw.proper, ?_, hwalk.kind_ne_strategyConfig, ?_, ?_⟩
      · rw [hevents, Run.events_bind_of_error hfailed, hw.events]
      · rintro e' he'
        obtain rfl : e = e' := by simpa [hsome] using he'
        rw [hresult, Run.result_bind_of_error hfailed]
      · simp [hsome]

end Graph

end TradeFlow
