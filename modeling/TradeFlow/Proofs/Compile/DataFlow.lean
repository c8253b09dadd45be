import TradeFlow.Proofs.Compile.LexicalScope

/-!
What the nodes of an edited graph read.

The emissions of a flow are its nodes with the statements that they became, in the order in which
they were taken up: a node before the blocks that it owns, and these before what follows. The table
that is read when a node is taken up holds what the emissions before it have bound. What is proved:

1. `Graph.Unfolds.exists_traced`: every emission was made from the table that the emissions before it
   leave behind.
2. `Graph.WellFormed.input_cases`: the input with the value that a node works on brings what the one
   edge into it starts at, if that is the root or was emitted before, and nothing otherwise. The
   sockets decide of which kind the source is.
3. `action_takes`: a call passes what this input brings in one field and reads nothing else.
4. `Graph.edited_program_reads`: so every statement of the program of an edited graph reads what
   `Graph.Reads` says.
-/

namespace TradeFlow

open Lower

/-! ## Emissions -/

/-- What a statement says itself, without the blocks that it owns. -/
inductive Statement where
  | call (c : Call)
  | loop (item : Variable) (array : Option Source)
  | branch (condition : Condition)

/-- The variable that a statement declares. -/
def Statement.declares? : Statement → Option Variable
  | .call c => c.result
  | .loop item _ => some item
  | .branch _ => none

/-- A node with the statement that it became. -/
structure Emission where
  node : Node
  statement : Statement

/-- The emissions of a flow that became a block. -/
inductive Emits : Control → Block → List Emission → Prop where
  | stop : Emits .stop .nil []
  | silent {n : Node} {rest : Control} {block : Block} {es : List Emission}
      (hrest : Emits rest block es) : Emits (.silent n rest) block es
  | action {n : Node} {a : Action} {rest : Control} {call : Call} {block : Block}
      {es : List Emission} (hrest : Emits rest block es) :
      Emits (.action n a rest) (.call call block) (⟨n, .call call⟩ :: es)
  | loop {n : Node} {body rest : Control} {item : Variable} {array : Option Source}
      {inner block : Block} {es es' : List Emission} (hbody : Emits body inner es)
      (hrest : Emits rest block es') :
      Emits (.loop n body rest) (.loop item array inner block) (⟨n, .loop item array⟩ :: (es ++ es'))
  | branch {n : Node} {c : Conditional} {yes no : Control} {condition : Condition}
      {yesBlock noBlock : Block} {es es' : List Emission} (hyes : Emits yes yesBlock es)
      (hno : Emits no noBlock es') :
      Emits (.branch n c yes no) (.branch condition yesBlock noBlock)
        (⟨n, .branch condition⟩ :: (es ++ es'))

/-- The emissions are those of the nodes that become code. -/
theorem Emits.perm {flow : Control} {block : Block} {es : List Emission} (h : Emits flow block es) :
    (es.map (·.node)).Perm flow.emissions := by
  induction h with
  | stop => exact .nil
  | silent _ ih => exact ih
  | action _ ih => exact ih.cons _
  | loop _ _ ihbody ihrest =>
    rw [List.map_cons, List.map_append]
    exact (ihbody.append ihrest).cons _ |>.trans List.perm_middle.symm
  | branch _ _ ihyes ihno =>
    rw [List.map_cons, List.map_append]
    exact (ihyes.append ihno).cons _ |>.trans (List.perm_append_singleton _ _).symm

/-- The expression for the value of a node of a kind whose statement declares a variable. -/
def Kind.expression (kind : Kind) (v : Variable) : Source :=
  match kind with
  | .fetchShortlistPersistence => .instruments v
  | .forEach => .symbol v
  | _ => .result v

/-- The expression with the shape of the output that carries the value. -/
def Kind.binding (kind : Kind) (v : Variable) : Binding Source :=
  ⟨kind.expression v, ((kind.value?.bind kind.output?).map (·.socket.shape)).getD .generic⟩

/-- What an emission binds: the output with the value of its node to an expression of the variable
that its statement declares. -/
def Emission.binding? (e : Emission) : Option (OutputRef × Binding Source) := do
  let kind ← e.node.kind?
  let key ← kind.value?
  let v ← e.statement.declares?
  some (⟨e.node.id, key⟩, kind.binding v)

/-- What a list of emissions binds, the latest first. -/
def bindingsOf (es : List Emission) : List (OutputRef × Binding Source) :=
  (es.filterMap Emission.binding?).reverse

theorem bindingsOf_cons (e : Emission) (es : List Emission) :
    bindingsOf (e :: es) = bindingsOf es ++ e.binding?.toList := by
  cases h : e.binding? <;> simp [bindingsOf, h]

theorem bindingsOf_append (es es' : List Emission) :
    bindingsOf (es ++ es') = bindingsOf es' ++ bindingsOf es := by
  simp [bindingsOf]

/-- The statement of an emission was made from its node while something was known. -/
def Emission.MadeFrom (links : List Link) (known : Known) (e : Emission) : Prop :=
  match e.statement with
  | .call call => ∃ a known', e.node.config.role = .action a ∧
      Lower.action links known e.node a = .ok (known', call)
  | .loop item array => e.node.config.role = .loop ∧ item = (known.allocate "item").1 ∧
      array = (input? links known e.node "array").map (·.expr)
  | .branch condition => ∃ c, e.node.config.role = .branch c ∧
      condition = Lower.condition links known e.node c

/-- Each emission was made from the table that those before it leave behind. -/
def Traced (links : List Link) : List (OutputRef × Binding Source) → List Emission → Prop
  | _, [] => True
  | bindings, e :: es =>
    (∃ known : Known, known.bindings = bindings ∧ e.MadeFrom links known) ∧
      Traced links (e.binding?.toList ++ bindings) es

theorem traced_append {links : List Link} {bindings : List (OutputRef × Binding Source)}
    {es es' : List Emission} :
    Traced links bindings (es ++ es') ↔
      Traced links bindings es ∧ Traced links (bindingsOf es ++ bindings) es' := by
  induction es generalizing bindings with
  | nil => simp [Traced, bindingsOf]
  | cons e es ih =>
    rw [List.cons_append, Traced, Traced, ih, bindingsOf_cons, List.append_assoc, and_assoc]

theorem Traced.exists_madeFrom {links : List Link} {bindings : List (OutputRef × Binding Source)}
    {before after : List Emission} {e : Emission}
    (h : Traced links bindings (before ++ e :: after)) :
    ∃ known : Known, known.bindings = bindingsOf before ++ bindings ∧ e.MadeFrom links known :=
  (traced_append.1 h).2.1

/-! ## Lowering -/

section Lowering

variable {links : List Link} {known known' : Known} {n : Node} {a : Action} {call : Call}
  {flow : Control} {block : Block}

/-- An action binds what its emission says. -/
theorem action_bindings (hr : n.config.role = .action a)
    (h : Lower.action links known n a = .ok (known', call)) :
    known'.bindings = (Emission.binding? ⟨n, .call call⟩).toList ++ known.bindings := by
  have hk := Node.kind?_of_action hr
  cases a with
  | placeOrder s =>
    obtain ⟨-, rfl⟩ := order_eq_ok h
    simp [Emission.binding?, hk, actionKind, Kind.value?, Scope.require]
  | _ =>
    cases h
    simp [Emission.binding?, hk, actionKind, Kind.value?, Statement.declares?, bindOutput,
      Scope.bind, Scope.require, Kind.binding, Kind.expression]

theorem entered_bindings (known : Known) (hr : n.config.role = .loop) (array : Option Source) :
    (known.entered n).bindings =
      (Emission.binding? ⟨n, .loop (known.allocate "item").1 array⟩).toList ++ known.bindings := by
  simp [Emission.binding?, Node.kind?_of_loop hr, Kind.value?, Statement.declares?, bindOutput,
    Scope.bind, Scope.allocate, Kind.binding, Kind.expression]

/-- A complete flow that was lowered has its emissions, each made from what was bound before it. -/
theorem Graph.Unfolds.exists_traced {g : Graph} {ref : OutputRef} (h : g.Unfolds ref flow)
    (hlow : Lowered links flow known known' block) :
    ∃ es, Emits flow block es ∧ Traced links known.bindings es ∧
      known'.bindings = bindingsOf es ++ known.bindings := by
  induction h generalizing known known' block with
  | stop hn =>
    cases hlow
    exact ⟨[], .stop, trivial, rfl⟩
  | silent hn hr _ ih =>
    cases hlow with
    | silent hlow =>
      obtain ⟨es, hes, htraced, hbindings⟩ := ih hlow
      exact ⟨es, .silent hes, htraced, hbindings⟩
  | action hn hr _ ih =>
    cases hlow with
    | action ha hlow =>
      obtain ⟨es, hes, htraced, hbindings⟩ := ih hlow
      have hfirst := action_bindings hr ha
      refine ⟨_, .action hes, ⟨⟨known, rfl, _, _, hr, ha⟩, hfirst ▸ htraced⟩, ?_⟩
      rw [hbindings, hfirst, bindingsOf_cons, List.append_assoc]
  | @loop _ n _ _ hn hr _ _ ihbody ihrest =>
    cases hlow with
    | loop hbody hrest =>
      obtain ⟨es, hes, htraced, hbindings⟩ := ihbody hbody
      obtain ⟨es', hes', htraced', hbindings'⟩ := ihrest hrest
      have hfirst := entered_bindings known hr
        ((input? links known n "array").map (·.expr))
      rw [hfirst] at htraced hbindings
      rw [hbindings] at htraced' hbindings'
      refine ⟨_, .loop hes hes', ⟨⟨known, rfl, hr, rfl, rfl⟩, traced_append.2 ⟨htraced, htraced'⟩⟩,
        ?_⟩
      rw [hbindings', bindingsOf_cons, bindingsOf_append, List.append_assoc, List.append_assoc]
  | branch hn hr _ _ ihyes ihno =>
    cases hlow with
    | branch hyes hno =>
      obtain ⟨es, hes, htraced, hbindings⟩ := ihyes hyes
      obtain ⟨es', hes', htraced', hbindings'⟩ := ihno hno
      have hk := Node.kind?_of_branch hr
      rw [hbindings] at htraced' hbindings'
      refine ⟨_, .branch hes hes', ⟨⟨known, rfl, _, hr, rfl⟩, ?_⟩, ?_⟩
      · simp only [Emission.binding?, hk, Kind.value?]
        exact traced_append.2 ⟨htraced, htraced'⟩
      · rw [hbindings', bindingsOf_cons, bindingsOf_append]
        simp [Emission.binding?, hk, Kind.value?]

end Lowering

/-! ## Values that are fed -/

namespace Emission

variable {links : List Link} {known : Known} {e : Emission} {kind : Kind}

/-- A node whose kind has a value declares a variable for it. -/
theorem MadeFrom.exists_declares (h : e.MadeFrom links known) (hk : e.node.kind? = some kind)
    {key : String} (hkey : kind.value? = some key) : ∃ v, e.statement.declares? = some v := by
  obtain ⟨n, statement⟩ := e
  cases statement with
  | call call =>
    obtain ⟨a, known', hr, ha⟩ := h
    rw [Node.kind?_of_action hr, Option.some.injEq] at hk
    rcases action_cases ha with ⟨-, v, -, hv, -⟩ | ⟨hnone, -⟩
    · exact ⟨v, hv⟩
    · rw [hk, hkey] at hnone
      cases hnone
  | loop item array => exact ⟨item, rfl⟩
  | branch condition =>
    obtain ⟨c, hr, -⟩ := h
    rw [Node.kind?_of_branch hr, Option.some.injEq] at hk
    rw [← hk] at hkey
    cases hkey

/-- Strategy settings become no statement. -/
theorem MadeFrom.kind?_ne (h : e.MadeFrom links known) : e.node.kind? ≠ some .strategyConfig := by
  obtain ⟨n, statement⟩ := e
  cases statement with
  | call call =>
    obtain ⟨a, known', hr, -⟩ := h
    rw [Node.kind?_of_action hr]
    cases a <;> simp [actionKind]
  | loop item array =>
    rw [Node.kind?_of_loop h.1]
    simp
  | branch condition =>
    obtain ⟨c, hr, -⟩ := h
    rw [Node.kind?_of_branch hr]
    simp

theorem binding?_eq_some {ref : OutputRef} {b : Binding Source} (h : e.binding? = some (ref, b)) :
    ∃ kind v, e.node.kind? = some kind ∧ kind.value? = some ref.output ∧
      e.statement.declares? = some v ∧ ref.node = e.node.id ∧ b = kind.binding v := by
  simp only [binding?, Option.bind_eq_bind, Option.bind_eq_some_iff, Option.some.injEq,
    Prod.mk.injEq] at h
  obtain ⟨kind, hk, key, hkey, v, hv, rfl, rfl⟩ := h
  exact ⟨kind, v, hk, hkey, hv, rfl, rfl⟩

end Emission

namespace Graph

variable {g : Graph} {root n : Node} {before : List Emission} {kind : Kind} {key : String}
  {c : Connection} {known : Known}

/-- Nothing is connected to an input, or only a node that is not the root and was not emitted
before. -/
def Unfed (g : Graph) (root : Node) (before : List Emission) (n : Node) (key : String) : Prop :=
  ∀ c ∈ g.connections, c.head = ⟨n.id, key⟩ →
    c.source ≠ root.id ∧ ∀ e ∈ before, e.node.id ≠ c.source

/-- An input is connected to the value of a node of a kind that was emitted before and whose statement
declares a variable. -/
def Fed (g : Graph) (before : List Emission) (n : Node) (key : String) (kind : Kind)
    (v : Variable) : Prop :=
  ∃ c ∈ g.connections, c.head = ⟨n.id, key⟩ ∧ ∃ e ∈ before, e.node.id = c.source ∧
    e.node.kind? = some kind ∧ kind.value? = some c.sourceOutput ∧ e.statement.declares? = some v

/-- An input is connected to the time of the run. -/
def FedByClock (g : Graph) (root n : Node) (key : String) : Prop :=
  ∃ c ∈ g.connections, c.head = ⟨n.id, key⟩ ∧ c.tail = ⟨root.id, "currentTimestamp"⟩

/-- At first, the time of the run is bound and nothing else. -/
theorem lookup_initialScope (root : Node) (ref : OutputRef) :
    (initialScope root).bindings.lookup ref =
      if ref = ⟨root.id, "currentTimestamp"⟩ then some ⟨.timestamp, .generic⟩ else none := by
  have hbindings : (initialScope root).bindings =
      [(⟨root.id, "currentTimestamp"⟩, ⟨.timestamp, .generic⟩)] := rfl
  rw [hbindings, List.lookup_cons]
  by_cases href : ref = ⟨root.id, "currentTimestamp"⟩
  · simp [href]
  · rw [if_neg href, beq_eq_false_iff_ne.2 href]
    rfl

/-- The emissions before a node are of nodes of the graph and were made from something. -/
def Earlier (g : Graph) (before : List Emission) : Prop :=
  ∀ e ∈ before, g.node? e.node.id = some e.node ∧ ∃ known, e.MadeFrom g.links known

namespace WellFormed

/-- Either no edge enters an input, or the one that does decides what the input brings. -/
theorem entered_cases (h : g.WellFormed) (n : Node) (key : String) :
    ((∀ c ∈ g.connections, c.head ≠ ⟨n.id, key⟩) ∧ ∀ known, input? g.links known n key = none) ∨
    ∃ c ∈ g.connections, c.head = ⟨n.id, key⟩ ∧
      ∀ known, input? g.links known n key = known.output? c.tail := by
  by_cases hex : ∃ c ∈ g.connections, c.head = ⟨n.id, key⟩
  · obtain ⟨c, hc, hhead⟩ := hex
    have htarget : c.target = n.id := congrArg InputRef.node hhead
    have hinput : c.targetInput = key := congrArg InputRef.input hhead
    refine .inr ⟨c, hc, hhead, fun known => ?_⟩
    rw [← hinput]
    exact h.input?_of_mem hc htarget known
  · have hnone : ∀ c ∈ g.connections, c.head ≠ ⟨n.id, key⟩ := fun c hc hhead => hex ⟨c, hc, hhead⟩
    refine .inl ⟨hnone, fun known => ?_⟩
    have hfind : g.links.find? (·.head == ⟨n.id, key⟩) = none := by
      rw [List.find?_eq_none]
      intro l hl
      obtain ⟨c, hc, rfl⟩ := List.mem_map.1 hl
      simpa using hnone c hc
    rw [input?, Scope.input?, hfind]
    rfl

/-- The kinds at the two ends of a data edge fit each other. -/
theorem mem_feeders (h : g.WellFormed) (hc : c ∈ g.connections) (hdata : c.IsData) {m : Node}
    {source : Kind} (hm : g.node? c.source = some m) (hsource : m.kind? = some source)
    (hn : g.node? c.target = some n) (hk : n.kind? = some kind) : source ∈ kind.feeders := by
  obtain ⟨m', n', output, input, outKind, inKind, hm', hn', houtKind, hinKind, houtput, hinput,
    hfit, hne⟩ := h.data_sockets hc hdata
  rw [hm, Option.some.injEq] at hm'
  rw [← hm', hsource, Option.some.injEq] at houtKind
  rw [hn, Option.some.injEq] at hn'
  rw [← hn', hk, Option.some.injEq] at hinKind
  rw [← houtKind] at houtput
  rw [← hinKind] at hinput
  exact Kind.mem_feeders_of_compatible houtput hinput hfit hne

/-- What is found for a data edge in the bindings of the emissions before it. -/
theorem fed_of_lookup (h : g.WellFormed) (hbefore : g.Earlier before) (hc : c ∈ g.connections)
    (hdata : c.IsData) (hhead : c.head = ⟨n.id, key⟩) (hn : g.node? c.target = some n)
    (hk : n.kind? = some kind) {b : Binding Source}
    (hb : (bindingsOf before).lookup c.tail = some b) :
    ∃ source v, source ∈ kind.feeders ∧ source ≠ .strategyConfig ∧ g.Fed before n key source v ∧
      b = source.binding v := by
  obtain ⟨l₁, l₂, hsplit, -⟩ := List.lookup_eq_some_iff.1 hb
  have hmem : (c.tail, b) ∈ bindingsOf before := by
    rw [hsplit]
    exact List.mem_append_right _ List.mem_cons_self
  obtain ⟨e, he, hbinding⟩ := List.mem_filterMap.1 (List.mem_reverse.1 hmem)
  obtain ⟨hfound, known, hmade⟩ := hbefore e he
  obtain ⟨source, v, hsource, hvalue, hv, hid, rfl⟩ := Emission.binding?_eq_some hbinding
  have hid : c.source = e.node.id := hid
  refine ⟨source, v, ?_, ?_, ⟨c, hc, hhead, e, he, hid.symm, hsource, hvalue, hv⟩, rfl⟩
  · exact h.mem_feeders hc hdata (hid ▸ hfound) hsource hn hk
  · rintro rfl
    exact hmade.kind?_ne hsource

/-- A data edge from a node that was emitted before finds a binding. -/
theorem lookup_ne_none (h : g.WellFormed) (hbefore : g.Earlier before) (hc : c ∈ g.connections)
    (hdata : c.IsData) {e : Emission} (he : e ∈ before) (hid : e.node.id = c.source) :
    (bindingsOf before).lookup c.tail ≠ none := by
  obtain ⟨hfound, known, hmade⟩ := hbefore e he
  obtain ⟨m, source, hm, hsource, hvalue⟩ := h.data_source hc hdata
  rw [← hid, hfound, Option.some.injEq] at hm
  rw [← hm] at hsource
  obtain ⟨v, hv⟩ := hmade.exists_declares hsource hvalue
  have hbinding : e.binding? = some (c.tail, source.binding v) := by
    simp [Emission.binding?, hsource, hvalue, hv, Link.tail, hid]
  have hmem : (c.tail, source.binding v) ∈ bindingsOf before :=
    List.mem_reverse.2 (List.mem_filterMap.2 ⟨e, he, hbinding⟩)
  intro hnone
  simpa using List.lookup_eq_none_iff.1 hnone _ hmem

/-- What the input brings that takes the value a node works on. -/
theorem input_cases (h : g.WellFormed) (hroot : root ∈ g.nodes)
    (hrootKind : root.kind? = some .strategyConfig) (hbefore : g.Earlier before)
    (hknown : known.bindings = bindingsOf before ++ (initialScope root).bindings)
    (hn : g.node? n.id = some n) (hk : n.kind? = some kind) (hkey : kind.operand? = some key) :
    (input? g.links known n key = none ∧ g.Unfed root before n key) ∨
    (input? g.links known n key = some ⟨.timestamp, .generic⟩ ∧ .strategyConfig ∈ kind.feeders ∧
      g.FedByClock root n key) ∨
    ∃ source v, source ∈ kind.feeders ∧ source ≠ .strategyConfig ∧ g.Fed before n key source v ∧
      input? g.links known n key = some (source.binding v) := by
  rcases h.entered_cases n key with ⟨hnone, hinput⟩ | ⟨c, hc, hhead, hinput⟩
  · exact .inl ⟨hinput known, fun c hc hhead => absurd hhead (hnone c hc)⟩
  have hdata : c.IsData := by
    have hinputKey : c.targetInput = key := congrArg InputRef.input hhead
    rw [Link.IsData, hinputKey]
    exact Kind.ne_exec_of_operand? hkey
  have htarget : g.node? c.target = some n := by rw [← hn]; exact congrArg (g.node? ·.node) hhead
  have hfound : g.node? root.id = some root := node?_of_mem h.order_nodup hroot
  have hlookup : input? g.links known n key =
      ((bindingsOf before).lookup c.tail).or ((initialScope root).bindings.lookup c.tail) := by
    rw [hinput, Scope.output?, hknown, List.lookup_append]
  cases hb : (bindingsOf before).lookup c.tail with
  | some b =>
    -- a node that was emitted before has bound the output
    obtain ⟨source, v, hsource, hne, hfed, rfl⟩ :=
      h.fed_of_lookup hbefore hc hdata hhead htarget hk hb
    exact .inr (.inr ⟨source, v, hsource, hne, hfed, by rw [hlookup, hb, Option.some_or]⟩)
  | none =>
    rw [hb, Option.none_or, lookup_initialScope] at hlookup
    by_cases htail : c.tail = ⟨root.id, "currentTimestamp"⟩
    · -- only the root has bound the output
      rw [if_pos htail] at hlookup
      have hid : c.source = root.id := congrArg OutputRef.node htail
      refine .inr (.inl ⟨hlookup, ?_, c, hc, hhead, htail⟩)
      exact h.mem_feeders hc hdata (hid ▸ hfound) hrootKind htarget hk
    · -- nobody has, since an edge from the root could only leave the other output
      rw [if_neg htail] at hlookup
      refine .inl ⟨hlookup, fun d hd hdhead => ?_⟩
      obtain rfl : d = c := List.inj_on_of_nodup_map h.heads_nodup hd hc (by rw [hdhead, hhead])
      constructor
      · intro hid
        obtain ⟨m, source, hm, hsource, hvalue⟩ := h.data_source hc hdata
        rw [hid, hfound, Option.some.injEq] at hm
        rw [← hm, hrootKind, Option.some.injEq] at hsource
        rw [← hsource] at hvalue
        exact htail (by rw [Link.tail, hid, ← Option.some.inj hvalue])
      · intro e he hid
        exact h.lookup_ne_none hbefore hc hdata he hid hb

/-- What an action itself binds does not change what its operand brings. -/
theorem input?_action (h : g.WellFormed) {a : Action} {known' : Known} {call : Call}
    (hr : n.config.role = .action a) (hkey : (actionKind a).operand? = some key)
    (ha : Lower.action g.links known n a = .ok (known', call)) :
    input? g.links known' n key = input? g.links known n key := by
  rcases h.entered_cases n key with ⟨-, hinput⟩ | ⟨c, hc, hhead, hinput⟩
  · rw [hinput, hinput]
  rw [hinput, hinput, Scope.output?, Scope.output?, action_bindings hr ha, List.lookup_append]
  cases hb : Emission.binding? ⟨n, .call call⟩ with
  | none => rfl
  | some binding =>
    obtain ⟨ref, b⟩ := binding
    obtain ⟨-, -, -, -, -, hnode, -⟩ := Emission.binding?_eq_some hb
    have hdata : c.IsData := by
      have hinputKey : c.targetInput = key := congrArg InputRef.input hhead
      rw [Link.IsData, hinputKey]
      exact Kind.ne_exec_of_operand? hkey
    have hne : c.tail ≠ ref := by
      rintro rfl
      refine h.data_source_ne_target hc hdata ?_
      exact hnode.trans (congrArg InputRef.node hhead).symm
    rw [Option.toList_some, List.lookup_cons, beq_eq_false_iff_ne.2 hne]
    rfl

end WellFormed

end Graph

/-! ## Calls -/

/-- The field of a call that takes what a connection brings, named like the input, and what the field
holds without a connection. -/
def Action.operand? (n : Node) : Action → Option (String × Argument)
  | .fetchShortlist s => some ("datetime", datetime n s.useCurrentTimestamp s.datetime)
  | .fetchCandles s => some ("symbol", literal n "symbol" s.symbol)
  | .fetchQuote s => some ("symbol", literal n "symbol" s.symbol)
  | .placeOrder s => some ("nseSymbol", literal n "nseSymbol" s.nseSymbol)
  | _ => none

theorem Action.operand?_map_fst (n : Node) (a : Action) :
    (a.operand? n).map Prod.fst = (actionKind a).operand? := by
  cases a <;> rfl

/-- The prices of an order to which no entry price is connected: the given ones if the order is to
take them, and else zeros. -/
def PlaceOrder.openPrices (s : PlaceOrder) : List Argument :=
  if s.priceMode = "manual" then
    [.number s.entryPrice, .number s.stopLossPrice, .number s.takeProfitPrice]
  else [.number 0, .number 0, .number 0]

namespace Call

/-- The prices that a call passes. -/
def prices (c : Call) : List Argument :=
  (c.fields.filter (·.name ∈ ["entryPrice", "stopLossPrice", "takeProfitPrice"])).map (·.value)

/-- One field of a call has a value, and no other field reads anything. -/
def Takes (c : Call) (name : String) (value : Argument) : Prop :=
  ∃ front back, c.fields = front ++ { name, value } :: back ∧
    ∀ f ∈ front ++ back, f.value.source? = none

/-- A call reads nothing. -/
def TakesNothing (c : Call) : Prop := ∀ f ∈ c.fields, f.value.source? = none

end Call

section Calls

variable {links : List Link} {known known' : Known} {n : Node} {a : Action} {call : Call}

@[simp] theorem source?_literal (n : Node) (key value : String) :
    (literal n key value).source? = none := rfl

@[simp] theorem source?_number (x : Binary64) : (Argument.number x).source? = none := rfl

@[simp] theorem source?_datetime (n : Node) (useCurrent : Bool) (configured : String) :
    (datetime n useCurrent configured).source? = none := by
  simp only [datetime]
  split
  · rfl
  · split <;> rfl

/-- Without a connected entry price, an order has its own prices. -/
theorem order_takes {s : PlaceOrder} (hentry : ∀ known, input? links known n "entryPrice" = none)
    (h : order links known n s = .ok (known', call)) :
    call.Takes "nseSymbol" (textArgument links known' n "nseSymbol" s.nseSymbol) ∧
      call.prices = s.openPrices := by
  simp only [order, hentry] at h
  split at h
  · next he => cases he
  · next hmode =>
    cases h
    exact ⟨⟨[], _, rfl, by simp⟩, by simp [Call.prices, PlaceOrder.openPrices, hmode]⟩
  · next hmode _ =>
    cases h
    exact ⟨⟨[], _, rfl, by simp⟩, by simp [Call.prices, PlaceOrder.openPrices, if_neg hmode]⟩

/-- The argument for an operand. -/
def Lower.supply (links : List Link) (known : Known) (n : Node) (key : String) (fallback : Argument) :
    Argument :=
  (input? links known n key).elim fallback fun b => .bound b.expr

theorem textArgument_eq (links : List Link) (known : Known) (n : Node) (key value : String) :
    textArgument links known n key value = supply links known n key (literal n key value) := by
  simp only [textArgument, supply]
  cases input? links known n key <;> rfl

/-- The fields of a fetch may read what is known after it. -/
theorem fetch_fields {kind : Kind} {function : Capability} {stem output : String}
    {source : Variable → Source} {fields : Known → List Field}
    (h : Except.ok (fetch known n kind function stem output source fields) =
      (Except.ok (known', call) : Except Halt (Known × Call))) : call.fields = fields known' := by
  cases h
  rfl

/-- A call takes what its operand brings, and reads nothing else. -/
theorem action_takes (hentry : ∀ known, input? links known n "entryPrice" = none)
    (h : Lower.action links known n a = .ok (known', call)) :
    (a.operand? n = none → call.TakesNothing) ∧
    (∀ key fallback, a.operand? n = some (key, fallback) →
      call.Takes key (supply links known' n key fallback)) ∧
    ∀ s, a = .placeOrder s → call.prices = s.openPrices := by
  cases a with
  | placeOrder s =>
    obtain ⟨htakes, hprices⟩ := order_takes hentry h
    rw [textArgument_eq] at htakes
    refine ⟨nofun, ?_, ?_⟩
    · rintro _ _ ⟨⟩
      exact htakes
    · rintro _ ⟨⟩
      exact hprices
  | fetchShortlist s =>
    have hfields := fetch_fields h
    refine ⟨nofun, ?_, by simp⟩
    rintro _ _ ⟨⟩
    refine ⟨[⟨"type", literal n "shortlistType" s.shortlistType, none⟩], [], ?_, by simp⟩
    rw [hfields, supply]
    cases input? links known' n "datetime" <;> rfl
  | fetchCandles s =>
    have hfields := fetch_fields h
    have hend : Argument.source? (if s.useCurrentTimestampAsEnd = true then .now
        else literal n "endDatetime" s.endDatetime) = none := by
      split <;> rfl
    refine ⟨nofun, ?_, by simp⟩
    rintro _ _ ⟨⟩
    rw [textArgument_eq] at hfields
    exact ⟨[], _, hfields, by simp [hend]⟩
  | fetchQuote s =>
    have hfields := fetch_fields h
    refine ⟨nofun, ?_, by simp⟩
    rintro _ _ ⟨⟩
    rw [textArgument_eq] at hfields
    exact ⟨[], [], hfields, by simp⟩
  | fetchShortlistPersistence s =>
    have hfields := fetch_fields h
    exact ⟨fun _ => by simp [Call.TakesNothing, hfields], nofun, by simp⟩
  | fetchDates =>
    have hfields := fetch_fields h
    exact ⟨fun _ => by simp [Call.TakesNothing, hfields], nofun, by simp⟩
  | fetchHolidays =>
    have hfields := fetch_fields h
    exact ⟨fun _ => by simp [Call.TakesNothing, hfields], nofun, by simp⟩

end Calls

namespace Graph

/-! ## Statements -/

/-- What an action gets for its operand: the fallback, the time of the run or the symbol of a loop
item. -/
inductive Supplies (g : Graph) (root : Node) (before : List Emission) (n : Node) (key : String)
    (fallback : Argument) : Argument → Prop where
  | fallback (h : g.Unfed root before n key) : Supplies g root before n key fallback fallback
  | timestamp (h : g.FedByClock root n key) :
      Supplies g root before n key fallback (.bound .timestamp)
  | symbol {v : Variable} (h : g.Fed before n key .forEach v) :
      Supplies g root before n key fallback (.bound (.symbol v))

/-- What the statement of an emission reads, given the emissions before it. -/
inductive Reads (g : Graph) (root : Node) (before : List Emission) : Emission → Prop where
  | inert {n : Node} {a : Action} {call : Call} (hr : n.config.role = .action a)
      (hoperand : a.operand? n = none) (hcall : call.TakesNothing) :
      Reads g root before ⟨n, .call call⟩
  | operand {n : Node} {a : Action} {call : Call} {key : String} {fallback value : Argument}
      (hr : n.config.role = .action a) (hoperand : a.operand? n = some (key, fallback))
      (hvalue : g.Supplies root before n key fallback value) (hcall : call.Takes key value)
      (hprices : ∀ s, a = .placeOrder s → call.prices = s.openPrices) :
      Reads g root before ⟨n, .call call⟩
  | emptyLoop {n : Node} {item : Variable} (hr : n.config.role = .loop)
      (harray : g.Unfed root before n "array") : Reads g root before ⟨n, .loop item none⟩
  | shortlistLoop {n : Node} {item v : Variable} (hr : n.config.role = .loop)
      (harray : g.Fed before n "array" .fetchShortlist v) :
      Reads g root before ⟨n, .loop item (some (.result v))⟩
  | persistenceLoop {n : Node} {item v : Variable} (hr : n.config.role = .loop)
      (harray : g.Fed before n "array" .fetchShortlistPersistence v) :
      Reads g root before ⟨n, .loop item (some (.instruments v))⟩
  | nullBranch {n : Node} {c : Conditional} {condition : Condition}
      (hr : n.config.role = .branch c) (hfield : condition.field = c.field)
      (hvalue : g.Unfed root before n "value")
      (haccess : condition.access = "null?." ++ c.field) : Reads g root before ⟨n, .branch condition⟩
  | quoteBranch {n : Node} {c : Conditional} {condition : Condition} {v : Variable}
      (hr : n.config.role = .branch c) (hfield : condition.field = c.field)
      (hvalue : g.Fed before n "value" .fetchQuote v)
      (haccess : condition.access = v.name ++ "?.payload?." ++ c.field) :
      Reads g root before ⟨n, .branch condition⟩

section Statements

variable {g : Graph} {root n : Node} {before : List Emission} {known known' : Known}
  (h : g.WellFormed) (hroot : root ∈ g.nodes) (hrootKind : root.kind? = some .strategyConfig)
  (hbefore : g.Earlier before)
  (hknown : known.bindings = bindingsOf before ++ (initialScope root).bindings)
  (hn : g.node? n.id = some n)
include h hroot hrootKind hbefore hknown hn

theorem WellFormed.reads_call {a : Action} {call : Call} (hr : n.config.role = .action a)
    (ha : Lower.action g.links known n a = .ok (known', call)) :
    g.Reads root before ⟨n, .call call⟩ := by
  obtain ⟨hnothing, htakes, hprices⟩ := action_takes (h.input?_entryPrice · n) ha
  cases hoperand : a.operand? n with
  | none => exact .inert hr hoperand (hnothing hoperand)
  | some operand =>
    obtain ⟨key, fallback⟩ := operand
    have hkey : (actionKind a).operand? = some key := by
      rw [← a.operand?_map_fst n, hoperand]
      rfl
    refine .operand hr hoperand ?_ (htakes key fallback hoperand) hprices
    rw [supply, h.input?_action hr hkey ha]
    rcases h.input_cases hroot hrootKind hbefore hknown hn (Node.kind?_of_action hr) hkey with
      ⟨hnone, hunfed⟩ | ⟨hsome, -, hclock⟩ | ⟨source, v, hmem, hne, hfed, hsome⟩
    · rw [hnone]
      exact .fallback hunfed
    · rw [hsome]
      exact .timestamp hclock
    · -- of the two kinds that give a symbol, strategy settings are not emitted
      obtain rfl : source = .forEach := by
        cases a <;> simp_all [actionKind, Kind.feeders, Kind.operand?]
      rw [hsome]
      exact .symbol hfed

theorem WellFormed.reads_loop (hr : n.config.role = .loop) (item : Variable) :
    g.Reads root before ⟨n, .loop item ((input? g.links known n "array").map (·.expr))⟩ := by
  rcases h.input_cases hroot hrootKind hbefore hknown hn (Node.kind?_of_loop hr) rfl with
    ⟨hnone, hunfed⟩ | ⟨-, hmem, -⟩ | ⟨source, v, hmem, -, hfed, hsome⟩
  · rw [hnone]
    exact .emptyLoop hr hunfed
  · simp [Kind.feeders] at hmem
  · rw [hsome]
    obtain rfl | rfl : source = .fetchShortlist ∨ source = .fetchShortlistPersistence := by
      simpa [Kind.feeders] using hmem
    · exact .shortlistLoop hr hfed
    · exact .persistenceLoop hr hfed

theorem WellFormed.reads_branch {c : Conditional} (hr : n.config.role = .branch c) :
    g.Reads root before ⟨n, .branch (condition g.links known n c)⟩ := by
  rcases h.input_cases hroot hrootKind hbefore hknown hn (Node.kind?_of_branch hr) rfl with
    ⟨hnone, hunfed⟩ | ⟨-, hmem, -⟩ | ⟨source, v, hmem, -, hfed, hsome⟩
  · refine .nullBranch hr rfl hunfed ?_
    simp only [Condition.access, condition, hnone]
    rfl
  · simp [Kind.feeders] at hmem
  · obtain rfl : source = .fetchQuote := by simpa [Kind.feeders] using hmem
    have hquote : Kind.fetchQuote.binding v = ⟨.result v, .quote⟩ := rfl
    refine .quoteBranch hr rfl hfed ?_
    simp only [Condition.access, condition, hsome, hquote, optionalField, Source.text]
    exact String.toList_inj.1 (by simp)

end Statements

/-- An emission reads what those before it have bound. -/
theorem WellFormed.reads_of_madeFrom {g : Graph} {root : Node} {before : List Emission}
    {e : Emission} {known : Known} (h : g.WellFormed) (hroot : root ∈ g.nodes)
    (hrootKind : root.kind? = some .strategyConfig) (hbefore : g.Earlier before)
    (hknown : known.bindings = bindingsOf before ++ (initialScope root).bindings)
    (hn : g.node? e.node.id = some e.node) (hmade : e.MadeFrom g.links known) :
    g.Reads root before e := by
  obtain ⟨n, statement⟩ := e
  change g.node? n.id = some n at hn
  cases statement with
  | call call =>
    obtain ⟨a, known', hr, ha⟩ := hmade
    exact h.reads_call hroot hrootKind hbefore hknown hn hr ha
  | loop item array =>
    obtain ⟨hr, -, harray⟩ := hmade
    rw [harray]
    exact h.reads_loop hroot hrootKind hbefore hknown hn hr item
  | branch condition =>
    obtain ⟨c, hr, hcondition⟩ := hmade
    rw [hcondition]
    exact h.reads_branch hroot hrootKind hbefore hknown hn hr

/-! ## Programs of edited graphs -/

/-- The emissions of a lowered flow read what those before them have bound. -/
theorem WellFormed.reads_of_traced {g : Graph} {root : Node} {flow : Control} {block : Block}
    {es : List Emission} (h : g.WellFormed) (hroot : root ∈ g.nodes)
    (hrootKind : root.kind? = some .strategyConfig) (hflow : g.Unfolds (start root) flow)
    (hes : Emits flow block es) (htraced : Traced g.links (initialScope root).bindings es) :
    ∀ before e after, es = before ++ e :: after → g.Reads root before e := by
  have hfound : ∀ e ∈ es, g.node? e.node.id = some e.node := by
    intro e he
    have hmem : e.node ∈ flow.emissions := hes.perm.subset (List.mem_map_of_mem he)
    obtain ⟨ref, -, href⟩ := hflow.mem_occurrences_iff.1 (flow.emissions_sublist.subset hmem)
    exact node?_of_next? href
  rintro before e after rfl
  obtain ⟨known, hknown, hmade⟩ := htraced.exists_madeFrom
  refine h.reads_of_madeFrom hroot hrootKind (fun d hd => ?_) hknown (hfound e (by simp)) hmade
  obtain ⟨front, back, rfl⟩ := List.append_of_mem hd
  rw [List.append_assoc] at htraced
  obtain ⟨known', -, hmade'⟩ := htraced.exists_madeFrom
  exact ⟨hfound d (by simp), known', hmade'⟩

/-- The statements of the program of an edited graph read what their inputs are connected to, if that
was emitted before, and fallbacks otherwise. -/
theorem edited_program_reads (ids : Nat → String) (edits : List Edit) :
    let g := edited ids edits
    ∀ p, g.compile.result = .ok p →
      ∃ root flow emissions, g.firstConfig? = some root ∧ p.configNode = root.id ∧
        g.Unfolds (start root) flow ∧ Emits flow p.body emissions ∧
        (emissions.map (·.node.id)).Nodup ∧
        (emissions.map (·.node.id)).Perm (emittedNodes g.compile.events) ∧
        ∀ before e after, emissions = before ++ e :: after → g.Reads root before e := by
  intro g p hp
  have h := wellFormed_edited ids edits
  obtain ⟨root, settings, flow, known, hroot, hflow, hlow, -, hprogram⟩ := compiled_cases hp
  obtain ⟨hmem, hkind⟩ := mem_of_root? h.isSealed hroot
  have hfirst : g.firstConfig? = some root := by
    rw [← root?_map_fst h.isSealed, hroot]
    rfl
  obtain ⟨es, hes, htraced, -⟩ := hflow.exists_traced hlow
  have hperm : (es.map (·.node.id)).Perm (emittedNodes g.compile.events) := by
    obtain ⟨flow', -, -, hflow', -, hevents, -⟩ := h.compile_cases hroot
    obtain rfl := hflow.unique hflow'
    have hids := hes.perm.map Node.id
    rw [List.map_map] at hids
    rw [hevents]
    exact hids
  exact ⟨root, flow, es, hfirst, by rw [hprogram], hflow, hes,
    hperm.nodup_iff.2 (h.emitted_of_program hp).1, hperm,
    h.reads_of_traced hmem hkind hflow hes htraced⟩

/-- A loop over a shortlist with a quote, a condition on it and an order for the item: every rule for
a connected value applies. -/
theorem orderPerItem_reads :
    ∃ p, (edited (fun _ => "") orderPerItem).compile.result = .ok p ∧
      ∃ root flow emissions, root.id = "s" ∧
        (edited (fun _ => "") orderPerItem).Unfolds (start root) flow ∧
        Emits flow p.body emissions ∧
        ∀ before e after, emissions = before ++ e :: after →
          (edited (fun _ => "") orderPerItem).Reads root before e := by
  obtain ⟨p, hp, hroot⟩ := (wellFormed_edited (fun _ => "") orderPerItem).exists_program rfl
    List.mem_cons_self rfl
  obtain ⟨root, flow, emissions, -, hid, hflow, hes, -, -, hreads⟩ :=
    edited_program_reads (fun _ => "") orderPerItem p hp
  exact ⟨p, hp, root, flow, emissions, hid.symm.trans hroot, hflow, hes, hreads⟩

end Graph

end TradeFlow
