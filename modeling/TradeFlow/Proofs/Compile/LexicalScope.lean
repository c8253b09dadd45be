import TradeFlow.Proofs.Compile.Bindings
import TradeFlow.Proofs.Compile.Edited

/-!
Whether the variables of a program are in scope where they are read.

Declarations are local to the block of a loop body or of a branch, while the table of bindings is
kept for the whole compilation. So a value that was bound in a block is still found after the block
is closed. What is proved:

1. `Graph.WellFormed.reads_iff`: a node reads exactly the values that data edges bring to it.
2. `Graph.WellFormed.scoped_iff`: a block is scoped unless an edge brings a variable from outside the
   scope, or leads out of a block that was closed in between (`Control.Leaks`).
3. `Graph.edited_program_scoped_iff`: so the program of an edited graph is scoped exactly when no data
   edge leads from a loop to what follows it, or from one branch of a condition to the other.
-/

namespace TradeFlow

open Lower

/-! ## Scoped blocks -/

/-- The variable that an argument reads. -/
def Argument.reads? (a : Argument) : Option Variable := a.source?.bind Source.reads?

/-- The variables that a call reads. -/
def Call.mentions (c : Call) : List Variable := c.fields.filterMap fun f => f.value.reads?

/-- Every variable that a statement reads is in scope there: it was declared earlier in the block or
in an enclosing one, or it is the item of an enclosing loop. -/
def Block.Scoped (scope : List Variable) : Block → Prop
  | .nil => True
  | .call c rest => (∀ v ∈ c.mentions, v ∈ scope) ∧ rest.Scoped (c.result.toList ++ scope)
  | .loop item array body rest =>
    (∀ v, array.bind Source.reads? = some v → v ∈ scope) ∧ body.Scoped (item :: scope) ∧
      rest.Scoped scope
  | .branch condition yes no =>
    (∀ v, condition.value.bind (·.expr.reads?) = some v → v ∈ scope) ∧ yes.Scoped scope ∧
      no.Scoped scope

/-! ## What actions read -/

section Mentions

variable {links : List Link} {known known' : Known} {n : Node} {a : Action} {call : Call}

/-- The variable that an input of a node brings. -/
def Lower.inputVariable? (links : List Link) (known : Known) (n : Node) (key : String) :
    Option Variable :=
  (input? links known n key).bind (·.expr.reads?)

theorem bind_reads?_map (b : Option (Binding Source)) :
    (b.map (·.expr)).bind Source.reads? = b.bind (·.expr.reads?) := by
  cases b <;> rfl

theorem mem_mentions {v : Variable} : v ∈ call.mentions ↔ ∃ f ∈ call.fields, f.value.reads? = some v :=
  List.mem_filterMap

@[simp] theorem reads?_literal (n : Node) (key value : String) :
    (literal n key value).reads? = none := rfl

@[simp] theorem reads?_number (x : Binary64) : (Argument.number x).reads? = none := rfl

@[simp] theorem reads?_datetime (n : Node) (useCurrent : Bool) (configured : String) :
    (datetime n useCurrent configured).reads? = none := by
  simp only [datetime]
  split
  · rfl
  · split <;> rfl

/-- What an input brings, or else an argument that reads nothing. -/
theorem reads?_of_input (links : List Link) (known : Known) (n : Node) (key : String)
    {fallback : Argument} (h : fallback.reads? = none) :
    Argument.reads? (match input? links known n key with
      | some b => .bound b.expr
      | none => fallback) = inputVariable? links known n key := by
  rw [inputVariable?]
  cases input? links known n key with
  | none => exact h
  | some b => rfl

@[simp] theorem reads?_textArgument (links : List Link) (known : Known) (n : Node)
    (key value : String) :
    (textArgument links known n key value).reads? = inputVariable? links known n key :=
  reads?_of_input links known n key rfl

/-- Without a connected entry price, an order reads its symbol only. -/
theorem mem_mentions_order {s : PlaceOrder}
    (hentry : ∀ known, input? links known n "entryPrice" = none)
    (h : order links known n s = .ok (known', call)) {v : Variable} :
    v ∈ call.mentions ↔ inputVariable? links known' n "nseSymbol" = some v := by
  simp only [order, hentry] at h
  split at h
  · next he => cases he
  · cases h
    simp [mem_mentions]
  · cases h
    simp [mem_mentions]

/-- A call reads what the operand of its node brings, and nothing else. -/
theorem mem_mentions_action (hentry : ∀ known, input? links known n "entryPrice" = none)
    (h : Lower.action links known n a = .ok (known', call)) {v : Variable} :
    v ∈ call.mentions ↔
      ∃ key, (actionKind a).operand? = some key ∧ inputVariable? links known' n key = some v := by
  cases a with
  | placeOrder s =>
    rw [mem_mentions_order hentry h]
    simp [actionKind, Kind.operand?]
  | fetchShortlist s =>
    cases h
    simp only [mem_mentions, actionKind, Kind.operand?, List.mem_cons, List.not_mem_nil, or_false,
      exists_eq_or_imp, exists_eq_left, Option.some.injEq, exists_eq_left', reads?_literal,
      reduceCtorEq, false_or]
    exact Eq.congr_left (reads?_of_input links _ n "datetime" (reads?_datetime n _ _))
  | fetchShortlistPersistence s =>
    cases h
    simp [mem_mentions, actionKind, Kind.operand?]
  | fetchCandles s =>
    cases h
    have hend : Argument.reads? (if s.useCurrentTimestampAsEnd = true then .now
        else literal n "endDatetime" s.endDatetime) = none := by
      split <;> rfl
    simp [mem_mentions, actionKind, Kind.operand?, hend]
  | fetchQuote s =>
    cases h
    simp [mem_mentions, actionKind, Kind.operand?]
  | fetchDates =>
    cases h
    simp [mem_mentions, actionKind, Kind.operand?]
  | fetchHolidays =>
    cases h
    simp [mem_mentions, actionKind, Kind.operand?]

end Mentions

/-! ## Data edges -/

/-- An edge that brings a value. -/
def Link.IsData (l : Link) : Prop := l.targetInput ≠ "exec"

instance (l : Link) : Decidable l.IsData := inferInstanceAs (Decidable (_ ≠ _))

namespace Graph

variable {g : Graph} {ref : OutputRef} {n root : Node} {kind : Kind} {c : Connection}
  {flow : Control} {known known' : Known} {block : Block} {scope : List Variable}

namespace WellFormed

/-- A data edge joins a value with an input that is none of control. -/
theorem data_sockets (h : g.WellFormed) (hc : c ∈ g.connections) (hdata : c.IsData) :
    ∃ source target output input outKind inKind, g.node? c.source = some source ∧
      g.node? c.target = some target ∧ source.kind? = some outKind ∧ target.kind? = some inKind ∧
      outKind.output? c.sourceOutput = some output ∧ inKind.input? c.targetInput = some input ∧
      output.socket.compatible input.socket = true ∧ input.socket ≠ .exec := by
  obtain ⟨source, target, output, input, hsource, htarget, hout, hin, hfit⟩ := h.legal c hc
  obtain ⟨outKind, houtKind, houtput⟩ := Option.bind_eq_some_iff.1 hout
  obtain ⟨inKind, hinKind, hinput⟩ := Option.bind_eq_some_iff.1 hin
  exact ⟨source, target, output, input, outKind, inKind, hsource, htarget, houtKind, hinKind,
    houtput, hinput, hfit, fun he => hdata (Kind.eq_exec_of_input? hinput he)⟩

/-- A data edge starts at the output with the value of a node. -/
theorem data_source (h : g.WellFormed) (hc : c ∈ g.connections) (hdata : c.IsData) :
    ∃ source outKind, g.node? c.source = some source ∧ source.kind? = some outKind ∧
      outKind.value? = some c.sourceOutput := by
  obtain ⟨source, -, output, input, outKind, -, hsource, -, houtKind, -, houtput, -, hfit, hne⟩ :=
    h.data_sockets hc hdata
  refine ⟨source, outKind, hsource, houtKind, Kind.value?_of_output? houtput fun he => hne ?_⟩
  rw [he] at hfit
  exact Socket.eq_exec_of_compatible hfit

/-- A data edge ends at the operand of a node. -/
theorem data_target (h : g.WellFormed) (hc : c ∈ g.connections) (hdata : c.IsData) :
    ∃ target inKind, g.node? c.target = some target ∧ target.kind? = some inKind ∧
      inKind.operand? = some c.targetInput := by
  obtain ⟨-, target, -, input, -, inKind, -, htarget, -, hinKind, -, hinput, -, -⟩ :=
    h.data_sockets hc hdata
  exact ⟨target, inKind, htarget, hinKind,
    Kind.operand?_of_input? hinput hdata (h.targetInput_ne_entryPrice hc)⟩

theorem data_source_ne_target (h : g.WellFormed) (hc : c ∈ g.connections) (hdata : c.IsData) :
    c.source ≠ c.target := by
  obtain ⟨source, target, output, input, outKind, inKind, hsource, htarget, houtKind, hinKind,
    houtput, hinput, hfit, hne⟩ := h.data_sockets hc hdata
  intro heq
  rw [heq, htarget, Option.some.injEq] at hsource
  subst hsource
  rw [hinKind, Option.some.injEq] at houtKind
  subst houtKind
  exact hne (Kind.eq_exec_of_compatible_self houtput hinput hfit)

/-- An input is fed by the one edge that enters it. -/
theorem input?_of_mem (h : g.WellFormed) (hc : c ∈ g.connections) (hn : c.target = n.id)
    (known : Known) : input? g.links known n c.targetInput = known.output? c.tail := by
  have hhead : c.head = ⟨n.id, c.targetInput⟩ := by rw [Link.head, hn]
  have hfind : g.links.find? (·.head == ⟨n.id, c.targetInput⟩) = some c.toLink := by
    rw [links, List.find?_map, ← hhead]
    -- the first edge into the input need not be this one, but no input is entered twice
    obtain ⟨d, hd⟩ := Option.isSome_iff_exists.1
      (List.find?_isSome (p := (·.head == c.head) ∘ Connection.toLink).2 ⟨c, hc, by simp⟩)
    have hdc : d = c := List.inj_on_of_nodup_map h.heads_nodup (List.mem_of_find?_eq_some hd) hc
      (by simpa using List.find?_some hd)
    rw [hd, hdc]
    rfl
  rw [input?, Scope.input?, hfind]
  rfl

theorem exists_of_inputVariable? {key : String} {v : Variable}
    (hv : inputVariable? g.links known n key = some v) :
    ∃ c ∈ g.connections, c.target = n.id ∧ c.targetInput = key ∧
      ∃ b, known.output? c.tail = some b ∧ b.expr.reads? = some v := by
  obtain ⟨b, hb, hv⟩ := Option.bind_eq_some_iff.1 hv
  obtain ⟨l, hl, hb⟩ := Option.bind_eq_some_iff.1 hb
  obtain ⟨c, hc, rfl⟩ := List.mem_map.1 (List.mem_of_find?_eq_some hl)
  have hhead : c.head = ⟨n.id, key⟩ := by simpa using List.find?_some hl
  exact ⟨c, hc, congrArg InputRef.node hhead, congrArg InputRef.input hhead, b, hb, hv⟩

/-- What a node reads is in scope exactly when no data edge brings it an output that escapes. -/
theorem reads_iff (h : g.WellFormed) (hn : g.node? n.id = some n) (hk : n.kind? = some kind) :
    (∀ key v, kind.operand? = some key → inputVariable? g.links known n key = some v → v ∈ scope) ↔
      ∀ c ∈ g.connections, c.IsData → c.target = n.id → ¬ known.Escapes scope c.tail := by
  constructor
  · rintro hreads c hc hdata htarget ⟨b, v, hb, hv, hnot⟩
    obtain ⟨target, inKind, hfound, hinKind, hoperand⟩ := h.data_target hc hdata
    have hkind : inKind = kind := by
      rw [htarget, hn, Option.some.injEq] at hfound
      rw [← hfound, hk, Option.some.injEq] at hinKind
      exact hinKind.symm
    rw [hkind] at hoperand
    refine hnot (hreads c.targetInput v hoperand ?_)
    rw [inputVariable?, h.input?_of_mem hc htarget, hb]
    exact hv
  · intro hedges key v hkey hv
    obtain ⟨c, hc, htarget, rfl, b, hb, hv⟩ := exists_of_inputVariable? hv
    by_contra hnot
    exact hedges c hc (Kind.ne_exec_of_operand? hkey) htarget ⟨b, v, hb, hv, hnot⟩

/-- A data edge that starts at a node leaves the output with the value of the node. -/
theorem tail_eq_iff (h : g.WellFormed) (hc : c ∈ g.connections) (hdata : c.IsData)
    (hn : g.node? n.id = some n) (hk : n.kind? = some kind) :
    c.tail ∈ kind.value?.toList.map (⟨n.id, ·⟩ : String → OutputRef) ↔ c.source = n.id := by
  obtain ⟨source, outKind, hfound, houtKind, hvalue⟩ := h.data_source hc hdata
  constructor
  · intro hmem
    obtain ⟨key, -, heq⟩ := List.mem_map.1 hmem
    exact (congrArg OutputRef.node heq).symm
  · intro hsource
    rw [hsource, hn, Option.some.injEq] at hfound
    rw [← hfound, hk, Option.some.injEq] at houtKind
    rw [houtKind, hvalue, Option.toList_some, List.map_singleton, List.mem_singleton, Link.tail,
      hsource]

/-- A data edge that starts at a node of a flow leaves an output that the flow binds. -/
theorem tail_mem_outputs_iff (h : g.WellFormed) (hc : c ∈ g.connections) (hdata : c.IsData)
    (hflow : g.Unfolds ref flow) (href : g.IsControl ref) :
    c.tail ∈ flow.outputs ↔ c.source ∈ flow.ids := by
  induction hflow with
  | stop hn => simp [Control.outputs]
  | silent hn hr _ _ =>
    exact absurd (Node.kind?_of_silent hr) (h.kind?_ne_of_next? href hn)
  | action hn hr hrest ih =>
    have hself := h.tail_eq_iff hc hdata (node?_of_next? hn) (Node.kind?_of_action hr)
    have hrest := ih (isControl_of_follow ((follow_iff_of_action hn hr).2 rfl))
    rw [Control.outputs, List.mem_append, Action.outputs, hself, hrest, Control.mem_ids_action]
  | loop hn hr hbody hrest ihbody ihrest =>
    have hself := h.tail_eq_iff hc hdata (node?_of_next? hn) (Node.kind?_of_loop hr)
    have hbody := ihbody (isControl_of_follow ((follow_iff_of_loop hn hr).2 (.inl rfl)))
    have hrest := ihrest (isControl_of_follow ((follow_iff_of_loop hn hr).2 (.inr rfl)))
    rw [Kind.value?, Option.toList_some, List.map_singleton, List.mem_singleton] at hself
    rw [Control.outputs, List.mem_append, List.mem_cons, hself, hbody, hrest, or_assoc,
      Control.mem_ids_loop]
  | branch hn hr hyes hno ihyes ihno =>
    have hself := h.tail_eq_iff hc hdata (node?_of_next? hn) (Node.kind?_of_branch hr)
    have hyes := ihyes (isControl_of_follow ((follow_iff_of_branch hn hr).2 (.inl rfl)))
    have hno := ihno (isControl_of_follow ((follow_iff_of_branch hn hr).2 (.inr rfl)))
    have hne : ¬ c.source = _ := fun he => List.not_mem_nil (hself.2 he)
    rw [Control.outputs, List.mem_append, hyes, hno, Control.mem_ids_branch, or_iff_right hne]

end WellFormed

end Graph

/-! ## Edges out of closed blocks -/

/-- In a flow, a block that holds the node of the first id is closed before control gets to the node
of the second. -/
def Control.Leaks (source target : String) : Control → Prop
  | .stop => False
  | .cycle _ => False
  | .unusable _ => False
  | .silent _ rest => rest.Leaks source target
  | .action _ _ rest => rest.Leaks source target
  | .loop n body rest =>
    ((source = n.id ∨ source ∈ body.ids) ∧ target ∈ rest.ids) ∨ body.Leaks source target ∨
      rest.Leaks source target
  | .branch _ _ yes no =>
    (source ∈ yes.ids ∧ target ∈ no.ids) ∨ yes.Leaks source target ∨ no.Leaks source target

theorem Control.Leaks.target_mem {flow : Control} {source target : String}
    (h : flow.Leaks source target) : target ∈ flow.ids := by
  induction flow with
  | stop => exact h.elim
  | cycle ref => exact h.elim
  | unusable n => exact h.elim
  | silent n rest ih => exact mem_ids_silent.2 (.inr (ih h))
  | action n a rest ih => exact mem_ids_action.2 (.inr (ih h))
  | loop n body rest ihbody ihrest =>
    rw [mem_ids_loop]
    rcases h with h | h | h
    · exact .inr (.inr h.2)
    · exact .inr (.inl (ihbody h))
    · exact .inr (.inr (ihrest h))
  | branch n c yes no ihyes ihno =>
    rw [mem_ids_branch]
    rcases h with h | h | h
    · exact .inr (.inr h.2)
    · exact .inr (.inl (ihyes h))
    · exact .inr (.inr (ihno h))

namespace Graph

variable {g : Graph} {ref : OutputRef} {n root : Node} {a : Action} {cond : Conditional}
  {flow body rest yes no : Control} {known known' : Known} {block : Block}
  {scope scope' : List Variable}

/-- Every data edge to a node of a flow brings a value that is in scope. -/
def Contained (g : Graph) (known : Known) (scope : List Variable) (flow : Control) : Prop :=
  ∀ c ∈ g.connections, c.IsData → c.target ∈ flow.ids →
    ¬ known.Escapes scope c.tail ∧ ¬ flow.Leaks c.source c.target

/-- Every data edge to one node brings a value that is in scope. -/
def ReadsInScope (g : Graph) (known : Known) (scope : List Variable) (n : Node) : Prop :=
  ∀ c ∈ g.connections, c.IsData → c.target = n.id → ¬ known.Escapes scope c.tail

theorem contained_congr (h : ∀ ref, known'.Escapes scope' ref ↔ known.Escapes scope ref) :
    g.Contained known' scope' flow ↔ g.Contained known scope flow := by
  simp only [Contained, h]

theorem contained_action (hself : n.id ∉ rest.ids) :
    g.Contained known scope (.action n a rest) ↔
      g.ReadsInScope known scope n ∧ g.Contained known scope rest := by
  constructor
  · intro h
    refine ⟨fun c hc hdata htarget => ?_, fun c hc hdata htarget => ?_⟩
    · exact (h c hc hdata (Control.mem_ids_action.2 (.inl htarget))).1
    · exact h c hc hdata (Control.mem_ids_action.2 (.inr htarget))
  · rintro ⟨hreads, hrest⟩ c hc hdata htarget
    rcases Control.mem_ids_action.1 htarget with htarget | htarget
    · refine ⟨hreads c hc hdata htarget, fun hleaks => hself ?_⟩
      have hmem : c.target ∈ rest.ids := Control.Leaks.target_mem hleaks
      exact htarget ▸ hmem
    · exact hrest c hc hdata htarget

/-- A node that owns a first flow and goes on with a second: what the second reads must neither
escape from outside nor have been bound in the first, whose block is closed by then. -/
theorem contained_split {first second : Control} {inside : String → Prop}
    (hids : ∀ id, id ∈ flow.ids ↔ id = n.id ∨ id ∈ first.ids ∨ id ∈ second.ids)
    (hleaks : ∀ s t, flow.Leaks s t ↔
      (inside s ∧ t ∈ second.ids) ∨ first.Leaks s t ∨ second.Leaks s t)
    (hfirst : n.id ∉ first.ids) (hsecond : n.id ∉ second.ids)
    (hdisjoint : first.ids.Disjoint second.ids)
    (hclosed : ∀ c ∈ g.connections, c.IsData →
      (known'.Escapes scope c.tail ↔ known.Escapes scope c.tail ∨ inside c.source)) :
    g.Contained known scope flow ↔
      g.ReadsInScope known scope n ∧ g.Contained known scope first ∧
        g.Contained known' scope second := by
  constructor
  · intro h
    refine ⟨fun c hc hdata htarget => ?_, fun c hc hdata htarget => ?_, fun c hc hdata htarget => ?_⟩
    · exact (h c hc hdata ((hids _).2 (.inl htarget))).1
    · obtain ⟨hescapes, hnot⟩ := h c hc hdata ((hids _).2 (.inr (.inl htarget)))
      exact ⟨hescapes, fun hl => hnot ((hleaks _ _).2 (.inr (.inl hl)))⟩
    · obtain ⟨hescapes, hnot⟩ := h c hc hdata ((hids _).2 (.inr (.inr htarget)))
      refine ⟨?_, fun hl => hnot ((hleaks _ _).2 (.inr (.inr hl)))⟩
      rw [hclosed c hc hdata]
      rintro (he | hsource)
      · exact hescapes he
      · exact hnot ((hleaks _ _).2 (.inl ⟨hsource, htarget⟩))
  · rintro ⟨hreads, hin, hafter⟩ c hc hdata htarget
    rw [hleaks]
    rcases (hids _).1 htarget with htarget | htarget | htarget
    · -- the node is part of neither flow, so nothing leaks to it
      refine ⟨hreads c hc hdata htarget, ?_⟩
      rw [htarget]
      rintro (hl | hl | hl)
      · exact hsecond hl.2
      · exact hfirst hl.target_mem
      · exact hsecond hl.target_mem
    · -- in the first flow nothing is closed but blocks of its own
      refine ⟨(hin c hc hdata htarget).1, ?_⟩
      rintro (hl | hl | hl)
      · exact hdisjoint htarget hl.2
      · exact (hin c hc hdata htarget).2 hl
      · exact hdisjoint htarget hl.target_mem
    · -- in the second flow, what was bound in the first escapes
      obtain ⟨hescapes, hnot⟩ := hafter c hc hdata htarget
      rw [hclosed c hc hdata, not_or] at hescapes
      refine ⟨hescapes.1, ?_⟩
      rintro (hl | hl | hl)
      · exact hescapes.2 hl.1
      · exact hdisjoint hl.target_mem htarget
      · exact hnot hl

namespace WellFormed

/-- What one node reads, from what its statement mentions. -/
theorem readsInScope_iff (h : g.WellFormed) (hn : g.next? ref = some n) {kind : Kind}
    (hk : n.kind? = some kind) :
    (∀ v, (∃ key, kind.operand? = some key ∧ inputVariable? g.links known n key = some v) →
      v ∈ scope) ↔ g.ReadsInScope known scope n := by
  rw [ReadsInScope, ← h.reads_iff (node?_of_next? hn) hk]
  constructor
  · exact fun hall key v hkey hv => hall v ⟨key, hkey, hv⟩
  · rintro hall v ⟨key, hkey, hv⟩
    exact hall key v hkey hv

theorem mentions_iff (h : g.WellFormed) (hn : g.next? ref = some n) (hr : n.config.role = .action a)
    {call : Call} (ha : Lower.action g.links known n a = .ok (known', call))
    (hsound : known.Sound) :
    (∀ v ∈ call.mentions, v ∈ scope) ↔ g.ReadsInScope known scope n := by
  simp only [mem_mentions_action (fun known => h.input?_entryPrice known n) ha]
  rw [h.readsInScope_iff hn (Node.kind?_of_action hr)]
  -- the result of the call is known already, but no data edge leads from a node to itself
  refine forall₄_congr fun c hc hdata htarget => not_congr ?_
  refine (action_extends ha hsound).2.escapes_of_not_mem fun hmem => ?_
  obtain ⟨key, -, heq⟩ := List.mem_map.1 hmem
  have hsource : n.id = c.source := congrArg OutputRef.node heq
  exact h.data_source_ne_target hc hdata (hsource.symm.trans htarget.symm)

/-- After the body of a loop, its item and what was bound in the body escape. -/
theorem escapes_after_body (h : g.WellFormed) (hn : g.next? ref = some n)
    (hr : n.config.role = .loop) (hbody : g.Unfolds ⟨n.id, "loopBody"⟩ body)
    (hlow : Lowered g.links body (known.entered n) known' block) (hsound : known.Sound)
    (hscope : ∀ v ∈ scope, v ∈ known.allocated) {c : Connection} (hc : c ∈ g.connections)
    (hdata : c.IsData) : known'.Escapes scope c.tail ↔
      known.Escapes scope c.tail ∨ c.source = n.id ∨ c.source ∈ body.ids := by
  have hstep := (follow_iff_of_loop hn hr).2 (.inl rfl)
  have hitem := h.tail_eq_iff hc hdata (node?_of_next? hn) (Node.kind?_of_loop hr)
  rw [Kind.value?, Option.toList_some, List.map_singleton, List.mem_singleton] at hitem
  rw [(hlow.extends_loop hsound).2.escapes_iff hscope, List.mem_cons, hitem,
    h.tail_mem_outputs_iff hc hdata hbody (isControl_of_follow hstep)]

/-- A block is scoped exactly when all that the flow reads is in scope. -/
theorem scoped_iff (h : g.WellFormed) (hflow : g.Unfolds ref flow) (href : g.IsControl ref)
    (hlow : Lowered g.links flow known known' block) (hready : known.Ready scope flow) :
    block.Scoped scope ↔ g.Contained known scope flow := by
  -- by induction on the flow; the table and the scope change on the way
  induction hflow generalizing known known' block scope with
  | stop hn =>
    cases hlow
    simp [Block.Scoped, Contained]
  | silent hn hr _ _ =>
    exact absurd (Node.kind?_of_silent hr) (h.kind?_ne_of_next? href hn)
  | @action ref n a rest hn hr hrest ih =>
    have hstep := (follow_iff_of_action hn hr).2 rfl
    have hself := h.action_not_mem href hn hr hrest
    cases hlow with
    | @action _ _ _ _ known₁ _ call block ha hlow =>
    rw [Block.Scoped, contained_action hself]
    refine and_congr (h.mentions_iff hn hr ha hready.sound) ?_
    rw [ih (isControl_of_follow hstep) hlow (hready.action hself ha)]
    refine contained_congr fun o => action_escapes_iff ha hready.sound fun o' ho' => ?_
    exact hready.unbound o' (List.mem_append_left _ ho')
  | @loop ref n body rest hn hr hbody hrest ihbody ihrest =>
    have hin := (follow_iff_of_loop hn hr).2 (.inl rfl)
    have hafter := (follow_iff_of_loop hn hr).2 (.inr rfl)
    obtain ⟨hselfBody, hselfRest, hdisjoint⟩ := h.loop_disjoint href hn hr hbody hrest
    cases hlow with
    | @loop _ _ _ _ known₁ _ bodyBlock block hlowBody hlowRest =>
    rw [Block.Scoped, contained_split (fun _ => Control.mem_ids_loop) (fun _ _ => Iff.rfl) hselfBody
      hselfRest hdisjoint
      fun c => h.escapes_after_body hn hr hbody hlowBody hready.sound hready.allocated]
    refine and_congr ?_ (and_congr ?_ ?_)
    · rw [← h.readsInScope_iff hn (Node.kind?_of_loop hr)]
      simp [Kind.operand?, bind_reads?_map, inputVariable?]
    · rw [ihbody (isControl_of_follow hin) hlowBody (hready.loopBody hselfBody)]
      have hitem := hready.unbound _ List.mem_cons_self
      exact contained_congr fun o => (known.opens_entered n).escapes_iff hready.sound hitem
    · exact ihrest (isControl_of_follow hafter) hlowRest
        (hready.loopRest hselfRest hdisjoint hlowBody)
  | @branch ref n cond yes no hn hr hyes hno ihyes ihno =>
    have htrue := (follow_iff_of_branch hn hr).2 (.inl rfl)
    have hfalse := (follow_iff_of_branch hn hr).2 (.inr rfl)
    obtain ⟨hselfYes, hselfNo, hdisjoint⟩ := h.branch_disjoint href hn hr hyes hno
    cases hlow with
    | @branch _ _ _ _ _ known₁ _ yesBlock noBlock hlowYes hlowNo =>
    have hclosed : ∀ c ∈ g.connections, c.IsData → (known₁.Escapes scope c.tail ↔
        known.Escapes scope c.tail ∨ c.source ∈ yes.ids) := by
      intro c hc hdata
      rw [(hlowYes.extends hready.sound).2.escapes_iff hready.allocated,
        h.tail_mem_outputs_iff hc hdata hyes (isControl_of_follow htrue)]
    rw [Block.Scoped, contained_split (fun _ => Control.mem_ids_branch) (fun _ _ => Iff.rfl) hselfYes
      hselfNo hdisjoint hclosed]
    refine and_congr ?_ (and_congr ?_ ?_)
    · rw [← h.readsInScope_iff hn (Node.kind?_of_branch hr)]
      simp [Kind.operand?, inputVariable?, condition]
    · exact ihyes (isControl_of_follow htrue) hlowYes hready.branchYes
    · exact ihno (isControl_of_follow hfalse) hlowNo (hready.branchNo hdisjoint hlowYes)

end WellFormed

/-! ## Edges between parts of a graph -/

/-- Control that leaves an output gets to the node with an id. -/
def Meets (g : Graph) (ref : OutputRef) (id : String) : Prop := ∃ n, g.Visits ref n ∧ n.id = id

/-- A loop gets to the first node in its body, or is that node, and to the second afterwards; or a
condition gets to the first in its first branch and to the second in its other one. -/
def Separates (g : Graph) (n : Node) (source target : String) : Prop :=
  (n.kind? = some .forEach ∧ (source = n.id ∨ g.Meets ⟨n.id, "loopBody"⟩ source) ∧
    g.Meets ⟨n.id, "done"⟩ target) ∨
  (n.kind? = some .conditional ∧ g.Meets ⟨n.id, "true"⟩ source ∧ g.Meets ⟨n.id, "false"⟩ target)

theorem Unfolds.mem_ids_iff (h : g.Unfolds ref flow) {id : String} :
    id ∈ flow.ids ↔ g.Meets ref id := by
  simp only [Control.ids, List.mem_map, h.mem_occurrences_iff, Meets]

theorem separates_of_loop (hr : n.config.role = .loop) {source target : String} :
    g.Separates n source target ↔ (source = n.id ∨ g.Meets ⟨n.id, "loopBody"⟩ source) ∧
      g.Meets ⟨n.id, "done"⟩ target := by
  have hk := Node.kind?_of_loop hr
  simp [Separates, hk]

theorem separates_of_branch (hr : n.config.role = .branch cond) {source target : String} :
    g.Separates n source target ↔
      g.Meets ⟨n.id, "true"⟩ source ∧ g.Meets ⟨n.id, "false"⟩ target := by
  have hk := Node.kind?_of_branch hr
  simp [Separates, hk]

theorem not_separates_of_action (hr : n.config.role = .action a) {source target : String} :
    ¬ g.Separates n source target := by
  have hk := Node.kind?_of_action hr
  cases a <;> simp [Separates, hk, actionKind]

theorem not_separates_of_silent (hr : n.config.role = .silent) {source target : String} :
    ¬ g.Separates n source target := by
  have hk := Node.kind?_of_silent hr
  simp [Separates, hk]

/-- A complete flow leaks exactly between nodes that a node on its way separates. -/
theorem Unfolds.leaks_iff (h : g.Unfolds ref flow) {source target : String} :
    flow.Leaks source target ↔ ∃ n, g.Visits ref n ∧ g.Separates n source target := by
  induction h with
  | stop hn => simp [Control.Leaks, not_visits_of_next?_eq_none hn]
  | silent hn hr _ ih =>
    simp only [visits_iff_of_silent hn hr, or_and_right, exists_or, exists_eq_left,
      not_separates_of_silent hr, false_or]
    exact ih
  | action hn hr _ ih =>
    simp only [visits_iff_of_action hn hr, or_and_right, exists_or, exists_eq_left,
      not_separates_of_action hr, false_or]
    exact ih
  | loop hn hr hbody hrest ihbody ihrest =>
    simp only [visits_iff_of_loop hn hr, or_and_right, exists_or, exists_eq_left,
      separates_of_loop hr, ← ihbody, ← ihrest, ← hbody.mem_ids_iff, ← hrest.mem_ids_iff]
    rw [Control.Leaks, or_and_right]
  | branch hn hr hyes hno ihyes ihno =>
    simp only [visits_iff_of_branch hn hr, or_and_right, exists_or, exists_eq_left,
      separates_of_branch hr, ← ihyes, ← ihno, ← hyes.mem_ids_iff, ← hno.mem_ids_iff]
    rfl

/-! ## Programs of edited graphs -/

/-- At first, one output is bound, and to no variable. -/
theorem output?_initialScope {b : Binding Source} (h : (initialScope root).output? ref = some b) :
    ref.node = root.id ∧ b.expr.reads? = none := by
  have hbind := Known.output?_bindOutput (Scope.empty.require .currentTimestamp) root
    .strategyConfig "currentTimestamp" .timestamp ref
  by_cases href : ref = ⟨root.id, "currentTimestamp"⟩
  · obtain ⟨shape, hself⟩ := hbind.1
    rw [initialScope, href, hself, Option.some.injEq] at h
    exact ⟨by rw [href], by rw [← h]; rfl⟩
  · rw [initialScope, hbind.2 href] at h
    cases h

theorem sound_initialScope (root : Node) : (initialScope root).Sound := by
  constructor
  · intro v hv
    exact absurd hv List.not_mem_nil
  · intro ref b v hb hv
    rw [(output?_initialScope hb).2] at hv
    cases hv

theorem not_escapes_initialScope : ¬ (initialScope root).Escapes scope ref := by
  rintro ⟨b, v, hb, hv, -⟩
  rw [(output?_initialScope hb).2] at hv
  cases hv

/-- The program of a well-formed graph is scoped unless a data edge joins nodes that control gets to
and that some node on its way separates. -/
theorem WellFormed.program_scoped_iff (h : g.WellFormed) {p : Program}
    (hp : g.compile.result = .ok p) :
    p.body.Scoped [] ↔ ∀ c ∈ g.connections, c.IsData →
      ∀ n, g.Visits ⟨p.configNode, "exec"⟩ n → ¬ g.Separates n c.source c.target := by
  obtain ⟨root, flow, known, hmem, hkind, hroot, hflow, hlow, -⟩ := h.program_cases hp
  have hstart := h.isControl_start hmem hkind
  -- only an output of the root is bound at first, and the root is not part of the flow
  have hnone : ∀ o ∈ flow.outputs, (initialScope root).output? o = none := by
    intro o ho
    rw [Option.eq_none_iff_forall_ne_some]
    intro b hb
    refine h.root_id_not_mem_ids hmem hkind hflow ?_
    rw [← (output?_initialScope hb).1]
    exact Control.node_mem_ids ho
  have hready : (initialScope root).Ready [] flow := ⟨sound_initialScope root, by simp, hnone⟩
  rw [hroot, h.scoped_iff hflow hstart hlow hready]
  refine forall₃_congr fun c hc hdata => ?_
  constructor
  · intro hcontained n hn hseparates
    have hleaks := hflow.leaks_iff.2 ⟨n, hn, hseparates⟩
    exact (hcontained hleaks.target_mem).2 hleaks
  · intro hedges _
    refine ⟨not_escapes_initialScope, fun hleaks => ?_⟩
    obtain ⟨n, hn, hseparates⟩ := hflow.leaks_iff.1 hleaks
    exact hedges n hn hseparates

/-- The program of an edited graph is scoped exactly when no data edge leads from a loop to what
follows it, or from the first branch of a condition to the other. -/
theorem edited_program_scoped_iff (ids : Nat → String) (edits : List Edit) :
    let g := edited ids edits
    ∀ p, g.compile.result = .ok p →
      (p.body.Scoped [] ↔ ∀ c ∈ g.connections, c.IsData →
        ∀ n, g.Visits ⟨p.configNode, "exec"⟩ n → ¬ g.Separates n c.source c.target) := by
  intro g p hp
  exact (wellFormed_edited ids edits).program_scoped_iff hp

/-- A shortlist is fetched before a loop runs over it; in the body, a quote of the item decides
whether an order for the item is placed. -/
def orderPerItem : List Edit :=
  [.insert (some (.ofKind "s" .strategyConfig)), .insert (some (.ofKind "a" .fetchShortlist)),
    .insert (some (.ofKind "f" .forEach)), .insert (some (.ofKind "q" .fetchQuote)),
    .insert (some (.ofKind "b" .conditional)), .insert (some (.ofKind "o" .placeOrder)),
    .connectAs "c1" ⟨"s", "exec", "a", "exec"⟩, .connectAs "c2" ⟨"a", "exec", "f", "exec"⟩,
    .connectAs "c3" ⟨"a", "results", "f", "array"⟩,
    .connectAs "c4" ⟨"f", "loopBody", "q", "exec"⟩, .connectAs "c5" ⟨"f", "item", "q", "symbol"⟩,
    .connectAs "c6" ⟨"q", "exec", "b", "exec"⟩, .connectAs "c7" ⟨"q", "quote", "b", "value"⟩,
    .connectAs "c8" ⟨"b", "true", "o", "exec"⟩, .connectAs "c9" ⟨"f", "item", "o", "nseSymbol"⟩]

/-- No chain goes on after the loop and there is no second branch, so every value is in scope. -/
theorem orderPerItem_scoped :
    ∃ p, (edited (fun _ => "") orderPerItem).compile.result = .ok p ∧ p.body.Scoped [] := by
  have h := wellFormed_edited (fun _ => "") orderPerItem
  have hnone : ∀ n ∈ (edited (fun _ => "") orderPerItem).nodes, ∀ key ∈ ["done", "false"],
      (edited (fun _ => "") orderPerItem).next? ⟨n.id, key⟩ = none := by
    decide
  obtain ⟨p, hp, -⟩ := h.exists_program rfl List.mem_cons_self rfl
  refine ⟨p, hp, (edited_program_scoped_iff _ _ p hp).2 ?_⟩
  rintro c - - n ⟨q, -, hq⟩ (⟨-, -, m, hm, -⟩ | ⟨-, -, m, hm, -⟩)
  · exact not_visits_of_next?_eq_none (hnone n (mem_nodes_of_next? hq) "done" (by simp)) hm
  · exact not_visits_of_next?_eq_none (hnone n (mem_nodes_of_next? hq) "false" (by simp)) hm

/-- A loop fetches a shortlist in its body, and a second loop that follows runs over it. -/
def loopOverClosedBlock : List Edit :=
  [.insert (some (.ofKind "s" .strategyConfig)), .insert (some (.ofKind "f" .forEach)),
    .insert (some (.ofKind "a" .fetchShortlist)), .insert (some (.ofKind "g" .forEach)),
    .connectAs "c1" ⟨"s", "exec", "f", "exec"⟩, .connectAs "c2" ⟨"f", "loopBody", "a", "exec"⟩,
    .connectAs "c3" ⟨"f", "done", "g", "exec"⟩, .connectAs "c4" ⟨"a", "results", "g", "array"⟩]

/-- The second loop reads a variable whose block is closed. -/
theorem loopOverClosedBlock_not_scoped :
    ∃ p, (edited (fun _ => "") loopOverClosedBlock).compile.result = .ok p ∧
      ¬ p.body.Scoped [] := by
  have h := wellFormed_edited (fun _ => "") loopOverClosedBlock
  have hg : edited (fun _ => "") loopOverClosedBlock =
    { nodes := [.ofKind "s" .strategyConfig, .ofKind "f" .forEach, .ofKind "a" .fetchShortlist,
        .ofKind "g" .forEach]
      connections := [⟨⟨"s", "exec", "f", "exec"⟩, "c1"⟩, ⟨⟨"f", "loopBody", "a", "exec"⟩, "c2"⟩,
        ⟨⟨"f", "done", "g", "exec"⟩, "c3"⟩, ⟨⟨"a", "results", "g", "array"⟩, "c4"⟩] } := by
    rfl
  rw [hg] at h ⊢
  obtain ⟨p, hp, hroot⟩ := h.exists_program rfl List.mem_cons_self rfl
  refine ⟨p, hp, ?_⟩
  rw [h.program_scoped_iff hp, hroot]
  intro hedges
  refine hedges ⟨⟨"a", "results", "g", "array"⟩, "c4"⟩ (by simp) (by decide) (.ofKind "f" .forEach)
    ⟨_, .refl, rfl⟩ (.inl ⟨rfl, .inr ?_, ?_⟩)
  · exact ⟨.ofKind "a" .fetchShortlist, ⟨_, .refl, rfl⟩, rfl⟩
  · exact ⟨.ofKind "g" .forEach, ⟨_, .refl, rfl⟩, rfl⟩

end Graph

end TradeFlow
