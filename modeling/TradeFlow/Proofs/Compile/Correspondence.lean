import TradeFlow.Proofs.Compile.Bindings
import TradeFlow.Proofs.Compile.Outcome
import TradeFlow.Proofs.Program.Renaming
import Mathlib.Data.Set.Function

/-!
Two compilations side by side.

A graph corresponds to another one under a renaming of ids if control and data take the same way
through both. Only a part of a graph has to take part: the outputs that are followed, and the ids that
can be bound meanwhile. The two graphs may differ in everything else, and in the places of nodes.
What is proved:

1. `Graph.Corresponds.controlFrom`: control flow unfolds to flows that correspond.
2. `Control.Corresponds.lower`: such flows are lowered to the same block under new ids, with the same
   events under new ids.
3. `Graph.Corresponds.compile`: hence one compilation is the other one with new ids.
4. `Graph.compile_eq_of_agree`: if no id changes, the results are the same.
-/

namespace TradeFlow

open Lower

variable {ρ : String → String} {S : Set String}

theorem OutputRef.rename_inj (hρ : S.InjOn ρ) {a b : OutputRef} (ha : a.node ∈ S)
    (hb : b.node ∈ S) : a.rename ρ = b.rename ρ ↔ a = b := by
  constructor
  · intro h
    obtain ⟨node, output⟩ := a
    obtain ⟨node', output'⟩ := b
    simp only [rename, OutputRef.mk.injEq] at h
    have hnode : node = node' := hρ ha hb h.1
    rw [hnode, h.2]
  · intro h
    rw [h]

/-! ## What is known -/

/-- Only outputs of nodes with certain ids are bound. -/
def Known.Within (S : Set String) (known : Known) : Prop :=
  ∀ entry ∈ known.bindings, entry.1.node ∈ S

namespace Known

variable {known known' : Known} {n n' : Node}

theorem output?_rename (hρ : S.InjOn ρ) (hknown : known.Within S) {ref : OutputRef}
    (href : ref.node ∈ S) : (known.rename ρ).output? (ref.rename ρ) = known.output? ref := by
  obtain ⟨allocated, bindings, required⟩ := known
  simp only [Scope.output?, rename]
  induction bindings with
  | nil => rfl
  | cons entry bindings ih =>
    obtain ⟨hentry, hbindings⟩ := List.forall_mem_cons.1 hknown
    have hkey : (ref.rename ρ == entry.1.rename ρ) = (ref == entry.1) := by
      rw [Bool.eq_iff_iff, beq_iff_eq, beq_iff_eq, OutputRef.rename_inj hρ href hentry]
    rw [List.map_cons, List.lookup_cons, List.lookup_cons, hkey, ih hbindings]

/-- An output of another node is not bound. -/
theorem Within.output?_eq_none (h : known.Within S) {ref : OutputRef} (href : ref.node ∉ S) :
    known.output? ref = none := by
  rw [Scope.output?, List.lookup_eq_none_iff]
  intro entry hentry
  rw [bne_iff_ne]
  rintro rfl
  exact href (h entry hentry)

theorem Within.bindOutput (h : known.Within S) (hn : n.id ∈ S) (kind : Kind) (output : String)
    (source : Source) : Known.Within S (bindOutput known n kind output source) :=
  List.forall_mem_cons.2 ⟨hn, h⟩

theorem bindOutput_rename (hid : n'.id = ρ n.id) (known : Known) (kind : Kind) (output : String)
    (source : Source) :
    Lower.bindOutput (known.rename ρ) n' kind output source =
      Known.rename ρ (Lower.bindOutput known n kind output source) := by
  simp only [Lower.bindOutput, Scope.bind, rename, OutputRef.rename, List.map_cons, hid]

end Known

/-! ## Runs -/

namespace Run

variable {α β γ δ : Type}

/-- The run with new ids in its events and its error, and with its result changed. -/
def rename (ρ : String → String) (r : α → β) (x : Run α) : Run β where
  events := x.events.map (Event.rename ρ)
  result := (x.result.map r).mapError (Halt.rename ρ)

/-- The two parts of a computation are renamed one by one. For the second it is known what the first
one gave. -/
theorem rename_bind {r : α → β} {s : γ → δ} {x : Run α} {x' : Run β} {f : α → Run γ}
    {f' : β → Run δ} (hx : x' = x.rename ρ r)
    (hf : ∀ a, x.result = .ok a → f' (r a) = (f a).rename ρ s) :
    (x' >>= f') = (x >>= f).rename ρ s := by
  obtain ⟨events, result⟩ := x
  subst hx
  cases result with
  | error halt => rfl
  | ok a =>
    have hnext := hf a rfl
    show Run.mk (events.map (Event.rename ρ) ++ (f' (r a)).events) (f' (r a)).result = _
    rw [hnext, Run.rename, ← List.map_append]
    rfl

theorem rename_within (r : α → β) (node : String) (kind : Kind) (x : Run α) :
    within (ρ node) kind (x.rename ρ r) = (within node kind x).rename ρ r := by
  obtain ⟨events, result⟩ := x
  cases result with
  | error halt => cases halt <;> simp [within, Run.rename, Except.map, Except.mapError, Halt.rename,
      Halt.error?, Event.rename]
  | ok a => simp [within, Run.rename, Except.map, Except.mapError, Event.rename]

/-- The number of lines is reported, which comes from the text. -/
theorem rename_emit {n n' : Node} (hid : n'.id = ρ n.id) (kind : Kind) {code code' : String}
    (hcode : code' = code) :
    Lower.emit n' kind code' = (Lower.emit n kind code).rename ρ id := by
  rw [hcode, Lower.emit, Lower.emit, hid]
  rfl

end Run

/-! ## Flows -/

/-- Nodes with the same settings, one under the new id of the other. -/
structure Node.Corresponds (ρ : String → String) (S : Set String) (n n' : Node) : Prop where
  mem : n.id ∈ S
  id_eq : n'.id = ρ n.id
  config_eq : n'.config = n.config

/-- Flows of one form through nodes that correspond. -/
inductive Control.Corresponds (ρ : String → String) (S : Set String) : Control → Control → Prop where
  | stop : Corresponds ρ S .stop .stop
  | cycle (ref : OutputRef) : Corresponds ρ S (.cycle ref) (.cycle (ref.rename ρ))
  | unusable {n n' : Node} (hn : n.Corresponds ρ S n') : Corresponds ρ S (.unusable n) (.unusable n')
  | silent {n n' : Node} {rest rest' : Control} (hn : n.Corresponds ρ S n')
      (h : Corresponds ρ S rest rest') : Corresponds ρ S (.silent n rest) (.silent n' rest')
  | action {n n' : Node} (a : Action) {rest rest' : Control} (hn : n.Corresponds ρ S n')
      (h : Corresponds ρ S rest rest') : Corresponds ρ S (.action n a rest) (.action n' a rest')
  | loop {n n' : Node} {body body' rest rest' : Control} (hn : n.Corresponds ρ S n')
      (hbody : Corresponds ρ S body body') (h : Corresponds ρ S rest rest') :
      Corresponds ρ S (.loop n body rest) (.loop n' body' rest')
  | branch {n n' : Node} (c : Conditional) {yes yes' no no' : Control} (hn : n.Corresponds ρ S n')
      (hyes : Corresponds ρ S yes yes') (hno : Corresponds ρ S no no') :
      Corresponds ρ S (.branch n c yes no) (.branch n' c yes' no')

theorem Control.Corresponds.isComplete_eq {flow flow' : Control} (h : flow.Corresponds ρ S flow') :
    flow'.isComplete = flow.isComplete := by
  induction h with
  | stop => rfl
  | cycle ref => rfl
  | unusable _ => rfl
  | silent _ _ ih => exact ih
  | action _ _ _ ih => exact ih
  | loop _ _ _ ihbody ihrest => rw [isComplete, isComplete, ihbody, ihrest]
  | branch _ _ _ _ ihyes ihno => rw [isComplete, isComplete, ihyes, ihno]

/-- A flow that is unfolded behind another one is unfolded on both sides or on none. -/
theorem Control.Corresponds.behind {first first' flow flow' : Control}
    (hfirst : first.Corresponds ρ S first') (h : flow.Corresponds ρ S flow') :
    (if first.isComplete then flow else .stop).Corresponds ρ S
      (if first'.isComplete then flow' else .stop) := by
  rw [hfirst.isComplete_eq]
  split
  · exact h
  · exact .stop

/-! ## Lowering -/

/-- Under two lists of edges the inputs of nodes bring the same, whatever is known of the outputs that
take part. -/
def SameInputs (ρ : String → String) (S : Set String) (links links' : List Link) : Prop :=
  ∀ known : Known, known.Within S → ∀ id ∈ S, ∀ key,
    (known.rename ρ).input? links' ⟨ρ id, key⟩ = known.input? links ⟨id, key⟩

section Lowering

variable {links links' : List Link} {known known' : Known} {n n' : Node}

theorem SameInputs.input? (h : SameInputs ρ S links links') (hn : n.Corresponds ρ S n')
    (hknown : known.Within S) (key : String) :
    Lower.input? links' (known.rename ρ) n' key = Lower.input? links known n key := by
  rw [Lower.input?, Lower.input?, hn.id_eq]
  exact h known hknown n.id hn.mem key

theorem literal_rename (hid : n'.id = ρ n.id) (key value : String) :
    literal n' key value = (literal n key value).rename ρ := by
  rw [literal, literal, hid]
  rfl

theorem textArgument_rename (h : SameInputs ρ S links links') (hn : n.Corresponds ρ S n')
    (hknown : known.Within S) (key value : String) :
    textArgument links' (known.rename ρ) n' key value =
      (textArgument links known n key value).rename ρ := by
  unfold textArgument
  rw [h.input? hn hknown]
  split
  · rfl
  · exact literal_rename hn.id_eq key value

theorem datetime_rename (hid : n'.id = ρ n.id) (useCurrent : Bool) (configured : String) :
    datetime n' useCurrent configured = (datetime n useCurrent configured).rename ρ := by
  unfold datetime
  split
  · rfl
  · split
    · rfl
    · exact literal_rename hid "datetime" configured

theorem condition_rename (h : SameInputs ρ S links links') (hn : n.Corresponds ρ S n')
    (hknown : known.Within S) (c : Conditional) :
    condition links' (known.rename ρ) n' c = condition links known n c := by
  rw [condition, condition, h.input? hn hknown]

/-- What is known after a call, and the call, under new ids. -/
def renameCall (ρ : String → String) (r : Known × Call) : Known × Call := (r.1.rename ρ, r.2.rename ρ)

theorem fetch_rename (hn : n.Corresponds ρ S n') (hknown : known.Within S) (kind : Kind)
    (function : Capability) (stem output : String) (source : Variable → Source)
    {fields fields' : Known → List Field}
    (hfields : ∀ known : Known, known.Within S →
      fields' (known.rename ρ) = (fields known).map (Field.rename ρ)) :
    fetch (known.rename ρ) n' kind function stem output source fields' =
      renameCall ρ (fetch known n kind function stem output source fields) := by
  -- the fields are read when the result is bound
  have hbound := Known.bindOutput_rename hn.id_eq ((known.require function).allocate stem).2 kind
    output (source ((known.require function).allocate stem).1)
  have hwithin : Known.Within S ((known.require function).allocate stem).2 := hknown
  have hread := hfields _ (hwithin.bindOutput hn.mem kind output
    (source ((known.require function).allocate stem).1))
  rw [← hbound] at hread
  simp only [fetch, renameCall, Call.rename, ← hbound, ← hread]
  rfl

theorem order_rename (h : SameInputs ρ S links links') (hn : n.Corresponds ρ S n')
    (hknown : known.Within S) (s : PlaceOrder) :
    order links' (known.rename ρ) n' s =
      ((order links known n s).map (renameCall ρ)).mapError (Halt.rename ρ) := by
  have hrequire : Scope.require (known.rename ρ) .placeOrder =
      Known.rename ρ (known.require .placeOrder) := rfl
  have hwithin : Known.Within S (known.require .placeOrder) := hknown
  simp only [order, hrequire, h.input? hn hwithin, textArgument_rename h hn hwithin,
    datetime_rename hn.id_eq]
  split
  · next entry _ _ =>
    simp only [legs]
    split
    · rfl
    · rfl
  · rfl
  · rfl

/-- An action makes the same call under new ids. -/
theorem action_rename (h : SameInputs ρ S links links') (hn : n.Corresponds ρ S n')
    (hknown : known.Within S) (a : Action) :
    Lower.action links' (known.rename ρ) n' a =
      ((Lower.action links known n a).map (renameCall ρ)).mapError (Halt.rename ρ) := by
  have hliteral := literal_rename hn.id_eq
  cases a with
  | placeOrder s => exact order_rename h hn hknown s
  | fetchShortlist s =>
    refine congrArg Except.ok (fetch_rename hn hknown _ _ _ _ _ fun known hknown => ?_)
    have hmoment := datetime_rename hn.id_eq s.useCurrentTimestamp s.datetime
    simp only [h.input? hn hknown, hliteral, hmoment, List.map_cons, List.map_nil, Field.rename]
    split <;> rfl
  | fetchCandles s =>
    refine congrArg Except.ok (fetch_rename hn hknown _ _ _ _ _ fun known hknown => ?_)
    simp only [textArgument_rename h hn hknown, hliteral, List.map_cons, List.map_nil, Field.rename]
    split <;> rfl
  | fetchQuote s =>
    refine congrArg Except.ok (fetch_rename hn hknown _ _ _ _ _ fun known hknown => ?_)
    simp only [textArgument_rename h hn hknown, List.map_cons, List.map_nil, Field.rename]
  | fetchShortlistPersistence s =>
    refine congrArg Except.ok (fetch_rename hn hknown _ _ _ _ _ fun known hknown => ?_)
    simp only [hliteral, List.map_cons, List.map_nil, Field.rename]
  | fetchDates =>
    exact congrArg Except.ok (fetch_rename hn hknown _ _ _ _ _ fun _ _ => rfl)
  | fetchHolidays =>
    exact congrArg Except.ok (fetch_rename hn hknown _ _ _ _ _ fun _ _ => rfl)

theorem action_within {a : Action} {call : Call} (hn : n.id ∈ S) (hknown : known.Within S)
    (h : Lower.action links known n a = .ok (known', call)) : known'.Within S := by
  cases a with
  | placeOrder s =>
    obtain ⟨-, rfl⟩ := order_eq_ok h
    exact hknown
  | _ =>
    cases h
    exact Known.Within.bindOutput hknown hn _ _ _

/-- A flow only binds outputs of its own nodes. -/
theorem Control.Corresponds.within {flow flow' : Control} {block : Block}
    (h : flow.Corresponds ρ S flow') (hlow : Lowered links flow known known' block)
    (hknown : known.Within S) : known'.Within S := by
  induction h generalizing known known' block with
  | stop =>
    cases hlow
    exact hknown
  | cycle ref => cases hlow
  | unusable _ => cases hlow
  | silent _ _ ih =>
    cases hlow with
    | silent hrest => exact ih hrest hknown
  | action a hn _ ih =>
    cases hlow with
    | action ha hrest => exact ih hrest (action_within hn.mem hknown ha)
  | loop hn _ _ ihbody ihrest =>
    cases hlow with
    | loop hbody hrest =>
      exact ihrest hrest (ihbody hbody (Known.Within.bindOutput hknown hn.mem _ _ _))
  | branch c hn _ _ ihyes ihno =>
    cases hlow with
    | branch hyes hno => exact ihno hno (ihyes hyes hknown)

/-- What is known after a flow, and its block, under new ids. -/
def renameBlock (ρ : String → String) (r : Known × Block) : Known × Block :=
  (r.1.rename ρ, r.2.rename ρ)

/-- What is known after the body of a loop, and the loop, under new ids. -/
def renameLoop (ρ : String → String) (r : Known × Variable × Option Source × Block) :
    Known × Variable × Option Source × Block :=
  (r.1.rename ρ, r.2.1, r.2.2.1, r.2.2.2.rename ρ)

theorem unusable_rename (hn : n.Corresponds ρ S n') :
    Lower.unusable n' = (Lower.unusable n).rename ρ (renameBlock ρ) := by
  have hkind : n'.kind? = n.kind? := by rw [Node.kind?, Node.kind?, hn.config_eq]
  unfold Lower.unusable
  rw [hkind, hn.config_eq, hn.id_eq]
  split
  · exact Run.rename_within (renameBlock ρ) n.id _ (Run.halt (.failed (.unknownKind n.config)))
  · rfl

/-- Flows that correspond are lowered to the same block under new ids, step by step with the same
events under new ids. -/
theorem Control.Corresponds.lower {flow flow' : Control} (h : flow.Corresponds ρ S flow')
    (hinputs : SameInputs ρ S links links') (hknown : known.Within S) :
    TradeFlow.lower links' flow' (known.rename ρ) =
      (TradeFlow.lower links flow known).rename ρ (renameBlock ρ) := by
  induction h generalizing known with
  | stop => rfl
  | cycle ref => rfl
  | unusable hn => exact unusable_rename hn
  | @silent n _ _ _ hn _ ih =>
    rw [TradeFlow.lower, TradeFlow.lower, hn.id_eq]
    refine Run.rename_bind (r := Known.rename ρ) ?_ ?_
    · exact Run.rename_within (Known.rename ρ) n.id _ (pure known)
    · rintro _ ⟨⟩
      exact ih hknown
  | @action n _ a _ _ hn _ ih =>
    rw [TradeFlow.lower, TradeFlow.lower, hn.id_eq]
    refine Run.rename_bind (r := renameCall ρ) ?_ ?_
    · rw [← Run.rename_within]
      refine congrArg _ (Run.rename_bind (r := renameCall ρ) ?_ ?_)
      · rw [action_rename hinputs hn hknown]
        rfl
      · rintro ⟨known₁, call⟩ -
        refine Run.rename_bind (r := id) ?_ fun _ _ => rfl
        exact Run.rename_emit hn.id_eq _ (call.text_rename ρ)
    · rintro ⟨known₁, call⟩ hcall
      rw [Run.result_within, Run.bind_eq_ok] at hcall
      obtain ⟨_, ha, hcall⟩ := hcall
      cases hcall
      exact Run.rename_bind (ih (action_within hn.mem hknown ha)) fun _ _ => rfl
  | @loop n n' _ _ _ _ hn hbody _ ihbody ihrest =>
    have hentered : (known.entered n).Within S := Known.Within.bindOutput hknown hn.mem _ _ _
    have hbound : bindOutput (Scope.allocate (known.rename ρ) "item").2 n' .forEach "item"
        (.symbol (known.allocate "item").1) = (known.entered n).rename ρ :=
      Known.bindOutput_rename hn.id_eq (known.allocate "item").2 _ _ _
    rw [TradeFlow.lower, TradeFlow.lower, hn.id_eq]
    refine Run.rename_bind (r := renameLoop ρ) ?_ ?_
    · rw [← Run.rename_within]
      refine congrArg _ (Run.rename_bind (r := renameBlock ρ) ?_ ?_)
      · exact (congrArg _ hbound).trans (ihbody hentered)
      · rintro ⟨known₁, block⟩ -
        refine Run.rename_bind (r := id) ?_ fun _ _ => ?_
        · refine Run.rename_emit hn.id_eq _ ?_
          rw [hinputs.input? hn hknown]
          exact congrArg _ (block.text_rename ρ)
        · rw [hinputs.input? hn hknown]
          rfl
    · rintro ⟨known₁, item, array, block⟩ hloop
      rw [Run.result_within, Run.bind_eq_ok] at hloop
      obtain ⟨_, hlow, hloop⟩ := hloop
      cases hloop
      have hwithin := hbody.within (lowered_of_lower hlow) hentered
      exact Run.rename_bind (ihrest hwithin) fun _ _ => rfl
  | @branch n _ c _ _ _ _ hn hyes _ ihyes ihno =>
    rw [TradeFlow.lower, TradeFlow.lower, hn.id_eq, condition_rename hinputs hn hknown,
      ← Run.rename_within]
    refine congrArg _ (Run.rename_bind (ihyes hknown) ?_)
    rintro ⟨known₁, yes⟩ hlow
    have hwithin := hyes.within (lowered_of_lower hlow) hknown
    refine Run.rename_bind (ihno hwithin) ?_
    rintro ⟨known₂, no⟩ -
    refine Run.rename_bind (r := id) ?_ fun _ _ => rfl
    refine Run.rename_emit hn.id_eq _ ?_
    simp only [Block.statements_rename]

end Lowering

/-! ## Graphs -/

namespace Graph

/-- Control from the root, and the data that is read on its way, are the same in two graphs up to new
ids. `S` holds the ids of the nodes that are met, `T` the outputs that are followed. -/
structure Corresponds (ρ : String → String) (S : Set String) (T : Set OutputRef) (g g' : Graph) :
    Prop where
  injOn : S.InjOn ρ
  node_mem : ∀ ref ∈ T, ref.node ∈ S
  next? : ∀ ref ∈ T, Option.Rel (Node.Corresponds ρ S) (g.next? ref) (g'.next? (ref.rename ρ))
  follow : ∀ a ∈ T, ∀ b, g.Follow a b → b ∈ T
  inputs : SameInputs ρ S g.links g'.links
  root? : Option.Rel (fun r r' => r.1.Corresponds ρ S r'.1 ∧ r'.2 = r.2) g.root? g'.root?
  start_mem : ∀ root settings, g.root? = some (root, settings) → start root ∈ T

namespace Corresponds

variable {T : Set OutputRef} {g g' : Graph} {active : List OutputRef} {ref : OutputRef} {n : Node}

theorem exists_next? (h : g.Corresponds ρ S T g') (href : ref ∈ T) (hn : g.next? ref = some n) :
    ∃ n', g'.next? (ref.rename ρ) = some n' ∧ n.Corresponds ρ S n' := by
  have hrel := h.next? ref href
  rw [hn] at hrel
  generalize g'.next? (ref.rename ρ) = found at hrel
  cases hrel with
  | some hnode => exact ⟨_, rfl, hnode⟩

theorem next?_eq_none (h : g.Corresponds ρ S T g') (href : ref ∈ T) (hn : g.next? ref = none) :
    g'.next? (ref.rename ρ) = none := by
  have hrel := h.next? ref href
  rw [hn] at hrel
  generalize g'.next? (ref.rename ρ) = found at hrel
  cases hrel
  rfl

/-- The other graph is following an output exactly when this one is. -/
theorem not_mem_map (h : g.Corresponds ρ S T g') (hactive : ∀ a ∈ active, a ∈ T) (href : ref ∈ T)
    (ha : ref ∉ active) : ref.rename ρ ∉ active.map (OutputRef.rename ρ) := by
  rw [List.mem_map]
  rintro ⟨a, hmem, heq⟩
  rw [OutputRef.rename_inj h.injOn (h.node_mem a (hactive a hmem)) (h.node_mem ref href)] at heq
  exact ha (heq ▸ hmem)

/-- Control flow unfolds to flows that correspond. -/
theorem controlFrom (h : g.Corresponds ρ S T g') (hactive : ∀ a ∈ active, a ∈ T) (href : ref ∈ T) :
    (g.controlFrom active ref).Corresponds ρ S
      (g'.controlFrom (active.map (OutputRef.rename ρ)) (ref.rename ρ)) := by
  fun_induction Graph.controlFrom g active ref with
  | case1 active ref ha =>
    rw [Graph.controlFrom, dif_pos (List.mem_map_of_mem ha)]
    exact .cycle ref
  | case2 active ref ha hn =>
    rw [controlFrom_of_next?_eq_none (h.not_mem_map hactive href ha) (h.next?_eq_none href hn)]
    exact .stop
  | case3 active ref ha n hn hr =>
    obtain ⟨n', hn', hnode⟩ := h.exists_next? href hn
    rw [controlFrom_of_next? (h.not_mem_map hactive href ha) hn', hnode.config_eq, hr]
    exact .unusable hnode
  | case4 active ref ha n hn hr ih =>
    obtain ⟨n', hn', hnode⟩ := h.exists_next? href hn
    rw [controlFrom_of_next? (h.not_mem_map hactive href ha) hn', hnode.config_eq, hr, hnode.id_eq]
    have hactive := List.forall_mem_cons.2 ⟨href, hactive⟩
    have hstep := h.follow ref href _ ((follow_iff_of_silent hn hr).2 rfl)
    exact .silent hnode (ih hactive hstep)
  | case5 active ref ha n hn a hr ih =>
    obtain ⟨n', hn', hnode⟩ := h.exists_next? href hn
    rw [controlFrom_of_next? (h.not_mem_map hactive href ha) hn', hnode.config_eq, hr, hnode.id_eq]
    have hactive := List.forall_mem_cons.2 ⟨href, hactive⟩
    have hstep := h.follow ref href _ ((follow_iff_of_action hn hr).2 rfl)
    exact .action a hnode (ih hactive hstep)
  | case6 active ref ha n hn hr body ihbody ihrest =>
    obtain ⟨n', hn', hnode⟩ := h.exists_next? href hn
    rw [controlFrom_of_next? (h.not_mem_map hactive href ha) hn', hnode.config_eq, hr, hnode.id_eq]
    have hactive := List.forall_mem_cons.2 ⟨href, hactive⟩
    have hbody := ihbody hactive (h.follow ref href _ ((follow_iff_of_loop hn hr).2 (.inl rfl)))
    have hrest := ihrest hactive (h.follow ref href _ ((follow_iff_of_loop hn hr).2 (.inr rfl)))
    exact .loop hnode hbody (hbody.behind hrest)
  | case7 active ref ha n hn c hr yes ihyes ihno =>
    obtain ⟨n', hn', hnode⟩ := h.exists_next? href hn
    rw [controlFrom_of_next? (h.not_mem_map hactive href ha) hn', hnode.config_eq, hr, hnode.id_eq]
    have hactive := List.forall_mem_cons.2 ⟨href, hactive⟩
    have hyes := ihyes hactive (h.follow ref href _ ((follow_iff_of_branch hn hr).2 (.inl rfl)))
    have hno := ihno hactive (h.follow ref href _ ((follow_iff_of_branch hn hr).2 (.inr rfl)))
    exact .branch c hnode hyes (hyes.behind hno)

/-- The flows from two roots that correspond become the same program under new ids. -/
theorem lowerFrom (h : g.Corresponds ρ S T g') {root root' : Node}
    (hroot : root.Corresponds ρ S root') (hstart : start root ∈ T) (settings : StrategyConfig) :
    g'.lowerFrom root' settings = (g.lowerFrom root settings).rename ρ (Program.rename ρ) := by
  have hflow : (g.controlFrom [] (start root)).Corresponds ρ S
      (g'.controlFrom [] ((start root).rename ρ)) :=
    h.controlFrom (by simp) hstart
  have hscope : initialScope root' = (initialScope root).rename ρ :=
    Known.bindOutput_rename hroot.id_eq (Scope.empty.require .currentTimestamp) _ _ _
  have hempty : Known.Within S (Scope.empty.require .currentTimestamp) := by
    simp [Known.Within, Scope.require, Scope.empty]
  have hknown : (initialScope root).Within S := hempty.bindOutput hroot.mem _ _ _
  rw [Graph.lowerFrom, Graph.lowerFrom, hscope, start, hroot.id_eq]
  refine Run.rename_bind (hflow.lower h.inputs hknown) ?_
  rintro ⟨known, body⟩ -
  simp only [renameBlock, Block.length_rename]
  split
  · rfl
  · rfl

/-- One compilation is the other one with new ids. -/
theorem compile (h : g.Corresponds ρ S T g') :
    g'.compile.events = g.compile.events.map (Event.rename ρ) ∧
      g'.compile.result = (g.compile.result.map (Program.rename ρ)).mapError (Halt.rename ρ) := by
  have hrel := h.root?
  cases hroot : g.root? with
  | none =>
    rw [hroot] at hrel
    generalize hroot' : g'.root? = found at hrel
    cases hrel
    simp only [Graph.compile, hroot, hroot']
    exact ⟨rfl, rfl⟩
  | some found =>
    obtain ⟨root, settings⟩ := found
    rw [hroot] at hrel
    generalize hroot' : g'.root? = found at hrel
    cases hrel with
    | some hnode =>
      obtain ⟨hnode, hsettings⟩ := hnode
      have hrun := h.lowerFrom hnode (h.start_mem root settings hroot) settings
      simp only [Graph.compile, hroot, hroot', hsettings, hrun]
      exact ⟨rfl, rfl⟩

end Corresponds

/-- Graphs with one root in which control takes the same way and finds the same data have the same
result. -/
theorem compile_eq_of_agree {T : Set OutputRef} {g g' : Graph} (hroot : g'.root? = g.root?)
    (hstart : ∀ root settings, g.root? = some (root, settings) → start root ∈ T)
    (hfollow : ∀ a ∈ T, ∀ b, g.Follow a b → b ∈ T) (hnode : ∀ ref ∈ T, ref.node ∈ S)
    (hnext : ∀ ref ∈ T, g'.next? ref = g.next? ref)
    (hmem : ∀ ref ∈ T, ∀ n, g.next? ref = some n → n.id ∈ S)
    (hinputs : ∀ known : Known, known.Within S → ∀ id ∈ S, ∀ key,
      known.input? g'.links ⟨id, key⟩ = known.input? g.links ⟨id, key⟩) :
    g'.compile.result = g.compile.result := by
  have h : g.Corresponds id S T g' := by
    refine ⟨Set.injOn_id S, hnode, fun ref href => ?_, hfollow, fun known hknown x hx key => ?_, ?_,
      hstart⟩
    · have hsame : g'.next? (ref.rename id) = g.next? ref := hnext ref href
      rw [hsame]
      cases hn : g.next? ref with
      | none => exact .none
      | some n => exact .some ⟨hmem ref href n hn, rfl, rfl⟩
    · rw [Known.rename_id]
      exact hinputs known hknown x hx key
    · rw [hroot]
      cases hr : g.root? with
      | none => exact .none
      | some found => exact .some ⟨⟨hnode _ (hstart found.1 found.2 hr), rfl, rfl⟩, rfl⟩
  rw [h.compile.2]
  cases g.compile.result with
  | ok p => simp [Except.map, Except.mapError]
  | error halt => simp [Except.map, Except.mapError]

end Graph

end TradeFlow
