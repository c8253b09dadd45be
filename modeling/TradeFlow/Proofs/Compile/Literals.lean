import TradeFlow.Proofs.Compile.Edited
import TradeFlow.Proofs.Program.Segments

/-!
Settings that a program shows as literals.

Two graphs are alike when they only differ in the texts that a program shows as literals, and agree on
whether the optional ones of these are given. They are compiled side by side. What is proved:

1. `Graph.Alike.controlFrom`: control flow unfolds alike, since it never looks at a text.
2. `Lower.action_alike`: the calls of an action differ in the values of literals only.
3. `Control.Alike.lower`: flows that are alike are lowered to blocks that are alike, and the events of
   the two runs are the same.
4. `Graph.literals_confined`: the two compilations end in the same way, and their programs are the same
   segments, filled with the texts of the one and of the other graph.
-/

namespace TradeFlow

open Lower

/-! ## Texts of settings -/

/-- The texts of strategy settings that are shown as literals, without the tags. -/
def StrategyConfig.texts (s : StrategyConfig) : List (String × String) :=
  [("startTime", s.startTime), ("endTime", s.endTime), ("strategyName", s.strategyName)]

/-- The texts of the settings of a node that are shown as literals. The field and the operator of a
condition and the price mode of an order are not. -/
def Settings.texts : Settings → List (String × String)
  | .fetchShortlist s => [("shortlistType", s.shortlistType), ("datetime", s.datetime)]
  | .fetchShortlistPersistence s =>
    [("shortlistType", s.shortlistType), ("startDatetime", s.startDatetime),
      ("endDatetime", s.endDatetime)]
  | .fetchCandles s =>
    [("symbol", s.symbol), ("interval", s.interval), ("startDatetime", s.startDatetime),
      ("endDatetime", s.endDatetime)]
  | .fetchQuote s => [("symbol", s.symbol)]
  | .placeOrder s => [("nseSymbol", s.nseSymbol), ("datetime", s.datetime)]
  | _ => []

/-- Only sealed settings are shown. -/
def NodeConfig.texts : NodeConfig → List (String × String)
  | .sealed s => s.texts
  | _ => []

/-- The text of a setting of a graph: the root has the settings of the strategy. -/
def Graph.setting? (g : Graph) : Values
  | .strategy key => g.root?.bind fun (_, s) => s.texts.lookup key
  | .tag i => g.root?.bind fun (_, s) => s.tags[i]?
  | .node id key => (g.node? id).bind fun n => n.config.texts.lookup key

/-! ## Graphs that only differ in texts -/

/-- Settings that only differ in the texts of literals, and agree on whether a datetime that may be
missing is given. -/
inductive Settings.Alike : Settings → Settings → Prop where
  | strategyConfig {s s' : StrategyConfig} (h : s.Alike s') :
      Alike (.strategyConfig s) (.strategyConfig s')
  | fetchShortlist {s s' : FetchShortlist} (huse : s.useCurrentTimestamp = s'.useCurrentTimestamp)
      (hgiven : s.datetime = "" ↔ s'.datetime = "") : Alike (.fetchShortlist s) (.fetchShortlist s')
  | fetchShortlistPersistence (s s' : FetchShortlistPersistence) :
      Alike (.fetchShortlistPersistence s) (.fetchShortlistPersistence s')
  | fetchCandles {s s' : FetchCandles}
      (huse : s.useCurrentTimestampAsEnd = s'.useCurrentTimestampAsEnd) :
      Alike (.fetchCandles s) (.fetchCandles s')
  | fetchQuote (s s' : FetchQuote) : Alike (.fetchQuote s) (.fetchQuote s')
  | fetchDates : Alike .fetchDates .fetchDates
  | fetchHolidays : Alike .fetchHolidays .fetchHolidays
  -- the prices, the percentages and the price mode are the same
  | placeOrder (s : PlaceOrder) (nseSymbol : String) {datetime : String}
      (hgiven : s.datetime = "" ↔ datetime = "") :
      Alike (.placeOrder s) (.placeOrder { s with nseSymbol, datetime })
  | forEach : Alike .forEach .forEach
  | conditional (c : Conditional) : Alike (.conditional c) (.conditional c)

inductive NodeConfig.Alike : NodeConfig → NodeConfig → Prop where
  | bare : Alike .bare .bare
  | draft {s s' : Settings} (h : s.Alike s') : Alike (.draft s) (.draft s')
  | sealed {s s' : Settings} (h : s.Alike s') : Alike (.sealed s) (.sealed s')

/-- Nodes with one id whose settings are alike. Positions play no part. -/
structure Node.Alike (n n' : Node) : Prop where
  id : n.id = n'.id
  config : n.config.Alike n'.config

/-- Graphs with the same connections whose nodes are alike. -/
structure Graph.Alike (g g' : Graph) : Prop where
  nodes : List.Forall₂ Node.Alike g.nodes g'.nodes
  connections : g.connections = g'.connections

theorem Settings.Alike.kind_eq {s s' : Settings} (h : s.Alike s') : s.kind = s'.kind := by
  cases h <;> rfl

theorem NodeConfig.Alike.kind?_eq {c c' : NodeConfig} (h : c.Alike c') : c.kind? = c'.kind? := by
  cases h with
  | bare => rfl
  | draft h => rw [kind?, kind?, h.kind_eq]
  | sealed h => rw [kind?, kind?, h.kind_eq]

theorem NodeConfig.Alike.typeName_eq {c c' : NodeConfig} (h : c.Alike c') :
    c.typeName = c'.typeName := by
  cases h with
  | bare => rfl
  | draft h => rw [typeName, typeName, h.kind_eq]
  | sealed h => rw [typeName, typeName, h.kind_eq]

/-! ## Runs that are alike -/

/-- Errors that say the same. An error about settings only names their type. -/
inductive CompileError.Same : CompileError → CompileError → Prop where
  | refl (e : CompileError) : Same e e
  | unknownKind {c c' : NodeConfig} (h : c.typeName = c'.typeName) :
      Same (.unknownKind c) (.unknownKind c')

inductive Halt.Same : Halt → Halt → Prop where
  | failed {e e' : CompileError} (h : e.Same e') : Same (.failed e) (.failed e')
  | aborted : Same .aborted .aborted

inductive Event.Same : Event → Event → Prop where
  | refl (e : Event) : Same e e
  | closed {e e' : CompileError} (h : e.Same e') : Same (.closed (some e)) (.closed (some e'))

theorem CompileError.Same.message_eq {e e' : CompileError} (h : e.Same e') :
    e.message = e'.message := by
  cases h with
  | refl => rfl
  | unknownKind h => exact congrArg ("unknown node kind: " ++ ·) h

theorem Halt.Same.message_eq {halt halt' : Halt} (h : halt.Same halt') :
    halt.error?.map CompileError.message = halt'.error?.map CompileError.message := by
  cases h with
  | failed he => rw [error?, error?, Option.map_some, Option.map_some, he.message_eq]
  | aborted => rfl

/-- Two ends of a computation: results that are related, or the same stop. -/
inductive SameEnd {α : Type} (R : α → α → Prop) : Except Halt α → Except Halt α → Prop where
  | ok {a a' : α} (h : R a a') : SameEnd R (.ok a) (.ok a')
  | error {halt halt' : Halt} (h : halt.Same halt') : SameEnd R (.error halt) (.error halt')

/-- Two runs with the same events and the same end. -/
structure Run.Alike {α : Type} (R : α → α → Prop) (x x' : Run α) : Prop where
  events : List.Forall₂ Event.Same x.events x'.events
  result : SameEnd R x.result x'.result

namespace Run.Alike

variable {α β : Type} {R : α → α → Prop} {S : β → β → Prop} {x x' : Run α} {f f' : α → Run β}

theorem pure {a a' : α} (h : R a a') : Run.Alike R (Pure.pure a : Run α) (Pure.pure a') :=
  ⟨.nil, .ok h⟩

theorem halt {h h' : Halt} (hh : h.Same h') : Run.Alike R (Run.halt h) (Run.halt h') :=
  ⟨.nil, .error hh⟩

theorem bind (h : Run.Alike R x x') (hf : ∀ a a', R a a' → Run.Alike S (f a) (f' a')) :
    Run.Alike S (x >>= f) (x' >>= f') := by
  obtain ⟨events, result⟩ := x
  obtain ⟨events', result'⟩ := x'
  obtain ⟨hevents, hresult⟩ := h
  cases hresult with
  | ok ha => exact ⟨List.rel_append hevents (hf _ _ ha).events, (hf _ _ ha).result⟩
  | error hh => exact ⟨hevents, .error hh⟩

theorem within (node : String) (kind : Kind) (h : Run.Alike R x x') :
    Run.Alike R (Run.within node kind x) (Run.within node kind x') := by
  obtain ⟨events, result⟩ := x
  obtain ⟨events', result'⟩ := x'
  obtain ⟨hevents, hresult⟩ := h
  refine ⟨.cons (.refl _) (List.rel_append hevents (.cons ?_ .nil)), hresult⟩
  cases hresult with
  | ok _ => exact .refl _
  | error hh =>
    cases hh with
    | failed he => exact .closed he
    -- an abrupt stop closes without an error
    | aborted => exact .refl _

/-- Texts that are aligned are reported alike, since they have as many lines. -/
theorem emit {v v' : Values} {n n' : Node} (hid : n.id = n'.id) (kind : Kind) {code code' : String}
    (h : Aligned v v' code code') : Run.Alike Eq (Lower.emit n kind code) (Lower.emit n' kind code') := by
  refine ⟨.cons ?_ .nil, .ok rfl⟩
  rw [hid, h.lineCount_eq]
  exact .refl _

end Run.Alike

/-! ## Control flow -/

/-- Roles of alike settings. -/
inductive Role.Alike : Role → Role → Prop where
  | silent : Alike .silent .silent
  | action (a a' : Action) (h : actionKind a = actionKind a') : Alike (.action a) (.action a')
  | loop : Alike .loop .loop
  | branch (c : Conditional) : Alike (.branch c) (.branch c)
  | unusable : Alike .unusable .unusable

theorem NodeConfig.Alike.role {c c' : NodeConfig} (h : c.Alike c') : c.role.Alike c'.role := by
  cases h with
  | bare => exact .unusable
  | draft => exact .unusable
  | sealed h =>
    cases h with
    | strategyConfig => exact .silent
    | forEach => exact .loop
    | conditional c => exact .branch c
    | _ => exact .action _ _ rfl

section Flows

variable (v v' : Values)

/-- Nodes that are alike, each with the texts of its settings. -/
structure Node.Matched (n n' : Node) : Prop where
  alike : n.Alike n'
  left : ∀ key, v (.node n.id key) = n.config.texts.lookup key
  right : ∀ key, v' (.node n'.id key) = n'.config.texts.lookup key

/-- Flows of one form through nodes that are alike. -/
inductive Control.Alike : Control → Control → Prop where
  | stop : Alike .stop .stop
  | cycle (ref : OutputRef) : Alike (.cycle ref) (.cycle ref)
  | unusable {n n' : Node} (hn : n.Alike n') : Alike (.unusable n) (.unusable n')
  | silent {n n' : Node} {rest rest' : Control} (hn : n.Alike n') (h : Alike rest rest') :
      Alike (.silent n rest) (.silent n' rest')
  | action {n n' : Node} {a a' : Action} {rest rest' : Control} (hn : n.Matched v v' n')
      (hr : n.config.role = .action a) (hr' : n'.config.role = .action a')
      (h : Alike rest rest') : Alike (.action n a rest) (.action n' a' rest')
  | loop {n n' : Node} {body body' rest rest' : Control} (hn : n.Alike n')
      (hbody : Alike body body') (h : Alike rest rest') :
      Alike (.loop n body rest) (.loop n' body' rest')
  | branch {n n' : Node} (c : Conditional) {yes yes' no no' : Control} (hn : n.Alike n')
      (hyes : Alike yes yes') (hno : Alike no no') :
      Alike (.branch n c yes no) (.branch n' c yes' no')

end Flows

variable {v v' : Values} {links : List Link} {n n' : Node} {known : Known}

theorem Control.Alike.isComplete_eq {flow flow' : Control} (h : flow.Alike v v' flow') :
    flow.isComplete = flow'.isComplete := by
  induction h with
  | stop => rfl
  | cycle ref => rfl
  | unusable _ => rfl
  | silent _ _ ih => exact ih
  | action _ _ _ _ ih => exact ih
  | loop _ _ _ ihbody ihrest => rw [isComplete, isComplete, ihbody, ihrest]
  | branch _ _ _ _ ihyes ihno => rw [isComplete, isComplete, ihyes, ihno]

namespace Graph

variable {g g' : Graph} {active : List OutputRef} {ref : OutputRef}

theorem Alike.node? (h : g.Alike g') (id : String) :
    Option.Rel Node.Alike (g.node? id) (g'.node? id) := by
  obtain ⟨nodes, connections⟩ := g
  obtain ⟨nodes', connections'⟩ := g'
  have hnodes : List.Forall₂ Node.Alike nodes nodes' := h.nodes
  simp only [Graph.node?]
  clear h
  induction hnodes with
  | nil => exact .none
  | cons hn _ ih =>
    rw [List.find?_cons, List.find?_cons, hn.id]
    split
    · exact .some hn
    · exact ih

/-- Alike graphs have alike roots. -/
theorem Alike.root? (h : g.Alike g') :
    Option.Rel (fun r r' => r.1.Alike r'.1 ∧ r.2.Alike r'.2) g.root? g'.root? := by
  obtain ⟨nodes, connections⟩ := g
  obtain ⟨nodes', connections'⟩ := g'
  have hnodes : List.Forall₂ Node.Alike nodes nodes' := h.nodes
  simp only [Graph.root?]
  clear h
  induction hnodes with
  | nil => exact .none
  | @cons n n' _ _ hn _ ih =>
    obtain ⟨id, position, config⟩ := n
    obtain ⟨id', position', config'⟩ := n'
    rw [List.findSome?_cons, List.findSome?_cons]
    cases hn.config with
    | bare => exact ih
    | draft => exact ih
    | sealed hs =>
      cases hs with
      -- the search ends at the same place
      | strategyConfig hs => exact .some ⟨hn, hs⟩
      | _ => exact ih

theorem Alike.next? (h : g.Alike g') (ref : OutputRef) :
    Option.Rel Node.Alike (g.next? ref) (g'.next? ref) := by
  rw [Graph.next?, Graph.next?, leaving?, leaving?, h.connections]
  cases g'.connections.find? (·.tail == ref) with
  | none => exact .none
  | some c => exact h.node? c.target

/-- A node that control reaches is the first one with its id. -/
theorem setting?_of_next? (hn : g.next? ref = some n) (key : String) :
    g.setting? (.node n.id key) = n.config.texts.lookup key := by
  rw [setting?, node?_of_next? hn]
  rfl

/-- Where control reaches a node, it reaches an alike node with an alike role in the other graph. -/
theorem Alike.exists_matched (h : g.Alike g') (hn : g.next? ref = some n) {role : Role}
    (hr : n.config.role = role) :
    ∃ n' role', g'.next? ref = some n' ∧ n'.config.role = role' ∧ role.Alike role' ∧
      n.Matched g.setting? g'.setting? n' := by
  have hrel := h.next? ref
  rw [hn] at hrel
  generalize hn' : g'.next? ref = found at hrel
  cases hrel with
  | some hnode =>
    exact ⟨_, _, rfl, rfl, hr ▸ hnode.config.role, hnode, setting?_of_next? hn, setting?_of_next? hn'⟩

theorem Alike.next?_eq_none (h : g.Alike g') (hn : g.next? ref = none) : g'.next? ref = none := by
  have hrel := h.next? ref
  rw [hn] at hrel
  generalize g'.next? ref = found at hrel
  cases hrel
  rfl

/-- Control flow never looks at a text. -/
theorem Alike.controlFrom (h : g.Alike g') (active : List OutputRef) (ref : OutputRef) :
    (g.controlFrom active ref).Alike g.setting? g'.setting? (g'.controlFrom active ref) := by
  fun_induction Graph.controlFrom g active ref with
  | case1 active ref ha =>
    rw [Graph.controlFrom, dif_pos ha]
    exact .cycle ref
  | case2 active ref ha hn =>
    rw [controlFrom_of_next?_eq_none ha (h.next?_eq_none hn)]
    exact .stop
  | case3 active ref ha n hn hr =>
    obtain ⟨n', _, hn', hr', hrole, hnode⟩ := h.exists_matched hn hr
    cases hrole
    rw [controlFrom_of_next? ha hn', hr']
    exact .unusable hnode.alike
  | case4 active ref ha n hn hr ih =>
    obtain ⟨n', _, hn', hr', hrole, hnode⟩ := h.exists_matched hn hr
    cases hrole
    rw [controlFrom_of_next? ha hn', hr', ← hnode.alike.id]
    exact .silent hnode.alike ih
  | case5 active ref ha n hn a hr ih =>
    obtain ⟨n', _, hn', hr', hrole, hnode⟩ := h.exists_matched hn hr
    cases hrole
    rw [controlFrom_of_next? ha hn', hr', ← hnode.alike.id]
    exact .action hnode hr hr' ih
  | case6 active ref ha n hn hr body ihbody ihrest =>
    obtain ⟨n', _, hn', hr', hrole, hnode⟩ := h.exists_matched hn hr
    cases hrole
    rw [controlFrom_of_next? ha hn', hr', ← hnode.alike.id]
    refine .loop hnode.alike ihbody ?_
    -- what follows is unfolded behind both bodies or behind none
    rw [← ihbody.isComplete_eq]
    split
    · exact ihrest
    · exact .stop
  | case7 active ref ha n hn c hr yes ihyes ihno =>
    obtain ⟨n', _, hn', hr', hrole, hnode⟩ := h.exists_matched hn hr
    cases hrole
    rw [controlFrom_of_next? ha hn', hr', ← hnode.alike.id]
    refine .branch c hnode.alike ihyes ?_
    rw [← ihyes.isComplete_eq]
    split
    · exact ihno
    · exact .stop

end Graph

/-! ## Lowering -/

namespace Lower

section Actions

variable {key value value' : String}

theorem input?_eq (hid : n.id = n'.id) (links : List Link) (known : Known) (input : String) :
    input? links known n input = input? links known n' input := by
  rw [input?, input?, hid]

theorem literal_alike (hid : n.id = n'.id) (hv : v (.node n.id key) = some value)
    (hv' : v' (.node n'.id key) = some value') :
    (literal n key value).Alike v v' (literal n' key value') :=
  .literal ⟨by rw [hid], hv, hv'⟩

theorem textArgument_alike (hid : n.id = n'.id) (hv : v (.node n.id key) = some value)
    (hv' : v' (.node n'.id key) = some value') :
    (textArgument links known n key value).Alike v v' (textArgument links known n' key value') := by
  unfold textArgument
  rw [input?_eq hid]
  split
  · exact .same _
  · exact literal_alike hid hv hv'

theorem datetime_alike (hid : n.id = n'.id) (useCurrent : Bool)
    (hgiven : value = "" ↔ value' = "") (hv : v (.node n.id "datetime") = some value)
    (hv' : v' (.node n'.id "datetime") = some value') :
    (datetime n useCurrent value).Alike v v' (datetime n' useCurrent value') := by
  unfold datetime
  by_cases hempty : value = ""
  · rw [if_pos hempty, if_pos (hgiven.1 hempty)]
    split <;> exact .same _
  · rw [if_neg hempty, if_neg (mt hgiven.2 hempty)]
    split
    · exact .same _
    · exact literal_alike hid hv hv'

end Actions

theorem bindOutput_eq (hid : n.id = n'.id) (known : Known) (kind : Kind) (output : String)
    (source : Source) : bindOutput known n kind output source =
      bindOutput known n' kind output source := by
  rw [bindOutput, bindOutput, hid]

theorem condition_eq (hid : n.id = n'.id) (links : List Link) (known : Known) (c : Conditional) :
    condition links known n c = condition links known n' c := by
  rw [condition, condition, input?_eq hid]

/-- The same is known after two actions, and their calls are alike. -/
def SameCall (v v' : Values) (r r' : Known × Call) : Prop := r.1 = r'.1 ∧ r.2.Alike v v' r'.2

theorem fetch_alike (hid : n.id = n'.id) (kind : Kind) (function : Capability) (stem output : String)
    (source : Variable → Source) {fields fields' : Known → List Field}
    (h : ∀ known, List.Forall₂ (Field.Alike v v') (fields known) (fields' known)) :
    SameCall v v' (fetch known n kind function stem output source fields)
      (fetch known n' kind function stem output source fields') := by
  refine ⟨bindOutput_eq hid _ _ _ _, rfl, rfl, rfl, ?_⟩
  simp only [fetch, bindOutput_eq hid]
  exact h _

theorem orderFields_alike {symbol symbol' moment moment' : Argument}
    (hsymbol : symbol.Alike v v' symbol') (hmoment : moment.Alike v v' moment') (entry : Field)
    (stop profit : Argument) :
    List.Forall₂ (Field.Alike v v')
      [{ name := "nseSymbol", value := symbol }, entry, { name := "stopLossPrice", value := stop },
        { name := "takeProfitPrice", value := profit }, { name := "datetime", value := moment }]
      [{ name := "nseSymbol", value := symbol' }, entry, { name := "stopLossPrice", value := stop },
        { name := "takeProfitPrice", value := profit }, { name := "datetime", value := moment' }] :=
  .cons ⟨rfl, rfl, hsymbol⟩ (.cons (.refl entry) (.cons (.refl _) (.cons (.refl _)
    (.cons ⟨rfl, rfl, hmoment⟩ .nil))))

/-- The form of an order depends on its prices and on what is connected, not on a text. -/
theorem order_alike {s : PlaceOrder} {nseSymbol moment : String} (hid : n.id = n'.id)
    (hgiven : s.datetime = "" ↔ moment = "")
    (hsymbol : v (.node n.id "nseSymbol") = some s.nseSymbol)
    (hsymbol' : v' (.node n'.id "nseSymbol") = some nseSymbol)
    (hmoment : v (.node n.id "datetime") = some s.datetime)
    (hmoment' : v' (.node n'.id "datetime") = some moment) :
    SameEnd (SameCall v v') (order links known n s)
      (order links known n' { s with nseSymbol, datetime := moment }) := by
  have hs : (textArgument links (known.require .placeOrder) n "nseSymbol" s.nseSymbol).Alike v v'
      (textArgument links (known.require .placeOrder) n' "nseSymbol" nseSymbol) :=
    textArgument_alike hid hsymbol hsymbol'
  have hm := datetime_alike hid s.useCurrentTimestamp hgiven hmoment hmoment'
  have hfields := orderFields_alike hs hm
  simp only [order, legs, input?_eq hid]
  split
  · split
    · exact .ok ⟨rfl, rfl, rfl, rfl, hfields _ _ _⟩
    · exact .error .aborted
  · exact .ok ⟨rfl, rfl, rfl, rfl, hfields _ _ _⟩
  · exact .ok ⟨rfl, rfl, rfl, rfl, hfields _ _ _⟩

/-- The calls of an action differ in the values of literals only. -/
theorem action_alike {a a' : Action} (hn : n.Matched v v' n') (hr : n.config.role = .action a)
    (hr' : n'.config.role = .action a') :
    SameEnd (SameCall v v') (Lower.action links known n a) (Lower.action links known n' a') := by
  obtain ⟨id, position, config⟩ := n
  obtain ⟨id', position', config'⟩ := n'
  obtain ⟨⟨hid, hconfig⟩, hv, hv'⟩ := hn
  cases hconfig with
  | bare => cases hr
  | draft _ => cases hr
  | sealed h =>
    cases h with
    | strategyConfig _ => cases hr
    | forEach => cases hr
    | conditional _ => cases hr
    | fetchDates =>
      cases hr
      cases hr'
      exact .ok (fetch_alike hid _ _ _ _ _ fun _ => .nil)
    | fetchHolidays =>
      cases hr
      cases hr'
      exact .ok (fetch_alike hid _ _ _ _ _ fun _ => .nil)
    | fetchShortlist huse hgiven =>
      cases hr
      cases hr'
      refine .ok (fetch_alike hid _ _ _ _ _ fun known => ?_)
      refine .cons ⟨rfl, rfl, literal_alike hid (hv _) (hv' _)⟩ (.cons ⟨rfl, rfl, ?_⟩ .nil)
      -- a connected datetime comes before the one from the settings
      dsimp only
      rw [input?_eq hid, huse]
      split
      · exact .same _
      · exact datetime_alike hid _ hgiven (hv _) (hv' _)
    | fetchShortlistPersistence s s' =>
      cases hr
      cases hr'
      refine .ok (fetch_alike hid _ _ _ _ _ fun known => ?_)
      exact .cons ⟨rfl, rfl, literal_alike hid (hv _) (hv' _)⟩
        (.cons ⟨rfl, rfl, literal_alike hid (hv _) (hv' _)⟩
          (.cons ⟨rfl, rfl, literal_alike hid (hv _) (hv' _)⟩ .nil))
    | fetchCandles huse =>
      cases hr
      cases hr'
      refine .ok (fetch_alike hid _ _ _ _ _ fun known => ?_)
      refine .cons ⟨rfl, rfl, textArgument_alike hid (hv _) (hv' _)⟩
        (.cons ⟨rfl, rfl, literal_alike hid (hv _) (hv' _)⟩
          (.cons ⟨rfl, rfl, literal_alike hid (hv _) (hv' _)⟩ (.cons ⟨rfl, rfl, ?_⟩ .nil)))
      dsimp only
      rw [huse]
      split
      · exact .same _
      · exact literal_alike hid (hv _) (hv' _)
    | fetchQuote s s' =>
      cases hr
      cases hr'
      refine .ok (fetch_alike hid _ _ _ _ _ fun known => ?_)
      exact .cons ⟨rfl, rfl, textArgument_alike hid (hv _) (hv' _)⟩ .nil
    | placeOrder s nseSymbol hgiven =>
      cases hr
      cases hr'
      exact order_alike hid hgiven (hv _) (hv' _) (hv _) (hv' _)

/-- The same is known after two flows, and their blocks are alike. -/
def SameBlock (v v' : Values) (r r' : Known × Block) : Prop := r.1 = r'.1 ∧ r.2.Alike v v' r'.2

/-- The same is known after the bodies of two loops, and only the bodies may differ. -/
def SameLoop (v v' : Values) (r r' : Known × Variable × Option Source × Block) : Prop :=
  r.1 = r'.1 ∧ r.2.1 = r'.2.1 ∧ r.2.2.1 = r'.2.2.1 ∧ r.2.2.2.Alike v v' r'.2.2.2

theorem unusable_alike (hn : n.Alike n') :
    Run.Alike (SameBlock v v') (Lower.unusable n) (Lower.unusable n') := by
  unfold Lower.unusable
  rw [Node.kind?, Node.kind?, hn.config.kind?_eq, hn.id]
  split
  · exact .within _ _ (.halt (.failed (.unknownKind hn.config.typeName_eq)))
  · exact .halt .aborted

theorem actionKind_eq {a a' : Action} (hn : n.Alike n') (hr : n.config.role = .action a)
    (hr' : n'.config.role = .action a') : actionKind a = actionKind a' := by
  have hrole := hn.config.role
  rw [hr, hr'] at hrole
  cases hrole with
  | action _ _ h => exact h

end Lower

/-- Flows that are alike are lowered to blocks that are alike, step by step with the same events. -/
theorem Control.Alike.lower {flow flow' : Control} (h : flow.Alike v v' flow') (known : Known) :
    Run.Alike (SameBlock v v') (lower links flow known) (lower links flow' known) := by
  induction h generalizing known with
  | stop => exact .pure ⟨rfl, .nil⟩
  | cycle ref => exact .halt (.failed (.refl _))
  | unusable hn => exact unusable_alike hn
  | silent hn _ ih =>
    rw [TradeFlow.lower, TradeFlow.lower, hn.id]
    refine .bind (R := Eq) (.within _ _ (.pure rfl)) ?_
    rintro known _ rfl
    exact ih known
  | action hn hr hr' _ ih =>
    rw [TradeFlow.lower, TradeFlow.lower, hn.alike.id, actionKind_eq hn.alike hr hr']
    refine .bind (R := SameCall v v') (.within _ _ ?_) ?_
    · refine .bind ⟨.nil, action_alike hn hr hr'⟩ ?_
      rintro ⟨known, call⟩ ⟨_, call'⟩ ⟨rfl, hcall⟩
      exact .bind (.emit hn.alike.id _ hcall.text) fun _ _ _ => .pure ⟨rfl, hcall⟩
    · rintro ⟨known, call⟩ ⟨_, call'⟩ ⟨rfl, hcall⟩
      refine .bind (ih known) ?_
      rintro ⟨known, block⟩ ⟨_, block'⟩ ⟨rfl, hblock⟩
      exact .pure ⟨rfl, .call hcall hblock⟩
  | @loop n n' body body' rest rest' hn _ _ ihbody ihrest =>
    rw [TradeFlow.lower, TradeFlow.lower, hn.id]
    refine .bind (R := SameLoop v v') (.within _ _ ?_) ?_
    · dsimp only
      rw [input?_eq hn.id, bindOutput_eq hn.id]
      refine .bind (ihbody _) ?_
      rintro ⟨known, block⟩ ⟨_, block'⟩ ⟨rfl, hblock⟩
      exact .bind (.emit hn.id _ (aligned_loopText _ _ hblock.text)) fun _ _ _ =>
        .pure ⟨rfl, rfl, rfl, hblock⟩
    · rintro ⟨known, item, array, bodyBlock⟩ ⟨_, _, _, bodyBlock'⟩ ⟨rfl, rfl, rfl, hbody⟩
      refine .bind (ihrest known) ?_
      rintro ⟨known, block⟩ ⟨_, block'⟩ ⟨rfl, hblock⟩
      exact .pure ⟨rfl, .loop item array hbody hblock⟩
  | branch c hn _ _ ihyes ihno =>
    rw [TradeFlow.lower, TradeFlow.lower, hn.id, condition_eq hn.id]
    refine .within _ _ (.bind (ihyes known) ?_)
    rintro ⟨known, yes⟩ ⟨_, yes'⟩ ⟨rfl, hyes⟩
    refine .bind (ihno known) ?_
    rintro ⟨known, no⟩ ⟨_, no'⟩ ⟨rfl, hno⟩
    exact .bind (.emit hn.id _ (aligned_branchText _ hyes.statements hno.statements)) fun _ _ _ =>
      .pure ⟨rfl, .branch _ hyes hno⟩

/-! ## Programs -/

/-- Programs whose texts are aligned and that agree on everything else that is reported of them. -/
structure Program.Alike (v v' : Values) (p p' : Program) : Prop where
  capabilities : p.capabilities = p'.capabilities
  body : p.body.Alike v v' p'.body
  closing : Aligned v v' (closing p.settings) (closing p'.settings)

theorem Program.Alike.source {p p' : Program} (h : p.Alike v v' p') :
    Aligned v v' p.source p'.source := by
  rw [Program.source, Program.source, h.capabilities]
  exact (aligned_opening _ h.body.text).append h.closing

namespace Graph

variable {g g' : Graph}

/-- The root gives the settings of the strategy their values. -/
theorem shown_of_root? {root : Node} {settings : StrategyConfig} (h : g.root? = some (root, settings)) :
    settings.Shown g.setting? := by
  constructor
  all_goals (intros; rw [setting?, h]; rfl)

theorem Alike.lowerFrom {root root' : Node} {settings settings' : StrategyConfig} (h : g.Alike g')
    (hroot : g.root? = some (root, settings)) (hroot' : g'.root? = some (root', settings'))
    (hid : root.id = root'.id) (hsettings : settings.Alike settings') :
    Run.Alike (Program.Alike g.setting? g'.setting?) (g.lowerFrom root settings)
      (g'.lowerFrom root' settings') := by
  have hflow := h.controlFrom [] (start root)
  have hclosing := Program.aligned_closing hsettings (shown_of_root? hroot) (shown_of_root? hroot')
  have hscope : initialScope root = initialScope root' := bindOutput_eq hid _ _ _ _
  have hstart : start root = start root' := by rw [start, start, hid]
  rw [Graph.lowerFrom, Graph.lowerFrom, ← h.connections, ← hscope, ← hstart]
  refine .bind (hflow.lower _) ?_
  rintro ⟨known, body⟩ ⟨_, body'⟩ ⟨rfl, hbody⟩
  dsimp only
  -- whether there is a program depends on the number of statements only
  rw [hbody.length_eq]
  split
  · exact .halt (.failed (.refl _))
  · exact .pure ⟨rfl, hbody, hclosing⟩

/-- Alike graphs are compiled with the same events, to the same error or to alike programs. -/
theorem Alike.compile (h : g.Alike g') :
    List.Forall₂ Event.Same g.compile.events g'.compile.events ∧
      SameEnd (Program.Alike g.setting? g'.setting?) g.compile.result g'.compile.result := by
  have hrel := h.root?
  generalize hroot : g.root? = found at hrel
  generalize hroot' : g'.root? = found' at hrel
  cases hrel with
  | none =>
    simp only [Graph.compile, hroot, hroot']
    exact ⟨.nil, .error (.failed (.refl _))⟩
  | @some r r' hr =>
    obtain ⟨root, settings⟩ := r
    obtain ⟨root', settings'⟩ := r'
    have hrun := h.lowerFrom hroot hroot' hr.1.id hr.2
    simp only [Graph.compile, hroot, hroot']
    exact ⟨hrun.events, hrun.result⟩

/-- The texts that literals show do not leave their places: graphs that only differ in them are
compiled with the same events, to the same stop or to programs with the same text around the places of
settings. -/
theorem literals_confined (h : g.Alike g') :
    List.Forall₂ Event.Same g.compile.events g'.compile.events ∧
    ((∃ halt halt', g.compile.result = .error halt ∧ g'.compile.result = .error halt' ∧
        halt.Same halt' ∧
        halt.error?.map CompileError.message = halt'.error?.map CompileError.message) ∨
      ∃ p p' segments, g.compile.result = .ok p ∧ g'.compile.result = .ok p' ∧
        p.capabilities = p'.capabilities ∧ p.statements = p'.statements ∧ p.emitted = p'.emitted ∧
        (∀ ref, .setting ref ∈ segments → (g.setting? ref).isSome ∧ (g'.setting? ref).isSome) ∧
        p.source = fill g.setting? segments ∧ p'.source = fill g'.setting? segments) := by
  obtain ⟨hevents, hend⟩ := h.compile
  refine ⟨hevents, ?_⟩
  generalize g.compile.result = result at hend ⊢
  generalize g'.compile.result = result' at hend ⊢
  cases hend with
  | error hhalt => exact .inl ⟨_, _, rfl, rfl, hhalt, hhalt.message_eq⟩
  | ok hp =>
    obtain ⟨segments, hsome, hsource, hsource'⟩ := hp.source.exists_segments
    exact .inr ⟨_, _, segments, rfl, rfl, hp.capabilities, hp.body.length_eq, hp.body.size_eq, hsome,
      hsource, hsource'⟩

/-- An order at a set time, in a strategy with a name and a tag. -/
def namedOrder (name tag symbol moment : String) : Graph where
  nodes :=
    [⟨"s", ⟨0, 0⟩, .sealed (.strategyConfig ⟨"09:15", "15:30", 5, name, [tag]⟩)⟩,
      ⟨"o", ⟨0, 0⟩, .sealed (.placeOrder ⟨symbol, 0, 0, 0, false, moment, "manual", 1, 2⟩)⟩]
  connections := [⟨⟨"s", "exec", "o", "exec"⟩, "c"⟩]

def plainOrder : Graph := namedOrder "Breakout" "intraday" "INFY" "10:00"

/-- Every text tries to end its literal. -/
def hostileOrder : Graph := namedOrder "\"\n\x7d);" "$\x7bname\x7d" "\\\"" "\n// 11:00"

/-- Quotes, backslashes, braces and line breaks stay in the places of their settings. -/
theorem hostileOrder_confined :
    plainOrder.Alike hostileOrder ∧
    ∃ p p' segments, plainOrder.compile.result = .ok p ∧ hostileOrder.compile.result = .ok p' ∧
      p.capabilities = p'.capabilities ∧ p.statements = p'.statements ∧ p.emitted = p'.emitted ∧
      p.source = fill plainOrder.setting? segments ∧
      p'.source = fill hostileOrder.setting? segments := by
  have halike : plainOrder.Alike hostileOrder := by
    refine ⟨.cons ⟨rfl, .sealed (.strategyConfig ⟨rfl, by simp, rfl⟩)⟩ (.cons ⟨rfl, ?_⟩ .nil), rfl⟩
    exact .sealed (.placeOrder _ _ (by simp))
  have hflow : plainOrder.Unfolds ⟨"s", "exec"⟩ _ := .action rfl rfl (.stop rfl)
  have hg : ∀ n ∈ plainOrder.nodes, n.IsSealed := by
    simp [plainOrder, namedOrder, Node.IsSealed]
  have ha : ∀ n ∈ plainOrder.nodes, ∀ a, n.config.role = .action a →
      Lowerable plainOrder.links n a := by
    -- no edge of the graph brings an entry price
    refine fun n _ a _ => lowerable_of_finite fun s _ known entry hentry => ?_
    simp [plainOrder, namedOrder, links, input?, Scope.input?, Link.head] at hentry
  obtain ⟨q, hq⟩ := exists_compiled hg ha rfl hflow (by simp [Control.emissions])
  obtain ⟨-, ⟨halt, -, herror, -⟩ | ⟨p, p', segments, hok, hok', hcap, hlength, hsize, -, hsource,
    hsource'⟩⟩ := literals_confined halike
  · rw [hq] at herror
    cases herror
  · exact ⟨halike, p, p', segments, hok, hok', hcap, hlength, hsize, hsource, hsource'⟩

end Graph

end TradeFlow
