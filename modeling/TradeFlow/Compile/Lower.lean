import TradeFlow.Compile.Control
import TradeFlow.Compile.Event
import TradeFlow.Program.Block

/-!
Turning control flow into statements.

The flow is lowered in order. A node takes what its inputs bring if the nodes that feed them were
lowered before it, else a value from its settings, and lets its outputs stand for its results. A
loop lets its output stand for the item before its body is lowered.
-/

namespace TradeFlow

/-- What is known while a graph is lowered. -/
abbrev Known := Scope Source

namespace Lower

/-- Lets an output of a node of a kind stand for a source, with the shape of the output's socket. -/
def bindOutput (known : Known) (n : Node) (kind : Kind) (output : String) (source : Source) :
    Known :=
  let shape := ((kind.output? output).map (·.socket.shape)).getD .generic
  known.bind ⟨n.id, output⟩ ⟨source, shape⟩

/-- What an input of a node brings. -/
def input? (links : List Link) (known : Known) (n : Node) (input : String) :
    Option (Binding Source) :=
  known.input? links ⟨n.id, input⟩

/-- The literal of a setting of a node. -/
def literal (n : Node) (key value : String) : Argument := .literal ⟨.node n.id key, value⟩

/-- What an input brings, or else the literal of a setting. -/
def textArgument (links : List Link) (known : Known) (n : Node) (key value : String) : Argument :=
  match input? links known n key with
  | some b => .bound b.expr
  | none => literal n key value

/-- A datetime from settings: the time of the run if asked for, else the given one if there is
one. -/
def datetime (n : Node) (useCurrent : Bool) (configured : String) : Argument :=
  if useCurrent then .now
  else if configured = "" then .placeholder
  else literal n "datetime" configured

/-- A fetch: its variable, its call, and what is known afterwards. The fields may read the result
of the fetch itself, which is known by then. -/
def fetch (known : Known) (n : Node) (kind : Kind) (function : Capability)
    (stem output : String) (source : Variable → Source) (fields : Known → List Field) :
    Known × Call :=
  let (v, known) := (known.require function).allocate stem
  let known := bindOutput known n kind output (source v)
  (known, { result := some v, function, fields := fields known })

/-- The stop loss and the take profit around an entry price. A percentage that is not finite stops
the compilation. -/
def legs (entry : Source) (s : PlaceOrder) : Except Halt (Argument × Argument) :=
  match percentFactor? s.stopLossPercent .below, percentFactor? s.takeProfitPercent .above with
  | some below, some above => .ok (.scaled entry below, .scaled entry above)
  | _, _ => .error .aborted

/-- An order. Percentages need a connected entry price; without one the prices are left open
unless they are given. -/
def order (links : List Link) (known : Known) (n : Node) (s : PlaceOrder) :
    Except Halt (Known × Call) :=
  let known := known.require .placeOrder
  let symbol := textArgument links known n "nseSymbol" s.nseSymbol
  let moment := datetime n s.useCurrentTimestamp s.datetime
  let call := fun (entry : Field) (stop profit : Argument) (note : Option String) =>
    (known,
      ({ result := none
         function := .placeOrder
         fields :=
          [{ name := "nseSymbol", value := symbol }, entry,
            { name := "stopLossPrice", value := stop },
            { name := "takeProfitPrice", value := profit },
            { name := "datetime", value := moment }]
         note } : Call))
  match s.priceMode, input? links known n "entryPrice" with
  | "percentage", some entry =>
    (legs entry.expr s).map fun (stop, profit) =>
      call { name := "entryPrice", value := .bound entry.expr } stop profit none
  | "manual", _ =>
    .ok (call { name := "entryPrice", value := .number s.entryPrice } (.number s.stopLossPrice)
      (.number s.takeProfitPrice) none)
  | _, _ =>
    .ok (call
      { name := "entryPrice"
        value := .number 0
        comment := some "wire entry price from upstream node" }
      (.number 0) (.number 0) (some "TODO: connect an entry price input to PlaceOrder node"))

/-- The call of an action. -/
def action (links : List Link) (known : Known) (n : Node) : Action → Except Halt (Known × Call)
  | .fetchShortlist s =>
    .ok (fetch known n .fetchShortlist .fetchShortlist "shortlist" "results" .result fun known =>
      [{ name := "type", value := literal n "shortlistType" s.shortlistType },
        { name := "datetime"
          value :=
            match input? links known n "datetime" with
            | some b => .bound b.expr
            | none => datetime n s.useCurrentTimestamp s.datetime }])
  | .fetchShortlistPersistence s =>
    .ok (fetch known n .fetchShortlistPersistence .fetchShortlistPersistence "persistence"
      "results" .instruments fun _ =>
      [{ name := "type", value := literal n "shortlistType" s.shortlistType },
        { name := "start_datetime", value := literal n "startDatetime" s.startDatetime },
        { name := "end_datetime", value := literal n "endDatetime" s.endDatetime }])
  | .fetchCandles s =>
    .ok (fetch known n .fetchCandles .fetchCandles "candles" "candles" .result fun known =>
      [{ name := "symbol", value := textArgument links known n "symbol" s.symbol },
        { name := "interval", value := literal n "interval" s.interval },
        { name := "start_datetime", value := literal n "startDatetime" s.startDatetime },
        { name := "end_datetime"
          value :=
            if s.useCurrentTimestampAsEnd then .now
            else literal n "endDatetime" s.endDatetime }])
  | .fetchQuote s =>
    .ok (fetch known n .fetchQuote .fetchQuote "quote" "quote" .result fun known =>
      [{ name := "symbol", value := textArgument links known n "symbol" s.symbol }])
  | .fetchDates =>
    .ok (fetch known n .fetchDates .fetchDates "dates" "dates" .result fun _ => [])
  | .fetchHolidays =>
    .ok (fetch known n .fetchHolidays .fetchHolidays "holidays" "holidays" .result fun _ => [])
  | .placeOrder s => order links known n s

/-- The kind of a node that does an action. -/
def actionKind : Action → Kind
  | .fetchShortlist _ => .fetchShortlist
  | .fetchShortlistPersistence _ => .fetchShortlistPersistence
  | .fetchCandles _ => .fetchCandles
  | .fetchQuote _ => .fetchQuote
  | .fetchDates => .fetchDates
  | .fetchHolidays => .fetchHolidays
  | .placeOrder _ => .placeOrder

/-- The condition of a branch. An operator that does not exist compares by `>`. -/
def condition (links : List Link) (known : Known) (n : Node) (c : Conditional) : Condition where
  value := input? links known n "value"
  field := c.field
  operator := (Operator.ofSymbol? c.operator).getD .greater
  compareValue := c.compareValue

/-- Reports the code that a node became. -/
def emit (n : Node) (kind : Kind) (code : String) : Run Unit :=
  .report (.emitted n.id kind (lineCount code))

/-- Work on a node that cannot be compiled: a draft is reported by its type, and a bare node has no
kind to report. -/
def unusable (n : Node) : Run (Known × Block) :=
  match n.kind? with
  | some kind => .within n.id kind (.halt (.failed (.unknownKind n.config)))
  | none => .halt .aborted

end Lower

open Lower in
/-- Lowers control flow to a block. -/
def lower (links : List Link) : Control → Known → Run (Known × Block)
  | .stop, known => pure (known, .nil)
  | .cycle ref, _ => .halt (.failed (.cycle ref))
  | .unusable n, _ => unusable n
  | .silent n rest, known => do
    let known ← Run.within n.id .strategyConfig (pure known)
    lower links rest known
  | .action n a rest, known => do
    let (known, call) ← Run.within n.id (actionKind a) do
      let (known, call) ← (⟨[], action links known n a⟩ : Run (Known × Call))
      emit n (actionKind a) call.text
      pure (known, call)
    let (known, block) ← lower links rest known
    pure (known, .call call block)
  | .loop n body rest, known => do
    let (known, item, array, body) ← Run.within n.id .forEach do
      let array := (input? links known n "array").map (·.expr)
      let (item, known) := known.allocate "item"
      let known := bindOutput known n .forEach "item" (.symbol item)
      let (known, body) ← lower links body known
      emit n .forEach (loopText item array body.text)
      pure (known, item, array, body)
    let (known, block) ← lower links rest known
    pure (known, .loop item array body block)
  | .branch n c yes no, known =>
    Run.within n.id .conditional do
      let condition := condition links known n c
      let (known, yes) ← lower links yes known
      let (known, no) ← lower links no known
      emit n .conditional (branchText condition yes.statements no.statements)
      pure (known, .branch condition yes no)

end TradeFlow
