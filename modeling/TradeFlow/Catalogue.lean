import TradeFlow.Settings
import TradeFlow.Socket

/-!
The catalogue: palette entry, ports and size of every node kind.

No input takes more than one connection.
-/

namespace TradeFlow

/-- The group of the palette that shows a kind. -/
inductive Category where
  | config
  | dataSource
  | logic
  | action
  deriving DecidableEq, Repr

def Category.name : Category → String
  | .config => "config"
  | .dataSource => "dataSource"
  | .logic => "logic"
  | .action => "action"

/-- A named attachment point. The key is unique among the inputs or the outputs of a kind. -/
structure Port where
  key : String
  label : String
  socket : Socket
  multiple : Bool := false
  deriving DecidableEq, Repr

/-- What the catalogue says about a kind. -/
structure Spec where
  label : String
  category : Category
  description : String
  inputs : List Port
  outputs : List Port
  width : Nat
  height : Nat
  deriving DecidableEq, Repr

/-- The input that control enters by. -/
def Port.execIn : Port := { key := "exec", label := "Exec", socket := .exec }

/-- The output that control leaves by. -/
def Port.next : Port := { key := "exec", label := "Next", socket := .exec }

/-- The catalogue entry of a kind. -/
def Kind.spec : Kind → Spec
  | .strategyConfig =>
    { label := "Strategy Config"
      category := .config
      description := "Define start time, end time, and interval"
      inputs := []
      outputs :=
        [{ key := "exec", label := "Start", socket := .exec },
          { key := "currentTimestamp", label := "Current Timestamp", socket := .string }]
      width := 260
      height := 180 }
  | .fetchShortlist =>
    { label := "Fetch Shortlist"
      category := .dataSource
      description := "Get top gainers or volume shockers"
      inputs := [.execIn, { key := "datetime", label := "Datetime", socket := .string }]
      outputs := [.next, { key := "results", label := "Results", socket := .shortlistArray }]
      width := 240
      height := 240 }
  | .fetchShortlistPersistence =>
    { label := "Fetch Shortlist Persistence"
      category := .dataSource
      description := "Get stocks appearing frequently in shortlists"
      inputs := [.execIn]
      outputs := [.next, { key := "results", label := "Instruments", socket := .shortlistArray }]
      width := 280
      height := 260 }
  | .fetchCandles =>
    { label := "Fetch Candles"
      category := .dataSource
      description := "Get OHLC candle data for a symbol"
      inputs := [.execIn, { key := "symbol", label := "Symbol", socket := .string }]
      outputs := [.next, { key := "candles", label := "Candles", socket := .candleData }]
      width := 260
      height := 300 }
  | .fetchQuote =>
    { label := "Fetch Quote"
      category := .dataSource
      description := "Get live quote for a symbol"
      inputs := [.execIn, { key := "symbol", label := "Symbol", socket := .string }]
      outputs := [.next, { key := "quote", label := "Quote", socket := .quoteData }]
      width := 240
      height := 200 }
  | .fetchDates =>
    { label := "Fetch Dates"
      category := .dataSource
      description := "Get dates with available data"
      inputs := [.execIn]
      outputs := [.next, { key := "dates", label := "Dates", socket := .datesArray }]
      width := 200
      height := 140 }
  | .fetchHolidays =>
    { label := "Fetch Holidays"
      category := .dataSource
      description := "Get market holidays"
      inputs := [.execIn]
      outputs := [.next, { key := "holidays", label := "Holidays", socket := .holidaysArray }]
      width := 200
      height := 140 }
  | .placeOrder =>
    { label := "Place Order"
      category := .action
      description := "Place a trading order"
      inputs :=
        [.execIn, { key := "nseSymbol", label := "Symbol", socket := .string },
          { key := "entryPrice", label := "Entry Price", socket := .number }]
      outputs := [.next]
      width := 260
      height := 300 }
  | .forEach =>
    { label := "For Each"
      category := .logic
      description := "Loop over array data"
      inputs := [.execIn, { key := "array", label := "Array", socket := .shortlistArray }]
      outputs :=
        [{ key := "loopBody", label := "Loop Body", socket := .exec },
          { key := "item", label := "Current Item", socket := .shortlistItem },
          { key := "done", label := "Done", socket := .exec }]
      width := 220
      height := 180 }
  | .conditional =>
    { label := "Conditional"
      category := .logic
      description := "Branch based on a condition"
      inputs := [.execIn, { key := "value", label := "Value", socket := .quoteData }]
      outputs :=
        [{ key := "true", label := "True", socket := .exec },
          { key := "false", label := "False", socket := .exec }]
      width := 240
      height := 260 }

namespace Kind

/-- The input of a kind with the given key. -/
def input? (kind : Kind) (key : String) : Option Port := kind.spec.inputs.find? (·.key == key)

/-- The output of a kind with the given key. -/
def output? (kind : Kind) (key : String) : Option Port := kind.spec.outputs.find? (·.key == key)

end Kind

end TradeFlow
