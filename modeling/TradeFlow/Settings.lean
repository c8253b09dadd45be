import TradeFlow.Number.Decimal

/-!
Node kinds and their settings.

The set of kinds is closed, and every kind has one type of settings. Settings that choose from a
list keep the chosen word as text: a document is checked against the list when it is read, while
settings made in memory may hold any word.
-/

namespace TradeFlow

/-- What a node does. -/
inductive Kind where
  | strategyConfig
  | fetchShortlist
  | fetchShortlistPersistence
  | fetchCandles
  | fetchQuote
  | fetchDates
  | fetchHolidays
  | placeOrder
  | forEach
  | conditional
  deriving DecidableEq, Repr

namespace Kind

/-- Every kind, in the order of the palette. -/
def all : List Kind :=
  [.strategyConfig, .fetchShortlist, .fetchShortlistPersistence, .fetchCandles, .fetchQuote,
    .fetchDates, .fetchHolidays, .placeOrder, .forEach, .conditional]

def name : Kind → String
  | .strategyConfig => "StrategyConfig"
  | .fetchShortlist => "FetchShortlist"
  | .fetchShortlistPersistence => "FetchShortlistPersistence"
  | .fetchCandles => "FetchCandles"
  | .fetchQuote => "FetchQuote"
  | .fetchDates => "FetchDates"
  | .fetchHolidays => "FetchHolidays"
  | .placeOrder => "PlaceOrder"
  | .forEach => "ForEach"
  | .conditional => "Conditional"

def ofName? (name : String) : Option Kind := all.find? (·.name == name)

end Kind

/-- The screeners a shortlist is drawn from. -/
def shortlistTypes : List String := ["TOP_GAINERS", "VOLUME_SHOCKERS"]

/-- The widths of a candle, shortest first. -/
def candleIntervals : List String :=
  ["1minute", "2minute", "3minute", "5minute", "10minute", "15minute", "30minute", "1hour",
    "4hour", "1day", "1week", "1month"]

/-- How an order finds its prices. -/
def priceModes : List String := ["percentage", "manual"]

/-- The root of a strategy: its schedule and its labels. -/
structure StrategyConfig where
  startTime : String
  endTime : String
  intervalMinutes : Int
  strategyName : String
  tags : List String
  deriving DecidableEq, Repr

/-- Fetches a shortlist. The datetime is used when the current timestamp is not and no datetime is
connected. -/
structure FetchShortlist where
  shortlistType : String
  useCurrentTimestamp : Bool
  datetime : String
  deriving DecidableEq, Repr

/-- Fetches the instruments that recur in a shortlist over a window. -/
structure FetchShortlistPersistence where
  shortlistType : String
  startDatetime : String
  endDatetime : String
  deriving DecidableEq, Repr

/-- Fetches the candles of a symbol. -/
structure FetchCandles where
  symbol : String
  interval : String
  startDatetime : String
  endDatetime : String
  useCurrentTimestampAsEnd : Bool
  deriving DecidableEq, Repr

/-- Fetches the quote of a symbol. -/
structure FetchQuote where
  symbol : String
  deriving DecidableEq, Repr

/-- Places an order with a stop loss and a take profit. -/
structure PlaceOrder where
  nseSymbol : String
  entryPrice : Binary64
  stopLossPrice : Binary64
  takeProfitPrice : Binary64
  useCurrentTimestamp : Bool
  datetime : String
  priceMode : String
  stopLossPercent : Binary64
  takeProfitPercent : Binary64
  deriving DecidableEq, Repr

/-- Branches on a comparison of one field of its input. -/
structure Conditional where
  field : String
  operator : String
  compareValue : Binary64
  deriving DecidableEq, Repr

/-- The settings of a node. -/
inductive Settings where
  | strategyConfig (s : StrategyConfig)
  | fetchShortlist (s : FetchShortlist)
  | fetchShortlistPersistence (s : FetchShortlistPersistence)
  | fetchCandles (s : FetchCandles)
  | fetchQuote (s : FetchQuote)
  | fetchDates
  | fetchHolidays
  | placeOrder (s : PlaceOrder)
  | forEach
  | conditional (s : Conditional)
  deriving DecidableEq, Repr

namespace Settings

def kind : Settings → Kind
  | .strategyConfig _ => .strategyConfig
  | .fetchShortlist _ => .fetchShortlist
  | .fetchShortlistPersistence _ => .fetchShortlistPersistence
  | .fetchCandles _ => .fetchCandles
  | .fetchQuote _ => .fetchQuote
  | .fetchDates => .fetchDates
  | .fetchHolidays => .fetchHolidays
  | .placeOrder _ => .placeOrder
  | .forEach => .forEach
  | .conditional _ => .conditional

/-- The settings a new node of a kind starts with. -/
def default : Kind → Settings
  | .strategyConfig => .strategyConfig
    { startTime := "2026-01-05T09:15:00"
      endTime := "2026-01-05T15:30:00"
      intervalMinutes := 1
      strategyName := ""
      tags := [] }
  | .fetchShortlist => .fetchShortlist
    { shortlistType := "TOP_GAINERS", useCurrentTimestamp := true, datetime := "" }
  | .fetchShortlistPersistence => .fetchShortlistPersistence
    { shortlistType := "TOP_GAINERS", startDatetime := "", endDatetime := "" }
  | .fetchCandles => .fetchCandles
    { symbol := ""
      interval := "1minute"
      startDatetime := ""
      endDatetime := ""
      useCurrentTimestampAsEnd := true }
  | .fetchQuote => .fetchQuote { symbol := "" }
  | .fetchDates => .fetchDates
  | .fetchHolidays => .fetchHolidays
  | .placeOrder => .placeOrder
    { nseSymbol := ""
      entryPrice := 0
      stopLossPrice := 0
      takeProfitPrice := 0
      useCurrentTimestamp := true
      datetime := ""
      priceMode := "percentage"
      stopLossPercent := Binary64.ofDecimal false 15 (-1)
      takeProfitPercent := 2 }
  | .forEach => .forEach
  | .conditional => .conditional { field := "last_price", operator := ">", compareValue := 0 }

end Settings

end TradeFlow
