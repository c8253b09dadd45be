import TradeFlow.Operator
import TradeFlow.Settings
import TradeFlow.Value

/-!
Settings read from loosely typed entries.

An entry replaces a setting when its value fits the type of the setting; otherwise the setting stays
as it was. Whole numbers and numbers are converted where nothing is lost that the type can hold.
A setting that chooses from a list reports a value outside the list.
-/

namespace TradeFlow

namespace Value

def asString? : Value → Option String
  | .string s => some s
  | _ => none

def asBool? : Value → Option Bool
  | .bool b => some b
  | _ => none

/-- Whether an integer fits 64 bits with a sign. -/
def fitsInt64 (i : Int) : Bool := -(Nat.pow 2 63 : Nat) ≤ i && i < (Nat.pow 2 63 : Nat)

/-- A whole number; a float counts when it is whole and fits 64 bits. -/
def asInt? : Value → Option Int
  | .int i => some i
  | .int64 i => some i
  | .float x => x.toInt?.filter fitsInt64
  | _ => none

def asFloat? : Value → Option Binary64
  | .float x => some x
  | .int i => some (Binary64.ofInt i)
  | .int64 i => some (Binary64.ofInt i)
  | _ => none

/-- A list of strings; one other value in it spoils the list. -/
def asStrings? : Value → Option (List String)
  | .strings ss => some ss
  | .list vs => vs.mapM asString?
  | _ => none

end Value

/-- A value that is not in the list it should be chosen from. -/
structure ChoiceError where
  key : String
  value : Value
  allowed : List String
  deriving Repr

def ChoiceError.message (e : ChoiceError) : String :=
  e.key ++ ": " ++ e.value.text ++ " is not one of " ++ ", ".intercalate e.allowed

namespace Entries

def string (entries : Entries) (key : String) (default : String) : String :=
  ((entries.get? key).bind Value.asString?).getD default

def bool (entries : Entries) (key : String) (default : Bool) : Bool :=
  ((entries.get? key).bind Value.asBool?).getD default

def int (entries : Entries) (key : String) (default : Int) : Int :=
  ((entries.get? key).bind Value.asInt?).getD default

def float (entries : Entries) (key : String) (default : Binary64) : Binary64 :=
  ((entries.get? key).bind Value.asFloat?).getD default

/-- The strings under a key; the default may be missing altogether. -/
def strings? (entries : Entries) (key : String) (default : Option (List String)) :
    Option (List String) :=
  ((entries.get? key).bind Value.asStrings?).or default

def strings (entries : Entries) (key : String) (default : List String) : List String :=
  ((entries.get? key).bind Value.asStrings?).getD default

/-- The string under a key if it is allowed. Without an entry the default is taken as it is. -/
def choice (entries : Entries) (key : String) (default : String) (allowed : List String) :
    String × Option ChoiceError :=
  match entries.get? key with
  | none => (default, none)
  | some value =>
    match value.asString?.filter (allowed.contains ·) with
    | some s => (s, none)
    | none => (default, some { key, value, allowed })

end Entries

namespace Settings

/-- Reads entries on top of settings of the same kind, and reports the choices outside their
lists. -/
def overlay (base : Settings) (c : Entries) : Settings × List ChoiceError :=
  match base with
  | .strategyConfig b =>
    (.strategyConfig
      { startTime := c.string "startTime" b.startTime
        endTime := c.string "endTime" b.endTime
        intervalMinutes := c.int "intervalMinutes" b.intervalMinutes
        strategyName := c.string "strategyName" b.strategyName
        tags := c.strings "tags" b.tags }, [])
  | .fetchShortlist b =>
    let (shortlistType, error) := c.choice "shortlistType" b.shortlistType shortlistTypes
    (.fetchShortlist
      { shortlistType
        useCurrentTimestamp := c.bool "useCurrentTimestamp" b.useCurrentTimestamp
        datetime := c.string "datetime" b.datetime }, error.toList)
  | .fetchShortlistPersistence b =>
    let (shortlistType, error) := c.choice "shortlistType" b.shortlistType shortlistTypes
    (.fetchShortlistPersistence
      { shortlistType
        startDatetime := c.string "startDatetime" b.startDatetime
        endDatetime := c.string "endDatetime" b.endDatetime }, error.toList)
  | .fetchCandles b =>
    let (interval, error) := c.choice "interval" b.interval candleIntervals
    (.fetchCandles
      { symbol := c.string "symbol" b.symbol
        interval
        startDatetime := c.string "startDatetime" b.startDatetime
        endDatetime := c.string "endDatetime" b.endDatetime
        useCurrentTimestampAsEnd :=
          c.bool "useCurrentTimestampAsEnd" b.useCurrentTimestampAsEnd }, error.toList)
  | .fetchQuote b => (.fetchQuote { symbol := c.string "symbol" b.symbol }, [])
  | .placeOrder b =>
    let (priceMode, error) := c.choice "priceMode" b.priceMode priceModes
    (.placeOrder
      { nseSymbol := c.string "nseSymbol" b.nseSymbol
        entryPrice := c.float "entryPrice" b.entryPrice
        stopLossPrice := c.float "stopLossPrice" b.stopLossPrice
        takeProfitPrice := c.float "takeProfitPrice" b.takeProfitPrice
        useCurrentTimestamp := c.bool "useCurrentTimestamp" b.useCurrentTimestamp
        datetime := c.string "datetime" b.datetime
        priceMode
        stopLossPercent := c.float "stopLossPercent" b.stopLossPercent
        takeProfitPercent := c.float "takeProfitPercent" b.takeProfitPercent }, error.toList)
  | .conditional b =>
    let (operator, error) := c.choice "operator" b.operator (Operator.all.map Operator.symbol)
    (.conditional
      { field := c.string "field" b.field
        operator
        compareValue := c.float "compareValue" b.compareValue }, error.toList)
  | .fetchDates => (.fetchDates, [])
  | .fetchHolidays => (.fetchHolidays, [])
  | .forEach => (.forEach, [])

/-- All settings as entries; kinds without settings have none. -/
def entries? : Settings → Option Entries
  | .strategyConfig s => some <| Entries.ofList
    [("startTime", .string s.startTime), ("endTime", .string s.endTime),
      ("intervalMinutes", .int s.intervalMinutes), ("strategyName", .string s.strategyName),
      ("tags", .strings s.tags)]
  | .fetchShortlist s => some <| Entries.ofList
    [("shortlistType", .string s.shortlistType),
      ("useCurrentTimestamp", .bool s.useCurrentTimestamp), ("datetime", .string s.datetime)]
  | .fetchShortlistPersistence s => some <| Entries.ofList
    [("shortlistType", .string s.shortlistType), ("startDatetime", .string s.startDatetime),
      ("endDatetime", .string s.endDatetime)]
  | .fetchCandles s => some <| Entries.ofList
    [("symbol", .string s.symbol), ("interval", .string s.interval),
      ("startDatetime", .string s.startDatetime), ("endDatetime", .string s.endDatetime),
      ("useCurrentTimestampAsEnd", .bool s.useCurrentTimestampAsEnd)]
  | .fetchQuote s => some <| Entries.ofList [("symbol", .string s.symbol)]
  | .placeOrder s => some <| Entries.ofList
    [("nseSymbol", .string s.nseSymbol), ("entryPrice", .float s.entryPrice),
      ("stopLossPrice", .float s.stopLossPrice), ("takeProfitPrice", .float s.takeProfitPrice),
      ("useCurrentTimestamp", .bool s.useCurrentTimestamp), ("datetime", .string s.datetime),
      ("priceMode", .string s.priceMode), ("stopLossPercent", .float s.stopLossPercent),
      ("takeProfitPercent", .float s.takeProfitPercent)]
  | .conditional s => some <| Entries.ofList
    [("field", .string s.field), ("operator", .string s.operator),
      ("compareValue", .float s.compareValue)]
  | .fetchDates => none
  | .fetchHolidays => none
  | .forEach => none

end Settings

end TradeFlow
