/-!
Sockets: the types of the values that flow through ports.

Two ports may be joined when their sockets are compatible. A socket feeds itself; besides, a
shortlist item is taken wherever a symbol is expected and the other way round.
-/

namespace TradeFlow

/-- The type of what a port carries; `exec` carries control. -/
inductive Socket where
  | exec
  | string
  | number
  | shortlistArray
  | shortlistItem
  | candleData
  | quoteData
  | datesArray
  | holidaysArray
  deriving DecidableEq, Repr

/-- How a value is laid out at run time, which decides how a field is read from it. -/
inductive Shape where
  | generic
  | quote
  | candle
  deriving DecidableEq, Repr

def Shape.name : Shape → String
  | .generic => "generic"
  | .quote => "quote"
  | .candle => "candle"

namespace Socket

/-- Every socket. -/
def all : List Socket :=
  [.exec, .string, .number, .shortlistArray, .shortlistItem, .candleData, .quoteData, .datesArray,
    .holidaysArray]

def name : Socket → String
  | .exec => "exec"
  | .string => "string"
  | .number => "number"
  | .shortlistArray => "shortlistArray"
  | .shortlistItem => "shortlistItem"
  | .candleData => "candleData"
  | .quoteData => "quoteData"
  | .datesArray => "datesArray"
  | .holidaysArray => "holidaysArray"

def ofName? (name : String) : Option Socket := all.find? (·.name == name)

/-- Whether an output of the first socket may feed an input of the second. -/
def compatible : Socket → Socket → Bool
  | .shortlistItem, .string => true
  | .string, .shortlistItem => true
  | source, target => source == target

def isControl (s : Socket) : Bool := s == .exec

def shape : Socket → Shape
  | .quoteData => .quote
  | .candleData => .candle
  | _ => .generic

/-- Compatibility of sockets given by name. A name that no socket has fits itself alone. -/
def compatibleNames (source target : String) : Bool :=
  source == target ||
    match ofName? source, ofName? target with
    | some s, some t => s.compatible t
    | _, _ => false

end Socket

end TradeFlow
