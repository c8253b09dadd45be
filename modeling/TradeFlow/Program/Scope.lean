import TradeFlow.Graph.Basic
import TradeFlow.Number.Format

/-!
The names and values that are known at a point of a program under construction.

A scope hands out variables that are new, remembers which expression each node output stands for
and collects the capabilities that the program uses. The expressions are of any type: the
compiler binds typed expressions, and plain text works as well.
-/

namespace TradeFlow

/-- A function or value that the host makes available to a strategy. -/
inductive Capability where
  | fetchShortlist
  | fetchShortlistPersistence
  | fetchCandles
  | fetchQuote
  | fetchDates
  | fetchHolidays
  | placeOrder
  | currentTimestamp
  deriving DecidableEq, Repr

namespace Capability

/-- Every capability, in the order in which a program lists them. -/
def all : List Capability :=
  [.fetchShortlist, .fetchShortlistPersistence, .fetchCandles, .fetchQuote, .fetchDates,
    .fetchHolidays, .placeOrder, .currentTimestamp]

def name : Capability → String
  | .fetchShortlist => "fetchShortlist"
  | .fetchShortlistPersistence => "fetchShortlistPersistence"
  | .fetchCandles => "fetchCandles"
  | .fetchQuote => "fetchQuote"
  | .fetchDates => "fetchDates"
  | .fetchHolidays => "fetchHolidays"
  | .placeOrder => "placeOrder"
  | .currentTimestamp => "currentTimestamp"

def ofName? (name : String) : Option Capability := all.find? (·.name == name)

end Capability

/-- The variable that was the given number of its stem to be allocated. -/
structure Variable where
  stem : String
  number : Nat
  deriving DecidableEq, Repr

/-- The stem alone for the first variable, the stem and the number for later ones. -/
def Variable.name (v : Variable) : String :=
  if v.number = 1 then v.stem else v.stem ++ String.ofList (natText v.number)

/-- What a node output stands for. -/
structure Binding (ε : Type) where
  expr : ε
  shape : Shape
  deriving DecidableEq, Repr

/-- What is known at a point of a program. Later entries stand in front of earlier ones. -/
structure Scope (ε : Type) where
  allocated : List Variable
  bindings : List (OutputRef × Binding ε)
  required : List Capability

namespace Scope

variable {ε : Type}

def empty : Scope ε := ⟨[], [], []⟩

/-- How many variables of a stem have been allocated. -/
def count (s : Scope ε) (stem : String) : Nat := s.allocated.countP (·.stem == stem)

/-- A variable that has not been allocated before. -/
def allocate (s : Scope ε) (stem : String) : Variable × Scope ε :=
  let v : Variable := ⟨stem, s.count stem + 1⟩
  (v, { s with allocated := v :: s.allocated })

/-- Lets a node output stand for an expression from now on. -/
def bind (s : Scope ε) (ref : OutputRef) (binding : Binding ε) : Scope ε :=
  { s with bindings := (ref, binding) :: s.bindings }

/-- What a node output stands for. -/
def output? (s : Scope ε) (ref : OutputRef) : Option (Binding ε) := s.bindings.lookup ref

/-- What the first connection into a node input brings. -/
def input? (s : Scope ε) (links : List Link) (ref : InputRef) : Option (Binding ε) :=
  (links.find? (·.head == ref)).bind fun l => s.output? l.tail

/-- Marks a capability as used. -/
def require (s : Scope ε) (c : Capability) : Scope ε := { s with required := c :: s.required }

/-- The used capabilities in the order of `Capability.all`. -/
def capabilities (s : Scope ε) : List Capability :=
  Capability.all.filter (s.required.contains ·)

/-- Marks a capability given by name; a name that no capability has is ignored. -/
def requireName (s : Scope ε) (name : String) : Scope ε :=
  match Capability.ofName? name with
  | some c => s.require c
  | none => s

end Scope

end TradeFlow
