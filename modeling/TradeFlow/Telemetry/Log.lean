import TradeFlow.Telemetry.Span

/-!
Log records of a compilation.

The start and the end of a compilation are logged, and between them every node that became code.
A failed compilation ends with a warning; one that stops abruptly has no last record.
-/

namespace TradeFlow

/-- The weight of a log record. -/
abbrev LogLevel := Int

namespace LogLevel

def debug : LogLevel := -4

def info : LogLevel := 0

def warn : LogLevel := 4

def error : LogLevel := 8

/-- The name of a level: that of the nearest named level at or below it and the distance. -/
def name (level : LogLevel) : String :=
  let label := fun (word : String) (distance : Int) =>
    if distance = 0 then word
    else word ++ (if 0 < distance then "+" else "") ++ intText distance
  if level < info then label "DEBUG" (level - debug)
  else if level < warn then label "INFO" (level - info)
  else if level < error then label "WARN" (level - warn)
  else label "ERROR" (level - error)

end LogLevel

/-- The value of an attribute of a log record. -/
inductive LogValue where
  | text (s : String)
  | number (n : Int)
  | texts (ss : List String)
  /-- The time that the compilation took, which the clock decides. -/
  | elapsed
  deriving DecidableEq, Repr

/-- A log record. -/
structure LogRecord where
  level : LogLevel
  message : String
  attributes : List (String × LogValue)
  deriving DecidableEq, Repr

namespace Compilation

/-- The record of the start. -/
def startRecord (c : Compilation) : LogRecord :=
  ⟨.info, "strategy compile starting",
    [("nodes", .number c.nodes), ("connections", .number c.connections)]⟩

/-- The record of an event, if it is logged. -/
def eventRecord? : Event → Option LogRecord
  | .emitted node kind lines =>
    some ⟨.debug, "node emitted",
      [("node_id", .text node), ("kind", .text kind.name), ("lines", .number lines)]⟩
  | _ => none

/-- The record of the end, unless the compilation stopped abruptly. -/
def endRecord? (c : Compilation) : Option LogRecord :=
  match c.result with
  | .ok program =>
    some ⟨.info, "strategy compile completed",
      [("duration_ms", .elapsed), ("nodes_emitted", .number program.emitted),
        ("capabilities", .texts (program.capabilities.map Capability.name))]⟩
  | .error (.failed e) =>
    some ⟨.warn, "strategy compile failed", [("error", .text e.message), ("duration_ms", .elapsed)]⟩
  | .error .aborted => none

/-- All records of a compilation. -/
def records (c : Compilation) : List LogRecord :=
  c.startRecord :: c.events.filterMap eventRecord? ++ c.endRecord?.toList

end Compilation

namespace LogRecord

/-- The record with the id of its compilation in front of its other attributes. -/
def mark (r : LogRecord) (compileId : String) : LogRecord :=
  { r with attributes := ("compile_id", .text compileId) :: r.attributes }

/-- The records at a level or above it. -/
def visible (records : List LogRecord) (level : LogLevel) : List LogRecord :=
  records.filter (level ≤ ·.level)

end LogRecord

/-- All records of a compilation, marked with its id if it has one. -/
def Compilation.markedRecords (c : Compilation) (compileId : Option String) : List LogRecord :=
  match compileId with
  | some id => c.records.map (·.mark id)
  | none => c.records

end TradeFlow
