import TradeFlow.Telemetry.Line

/-!
How a command is asked to log.

A level is a name, in any case, and may be followed by a signed distance to it: `warn`, `Info-4`.
The distance is read before the name is looked at, so of two faults that of the distance is
reported.
-/

namespace TradeFlow

/-- Why a distance cannot be read. -/
inductive DistanceError where
  | malformed
  | tooLarge
  deriving DecidableEq, Repr

/-- Why a level cannot be read. -/
inductive LevelError where
  | unknownName
  | distance (text : String) (e : DistanceError)
  deriving DecidableEq, Repr

/-- Why a command cannot log as it was asked to. -/
inductive LoggingError where
  | level (text : String) (e : LevelError)
  | format (name : String)
  deriving DecidableEq, Repr

namespace DistanceError

def message : DistanceError → String
  | .malformed => "invalid syntax"
  | .tooLarge => "value out of range"

end DistanceError

namespace LevelError

def message : LevelError → String
  | .unknownName => "unknown name"
  | .distance text e => "strconv.Atoi: parsing " ++ quoted text ++ ": " ++ e.message

end LevelError

namespace LoggingError

def message : LoggingError → String
  | .level text e => "invalid --log-level: slog: level string " ++ quoted text ++ ": " ++ e.message
  | .format name => "invalid --log-format " ++ quoted name ++ ": want text or json"

end LoggingError

namespace LogLevel

/-- Adds digits to a number that must stay below `2 ^ 64`; the first fault is the one that counts. -/
def readDigits (n : Nat) : List Char → Except DistanceError Nat
  | [] => .ok n
  | c :: rest =>
    if c.isDigit then
      let next := n * 10 + (c.toNat - '0'.toNat)
      if next < Nat.pow 2 64 then readDigits next rest else .error .tooLarge
    else .error .malformed

/-- The number that digits stand for. There is at least one digit. -/
def readNumber (digits : List Char) : Except DistanceError Nat :=
  if digits.isEmpty then .error .malformed else readDigits 0 digits

/-- Reads a sign and the digits after it as a number of 64 bits. -/
def readDistance : List Char → Except DistanceError Int
  | '-' :: digits => do
    let n ← readNumber digits
    if n ≤ Nat.pow 2 63 then return -(n : Int) else throw .tooLarge
  | '+' :: digits => do
    let n ← readNumber digits
    if n < Nat.pow 2 63 then return n else throw .tooLarge
  | _ => .error .malformed

/-- The capital of a letter of a level's name. The dotless i has the same capital as the dotted one,
and no other letter beyond ASCII has a capital among the letters of the names. -/
def capital (c : Char) : Char := if c.toNat = 0x131 then 'I' else c.toUpper

/-- The level with a name. -/
def named? (name : List Char) : Option LogLevel :=
  match String.ofList (name.map capital) with
  | "DEBUG" => some debug
  | "INFO" => some info
  | "WARN" => some warn
  | "ERROR" => some error
  | _ => none

/-- Whether a character is that of a sign. -/
def isSign (c : Char) : Bool := c == '+' || c == '-'

/-- Reads a level. Levels are numbers of 64 bits. -/
def read (text : String) : Except LevelError LogLevel := do
  let name := text.toList.takeWhile (!isSign ·)
  let rest := text.toList.dropWhile (!isSign ·)
  let distance ←
    if rest.isEmpty then pure 0
    else (readDistance rest).mapError (.distance (String.ofList rest))
  match named? name with
  | some level => return Int.bmod (level + distance) (Nat.pow 2 64)
  | none => throw .unknownName

end LogLevel

/-- What is logged and how it is written. -/
structure Logging where
  level : LogLevel
  format : LogFormat
  deriving DecidableEq, Repr

namespace Logging

/-- Reads the level and then the format. -/
def read (level format : String) : Except LoggingError Logging := do
  let l ← (LogLevel.read level).mapError (.level level)
  match LogFormat.ofName? format with
  | some f => return ⟨l, f⟩
  | none => throw (.format format)

/-- The log of some records: a line for each that is at the level or above it. -/
def text (logging : Logging) (records : List LogRecord) (elapsed : String) : String :=
  String.join ((LogRecord.visible records logging.level).map (·.line logging.format elapsed))

end Logging

end TradeFlow
