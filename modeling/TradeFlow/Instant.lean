import TradeFlow.Number.Format

/-!
Points in time, as calendar date and clock time in a zone.

Timestamps are recognised in three forms: a date alone, a date and a time after a blank, and a date
and a time after `T` or `t` with a zone. Months, days, hours, minutes and seconds may have one
digit.
-/

namespace TradeFlow

/-- A date and a time of day at an offset from universal time. -/
structure Instant where
  year : Nat
  month : Nat
  day : Nat
  hour : Nat := 0
  minute : Nat := 0
  second : Nat := 0
  nanosecond : Nat := 0
  /-- Minutes east of universal time. -/
  offset : Int := 0
  /-- Whether the zone was given by its offset, which may be zero. -/
  byOffset : Bool := false
  deriving DecidableEq, Repr

namespace Instant

def isLeap (year : Nat) : Bool := year % 4 == 0 && (year % 100 != 0 || year % 400 == 0)

def daysIn (year month : Nat) : Nat :=
  if month = 2 then (if isLeap year then 29 else 28)
  else if month = 4 ∨ month = 6 ∨ month = 9 ∨ month = 11 then 30
  else 31

/-- How many days of the calendar lie before a year. -/
def daysBefore (year : Nat) : Nat :=
  365 * year + (year + 3) / 4 + (year + 399) / 400 - (year + 99) / 100

/-- How many days of a year lie before a month. -/
def daysBeforeMonth (year month : Nat) : Nat :=
  (List.range (month - 1)).foldl (fun days m => days + daysIn year (m + 1)) 0

/-- The seconds of universal time since the start of the calendar. -/
def seconds (t : Instant) : Int :=
  let days := daysBefore t.year + daysBeforeMonth t.year t.month + (t.day - 1)
  let clock := ((days * 24 + t.hour) * 60 + t.minute) * 60 + t.second
  Int.ofNat clock - t.offset * 60

/-! ## Writing -/

/-- A number with leading zeros. -/
def padded (width n : Nat) : String :=
  let digits := natText n
  String.ofList (List.replicate (width - digits.length) '0' ++ digits)

def dateText (t : Instant) : String :=
  padded 4 t.year ++ "-" ++ padded 2 t.month ++ "-" ++ padded 2 t.day

/-- The fraction of a second without zeros at its end. -/
def fractionText (t : Instant) : String :=
  if t.nanosecond = 0 then ""
  else
    "." ++ String.ofList ((padded 9 t.nanosecond).toList.reverse.dropWhile (· == '0')).reverse

def clockText (t : Instant) : String :=
  padded 2 t.hour ++ ":" ++ padded 2 t.minute ++ ":" ++ padded 2 t.second ++ t.fractionText

/-- The offset with a separator between hours and minutes. -/
def offsetText (t : Instant) (separator : String) : String :=
  (if t.offset < 0 then "-" else "+") ++ padded 2 (t.offset.natAbs / 60) ++ separator
    ++ padded 2 (t.offset.natAbs % 60)

/-- The text in messages: date, time, offset and the name of the zone, which is the offset again
when the zone has no name. -/
def message (t : Instant) : String :=
  t.dateText ++ " " ++ t.clockText ++ " " ++ t.offsetText "" ++ " "
    ++ (if t.offset = 0 then "UTC" else t.offsetText "")

/-- The text in documents. -/
def document (t : Instant) : String :=
  t.dateText ++ "T" ++ t.clockText ++ (if t.offset = 0 then "Z" else t.offsetText ":")

/-! ## Reading -/

def digitValue (c : Char) : Nat := c.toNat - 0x30

/-- A number of one or two digits. -/
def short? : List Char → Option (Nat × List Char)
  | a :: b :: rest =>
    if a.isDigit then
      if b.isDigit then some (digitValue a * 10 + digitValue b, rest)
      else some (digitValue a, b :: rest)
    else none
  | [a] => if a.isDigit then some (digitValue a, []) else none
  | [] => none

/-- A number of exactly two digits. -/
def two? : List Char → Option (Nat × List Char)
  | a :: b :: rest =>
    if a.isDigit && b.isDigit then some (digitValue a * 10 + digitValue b, rest) else none
  | _ => none

/-- A given character. -/
def char? (c : Char) : List Char → Option (List Char)
  | d :: rest => if c = d then some rest else none
  | [] => none

/-- Four digits, then month and day, each after a hyphen. -/
def date? : List Char → Option (Instant × List Char)
  | a :: b :: c :: d :: rest => do
    guard (a.isDigit && b.isDigit && c.isDigit && d.isDigit)
    let year := ((digitValue a * 10 + digitValue b) * 10 + digitValue c) * 10 + digitValue d
    let (month, rest) ← short? (← char? '-' rest)
    guard (1 ≤ month && month ≤ 12)
    let (day, rest) ← short? (← char? '-' rest)
    guard (1 ≤ day && day ≤ daysIn year month)
    return ({ year, month, day }, rest)
  | _ => none

/-- A fraction of a second in nanoseconds, digits past the ninth being dropped. -/
def fraction (text : List Char) : Nat × List Char :=
  match text with
  | mark :: d :: rest =>
    if (mark == '.' || mark == ',') && d.isDigit then
      let digits := (d :: rest).takeWhile Char.isDigit
      let nine := (digits ++ List.replicate 9 '0').take 9
      (nine.foldl (fun n c => n * 10 + digitValue c) 0, (d :: rest).dropWhile Char.isDigit)
    else (0, text)
  | _ => (0, text)

/-- Hour, minute and second, then perhaps a fraction. -/
def clock? (t : Instant) (text : List Char) : Option (Instant × List Char) := do
  let (hour, rest) ← short? text
  guard (hour < 24)
  let (minute, rest) ← short? (← char? ':' rest)
  guard (minute < 60)
  let (second, rest) ← short? (← char? ':' rest)
  guard (second < 60)
  let (nanosecond, rest) := fraction rest
  return ({ t with hour, minute, second, nanosecond }, rest)

/-- `Z`, or a sign and hours and minutes with a colon between them. -/
def zone? (t : Instant) : List Char → Option (Instant × List Char)
  | 'Z' :: rest => some (t, rest)
  | sign :: rest => do
    guard (sign == '+' || sign == '-')
    let (hours, rest) ← two? rest
    let (minutes, rest) ← two? (← char? ':' rest)
    guard (hours ≤ 24 && minutes ≤ 60)
    let offset : Int := (hours * 60 + minutes : Nat)
    return ({ t with offset := if sign = '-' then -offset else offset, byOffset := true }, rest)
  | [] => none

/-- The timestamp that a whole text stands for. -/
def ofText? (text : List Char) : Option Instant := do
  let (t, rest) ← date? text
  match rest with
  | [] => some t
  | separator :: rest =>
    if separator = 'T' ∨ separator = 't' then
      let (t, rest) ← clock? t rest
      let (t, rest) ← zone? t rest
      if rest.isEmpty then some t else none
    else if separator = ' ' then
      let (t, rest) ← clock? t (rest.dropWhile (· == ' '))
      if rest.isEmpty then some t else none
    else none

end Instant

end TradeFlow
