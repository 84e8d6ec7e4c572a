import SelectionEngine.Settings.Duration
import SelectionEngine.Text.Blank

namespace SelectionEngine

/-- The units in which durations are written. -/
inductive TimeUnit where
  | nanosecond
  | microsecond
  | millisecond
  | second
  | minute
  | hour
  | day
  | week
  | month
  | year
deriving DecidableEq

namespace TimeUnit

/-- The length in nanoseconds. A year has 365.25 days and a month 30.44. -/
def length : TimeUnit → Nat
  | nanosecond => 1
  | microsecond => 1000
  | millisecond => 1000000
  | second => 1000000000
  | minute => 60 * 1000000000
  | hour => 3600 * 1000000000
  | day => 86400 * 1000000000
  | week => 604800 * 1000000000
  | month => 2630016 * 1000000000
  | year => 31557600 * 1000000000

/-- The names by which a unit is read. -/
def names : List (TimeUnit × List String) :=
  [(nanosecond, ["nanos", "nsec", "ns"]),
    (microsecond, ["usec", "us", "µs"]),
    (millisecond, ["millis", "msec", "ms"]),
    (second, ["seconds", "second", "secs", "sec", "s"]),
    (minute, ["minutes", "minute", "min", "mins", "m"]),
    (hour, ["hours", "hour", "hr", "hrs", "h"]),
    (day, ["days", "day", "d"]),
    (week, ["weeks", "week", "wk", "wks", "w"]),
    (month, ["months", "month", "M"]),
    (year, ["years", "year", "yr", "yrs", "y"])]

def ofName? (name : String) : Option TimeUnit :=
  (names.find? fun entry => entry.2.contains name).map Prod.fst

end TimeUnit

/-- A number of units, with the digits of its fraction if it has one. -/
structure TimeSpan where
  whole : List Char
  fraction : Option (List Char)
  unit : TimeUnit

namespace TimeSpan

/-- A number that fits 64 bits. -/
def word? (n : Nat) : Option Nat := if n < UInt64.size then some n else none

/-- A quotient without a remainder. -/
def exactly? (num den : Nat) : Option Nat := if num % den = 0 then some (num / den) else none

/-- The seconds and nanoseconds of the whole units. Units from a second on
are counted in seconds. -/
def wholePart? (span : TimeSpan) : Option (Nat × Nat) := do
  let n ← word? (← Text.natural? 10 span.whole)
  if span.unit.length < 1000000000 then return (0, ← word? (n * span.unit.length))
  else return (← word? (n * (span.unit.length / 1000000000)), 0)

/-- The seconds and nanoseconds of the fraction, without a rest. Only from hours
on it is counted in seconds. -/
def fractionPart? (span : TimeSpan) : Option (Nat × Nat) :=
  match span.fraction with
  | none => some (0, 0)
  | some digits => do
    if span.unit = .nanosecond then none
    let numerator ← word? (← Text.natural? 10 digits)
    let denominator ← word? (Nat.pow 10 digits.length)
    if span.unit.length ≤ TimeUnit.minute.length then
      return (0, ← exactly? (← word? (numerator * span.unit.length)) denominator)
    else return (← exactly? (← word? (numerator * (span.unit.length / 1000000000))) denominator, 0)

/-- Adds seconds and nanoseconds to a total of nanoseconds. The whole
seconds of it fit 64 bits, and so do the nanoseconds that are added to
its part of a second. -/
def add? (total : Nat) : Nat × Nat → Option Nat
  | (seconds, nanoseconds) => do
    let _ ← word? (total % 1000000000 + nanoseconds)
    let total := total + seconds * 1000000000 + nanoseconds
    let _ ← word? (total / 1000000000)
    return total

def isUnitLetter (c : Char) : Bool := c.isAlpha || c == 'µ'

/-- Splits off digits with blanks among them. -/
def spanSpread (text : List Char) : List Char × List Char :=
  let (part, rest) := text.span fun c => c.isDigit || Text.isBlank c
  (part.filter Char.isDigit, rest)

/-- Reads one span that starts with a digit. -/
def read? (text : List Char) : Option (TimeSpan × List Char) := do
  if !text.head?.any Char.isDigit then none
  let (whole, rest) := spanSpread text
  let (fraction, rest) ← match rest with
    | '.' :: rest =>
      let (digits, rest) := spanSpread rest
      if digits.isEmpty then none else some (some digits, rest)
    | rest => some (none, rest)
  let (letters, rest) := rest.span isUnitLetter
  let unit ← TimeUnit.ofName? (String.ofList letters)
  return ({ whole, fraction, unit }, rest)

/-- Adds up the spans of a text. -/
def readAll? : Nat → Nat → List Char → Option Nat
  | 0, _, _ => none
  | fuel + 1, total, text =>
    let text := text.dropWhile Text.isBlank
    if text.isEmpty then some total
    else do
      let (span, rest) ← read? text
      let total ← add? total (← wholePart? span)
      let total ← add? total (← fractionPart? span)
      readAll? fuel total rest

end TimeSpan

namespace Duration

/-- Reads a sum of spans, or a zero without a unit. -/
def ofSpans? (text : String) : Option Duration :=
  let text := text.toList
  if text = ['0'] then some ⟨0⟩
  else if (Text.trim text).isEmpty then none
  else (TimeSpan.readAll? (text.length + 1) 0 text).map Duration.mk

/-- A part of a duration, left out if it is zero. Long units are
written in full. -/
def part (n : Nat) (unit : String) (long : Bool) : List String :=
  if n = 0 then []
  else [toString n ++ unit ++ (if long && 1 < n then "s" else "")]

/-- The duration as a sum of spans, the longest first. -/
def spans (d : Duration) : String :=
  if d.nanoseconds = 0 then "0s"
  else
    let n := d.nanoseconds
    let seconds := n / 1000000000
    let inYear := seconds % 31557600
    let inMonth := inYear % 2630016
    " ".intercalate
      (part (seconds / 31557600) "year" true ++ part (inYear / 2630016) "month" true ++
        part (inMonth / 86400) "day" true ++ part (inMonth % 86400 / 3600) "h" false ++
        part (inMonth % 3600 / 60) "m" false ++ part (inMonth % 60) "s" false ++
        part (n % 1000000000 / 1000000) "ms" false ++ part (n % 1000000 / 1000) "us" false ++
        part (n % 1000) "ns" false)

end Duration

end SelectionEngine
