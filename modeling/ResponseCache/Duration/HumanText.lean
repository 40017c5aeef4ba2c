import ResponseCache.Duration.Basic
import ResponseCache.Text.Number
import ResponseCache.Text.Blank

/-!
This module contains the text in which durations are configured: numbers with units from years to
nanoseconds, which add up. A year has 365.25 days and a month 30.44 days.
-/

namespace ResponseCache.Duration

open Text (decimal isBlank isDigit ofDigits)

/-- What the numbers of an item count. -/
inductive Grain where
  | secs
  | nanos
  deriving DecidableEq, Repr

/-- A quantity of time by which an item is multiplied. -/
structure Measure where
  factor : Nat
  grain : Grain
  deriving DecidableEq, Repr

structure TimeUnit where
  names : List String
  whole : Measure
  /-- One unit as the decimal part of a number counts it, if the unit can be divided. -/
  part : Option Measure
  deriving DecidableEq, Repr

def secsPerYear : Nat := 31557600

def secsPerMonth : Nat := 2630016

def secsPerDay : Nat := 86400

/-- A unit of whole seconds that is divided into seconds. -/
def TimeUnit.ofSecs (factor : Nat) (names : List String) : TimeUnit :=
  ⟨names, ⟨factor, .secs⟩, some ⟨factor, .secs⟩⟩

/-- A unit below the second that is divided into nanoseconds. -/
def TimeUnit.ofNanos (factor : Nat) (names : List String) : TimeUnit :=
  ⟨names, ⟨factor, .nanos⟩, some ⟨factor, .nanos⟩⟩

/-- All units. Spellings are case-sensitive: `m` is a minute, `M` a month. -/
def timeUnits : List TimeUnit :=
  [⟨["ns", "nsec", "nanos"], ⟨1, .nanos⟩, none⟩,
   .ofNanos 1000 ["us", "µs", "usec"],
   .ofNanos 1000000 ["ms", "msec", "millis"],
   ⟨["s", "sec", "secs", "second", "seconds"], ⟨1, .secs⟩, some ⟨nanosPerSec, .nanos⟩⟩,
   ⟨["m", "min", "mins", "minute", "minutes"], ⟨60, .secs⟩, some ⟨60 * nanosPerSec, .nanos⟩⟩,
   .ofSecs 3600 ["h", "hr", "hrs", "hour", "hours"],
   .ofSecs secsPerDay ["d", "day", "days"],
   .ofSecs (7 * secsPerDay) ["w", "wk", "wks", "week", "weeks"],
   .ofSecs secsPerMonth ["M", "month", "months"],
   .ofSecs secsPerYear ["y", "yr", "yrs", "year", "years"]]

def timeUnit? (name : List Char) : Option TimeUnit :=
  timeUnits.find? fun u => u.names.any (·.toList = name)

def isUnitLetter (c : Char) : Bool :=
  ('a' ≤ c && c ≤ 'z') || ('A' ≤ c && c ≤ 'Z') || c = 'µ'

inductive HumanTextError where
  /-- It is of another form, or one of its numbers is too great. -/
  | malformed
  /-- Its nanoseconds fill up the last second of all, and there is none to carry it over to. -/
  | overflow
  deriving DecidableEq, Repr

/--
The duration with a number of grains added. Neither the nanoseconds, those of the duration included,
nor the seconds of the sum may exceed 64 bits.
-/
def addGrains (d : Duration) (count : Nat) : Grain → Except HumanTextError Duration
  | .secs =>
    match ofNanos? (d.nanos + count * nanosPerSec) with
    | some sum => .ok sum
    | none => .error .malformed
  | .nanos =>
    if d.subsecNanos + count < UInt64.size then
      match ofNanos? (d.nanos + count) with
      | some sum => .ok sum
      | none => .error (if d.subsecNanos + count = nanosPerSec then .overflow else .malformed)
    else
      .error .malformed

/--
The duration with a fraction of a measure added. The product of its numerator has to fit 64 bits, and
the quotient has to be a whole number of grains.
-/
def addFraction (d : Duration) (numerator divisor : Nat) (m : Measure) :
    Except HumanTextError Duration :=
  let product := numerator * m.factor
  if product < UInt64.size ∧ product % divisor = 0 then
    d.addGrains (product / divisor) m.grain
  else
    .error .malformed

/-- A decimal number: its whole part, and its decimal part if it has one. -/
structure Numeral where
  whole : Nat
  /-- The number that the decimals form, and the power of ten by which it is divided. -/
  part : Option (Nat × Nat)
  deriving DecidableEq, Repr

/-- The duration with an item added, its whole part first. -/
def addItem (d : Duration) (n : Numeral) (u : TimeUnit) : Except HumanTextError Duration := do
  let sum ← d.addFraction n.whole 1 u.whole
  match n.part, u.part with
  | none, _ => return sum
  | some (numerator, divisor), some measure => sum.addFraction numerator divisor measure
  | some _, none => throw .malformed

/-- The digits at the head of a text, among which blanks may stand, and the rest. -/
def spanDigits (cs : List Char) : List Char × List Char :=
  let (head, rest) := cs.span fun c => isDigit c || isBlank c
  (head.filter isDigit, rest)

/-- A number, if it fits 64 bits. -/
def word64? (n : Nat) : Option Nat :=
  if n < UInt64.size then some n else none

/-- Reads a number that has a digit on both sides of its point, if it has one. -/
def numeral? (cs : List Char) : Option (Numeral × List Char) :=
  match spanDigits cs with
  | ([], _) => none
  | (whole, '.' :: rest) =>
    match spanDigits rest with
    | ([], _) => none
    | (part, rest) => do
      let part := (← word64? (ofDigits part), ← word64? (Nat.pow 10 part.length))
      return (⟨← word64? (ofDigits whole), some part⟩, rest)
  | (whole, rest) => do
    return (⟨← word64? (ofDigits whole), none⟩, rest)

/-- Reads a number with its unit, which ends at a blank, at the next number, or with the text. -/
def item? (cs : List Char) : Option (Numeral × TimeUnit × List Char) := do
  let (n, rest) ← numeral? cs
  let (name, rest) := rest.span isUnitLetter
  let u ← timeUnit? name
  guard (rest.head?.all fun c => isDigit c || isBlank c)
  return (n, u, rest)

/-- Reads a duration from one or more items with blanks between and around them, or from `0`. -/
def ofHumanText (cs : List Char) : Except HumanTextError Duration :=
  if cs = ['0'] then
    .ok zero
  else if cs.all isBlank then
    .error .malformed
  else
    go cs.length zero cs
where
  /-- Adds the items that are left; each takes at least one character of those counted. -/
  go : Nat → Duration → List Char → Except HumanTextError Duration
    | 0, sum, cs => if cs.all isBlank then .ok sum else .error .malformed
    | n + 1, sum, cs =>
      if cs.all isBlank then
        .ok sum
      else
        match item? cs with
        | some (number, unit, rest) => do go n (← sum.addItem number unit) rest
        | none => .error .malformed

/-- A number followed by its unit, or nothing for zero. -/
def shortItem (unit : String) (n : Nat) : List (List Char) :=
  if n = 0 then [] else [decimal n ++ unit.toList]

/-- A number followed by its unit, in the plural from two on, or nothing for zero. -/
def longItem (unit : String) (n : Nat) : List (List Char) :=
  shortItem (if n = 1 then unit else unit ++ "s") n

/-- The items of a duration, from years down to nanoseconds, those that are zero left out. -/
def humanItems (d : Duration) : List (List Char) :=
  let secs := d.secs
  let ofYear := secs % secsPerYear
  let ofMonth := ofYear % secsPerMonth
  let ofDay := ofMonth % secsPerDay
  let nanos := d.subsecNanos
  longItem "year" (secs / secsPerYear)
    ++ longItem "month" (ofYear / secsPerMonth)
    ++ longItem "day" (ofMonth / secsPerDay)
    ++ shortItem "h" (ofDay / 3600)
    ++ shortItem "m" (ofDay % 3600 / 60)
    ++ shortItem "s" (ofDay % 60)
    ++ shortItem "ms" (nanos / 1000000)
    ++ shortItem "us" (nanos / 1000 % 1000)
    ++ shortItem "ns" (nanos % 1000)

def humanText (d : Duration) : List Char :=
  if d.isZero then ['0', 's'] else List.intercalate [' '] d.humanItems

end ResponseCache.Duration
