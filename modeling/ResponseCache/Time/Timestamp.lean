import ResponseCache.Time.Basic
import ResponseCache.Text.Number

/-!
This module contains the text of a point in time as a date of the Gregorian calendar with the time
of day in UTC, to the millisecond.
-/

namespace ResponseCache.Time

open Text (decimal padded)

structure Date where
  year : Int
  month : Nat
  day : Nat
  deriving DecidableEq, Repr

/--
The day a number of days after the epoch. Years are counted from March, so that the leap day comes
last, and in eras of 400 years, which all have 146097 days.
-/
def Date.ofDays (days : Int) : Date :=
  let shifted := days + 719468
  let era := shifted / 146097
  let dayOfEra := (shifted % 146097).toNat
  let yearOfEra := (dayOfEra - dayOfEra / 1460 + dayOfEra / 36524 - dayOfEra / 146096) / 365
  let dayOfYear := dayOfEra - (365 * yearOfEra + yearOfEra / 4 - yearOfEra / 100)
  let monthFromMarch := (5 * dayOfYear + 2) / 153
  let day := dayOfYear - (153 * monthFromMarch + 2) / 5 + 1
  let month := if monthFromMarch < 10 then monthFromMarch + 3 else monthFromMarch - 9
  let year := yearOfEra + era * 400
  ⟨if month ≤ 2 then year + 1 else year, month, day⟩

/-- A year in four digits, with a sign if it is negative or needs more. -/
def yearText (year : Int) : List Char :=
  if 0 ≤ year ∧ year ≤ 9999 then
    padded 4 year.toNat
  else
    (if year < 0 then '-' else '+') :: padded 4 year.natAbs

def calendarYears : Int × Int :=
  (-262143, 262142)

/--
The date and the time of day with milliseconds, cut off towards the past. There is none outside the
years of the calendar.
-/
def timestamp? (t : Time) : Option String :=
  let date := Date.ofDays (t.secs / 86400)
  let second := (t.secs % 86400).toNat
  if calendarYears.1 ≤ date.year ∧ date.year ≤ calendarYears.2 then
    some <| String.ofList <|
      yearText date.year ++ '-' :: padded 2 date.month ++ '-' :: padded 2 date.day
        ++ 'T' :: padded 2 (second / 3600) ++ ':' :: padded 2 (second % 3600 / 60)
        ++ ':' :: padded 2 (second % 60) ++ '.' :: padded 3 (t.subsecNanos / 1000000) ++ ['Z']
  else
    none

end ResponseCache.Time
