import ResponseCache.Duration.Basic
import ResponseCache.Text.Number
import ResponseCache.Text.Blank

/-!
This module contains the short text of a duration for messages: one number with a decimal part, in
the largest unit of which the duration has at least one.
-/

namespace ResponseCache.Duration

open Text (decimal padded stripEnd)

/-- A whole part with a decimal part of so many places, without zeros at its end. -/
def decimalText (whole part places : Nat) : List Char :=
  match stripEnd (· = '0') (padded places part) with
  | [] => decimal whole
  | digits => decimal whole ++ '.' :: digits

def unitText (d : Duration) : String :=
  let n := d.nanos
  let (digits, unit) :=
    if nanosPerSec ≤ n then
      (decimalText d.secs d.subsecNanos 9, "s")
    else if 1000000 ≤ n then
      (decimalText (n / 1000000) (n % 1000000) 6, "ms")
    else if 1000 ≤ n then
      (decimalText (n / 1000) (n % 1000) 3, "µs")
    else
      (decimal n, "ns")
  String.ofList digits ++ unit

end ResponseCache.Duration
