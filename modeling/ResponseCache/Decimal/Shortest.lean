/-!
This module contains the choice of the decimal with the fewest digits that identifies a binary
floating point number: of all decimals that round to the number, it lies on the coarsest grid, and
of those on that grid it is the nearest.
-/

namespace ResponseCache.Decimal

/-- A positive floating point number, `mantissa * 2 ^ exponent`. -/
structure Binary where
  mantissa : Nat
  exponent : Int
  /-- Whether the gap to the number below is half the gap to the number above. -/
  narrowBelow : Bool
  deriving DecidableEq, Repr

structure Scaled where
  digits : Nat
  exponent : Int
  deriving DecidableEq, Repr

/-- The magnitude of a finite floating point number of 64 bits. -/
def Binary.ofBits (bits : UInt64) : Binary :=
  let biased := (bits >>> 52 &&& 0x7ff).toNat
  let fraction := (bits &&& 0xfffffffffffff).toNat
  if biased = 0 then
    ⟨fraction, -1074, false⟩
  else
    ⟨0x10000000000000 + fraction, (biased : Int) - 1075, fraction = 0 ∧ 1 < biased⟩

/-- Compares `a * 10 ^ i` with `b * 2 ^ j` exactly. -/
def compareScaled (a : Nat) (i : Int) (b : Nat) (j : Int) : Ordering :=
  compare (a * Nat.pow 10 i.toNat * Nat.pow 2 (-j).toNat)
    (b * Nat.pow 2 j.toNat * Nat.pow 10 (-i).toNat)

/--
Whether a decimal lies in the interval that rounds to the number. The ends are halfway to the
neighbours, in quarters of the last place, and belong to the interval if the mantissa is even.
-/
def Binary.readsBack (x : Binary) (d : Scaled) : Bool :=
  let low := 4 * x.mantissa - if x.narrowBelow then 1 else 2
  let high := 4 * x.mantissa + 2
  let even := x.mantissa % 2 = 0
  let atLow := compareScaled d.digits d.exponent low (x.exponent - 2)
  let atHigh := compareScaled d.digits d.exponent high (x.exponent - 2)
  (atLow = .gt ∨ (even ∧ atLow = .eq)) ∧ (atHigh = .lt ∨ (even ∧ atHigh = .eq))

/-- The last point of the grid of step `10 ^ step` that is not above the number. -/
def Binary.floorOn (x : Binary) (step : Int) : Nat :=
  (x.mantissa * Nat.pow 2 x.exponent.toNat * Nat.pow 10 (-step).toNat)
    / (Nat.pow 2 (-x.exponent).toNat * Nat.pow 10 step.toNat)

/--
The point of a grid that reads back, if one of the number's two neighbours on it does. Of two such
points the nearer is taken, and the even one if they are equally near.
-/
def Binary.onGrid? (x : Binary) (step : Int) : Option Scaled :=
  let below : Scaled := ⟨x.floorOn step, step⟩
  let above : Scaled := ⟨x.floorOn step + 1, step⟩
  match x.readsBack below, x.readsBack above with
  | false, false => none
  | true, false => some below
  | false, true => some above
  | true, true =>
    match compareScaled (below.digits + above.digits) step (2 * x.mantissa) x.exponent with
    | .gt => some below
    | .lt => some above
    | .eq => some (if below.digits % 2 = 0 then below else above)

def Binary.exact (x : Binary) : Scaled :=
  if 0 ≤ x.exponent then
    ⟨x.mantissa * Nat.pow 2 x.exponent.toNat, 0⟩
  else
    ⟨x.mantissa * Nat.pow 5 (-x.exponent).toNat, x.exponent⟩

/-- The decimal on the coarsest grid that has a point which reads back. -/
def Binary.shortest (x : Binary) : Scaled :=
  go 640 309
where
  go : Nat → Int → Scaled
    | 0, _ => x.exact
    | n + 1, step => (x.onGrid? step).getD (go n (step - 1))

end ResponseCache.Decimal
