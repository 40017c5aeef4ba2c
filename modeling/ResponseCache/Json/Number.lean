import ResponseCache.Json.Basic
import ResponseCache.Text.Number

/-!
This module contains the reading of JSON numbers. An integer that does not fit 64 bits is a floating
point number, and so is negative zero.
-/

namespace ResponseCache.Json

open Text (isDigit digitValue)

/-- The parts of a numeral: digits before and after the point, and the exponent. -/
structure Numeral where
  negative : Bool
  whole : List Char
  part : Option (List Char)
  exponent : Option Int
  deriving DecidableEq, Repr

def digits1? (cs : List Char) : Option (List Char × List Char) :=
  match cs.span isDigit with
  | ([], _) => none
  | (digits, rest) => some (digits, rest)

/-- Reads the digits before the point: a zero that stands alone, or digits without a leading zero. -/
def whole? (cs : List Char) : Option (List Char × List Char) :=
  match digits1? cs with
  | some (['0'], rest) => some (['0'], rest)
  | some ('0' :: _, _) => none
  | r => r

def part? : List Char → Option (Option (List Char) × List Char)
  | '.' :: rest => (digits1? rest).map fun (digits, rest) => (some digits, rest)
  | rest => some (none, rest)

def isExponentMark (c : Char) : Bool :=
  c = 'e' || c = 'E'

def exponent? : List Char → Option (Option Int × List Char)
  | [] => some (none, [])
  | c :: rest =>
    if isExponentMark c then
      let (negative, rest) :=
        match rest with
        | '+' :: rest => (false, rest)
        | '-' :: rest => (true, rest)
        | rest => (false, rest)
      (digits1? rest).map fun (digits, rest) =>
        let n : Int := Text.ofDigits digits
        (some (if negative then -n else n), rest)
    else
      some (none, c :: rest)

def numeral? (cs : List Char) : Option (Numeral × List Char) := do
  let (negative, cs) :=
    match cs with
    | '-' :: rest => (true, rest)
    | cs => (false, cs)
  let (whole, cs) ← whole? cs
  let (part, cs) ← part? cs
  let (exponent, cs) ← exponent? cs
  return (⟨negative, whole, part, exponent⟩, cs)

/-- The leading digits that are kept as a number of 64 bits, and the power of ten they count. -/
structure Significand where
  digits : Nat
  exponent : Int
  deriving DecidableEq, Repr

/-- Takes up the digits before the point as long as they fit; each of the others raises the power. -/
def Significand.ofWhole (cs : List Char) : Significand :=
  go 0 cs
where
  go (n : Nat) : List Char → Significand
    | [] => ⟨n, 0⟩
    | c :: cs =>
      if 10 * n + digitValue c < UInt64.size then
        go (10 * n + digitValue c) cs
      else
        ⟨n, (c :: cs).length⟩

/-- Takes up the digits after the point up to the first that does not fit. -/
def Significand.addPart (s : Significand) : List Char → Significand
  | [] => s
  | c :: cs =>
    if 10 * s.digits + digitValue c < UInt64.size then
      addPart ⟨10 * s.digits + digitValue c, s.exponent - 1⟩ cs
    else
      s

/--
The significand as a floating point number times its power of ten. Powers beyond the largest that a
floating point number can be are divided out in steps; each step rounds. There is no value if the
product is not finite.
-/
def Significand.toFloat? (s : Significand) : Option Float :=
  let f := s.digits.toUInt64.toFloat
  if s.digits = 0 then some f
  else if 308 < s.exponent then none
  else if 0 ≤ s.exponent then
    let product := f * Float.ofScientific 1 false s.exponent.toNat
    if product.isInf then none else some product
  else
    some (go 4 f (-s.exponent).toNat)
where
  /-- Divides by a power of ten in steps of at most 308; four of them reach zero from any number. -/
  go : Nat → Float → Nat → Float
    | 0, f, _ => f
    | n + 1, f, power =>
      if power ≤ 308 then
        f / Float.ofScientific 1 false power
      else
        go n (f / Float.ofScientific 1 false 308) (power - 308)

/-- The value of a numeral, if it has one that is finite. -/
def Numeral.value? (n : Numeral) : Option Number :=
  let s := Significand.ofWhole n.whole
  let float (s : Significand) : Option Number :=
    s.toFloat?.map fun f => .float (if n.negative then -f else f)
  match n.part, n.exponent with
  | none, none =>
    if s.exponent ≠ 0 then float s
    else if ¬n.negative then some (.natural s.digits)
    else if s.digits = 0 ∨ UInt64.size / 2 < s.digits then float s
    else some (.negative s.digits)
  | part, exponent =>
    let s := s.addPart (part.getD [])
    float ⟨s.digits, s.exponent + exponent.getD 0⟩

end ResponseCache.Json
