import ResponseCache.Decimal.Shortest
import ResponseCache.Text.Number

/-!
This module contains the text of a floating point number: its shortest decimal, written with a point
while the leading digit is near the units, and with an exponent else.
-/

namespace ResponseCache.Decimal

open Text (decimal)

/--
Lays out a positive decimal. With the point after the `k`-th digit, positional notation is used for
`-5 < k ≤ 16` and always shows a digit on both sides of the point; the exponent of the other
notation always has a sign and no padding.
-/
def Scaled.layout (d : Scaled) : List Char :=
  let digits := decimal d.digits
  let point := d.exponent + digits.length
  if 0 ≤ d.exponent ∧ point ≤ 16 then
    digits ++ List.replicate d.exponent.toNat '0' ++ ['.', '0']
  else if 0 < point ∧ point ≤ 16 then
    digits.take point.toNat ++ ['.'] ++ digits.drop point.toNat
  else if -5 < point ∧ point ≤ 0 then
    ['0', '.'] ++ List.replicate (-point).toNat '0' ++ digits
  else
    let fraction := if digits.length = 1 then [] else '.' :: digits.drop 1
    let exponent := point - 1
    let sign := if exponent < 0 then '-' else '+'
    digits.take 1 ++ fraction ++ 'e' :: sign :: decimal exponent.natAbs

/-- The text of a finite floating point number. Zero keeps its sign. -/
def floatText (f : Float) : String :=
  let bits := f.toBits
  let sign := if bits >>> 63 = 1 then ['-'] else []
  let magnitude := Binary.ofBits bits
  String.ofList <|
    sign ++ if magnitude.mantissa = 0 then ['0', '.', '0'] else magnitude.shortest.layout

end ResponseCache.Decimal
