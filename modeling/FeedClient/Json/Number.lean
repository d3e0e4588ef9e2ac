import FeedClient.Json.Value
import FeedClient.Decimal.Text
import FeedClient.Decimal.Nearest

/-!
# JSON number text and number assembly

Writing: integers in plain decimal, doubles in shortest round-trip digits, positional while
at most sixteen digits stand before the point or at most four zeros after it, otherwise in
scientific notation with an explicit exponent sign (`1e+100`, `1.5e-7`). Positional doubles
always show a fractional part (`100.0`).

Reading: the reader collects a 64-bit significand and a decimal exponent; `assemble` turns
them into a double by one multiplication or division with the nearest double of a power of
ten, stepping by `10 ^ 308` while the exponent is out of the table's reach. This is not
always the nearest double to the decimal, and that difference is part of the format read.
-/

namespace FeedClient
namespace Json

/-- The float layout of JSON text. -/
def floatLayout : Decimal.Layout where
  maxIntegerDigits := 16
  maxLeadingZeros := 4
  exponentMark := "e"
  positiveMark := "+"
  nonFinite := "null"

/-- The text of a double in JSON. -/
def floatText (x : Float) : String := floatLayout.render x

/-- The text of a number in JSON. -/
def Number.text : Number → String
  | .nat n => toString n.toNat
  | .neg n => toString n.toInt
  | .float x => floatText x

/-- The largest power of ten applied in one step. -/
def maxTenPower : Nat := 308

/-- Combines the magnitude `f` (already a double) with a decimal exponent. Returns `none`
when the result overflows to infinity. Below `10 ^ -308` the value is divided by `1e308`
until the exponent is in reach; a value that reaches zero stops there. -/
def scaleByTen (f : Float) (exponent : Int) : Option Float :=
  if h : exponent.natAbs ≤ maxTenPower then
    let pow := Decimal.powerOfTen exponent.natAbs
    if exponent ≥ 0 then
      let g := f * pow
      if g.isInf then none else some g
    else some (f / pow)
  else if f == 0.0 then some f
  else if exponent ≥ 0 then none
  else scaleByTen (f / Decimal.powerOfTen maxTenPower) (exponent + maxTenPower)
termination_by exponent.natAbs
decreasing_by simp only [maxTenPower] at h ⊢; omega

/-- The double for `± significand * 10 ^ exponent` as the reader builds it, or `none` when it
is out of range. -/
def assemble (positive : Bool) (significand : UInt64) (exponent : Int) : Option Float :=
  (scaleByTen (Decimal.nearest significand.toNat) exponent).map
    (fun f => if positive then f else -f)

end Json
end FeedClient
