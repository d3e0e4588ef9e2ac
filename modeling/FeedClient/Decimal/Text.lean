import FeedClient.Decimal.Shortest

/-!
# Writing decimal digits as text

A decimal `digits * 10 ^ exponent` is written either positionally (`1234.5`, `0.001`,
`100.0`) or in scientific notation (`1.5e-7`, `1e+100`). A `Layout` fixes where one ends and
the other starts, and how the exponent is marked; `Layout.render` applies it to the digits
chosen by `Binary.shortest`.
-/

namespace FeedClient
namespace Decimal

/-- The decisions of a float text format. -/
structure Layout where
  /-- The most digits before the point that are still written positionally. -/
  maxIntegerDigits : Nat
  /-- The most zeros between the point and the first digit still written positionally. -/
  maxLeadingZeros : Nat
  /-- Letter that starts an exponent. -/
  exponentMark : String
  /-- Sign written before a positive exponent. -/
  positiveMark : String
  /-- Text of a value that is not finite. -/
  nonFinite : String

/-- `n` copies of the digit zero. -/
def zeros (n : Nat) : String := String.ofList (List.replicate n '0')

/-- Writes the digits of a nonnegative decimal under a layout. -/
def Layout.renderDigits (layout : Layout) (d : Digits) : String :=
  let text := String.ofList (Nat.toDigits 10 d.digits)
  let n : Int := text.length
  let k := d.exponent
  let kk := n + k
  if 0 ≤ k ∧ kk ≤ layout.maxIntegerDigits then
    text ++ zeros k.toNat ++ ".0"
  else if 0 < kk ∧ kk ≤ layout.maxIntegerDigits then
    String.ofList (text.toList.take kk.toNat) ++ "." ++ String.ofList (text.toList.drop kk.toNat)
  else if -(layout.maxLeadingZeros : Int) ≤ kk ∧ kk ≤ 0 then
    "0." ++ zeros (-kk).toNat ++ text
  else
    let e := kk - 1
    let mark := if e < 0 then "-" else layout.positiveMark
    let head := String.ofList (text.toList.take 1)
    let tail := String.ofList (text.toList.drop 1)
    let body := if tail.isEmpty then head else head ++ "." ++ tail
    body ++ layout.exponentMark ++ mark ++ toString e.natAbs

/-- Writes a double under a layout: shortest digits, a leading `-` for a negative sign
(also on zero), and the layout's text for infinities and NaN. -/
def Layout.render (layout : Layout) (x : Float) : String :=
  match Binary.ofBits x.toBits with
  | .finite b =>
    let body := layout.renderDigits b.shortest
    if b.negative then "-" ++ body else body
  | .infinite _ => layout.nonFinite
  | .nan => layout.nonFinite

end Decimal
end FeedClient
