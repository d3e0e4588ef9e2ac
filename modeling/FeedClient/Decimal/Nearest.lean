/-!
# The double nearest to a natural number

`Decimal.nearest n` is the binary64 value closest to `n`, a tie going to the even mantissa,
and infinity when rounding leaves the finite range. The bit pattern is assembled directly,
so no float operation is involved.
-/

namespace FeedClient
namespace Decimal

/-- The bit pattern of the double `q * 2 ^ e`, for `2 ^ 52 ≤ q < 2 ^ 53` and `-1022 ≤ e + 52`:
the biased exponent field and the fraction. Exponents past the finite range give infinity. -/
def normalBits (q : Nat) (e : Int) : UInt64 :=
  let field := e + 52 + 1023
  if field ≥ 2047 then 0x7FF0000000000000
  else (field.toNat.toUInt64 <<< 52) ||| (q - Nat.pow 2 52).toUInt64

/-- Rounds `q * 2 ^ s + r` (with `r < 2 ^ s`) to `q` or `q + 1`: up when the remainder
passes half of `2 ^ s`, or equals it and `q` is odd. -/
def roundHalfEven (q r s : Nat) : Nat :=
  let half := Nat.pow 2 s / 2
  if s = 0 then q
  else if r > half ∨ (r = half ∧ q % 2 = 1) then q + 1 else q

/-- The double nearest to `n`, ties to even. -/
def nearest (n : Nat) : Float :=
  if n = 0 then 0.0
  else
    let top := n.log2
    if top ≤ 52 then
      Float.ofBits (normalBits (n <<< (52 - top)) ((top : Int) - 52))
    else
      let s := top - 52
      let q := n >>> s
      let q' := roundHalfEven q (n - (q <<< s)) s
      if q' = Nat.pow 2 53 then Float.ofBits (normalBits (Nat.pow 2 52) ((s : Int) + 1))
      else Float.ofBits (normalBits q' s)

/-- The double nearest to `10 ^ i`. -/
def powerOfTen (i : Nat) : Float := nearest (Nat.pow 10 i)

end Decimal
end FeedClient
