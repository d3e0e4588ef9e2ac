/-!
# Shortest decimal digits of a double

A finite double is `mantissa * 2 ^ exponent` for natural `mantissa` and integer `exponent`.
The reals that round to it form an interval around it, reaching half way to each neighbour,
with both ends included exactly when the mantissa is even (ties go to the even mantissa).

`Decimal.shortest` picks, among the decimals `digits * 10 ^ exponent` inside that interval,
one with the fewest significant digits, and of two such the one nearer to the double; an
exact tie goes to the even digit string. All arithmetic is exact on `Nat`.

Main definitions:

- `Binary.ofBits` splits the 64-bit pattern of a double into sign, mantissa and exponent.
- `Binary.shortest` returns the chosen digits, without trailing zeros.
-/

namespace FeedClient
namespace Decimal

/-- A finite double as sign, `mantissa` and binary `exponent`:
its magnitude is `mantissa * 2 ^ exponent`. `narrowBelow` says that the gap to the next
smaller double is half the gap to the next larger one, which happens at the smallest
mantissa of a binade above the subnormal range. -/
structure Binary where
  negative : Bool
  mantissa : Nat
  exponent : Int
  narrowBelow : Bool
  deriving Repr, DecidableEq

/-- A decimal `digits * 10 ^ exponent`. -/
structure Digits where
  digits : Nat
  exponent : Int
  deriving Repr, DecidableEq

/-- The kinds of 64-bit patterns: a finite number, an infinity, or not a number. -/
inductive Kind where
  | finite (b : Binary)
  | infinite (negative : Bool)
  | nan
  deriving Repr

/-- Splits an IEEE 754 binary64 bit pattern: one sign bit, eleven exponent bits and
fifty-two fraction bits. -/
def Binary.ofBits (bits : UInt64) : Kind :=
  let negative := bits >>> 63 == 1
  let field := ((bits >>> 52) &&& 0x7FF).toNat
  let fraction := (bits &&& 0xFFFFFFFFFFFFF).toNat
  if field == 0x7FF then
    if fraction == 0 then .infinite negative else .nan
  else if field == 0 then
    .finite { negative, mantissa := fraction, exponent := -1074, narrowBelow := false }
  else
    .finite { negative, mantissa := fraction + Nat.pow 2 52, exponent := (field : Int) - 1075,
              narrowBelow := fraction == 0 && field > 1 }

/-- The number of decimal digits of `n`, counting one for zero. -/
def digitCount (n : Nat) : Nat := (Nat.toDigits 10 n).length

/-- Removes trailing zero digits, raising the exponent by one for each. -/
def Digits.trim (d : Digits) : Digits :=
  if h : d.digits ≠ 0 ∧ d.digits % 10 = 0 then
    Digits.trim { digits := d.digits / 10, exponent := d.exponent + 1 }
  else d
termination_by d.digits
decreasing_by exact Nat.div_lt_self (Nat.pos_of_ne_zero h.1) (by decide)

/-- The exact value of a binary number scaled to a decimal grid: for every natural `x`,
`x * 2 ^ exponent = scale x * 10 ^ decimalExponent`. -/
def Binary.scale (b : Binary) (x : Nat) : Nat :=
  if b.exponent ≥ 0 then x * Nat.pow 2 b.exponent.toNat else x * Nat.pow 5 (-b.exponent).toNat

/-- The power of ten that goes with `Binary.scale`. -/
def Binary.decimalExponent (b : Binary) : Int :=
  if b.exponent ≥ 0 then 0 else b.exponent

/-- Four times the lower end of the rounding interval, on the scaled grid. -/
def Binary.lowerEnd (b : Binary) : Nat :=
  b.scale (4 * b.mantissa - (if b.narrowBelow then 1 else 2))

/-- Four times the upper end of the rounding interval, on the scaled grid. -/
def Binary.upperEnd (b : Binary) : Nat :=
  b.scale (4 * b.mantissa + 2)

/-- Whether the scaled value `x4` (four times a point of the grid) rounds to `b`. -/
def Binary.roundsHere (b : Binary) (x4 : Nat) : Bool :=
  if b.mantissa % 2 == 0 then b.lowerEnd ≤ x4 && x4 ≤ b.upperEnd
  else b.lowerEnd < x4 && x4 < b.upperEnd

/-- The candidates with `dropped` fewer digits than the exact value: the exact digits cut
to that length, and one more. Returns the nearer of those that round back, if any. -/
def Binary.candidateAt (b : Binary) (dropped : Nat) : Option Nat :=
  let exact := b.scale b.mantissa
  let unit := Nat.pow 10 dropped
  let low := exact / unit
  let high := low + 1
  let lowHits := b.roundsHere (4 * (low * unit))
  let highHits := b.roundsHere (4 * (high * unit))
  match lowHits, highHits with
  | true, true =>
    let below := exact - low * unit
    let above := high * unit - exact
    if below < above then some low
    else if above < below then some high
    else if low % 2 == 0 then some low else some high
  | true, false => some low
  | false, true => some high
  | false, false => none

/-- Tries to drop `dropped` digits, then fewer, down to none; dropping none always works,
since the exact value rounds to itself. -/
def Binary.search (b : Binary) : Nat → Digits
  | 0 => { digits := b.scale b.mantissa, exponent := b.decimalExponent }
  | dropped + 1 =>
    match b.candidateAt (dropped + 1) with
    | some d => { digits := d, exponent := b.decimalExponent + (dropped + 1 : Nat) }
    | none => b.search dropped

/-- The shortest digits that round back to `b`, nearest first, trailing zeros removed.
Zero gives digits `0`. -/
def Binary.shortest (b : Binary) : Digits :=
  if b.mantissa = 0 then { digits := 0, exponent := 0 }
  else (b.search (digitCount (b.scale b.mantissa) - 1)).trim

/-- Zero has one digit. -/
@[simp]
theorem digitCount_zero : digitCount 0 = 1 := by decide

end Decimal
end FeedClient
