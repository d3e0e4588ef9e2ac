import FeedClient.Json.Cursor

/-!
# Reading and skipping JSON numbers

`Scan.number` reads a number after its optional minus sign. Integer digits are collected in
a 64-bit significand; once another digit would overflow it, the remaining integer digits
only raise the decimal exponent, and fraction digits past that point are dropped. A
fraction or an exponent makes the number a double, built by `assemble`. Without them a
nonnegative integer stays an integer; a negative one too, unless it is `-0` or below
`-2 ^ 63`, which become doubles.

`Scan.skipNumber` checks the same grammar without building a value: it never reports a
number out of range.
-/

namespace FeedClient
namespace Json
namespace Scan

/-- The largest 64-bit unsigned value. -/
def u64Max : Nat := Nat.pow 2 64 - 1

/-- The largest 32-bit signed value. -/
def i32Max : Int := 2147483647

/-- Clamps an exponent to the 32-bit signed range. -/
def clampExponent (e : Int) : Int := max (-2147483648) (min i32Max e)

/-- The digit value of an ASCII digit byte. -/
def digitValue (b : UInt8) : Nat := (b - 48).toNat

/-- Builds the double for the parts read, or fails with "number out of range" where the
reading stands. -/
def finish (positive : Bool) (significand : Nat) (exponent : Int) : Scan Float := do
  match assemble positive significand.toUInt64 exponent with
  | some f => return f
  | none => failHere .numberOutOfRange

/-- After an exponent too large for 32 bits: a nonzero significand with a positive exponent
is out of range; otherwise the rest of the digits are read and the value is a zero. -/
def exponentOverflow (positive zeroSignificand positiveExponent : Bool) : Scan Float := do
  if !zeroSignificand && positiveExponent then failHere .numberOutOfRange
  else
    skipDigits
    return if positive then 0.0 else -0.0

/-- Reads the digits of an exponent after its first digit. -/
def exponentDigits (positive : Bool) (significand : Nat) (start : Int) (positiveExponent : Bool) :
    Nat → Int → Scan Float
  | 0, _ => failHere .invalidNumber
  | fuel + 1, e => do
    match ← peek with
    | some c =>
      if isDigit c then
        bump
        let d := digitValue c
        if e * 10 + d > i32Max then exponentOverflow positive (significand == 0) positiveExponent
        else exponentDigits positive significand start positiveExponent fuel (e * 10 + d)
      else
        finish positive significand (clampExponent (if positiveExponent then start + e else start - e))
    | none =>
      finish positive significand (clampExponent (if positiveExponent then start + e else start - e))

/-- Reads an exponent, from its `e` or `E`, and builds the double. -/
def exponent (positive : Bool) (significand : Nat) (start : Int) : Scan Float := do
  bump
  let positiveExponent ← do
    match ← peek with
    | some 43 => bump; pure true
    | some 45 => bump; pure false
    | _ => pure true
  match ← next with
  | none => failHere .eofInValue
  | some c =>
    if isDigit c then exponentDigits positive significand start positiveExponent (← fuel) (digitValue c)
    else failHere .invalidNumber

/-- Builds the double, or reads an exponent first when one follows. -/
def finishOrExponent (positive : Bool) (significand : Nat) (e : Int) : Scan Float := do
  match ← peek with
  | some 101 => exponent positive significand e
  | some 69 => exponent positive significand e
  | _ => finish positive significand e

/-- Reads fraction digits after the point. `after` counts the digits taken, as a negative
exponent. Once the significand would overflow, the remaining digits are dropped. -/
def fractionDigits (positive : Bool) (before : Int) : Nat → Nat → Int → Scan Float
  | 0, _, _ => failHere .invalidNumber
  | fuel + 1, significand, after => do
    match ← peek with
    | some c =>
      if isDigit c then
        if significand * 10 + digitValue c > u64Max then
          skipDigits
          finishOrExponent positive significand (before + after)
        else
          bump
          fractionDigits positive before fuel (significand * 10 + digitValue c) (after - 1)
      else endFraction positive before significand after
    | none => endFraction positive before significand after
where
  /-- After the fraction digits: at least one digit must have been read. -/
  endFraction (positive : Bool) (before : Int) (significand : Nat) (after : Int) : Scan Float := do
    if after == 0 then
      match ← peek with
      | some _ => failAtPeek .invalidNumber
      | none => failAtPeek .eofInValue
    else finishOrExponent positive significand (before + after)

/-- Reads a fraction, from its point, and builds the double. -/
def fraction (positive : Bool) (significand : Nat) (before : Int) : Scan Float := do
  bump
  fractionDigits positive before (← fuel) significand 0

/-- Reads the integer digits that no longer fit the significand: each raises the exponent. -/
def longDigits (positive : Bool) (significand : Nat) : Nat → Int → Scan Float
  | 0, _ => failHere .invalidNumber
  | fuel + 1, e => do
    match ← peek with
    | some c =>
      if isDigit c then do bump; longDigits positive significand fuel (e + 1)
      else if c == 46 then fraction positive significand e
      else if c == 101 || c == 69 then exponent positive significand e
      else finish positive significand e
    | none => finish positive significand e

/-- The number for an integer read in full, or the double when a fraction or exponent
follows. -/
def afterInteger (positive : Bool) (significand : Nat) : Scan Number := do
  match ← peek with
  | some 46 => return .float (← fraction positive significand 0)
  | some 101 => return .float (← exponent positive significand 0)
  | some 69 => return .float (← exponent positive significand 0)
  | _ =>
    if positive then return .nat significand.toUInt64
    else if significand == 0 || significand > Nat.pow 2 63 then
      return .float (-(Decimal.nearest significand))
    else return .neg (Int64.ofInt (-(significand : Int)))

/-- Reads integer digits into the significand while it fits 64 bits. -/
def integerDigits (positive : Bool) : Nat → Nat → Scan Number
  | 0, _ => failHere .invalidNumber
  | fuel + 1, significand => do
    match ← peek with
    | some c =>
      if isDigit c then
        if significand * 10 + digitValue c > u64Max then
          return .float (← longDigits positive significand (← Scan.fuel) 0)
        else do
          bump
          integerDigits positive fuel (significand * 10 + digitValue c)
      else afterInteger positive significand
    | none => afterInteger positive significand

/-- Reads a number after its optional minus sign; `positive` is false after a minus. A
leading zero may not be followed by another digit. -/
def number (positive : Bool) : Scan Number := do
  match ← next with
  | none => failHere .eofInValue
  | some c =>
    if c == 48 then
      match ← peek with
      | some d => if isDigit d then failAtPeek .invalidNumber else afterInteger positive 0
      | none => afterInteger positive 0
    else if isDigit c then integerDigits positive (← fuel) (digitValue c)
    else failHere .invalidNumber

/-- Checks a number after its optional minus sign without building it. -/
def skipNumber : Scan Unit := do
  match ← next with
  | some c =>
    if c == 48 then
      match ← peek with
      | some d => if isDigit d then failAtPeek .invalidNumber
      | none => pure ()
    else if isDigit c then skipDigits
    else failHere .invalidNumber
  | none => failHere .invalidNumber
  if (← peek) == some 46 then
    bump
    match ← peek with
    | some d => if isDigit d then skipDigits else failAtPeek .invalidNumber
    | none => failAtPeek .invalidNumber
  let e ← peek
  if e == some 101 || e == some 69 then
    bump
    let s ← peek
    if s == some 43 || s == some 45 then bump
    match ← next with
    | some d => if isDigit d then skipDigits else failHere .invalidNumber
    | none => failHere .invalidNumber

end Scan
end Json
end FeedClient
