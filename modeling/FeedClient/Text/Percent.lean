/-!
# Percent-encoding

`Percent.encode` keeps the unreserved characters `A-Z a-z 0-9 - . _ ~` and writes every other
byte of the UTF-8 form as `%XX`, with uppercase hex digits. `Percent.decode` reads such text
back into bytes.
-/

namespace FeedClient
namespace Percent

/-- Bytes that stand for themselves: ASCII letters, digits, `-`, `.`, `_` and `~`. -/
def isUnreserved (b : UInt8) : Bool :=
  (65 ≤ b && b ≤ 90) || (97 ≤ b && b ≤ 122) || (48 ≤ b && b ≤ 57) ||
  b == 45 || b == 46 || b == 95 || b == 126

/-- Uppercase hex digit of a value below sixteen. -/
def hexUpper (n : Nat) : Char :=
  if n < 10 then Char.ofNat (48 + n) else Char.ofNat (55 + n)

/-- The encoded form of one byte. -/
def encodeByte (b : UInt8) : List Char :=
  if isUnreserved b then [Char.ofNat b.toNat]
  else ['%', hexUpper (b.toNat / 16), hexUpper (b.toNat % 16)]

/-- The encoded form of a byte sequence. -/
def encodeBytes (bs : List UInt8) : String :=
  String.ofList (bs.flatMap encodeByte)

/-- The encoded form of a text's UTF-8 bytes. -/
def encode (s : String) : String := encodeBytes s.toUTF8.toList

/-- The value of a hex digit of either case. -/
def hexValue? (c : Char) : Option Nat :=
  if '0' ≤ c ∧ c ≤ '9' then some (c.toNat - 48)
  else if 'A' ≤ c ∧ c ≤ 'F' then some (c.toNat - 55)
  else if 'a' ≤ c ∧ c ≤ 'f' then some (c.toNat - 87)
  else none

/-- Reads percent-encoded text back into bytes; `none` if a `%` is not followed by two hex
digits or a character other than `%` is outside ASCII. -/
def decodeChars : List Char → Option (List UInt8)
  | [] => some []
  | '%' :: a :: b :: rest =>
    match hexValue? a, hexValue? b, decodeChars rest with
    | some x, some y, some r => some ((x * 16 + y).toUInt8 :: r)
    | _, _, _ => none
  | c :: rest =>
    if c = '%' ∨ c.toNat ≥ 128 then none else (decodeChars rest).map (c.toNat.toUInt8 :: ·)

/-- No bytes encode as the empty text. -/
@[simp]
theorem encodeBytes_nil : encodeBytes [] = "" := rfl

end Percent
end FeedClient
