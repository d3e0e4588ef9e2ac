import FeedClient.Json.Error
import FeedClient.Text.Utf8

/-!
# Reading JSON text byte by byte

A `Cursor` is the unread rest of the input with the position reached so far and the
nesting still allowed. `Scan` reads from a cursor and may fail with an `Error`.

Two positions matter for errors: the position reached (`Cursor.position`), used for faults
found in bytes already read, and the position just past the next unread byte
(`Cursor.peekPosition`), used for faults found by looking at that byte.

This module holds the lexical pieces: blanks, the words `null`, `true` and `false`, strings
with their escapes, and numbers. Loops that read one byte or more per round take as fuel the
number of bytes left, which is always enough.
-/

namespace FeedClient
namespace Json

/-- How deep containers may nest in a document. -/
def nestingLimit : Nat := 128

/-- Unread input, position reached, and remaining nesting allowance. -/
structure Cursor where
  rest : List UInt8
  line : Nat := 1
  column : Nat := 0
  depth : Nat := nestingLimit

/-- A cursor at the start of a text given as bytes. -/
def Cursor.ofBytes (bytes : List UInt8) : Cursor := { rest := bytes }

/-- The position after reading byte `b` at line `l`, column `c`. -/
def advance (l c : Nat) (b : UInt8) : Nat × Nat :=
  if b == 10 then (l + 1, 0) else (l, c + 1)

/-- The position reached. -/
def Cursor.position (c : Cursor) : Position := ⟨c.line, c.column⟩

/-- The position just past the next unread byte, or the position reached at the end. -/
def Cursor.peekPosition (c : Cursor) : Position :=
  match c.rest with
  | [] => c.position
  | b :: _ => let p := advance c.line c.column b; ⟨p.1, p.2⟩

/-- Reads one byte, if any. -/
def Cursor.bump (c : Cursor) : Cursor :=
  match c.rest with
  | [] => c
  | b :: r => let p := advance c.line c.column b; { c with rest := r, line := p.1, column := p.2 }

/-- Whether a byte is a JSON blank: space, line feed, tab or carriage return. -/
def isBlank (b : UInt8) : Bool := b == 32 || b == 10 || b == 9 || b == 13

/-- Whether a byte is an ASCII digit. -/
def isDigit (b : UInt8) : Bool := 48 ≤ b && b ≤ 57

/-- Reads bytes while `keep` holds of the next one. -/
def Cursor.skipWhile (keep : UInt8 → Bool) (c : Cursor) : Cursor :=
  match h : c.rest with
  | [] => c
  | b :: _ =>
    if keep b then Cursor.skipWhile keep c.bump else c
termination_by c.rest.length
decreasing_by simp [Cursor.bump, h]

/-- Reads blanks. -/
def Cursor.skipBlanks (c : Cursor) : Cursor := c.skipWhile isBlank

/-- Reads everything that is left. -/
def Cursor.skipAll (c : Cursor) : Cursor := c.skipWhile (fun _ => true)

/-- Reading that may fail. A failed reading keeps the cursor where it failed, so that what
follows a failure (closing brackets, positions) can still be read from it. -/
abbrev Scan := ExceptT Error (StateM Cursor)

namespace Scan

/-- Fails with a fault of the text at the position reached. -/
def failHere (s : Malformed) : Scan α := do
  throw { fault := .malformed s, position := some (← get).position }

/-- Fails with a fault of the text `back` bytes before the position reached, on its line. -/
def failBehind (back : Nat) (s : Malformed) : Scan α := do
  let c ← get
  throw { fault := .malformed s, position := some ⟨c.line, c.column - back⟩ }

/-- Fails with a fault of the text at the position past the next byte. -/
def failAtPeek (s : Malformed) : Scan α := do
  throw { fault := .malformed s, position := some (← get).peekPosition }

/-- The next byte, unread. -/
def peek : Scan (Option UInt8) := do return (← get).rest.head?

/-- Reads one byte. -/
def bump : Scan Unit := modify Cursor.bump

/-- Reads and returns the next byte, if any. -/
def next : Scan (Option UInt8) := do
  let b ← peek
  bump
  return b

/-- Reads blanks and returns the next byte, unread. -/
def blank : Scan (Option UInt8) := do
  modify Cursor.skipBlanks
  peek

/-- Reads digits. -/
def skipDigits : Scan Unit := modify (Cursor.skipWhile isDigit)

/-- The fuel for a loop that reads at least one byte per round. -/
def fuel : Scan Nat := do return (← get).rest.length + 1

/-- Reads the rest of a word after its first letter: each expected byte must follow. -/
def word : List UInt8 → Scan Unit
  | [] => return
  | b :: bs => do
    match ← next with
    | none => failHere .eofInValue
    | some x => if x == b then word bs else failHere .expectedIdent

/-! ## Strings -/

/-- The value of an ASCII hex digit. -/
def hexValue (b : UInt8) : Option Nat :=
  if 48 ≤ b && b ≤ 57 then some (b - 48).toNat
  else if 97 ≤ b && b ≤ 102 then some (b - 87).toNat
  else if 65 ≤ b && b ≤ 70 then some (b - 55).toNat
  else none

/-- Reads the four hex digits of a `\u` escape. With fewer than four bytes left, all are
read and the string is unterminated; four bytes that are not all hex digits are an invalid
escape, found after them. -/
def hexQuad : Scan Nat := do
  match (← get).rest with
  | a :: b :: d :: e :: _ =>
    bump; bump; bump; bump
    match hexValue a, hexValue b, hexValue d, hexValue e with
    | some w, some x, some y, some z => return ((w * 16 + x) * 16 + y) * 16 + z
    | _, _, _, _ => failHere .invalidEscape
  | _ =>
    modify Cursor.skipAll
    failHere .eofInString

/-- The UTF-8 bytes of a code point. -/
def utf8 (n : Nat) : List UInt8 := String.utf8EncodeChar (Char.ofNat n)

/-- Whether a code point is a low (trailing) surrogate. -/
def isLowSurrogate (n : Nat) : Bool := 0xDC00 ≤ n && n ≤ 0xDFFF

/-- Whether a code point is a high (leading) surrogate. -/
def isHighSurrogate (n : Nat) : Bool := 0xD800 ≤ n && n ≤ 0xDBFF

/-- Reads the `\u` that must follow a high surrogate: a byte other than the expected one is
read and refused. -/
def expectEscapeByte (b : UInt8) : Scan Unit := do
  match ← peek with
  | none => failHere .eofInString
  | some x =>
    bump
    if x != b then failHere .unexpectedEndOfEscape

/-- Reads a `\u` escape after the `u`, with the low surrogate that must follow a high one,
and returns the UTF-8 bytes of the character. -/
def unicodeEscape : Scan (List UInt8) := do
  let n ← hexQuad
  if isLowSurrogate n then failHere .loneSurrogate
  else if !isHighSurrogate n then return utf8 n
  else
    expectEscapeByte 92
    expectEscapeByte 117
    let m ← hexQuad
    if !isLowSurrogate m then failHere .loneSurrogate
    else return utf8 ((n - 0xD800) * 0x400 + (m - 0xDC00) + 0x10000)

/-- Reads an escape after its backslash and returns the bytes it stands for. -/
def escape : Scan (List UInt8) := do
  match ← next with
  | none => failHere .eofInString
  | some 34 => return [34]
  | some 92 => return [92]
  | some 47 => return [47]
  | some 98 => return [8]
  | some 102 => return [12]
  | some 110 => return [10]
  | some 114 => return [13]
  | some 116 => return [9]
  | some 117 => unicodeEscape
  | some _ => failHere .invalidEscape

/-- Reads string content up to and including the closing quote; `acc` holds the bytes so
far, last first. -/
def stringLoop : Nat → List UInt8 → Scan (List UInt8)
  | 0, _ => failHere .eofInString
  | fuel + 1, acc => do
    match ← peek with
    | none => failHere .eofInString
    | some 34 => bump; return acc.reverse
    | some 92 => bump; let bs ← escape; stringLoop fuel (bs.reverse ++ acc)
    | some b =>
      bump
      if b < 0x20 then failHere .controlCharacter else stringLoop fuel (b :: acc)

/-- Reads a string after its opening quote. Its bytes must be UTF-8. A text that is not is
refused once the closing quote is read, as many bytes before the end of the quote as the
decoded text has from its first malformed character on: a string holds no line break, so
that place lies on the quote's line, after the malformed byte. -/
def string : Scan String := do
  let bytes ← stringLoop (← fuel) []
  match String.fromUTF8? (ByteArray.mk bytes.toArray) with
  | some s => return s
  | none => failBehind (bytes.length - Utf8.validPrefixLength bytes) .invalidCodePoint

/-- Reads an escape after its backslash without decoding it: any four hex digits pass. -/
def skipEscape : Scan Unit := do
  match ← next with
  | none => failHere .eofInString
  | some b =>
    if b == 34 || b == 92 || b == 47 || b == 98 || b == 102 || b == 110 || b == 114 ||
        b == 116 then return
    else if b == 117 then do let _ ← hexQuad; return
    else failHere .invalidEscape

/-- Reads string content up to the closing quote without decoding it. A control character
is refused before it is read. -/
def skipStringLoop : Nat → Scan Unit
  | 0 => failHere .eofInString
  | fuel + 1 => do
    match ← peek with
    | none => failHere .eofInString
    | some 34 => bump
    | some 92 => bump; skipEscape; skipStringLoop fuel
    | some b => if b < 0x20 then failHere .controlCharacter else do bump; skipStringLoop fuel

/-- Reads a string after its opening quote without decoding it. -/
def skipString : Scan Unit := do skipStringLoop (← fuel)

end Scan
end Json
end FeedClient
