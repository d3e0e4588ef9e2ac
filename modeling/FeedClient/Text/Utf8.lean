/-!
# Well-formed UTF-8 prefixes

A byte list is read as UTF-8 by a small automaton. Before a character it needs a first byte;
the first byte fixes how many continuation bytes follow and the range of the first of them,
which is what excludes overlong forms, surrogates and code points above `U+10FFFF`:

| first byte    | next byte     | then             |
|---------------|---------------|------------------|
| `00`–`7F`     |               |                  |
| `C2`–`DF`     | `80`–`BF`     |                  |
| `E0`          | `A0`–`BF`     | one `80`–`BF`    |
| `E1`–`EC`, `EE`–`EF` | `80`–`BF` | one `80`–`BF` |
| `ED`          | `80`–`9F`     | one `80`–`BF`    |
| `F0`          | `90`–`BF`     | two `80`–`BF`    |
| `F1`–`F3`     | `80`–`BF`     | two `80`–`BF`    |
| `F4`          | `80`–`8F`     | two `80`–`BF`    |

`Utf8.validPrefixLength bs` counts the bytes of the whole characters read before the first
byte the automaton refuses, or before the end when the last character is cut short. It is
where a decoder reports the first malformed character.

Main statements:

- `validPrefixLength_le`: the well-formed prefix is part of the input.
- `validPrefixLength_ascii`: ASCII bytes are all well-formed.
-/

namespace FeedClient
namespace Utf8

/-- What the reader needs next: the first byte of a character, or a continuation byte
within `lo`–`hi` and after it `more` continuation bytes within `80`–`BF`. -/
inductive Need where
  | lead
  | tail (lo hi : UInt8) (more : Nat)

/-- What a first byte asks for next, or `none` for a byte that cannot start a character. -/
def afterLead (b : UInt8) : Option Need :=
  if b < 0x80 then some .lead
  else if 0xC2 ≤ b && b ≤ 0xDF then some (.tail 0x80 0xBF 0)
  else if b == 0xE0 then some (.tail 0xA0 0xBF 1)
  else if b == 0xED then some (.tail 0x80 0x9F 1)
  else if 0xE1 ≤ b && b ≤ 0xEF then some (.tail 0x80 0xBF 1)
  else if b == 0xF0 then some (.tail 0x90 0xBF 2)
  else if b == 0xF4 then some (.tail 0x80 0x8F 2)
  else if 0xF1 ≤ b && b ≤ 0xF3 then some (.tail 0x80 0xBF 2)
  else none

/-- Reads one byte: what is needed after it, or `none` when the byte is refused. -/
def Need.step : Need → UInt8 → Option Need
  | .lead, b => afterLead b
  | .tail lo hi more, b =>
    if lo ≤ b && b ≤ hi then
      match more with
      | 0 => some .lead
      | m + 1 => some (.tail 0x80 0xBF m)
    else none

/-- The well-formed prefix length, after `done` bytes of whole characters and `pending`
bytes of the character being read. -/
def validPrefixFrom : Need → Nat → Nat → List UInt8 → Nat
  | _, done, _, [] => done
  | need, done, pending, b :: bs =>
    match need.step b with
    | none => done
    | some .lead => validPrefixFrom .lead (done + pending + 1) 0 bs
    | some next => validPrefixFrom next done (pending + 1) bs

/-- The number of bytes of the whole characters before the first malformed one. -/
def validPrefixLength (bs : List UInt8) : Nat := validPrefixFrom .lead 0 0 bs

/-- The valid prefix found counts no more bytes than were read, pending and left. -/
theorem validPrefixFrom_le (need : Need) (done pending : Nat) (bs : List UInt8) :
    validPrefixFrom need done pending bs ≤ done + pending + bs.length := by
  induction bs generalizing need done pending with
  | nil => simp [validPrefixFrom]
  | cons b bs ih =>
    simp only [validPrefixFrom, List.length_cons]
    split
    · omega
    · have := ih .lead (done + pending + 1) 0
      omega
    · rename_i next _ _
      have := ih next done (pending + 1)
      omega

/-- The valid prefix of bytes is no longer than they are. -/
theorem validPrefixLength_le (bs : List UInt8) : validPrefixLength bs ≤ bs.length := by
  have := validPrefixFrom_le .lead 0 0 bs
  simpa [validPrefixLength] using this

/-- ASCII bytes after a complete character are all valid. -/
theorem validPrefixFrom_ascii (done : Nat) (bs : List UInt8) (h : ∀ b ∈ bs, b < 0x80) :
    validPrefixFrom .lead done 0 bs = done + bs.length := by
  induction bs generalizing done with
  | nil => simp [validPrefixFrom]
  | cons b bs ih =>
    have hb : b < 0x80 := h b (by simp)
    have hstep : Need.step .lead b = some .lead := by simp [Need.step, afterLead, hb]
    simp only [validPrefixFrom, hstep, List.length_cons]
    rw [ih (done + 0 + 1) (fun x hx => h x (by simp [hx]))]
    omega

/-- ASCII bytes are valid UTF-8 throughout. -/
theorem validPrefixLength_ascii (bs : List UInt8) (h : ∀ b ∈ bs, b < 0x80) :
    validPrefixLength bs = bs.length := by
  simpa [validPrefixLength] using validPrefixFrom_ascii 0 bs h

end Utf8
end FeedClient
