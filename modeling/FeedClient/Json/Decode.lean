import FeedClient.Json.Reader
import FeedClient.Json.Form

/-!
# Typed reading from JSON text

Readers for integers, strings, booleans, optional values, records, enumerations by name and
internally tagged values, reading straight from the text.

A value of the wrong kind is described in the error (`Found`) and, when it is a scalar, read
first, so the error stands after it; an array or object stands where it starts. Faults found
while reading a record or number carry no position of their own: they take the position
reached when the reading of that record or number gives up, after its closing bracket when
it has one (`Scan.placed`).
-/

namespace FeedClient
namespace Json
namespace Scan

/-- Fails with a fault that takes its position later. -/
def fault (f : Fault) : Scan α := throw { fault := f }

/-- Fails with a fault at the position reached. -/
def faultHere (f : Fault) : Scan α := do
  throw { fault := f, position := some (← get).position }

/-- Fails because the value ahead is not what `expected` names: reads it when it is a scalar
and describes it. -/
def wrongType (expected : String) : Scan α := do
  match ← peek with
  | some 110 => bump; word [117, 108, 108]; faultHere (.wrongType .null expected)
  | some 116 => bump; word [114, 117, 101]; faultHere (.wrongType (.bool true) expected)
  | some 102 => bump; word [97, 108, 115, 101]; faultHere (.wrongType (.bool false) expected)
  | some 45 => bump; let n ← number false; faultHere (.wrongType n.found expected)
  | some 34 => bump; let s ← string; faultHere (.wrongType (.text s) expected)
  | some 91 => faultHere (.wrongType .sequence expected)
  | some 123 => faultHere (.wrongType .map expected)
  | some b =>
    if isDigit b then do let n ← number true; faultHere (.wrongType n.found expected)
    else failAtPeek .expectedValue
  | none => failAtPeek .expectedValue

/-- Reads a number where an integer is expected. -/
def integer (expected : String) : Scan Number := do
  match ← blank with
  | none => failAtPeek .eofInValue
  | some 45 => bump; number false
  | some b => if isDigit b then number true else wrongType expected

/-- Reads a 64-bit signed integer. -/
def int64 : Scan Int64 := placed do
  match ← integer "i64" with
  | .nat n => if n.toNat < Nat.pow 2 63 then pure n.toInt64 else fault (.wrongValue (.unsigned n) "i64")
  | .neg n => pure n
  | .float x => fault (.wrongType (.float x) "i64")

/-- Reads a 64-bit unsigned integer. -/
def nat64 : Scan UInt64 := placed do
  match ← integer "u64" with
  | .nat n => pure n
  | .neg n => fault (.wrongValue (.signed n) "u64")
  | .float x => fault (.wrongType (.float x) "u64")

/-- Reads a string; `expected` names it in messages. -/
def text (expected : String := "a string") : Scan String := placed do
  match ← blank with
  | none => failAtPeek .eofInValue
  | some 34 => bump; string
  | some _ => wrongType expected

/-- Reads a boolean. -/
def flag : Scan Bool := placed do
  match ← blank with
  | none => failAtPeek .eofInValue
  | some 116 => bump; word [114, 117, 101]; pure true
  | some 102 => bump; word [97, 108, 115, 101]; pure false
  | some _ => wrongType "a boolean"

/-- Reads `null` as none, anything else with `read`. -/
def optional (read : Scan α) : Scan (Option α) := do
  match ← blank with
  | some 110 => bump; word [117, 108, 108]; pure none
  | _ => some <$> read

/-- Reads `null` as the unit value. -/
def unit : Scan Unit := placed do
  match ← blank with
  | none => failAtPeek .eofInValue
  | some 110 => bump; word [117, 108, 108]
  | some _ => wrongType "unit"

/-- Reads a name among `names` and returns its index. -/
def variant (names : List String) : Scan Nat := placed do
  match ← blank with
  | none => failAtPeek .eofInValue
  | some 34 =>
    bump
    let s ← string
    match names.idxOf? s with
    | some i => pure i
    | none => fault (.unknownVariant s names)
  | some _ => wrongType "variant identifier"

/-- Reads an enumeration without data: its name as a string, or an object with the name as
its only key and `null` as its value. -/
def unitVariant (names : List String) : Scan Nat := do
  match ← blank with
  | some 34 => variant names
  | some 123 =>
    enter
    let i ← variant names
    colon
    unit
    leave
    match ← blank with
    | some 125 => bump; pure i
    | some _ => failHere .expectedValue
    | none => failHere .eofInObject
  | some _ => failAtPeek .expectedValue
  | none => failAtPeek .eofInValue

/-! ## Records -/

/-- Reads the members of a record's object: each key names a field, read with `field`, or
is skipped. A field named twice is refused. Returns the record and the fields read. -/
def recordMembers (form : RecordForm σ) (field : Nat → σ → Scan σ) :
    Nat → Bool → List Nat → σ → Scan (σ × List Nat)
  | 0, _, _, _ => failHere .recursionLimit
  | fuel + 1, first, seen, st => do
    match ← nextKey? first with
    | none => pure (st, seen)
    | some k =>
      match form.slot k with
      | some i =>
        if seen.contains i then fault (.duplicateField (form.fieldName i))
        else
          colon
          let st' ← field i st
          recordMembers form field fuel false (i :: seen) st'
      | none =>
        colon
        skip
        recordMembers form field fuel false seen st

/-- Reads the elements of a record's array, field `i` onwards, in declaration order. An
array that ends early leaves defaulting fields at their defaults. -/
def recordElements (form : RecordForm σ) (field : Nat → σ → Scan σ) :
    Nat → Nat → Bool → σ → Scan σ
  | 0, _, _, st => pure st
  | left + 1, i, first, st => do
    if ← nextElement? first then
      let st' ← field i st
      recordElements form field left (i + 1) false st'
    else
      match form.shortArray i with
      | some f => fault f
      | none => recordElements form field left (i + 1) first st

/-- Reads a record from an object or an array. -/
def record (form : RecordForm σ) (field : Nat → σ → Scan σ) : Scan σ := placed do
  match ← blank with
  | none => failAtPeek .eofInValue
  | some 123 =>
    enter
    let st ← thenClose (do
      let (st, seen) ← recordMembers form field (← fuel) true [] form.start
      match form.finishObject st seen with
      | .ok st => pure st
      | .error f => fault f) endObject
    leave
    pure st
  | some 91 =>
    enter
    let st ← thenClose (recordElements form field form.fields.length 0 true form.start) endArray
    leave
    pure st
  | some _ => wrongType form.expecting

/-! ## Internally tagged values -/

/-- Reads the members of an internally tagged object: the tag member names the variant, the
others are kept in order as content. -/
def taggedMembers (tag : String) (names : List String) :
    Nat → Bool → Option Nat → Fields → Scan (Nat × Value)
  | 0, _, _, _ => failHere .recursionLimit
  | fuel + 1, first, found, acc => do
    match ← nextKey? first with
    | none =>
      match found with
      | some i => pure (i, .object acc)
      | none => fault (.missingField tag)
    | some k =>
      if k == tag then
        if found.isSome then fault (.duplicateField tag)
        else
          colon
          let i ← variant names
          taggedMembers tag names fuel false (some i) acc
      else
        colon
        let v ← anyValue true
        taggedMembers tag names fuel false found (acc ++ [(k, v)])

/-- Reads an internally tagged value: an object whose member `tag` names the variant, or an
array whose first element does. Returns the variant's index and the rest as content. -/
def tagged (tag expecting : String) (names : List String) : Scan (Nat × Value) := placed do
  match ← blank with
  | none => failAtPeek .eofInValue
  | some 123 =>
    enter
    let r ← thenClose (do taggedMembers tag names (← fuel) true none []) endObject
    leave
    pure r
  | some 91 =>
    enter
    let r ← thenClose (do
      if ← nextElement? true then
        let i ← variant names
        let rest ← elements true (2 * (← fuel)) false []
        pure (i, Value.array rest)
      else fault (.missingField tag)) endArray
    leave
    pure r
  | some _ => wrongType expecting

end Scan
end Json
end FeedClient
