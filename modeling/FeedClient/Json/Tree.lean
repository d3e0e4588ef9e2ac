import FeedClient.Json.Form

/-!
# Typed reading from a JSON value

The same readers as `Json.Decode`, reading from a value that is already built. Faults carry
no position. A value can come from a whole document (`Origin.document`: object keys sorted
and unique) or be the buffered rest of an internally tagged object (`Origin.content`: members
in order, repeats kept). The two differ only in how they report an array with elements left
over, and in that buffered content also takes an empty object for `null`.
-/

namespace FeedClient
namespace Json

/-- Where a value being read comes from. -/
inductive Origin where
  | document
  | content
  deriving Repr, DecidableEq

namespace Tree

/-- Reads a 64-bit signed integer. -/
def int64 : Value → Except Fault Int64
  | .number (.nat n) =>
    if n.toNat < Nat.pow 2 63 then .ok n.toInt64 else .error (.wrongValue (.unsigned n) "i64")
  | .number (.neg n) => .ok n
  | v => .error (.wrongType v.found "i64")

/-- Reads a 64-bit unsigned integer. -/
def nat64 : Value → Except Fault UInt64
  | .number (.nat n) => .ok n
  | .number (.neg n) => .error (.wrongValue (.signed n) "u64")
  | v => .error (.wrongType v.found "u64")

/-- Reads a string; `expected` names it in messages. -/
def text (expected : String := "a string") : Value → Except Fault String
  | .string s => .ok s
  | v => .error (.wrongType v.found expected)

/-- Reads a boolean. -/
def flag : Value → Except Fault Bool
  | .bool b => .ok b
  | v => .error (.wrongType v.found "a boolean")

/-- Reads `null` as none, anything else with `read`. -/
def optional (read : Value → Except Fault α) : Value → Except Fault (Option α)
  | .null => .ok none
  | v => some <$> read v

/-- Reads a name among `names` and returns its index. -/
def variant (names : List String) : Value → Except Fault Nat
  | .string s =>
    match names.idxOf? s with
    | some i => .ok i
    | none => .error (.unknownVariant s names)
  | v => .error (.wrongType v.found "variant identifier")

/-- Reads the unit value. -/
def unit (origin : Origin) : Value → Except Fault Unit
  | .null => .ok ()
  | .object [] => if origin == .content then .ok () else .error (.wrongType .map "unit")
  | v => .error (.wrongType v.found "unit")

/-- Reads an enumeration without data: its name, or an object with the name as its only
key. -/
def unitVariant (origin : Origin) (names : List String) : Value → Except Fault Nat
  | .string s => variant names (.string s)
  | .object [(k, v)] => do
    let i ← variant names (.string k)
    unit origin v
    pure i
  | .object _ => .error (.wrongValue .map "map with a single key")
  | v => .error (.wrongType v.found "string or map")

/-- Reads the members of a record's object in order. -/
def recordMembers (form : RecordForm σ) (field : Nat → Value → σ → Except Fault σ) :
    Fields → List Nat → σ → Except Fault (σ × List Nat)
  | [], seen, st => .ok (st, seen)
  | (k, v) :: rest, seen, st =>
    match form.slot k with
    | some i =>
      if seen.contains i then .error (.duplicateField (form.fieldName i))
      else do
        let st' ← field i v st
        recordMembers form field rest (i :: seen) st'
    | none => recordMembers form field rest seen st

/-- Reads the elements of a record's array from field `i` on; returns the record and how
many elements were used. -/
def recordElements (form : RecordForm σ) (field : Nat → Value → σ → Except Fault σ) :
    Nat → Nat → List Value → σ → Except Fault (σ × Nat)
  | 0, i, _, st => .ok (st, i)
  | left + 1, i, [], st =>
    match form.shortArray i with
    | some f => .error f
    | none => do
      let (st', _) ← recordElements form field left (i + 1) [] st
      pure (st', i)
  | left + 1, i, v :: rest, st => do
    let st' ← field i v st
    recordElements form field left (i + 1) rest st'

/-- The fault for an array with elements left over after a record took `used` of `total`. -/
def leftOver (origin : Origin) (used total : Nat) : Fault :=
  match origin with
  | .document => .wrongLength total "fewer elements in array"
  | .content =>
    .wrongLength total (toString used ++ (if used == 1 then " element" else " elements") ++
      " in sequence")

/-- Reads a record from an object or an array. -/
def record (origin : Origin) (form : RecordForm σ) (field : Nat → Value → σ → Except Fault σ) :
    Value → Except Fault σ
  | .object fs => do
    let (st, seen) ← recordMembers form field fs [] form.start
    form.finishObject st seen
  | .array items => do
    let (st, used) ← recordElements form field form.fields.length 0 items form.start
    if used < items.length then .error (leftOver origin used items.length) else pure st
  | v => .error (.wrongType v.found form.expecting)

/-- Reads the members of an internally tagged object. -/
def taggedMembers (tag : String) (names : List String) :
    Fields → Option Nat → Fields → Except Fault (Nat × Value)
  | [], found, acc =>
    match found with
    | some i => .ok (i, .object acc)
    | none => .error (.missingField tag)
  | (k, v) :: rest, found, acc =>
    if k == tag then
      if found.isSome then .error (.duplicateField tag)
      else do
        let i ← variant names v
        taggedMembers tag names rest (some i) acc
    else taggedMembers tag names rest found (acc ++ [(k, v)])

/-- Reads an internally tagged value: the variant named by member `tag` (or by the first
element of an array) and the rest as content. -/
def tagged (tag expecting : String) (names : List String) : Value → Except Fault (Nat × Value)
  | .object fs => taggedMembers tag names fs none []
  | .array (t :: rest) => do
    let i ← variant names t
    pure (i, .array rest)
  | .array [] => .error (.missingField tag)
  | v => .error (.wrongType v.found expecting)

end Tree

/-- A fault as an error without position. -/
def Fault.unplaced (f : Fault) : Error := { fault := f }

end Json
end FeedClient
