import FeedClient.Json.Numeral

/-!
# Reading JSON values

The structure of arrays and objects: `Scan.nextElement?` and `Scan.nextKey?` step through
the members of an array or object, `Scan.endArray` and `Scan.endObject` read the closing
bracket, and `Scan.enter` spends one level of the nesting allowance. Typed decoding uses
the same steps.

`Scan.value` reads any value. `Scan.skip` checks a value without keeping it: it neither
validates UTF-8 in strings nor checks number ranges nor limits nesting, and it reports a
comma before a closing bracket as a missing value or key. `Value.read` reads a whole
document: one value, then only blanks.
-/

namespace FeedClient
namespace Json
namespace Scan

/-- Spends one level of nesting and reads the opening bracket. The last level cannot be
spent: the bracket that would need it is refused. -/
def enter : Scan Unit := do
  let c ← get
  if c.depth ≤ 1 then failAtPeek .recursionLimit
  else set { c.bump with depth := c.depth - 1 }

/-- Gives back the level spent by `enter`. -/
def leave : Scan Unit := modify fun c => { c with depth := c.depth + 1 }

/-- Steps to the next element of an array: `true` when one starts here, `false` at the
closing bracket (left unread). `first` tells whether no element was read yet. -/
def nextElement? (first : Bool) : Scan Bool := do
  let b ← blank
  let start ← do
    match b with
    | some 93 => pure none
    | some 44 =>
      if first then pure (some (some 44))
      else do bump; pure (some (← blank))
    | some x => if first then pure (some (some x)) else failAtPeek .expectedListCommaOrEnd
    | none => failAtPeek .eofInList
  match start with
  | none => return false
  | some (some 93) => failAtPeek .trailingComma
  | some (some _) => return true
  | some none => failAtPeek .eofInValue

/-- Steps to the next member of an object and reads its key, or returns `none` at the
closing brace (left unread). -/
def nextKey? (first : Bool) : Scan (Option String) := do
  let b ← blank
  let start ← do
    match b with
    | some 125 => pure none
    | some 44 =>
      if first then pure (some (some 44))
      else do bump; pure (some (← blank))
    | some x => if first then pure (some (some x)) else failAtPeek .expectedObjectCommaOrEnd
    | none => failAtPeek .eofInObject
  match start with
  | none => return none
  | some (some 34) => bump; return some (← string)
  | some (some 125) => failAtPeek .trailingComma
  | some (some _) => failAtPeek .keyMustBeString
  | some none => failAtPeek .eofInValue

/-- Reads the colon between a key and its value. -/
def colon : Scan Unit := do
  match ← blank with
  | some 58 => bump
  | some _ => failAtPeek .expectedColon
  | none => failAtPeek .eofInObject

/-- Reads the closing bracket of an array; anything else left in it is an error. -/
def endArray : Scan Unit := do
  match ← blank with
  | some 93 => bump
  | some 44 =>
    bump
    match ← blank with
    | some 93 => failAtPeek .trailingComma
    | _ => failAtPeek .trailingCharacters
  | some _ => failAtPeek .trailingCharacters
  | none => failAtPeek .eofInList

/-- Reads the closing brace of an object; anything else left in it is an error. -/
def endObject : Scan Unit := do
  match ← blank with
  | some 125 => bump
  | some 44 => failAtPeek .trailingComma
  | some _ => failAtPeek .trailingCharacters
  | none => failAtPeek .eofInObject

/-- Runs `body` and returns its outcome, keeping the cursor where it stopped. -/
def attempt (body : Scan α) : Scan (Except Error α) := ExceptT.lift body.run

/-- Runs `body` and, whether it succeeds or not, reads the closing bracket with `close`
afterwards. An error of `body` wins over one of `close`. -/
def thenClose (body : Scan α) (close : Scan Unit) : Scan α := do
  match ← attempt body with
  | .ok a => close; pure a
  | .error e => let _ ← attempt close; throw e

/-- Runs `body`; an error without a position gets the position reached when it failed. -/
def placed (body : Scan α) : Scan α := do
  match ← attempt body with
  | .ok a => pure a
  | .error e => throw (e.placeAt (← get).position)

/-- Adds a field: sorted with the last value winning, or in order with repeats. -/
def addField (ordered : Bool) (k : String) (v : Value) (fs : Fields) : Fields :=
  if ordered then fs ++ [(k, v)] else Fields.insert k v fs

mutual

/-- Reads any value. `ordered` keeps object fields in document order with repeats;
otherwise fields are sorted by key and a repeated key keeps its last value. -/
def value (ordered : Bool) : Nat → Scan Value
  | 0 => failHere .recursionLimit
  | fuel + 1 => do
    match ← blank with
    | none => failAtPeek .eofInValue
    | some b =>
      if b == 110 then do bump; word [117, 108, 108]; return .null
      else if b == 116 then do bump; word [114, 117, 101]; return .bool true
      else if b == 102 then do bump; word [97, 108, 115, 101]; return .bool false
      else if b == 45 then do bump; return .number (← number false)
      else if isDigit b then return .number (← number true)
      else if b == 34 then do bump; return .string (← string)
      else if b == 91 then do
        enter
        let items ← thenClose (elements ordered fuel true []) endArray
        leave
        return .array items
      else if b == 123 then do
        enter
        let fs ← thenClose (members ordered fuel true []) endObject
        leave
        return .object fs
      else failAtPeek .expectedValue

/-- Reads the elements of an array up to its closing bracket, left unread. -/
def elements (ordered : Bool) : Nat → Bool → List Value → Scan (List Value)
  | 0, _, _ => failHere .recursionLimit
  | fuel + 1, first, acc => do
    if ← nextElement? first then
      let v ← value ordered fuel
      elements ordered fuel false (v :: acc)
    else return acc.reverse

/-- Reads the members of an object up to its closing brace, left unread. -/
def members (ordered : Bool) : Nat → Bool → Fields → Scan Fields
  | 0, _, _ => failHere .recursionLimit
  | fuel + 1, first, acc => do
    match ← nextKey? first with
    | none => return acc
    | some k =>
      colon
      let v ← value ordered fuel
      members ordered fuel false (addField ordered k v acc)

end

mutual

/-- Checks any value without keeping it. -/
def skipValue : Nat → Scan Unit
  | 0 => failHere .recursionLimit
  | fuel + 1 => do
    match ← blank with
    | none => failAtPeek .eofInValue
    | some b =>
      if b == 110 then do bump; word [117, 108, 108]
      else if b == 116 then do bump; word [114, 117, 101]
      else if b == 102 then do bump; word [97, 108, 115, 101]
      else if b == 45 then do bump; skipNumber
      else if isDigit b then skipNumber
      else if b == 34 then do bump; skipString
      else if b == 91 then do
        bump
        match ← blank with
        | some 93 => bump
        | none => failAtPeek .eofInList
        | some _ => skipValue fuel; skipElements fuel
      else if b == 123 then do
        bump
        match ← blank with
        | some 125 => bump
        | none => failAtPeek .eofInObject
        | some _ => skipMember fuel; skipMembers fuel
      else failAtPeek .expectedValue

/-- After an element: a comma and another element, or the closing bracket. -/
def skipElements : Nat → Scan Unit
  | 0 => failHere .recursionLimit
  | fuel + 1 => do
    match ← blank with
    | some 44 => bump; skipValue fuel; skipElements fuel
    | some 93 => bump
    | some _ => failAtPeek .expectedListCommaOrEnd
    | none => failAtPeek .eofInList

/-- A key, a colon and a value. -/
def skipMember : Nat → Scan Unit
  | 0 => failHere .recursionLimit
  | fuel + 1 => do
    match ← blank with
    | some 34 => bump; skipString
    | some _ => failAtPeek .keyMustBeString
    | none => failAtPeek .eofInObject
    colon
    skipValue fuel

/-- After a member: a comma and another member, or the closing brace. -/
def skipMembers : Nat → Scan Unit
  | 0 => failHere .recursionLimit
  | fuel + 1 => do
    match ← blank with
    | some 44 => bump; skipMember fuel; skipMembers fuel
    | some 125 => bump
    | some _ => failAtPeek .expectedObjectCommaOrEnd
    | none => failAtPeek .eofInObject

end

/-- Checks any value without keeping it, with enough fuel for the input left. -/
def skip : Scan Unit := do skipValue (2 * (← fuel))

/-- Reads any value, with enough fuel for the input left. -/
def anyValue (ordered : Bool) : Scan Value := do value ordered (2 * (← fuel))

/-- After a document's value only blanks may follow. -/
def finishDocument : Scan Unit := do
  match ← blank with
  | none => pure ()
  | some _ => failAtPeek .trailingCharacters

/-- Runs a reading on a whole document given as bytes. -/
def runDocument (body : Scan α) (bytes : List UInt8) : Except Error α :=
  ((do let a ← body; finishDocument; pure a : Scan α).run.run (Cursor.ofBytes bytes)).1

end Scan

/-- Reads a JSON document given as bytes. -/
def Value.read (bytes : List UInt8) : Except Error Value :=
  Scan.runDocument (Scan.anyValue false) bytes

/-- Reads a JSON document given as text. -/
def Value.readText (s : String) : Except Error Value :=
  Value.read s.toUTF8.toList

end Json
end FeedClient
