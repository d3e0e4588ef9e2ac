/-!
# JSON values

A JSON value with numbers classified the way the reader classifies them: a nonnegative
integer that fits 64 bits, a negative integer that fits 64 signed bits, or else a double.

Objects are lists of fields. A value read as a document keeps its object keys sorted and
unique (`Fields.insert`: a repeated key replaces the earlier value, in place); a value read
as buffered content keeps every field in document order, repeats included.
-/

namespace FeedClient
namespace Json

/-- A JSON number. -/
inductive Number where
  /-- A nonnegative integer below `2 ^ 64`. -/
  | nat (n : UInt64)
  /-- A negative integer not below `-2 ^ 63`. -/
  | neg (n : Int64)
  /-- Any other number, as a double. -/
  | float (x : Float)
  deriving Inhabited

/-- A JSON value. -/
inductive Value where
  | null
  | bool (b : Bool)
  | number (n : Number)
  | string (s : String)
  | array (items : List Value)
  | object (fields : List (String × Value))
  deriving Inhabited

/-- Fields of an object, in order. -/
abbrev Fields := List (String × Value)

/-- Inserts a field into fields sorted by key: a new key goes to its place in the order, a
present key keeps its place and takes the new value. -/
def Fields.insert (key : String) (v : Value) : Fields → Fields
  | [] => [(key, v)]
  | (k, w) :: rest =>
    if key < k then (key, v) :: (k, w) :: rest
    else if key = k then (k, v) :: rest
    else (k, w) :: Fields.insert key v rest

/-- The value of the first field named `key`. -/
def Fields.find? (key : String) : Fields → Option Value
  | [] => none
  | (k, v) :: rest => if k = key then some v else Fields.find? key rest

/-- Removes every field named `key`. -/
def Fields.erase (key : String) (fs : Fields) : Fields :=
  fs.filter (fun f => f.1 != key)

/-- The member `key` of an object, if the value is an object that has one. -/
def Value.field? (key : String) : Value → Option Value
  | .object fs => Fields.find? key fs
  | _ => none

/-- An integer as a JSON number: nonnegative integers are `nat`, negative ones `neg`. -/
def Number.ofInt64 (i : Int64) : Number :=
  if i < 0 then .neg i else .nat i.toUInt64

/-- A nonnegative integer as a JSON value. -/
def Value.ofNat64 (n : UInt64) : Value := .number (.nat n)

/-- A string as a JSON value. -/
def Value.str (s : String) : Value := .string s

/-- An optional string: `null` when absent. -/
def Value.ofOption (s : Option String) : Value :=
  match s with
  | some t => .string t
  | none => .null

/-- An empty object has no member. -/
@[simp]
theorem Fields.find?_nil (key : String) : Fields.find? key [] = none := rfl

end Json
end FeedClient
