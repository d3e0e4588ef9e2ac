import FeedClient.Json.Number
import FeedClient.Text.Quote

/-!
# What goes wrong while reading JSON

A reading error is a `Fault` and, when it is known, the `Position` where it was found. The
reader's own faults are `Malformed` codes; typed decoding adds wrong types and values, wrong
lengths, unknown variants, and missing or repeated fields. `Error.message` is the one place
where their wording lives; a position is written as `at line L column C`.
-/

namespace FeedClient
namespace Json

/-- A place in the input: lines count from one, columns count the bytes read on the line. -/
structure Position where
  line : Nat
  column : Nat
  deriving Repr, DecidableEq

/-- The reader's own complaints about the text. -/
inductive Malformed where
  | eofInList
  | eofInObject
  | eofInString
  | eofInValue
  | expectedColon
  | expectedListCommaOrEnd
  | expectedObjectCommaOrEnd
  | expectedIdent
  | expectedValue
  | invalidEscape
  | invalidNumber
  | numberOutOfRange
  | invalidCodePoint
  | controlCharacter
  | keyMustBeString
  | loneSurrogate
  | trailingComma
  | trailingCharacters
  | unexpectedEndOfEscape
  | recursionLimit
  deriving Repr, DecidableEq

/-- The wording of a complaint about the text. -/
def Malformed.message : Malformed → String
  | .eofInList => "EOF while parsing a list"
  | .eofInObject => "EOF while parsing an object"
  | .eofInString => "EOF while parsing a string"
  | .eofInValue => "EOF while parsing a value"
  | .expectedColon => "expected `:`"
  | .expectedListCommaOrEnd => "expected `,` or `]`"
  | .expectedObjectCommaOrEnd => "expected `,` or `\x7d`"
  | .expectedIdent => "expected ident"
  | .expectedValue => "expected value"
  | .invalidEscape => "invalid escape"
  | .invalidNumber => "invalid number"
  | .numberOutOfRange => "number out of range"
  | .invalidCodePoint => "invalid unicode code point"
  | .controlCharacter => "control character (\\u0000-\\u001F) found while parsing a string"
  | .keyMustBeString => "key must be a string"
  | .loneSurrogate => "lone leading surrogate in hex escape"
  | .trailingComma => "trailing comma"
  | .trailingCharacters => "trailing characters"
  | .unexpectedEndOfEscape => "unexpected end of hex escape"
  | .recursionLimit => "recursion limit exceeded"

/-- What a value that did not fit looked like. -/
inductive Found where
  | bool (b : Bool)
  | unsigned (n : UInt64)
  | signed (n : Int64)
  | float (x : Float)
  | text (s : String)
  | null
  | sequence
  | map

/-- How a found value is described in a message. -/
def Found.describe : Found → String
  | .bool b => "boolean `" ++ toString b ++ "`"
  | .unsigned n => "integer `" ++ toString n.toNat ++ "`"
  | .signed n => "integer `" ++ toString n.toInt ++ "`"
  | .float x => "floating point `" ++ floatText x ++ "`"
  | .text s => "string " ++ Text.quote s
  | .null => "null"
  | .sequence => "sequence"
  | .map => "map"

/-- What a number looked like. -/
def Number.found : Number → Found
  | .nat n => .unsigned n
  | .neg n => .signed n
  | .float x => .float x

/-- What a value looked like. -/
def Value.found : Value → Found
  | .null => .null
  | .bool b => .bool b
  | .number n => n.found
  | .string s => .text s
  | .array _ => .sequence
  | .object _ => .map

/-- Why reading failed. -/
inductive Fault where
  | malformed (m : Malformed)
  | wrongType (found : Found) (expected : String)
  | wrongValue (found : Found) (expected : String)
  | wrongLength (length : Nat) (expected : String)
  | unknownVariant (name : String) (allowed : List String)
  | missingField (name : String)
  | duplicateField (name : String)

/-- The list of allowed names: `a`, `a` or `b`, or one of `a`, `b`, `c`. -/
def allowedText (names : List String) : String :=
  let tick := fun (n : String) => "`" ++ n ++ "`"
  match names with
  | [] => ""
  | [a] => tick a
  | [a, b] => tick a ++ " or " ++ tick b
  | _ => "one of " ++ ", ".intercalate (names.map tick)

/-- The wording of a fault. -/
def Fault.message : Fault → String
  | .malformed m => m.message
  | .wrongType f e => "invalid type: " ++ f.describe ++ ", expected " ++ e
  | .wrongValue f e => "invalid value: " ++ f.describe ++ ", expected " ++ e
  | .wrongLength n e => "invalid length " ++ toString n ++ ", expected " ++ e
  | .unknownVariant v [] => "unknown variant `" ++ v ++ "`, there are no variants"
  | .unknownVariant v names => "unknown variant `" ++ v ++ "`, expected " ++ allowedText names
  | .missingField n => "missing field `" ++ n ++ "`"
  | .duplicateField n => "duplicate field `" ++ n ++ "`"

/-- A fault and, when known, where it was found. -/
structure Error where
  fault : Fault
  position : Option Position := none

/-- The message of an error: the fault, then its position when there is one. -/
def Error.message (e : Error) : String :=
  match e.position with
  | some p => e.fault.message ++ " at line " ++ toString p.line ++ " column " ++ toString p.column
  | none => e.fault.message

/-- Gives an error a position unless it already has one. -/
def Error.placeAt (p : Position) (e : Error) : Error :=
  match e.position with
  | some _ => e
  | none => { e with position := some p }

end Json
end FeedClient
