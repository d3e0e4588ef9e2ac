import FeedClient.Json.Number

/-!
# Writing JSON values

`Value.compact` writes a value with no blanks; `Value.pretty` puts every member on its own
line, indented by two spaces per level, with `": "` after keys, and writes empty arrays and
objects as `[]` and `{}`. Strings escape the quote, the backslash and every control
character below `0x20`: the usual ones as `\b`, `\t`, `\n`, `\f`, `\r`, the others as
`\u00xx` with lowercase hex. All other characters are written as they are.
-/

namespace FeedClient
namespace Json

/-- Lowercase hex digit of a value below sixteen. -/
def hexDigit (n : Nat) : Char :=
  if n < 10 then Char.ofNat (48 + n) else Char.ofNat (87 + n)

/-- The escaped spelling of one character inside a JSON string. -/
def escapeChar (c : Char) : String :=
  match c with
  | '"' => "\\\""
  | '\\' => "\\\\"
  | '\x08' => "\\b"
  | '\t' => "\\t"
  | '\n' => "\\n"
  | '\x0c' => "\\f"
  | '\r' => "\\r"
  | _ =>
    if c.toNat < 0x20 then
      String.ofList ['\\', 'u', '0', '0', hexDigit (c.toNat / 16), hexDigit (c.toNat % 16)]
    else c.toString

/-- A string as a JSON string literal. -/
def quoteString (s : String) : String :=
  "\"" ++ String.join (s.toList.map escapeChar) ++ "\""

mutual

/-- A value with no blanks. -/
def Value.compact : Value → String
  | .null => "null"
  | .bool true => "true"
  | .bool false => "false"
  | .number n => n.text
  | .string s => quoteString s
  | .array items => "[" ++ compactItems items ++ "]"
  | .object fields => "\x7b" ++ compactFields fields ++ "\x7d"

/-- Array elements separated by commas. -/
def compactItems : List Value → String
  | [] => ""
  | [v] => v.compact
  | v :: rest => v.compact ++ "," ++ compactItems rest

/-- Object members separated by commas. -/
def compactFields : List (String × Value) → String
  | [] => ""
  | [(k, v)] => quoteString k ++ ":" ++ v.compact
  | (k, v) :: rest => quoteString k ++ ":" ++ v.compact ++ "," ++ compactFields rest

end

/-- The indentation of a nesting level. -/
def indent (level : Nat) : String := String.ofList (List.replicate (2 * level) ' ')

mutual

/-- A value over several lines; `level` is the nesting level of the value itself. -/
def Value.pretty (level : Nat) : Value → String
  | .array [] => "[]"
  | .object [] => "\x7b\x7d"
  | .array items => "[" ++ prettyItems (level + 1) true items ++ "\n" ++ indent level ++ "]"
  | .object fields =>
    "\x7b" ++ prettyFields (level + 1) true fields ++ "\n" ++ indent level ++ "\x7d"
  | v => v.compact

/-- Array elements, each on its own line. -/
def prettyItems (level : Nat) (first : Bool) : List Value → String
  | [] => ""
  | v :: rest =>
    (if first then "\n" else ",\n") ++ indent level ++ v.pretty level ++
      prettyItems level false rest

/-- Object members, each on its own line. -/
def prettyFields (level : Nat) (first : Bool) : List (String × Value) → String
  | [] => ""
  | (k, v) :: rest =>
    (if first then "\n" else ",\n") ++ indent level ++ quoteString k ++ ": " ++ v.pretty level ++
      prettyFields level false rest

end

/-- An object whose fields are sorted by key; of two fields with one key the later wins. -/
def Value.obj (fields : List (String × Value)) : Value :=
  .object (fields.foldl (fun acc f => Fields.insert f.1 f.2 acc) [])

end Json
end FeedClient
