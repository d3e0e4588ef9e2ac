import FeedClient.Text.GraphemeExtend
import FeedClient.Text.Printable

/-!
# Quoting a string for a diagnostic

`Text.quote s` writes `s` between double quotes so that every character can be seen: a
backslash, a quote, a tab, a carriage return, a line feed and NUL take a backslash escape; a
character that extends the grapheme before it (`isExtendingMark`) or is not printable
(`isPrintable`) is written `\u{hex}` with lowercase hex and no leading zeros; every other
character stands as itself.
-/

namespace FeedClient
namespace Text

/-- Whether a character is written as its code point inside a quoted string. -/
def isHidden (c : Char) : Bool := isExtendingMark c || !isPrintable c

/-- Lowercase hex digits of `n`, without leading zeros. -/
def hexDigits (n : Nat) : String :=
  String.ofList (Nat.toDigits 16 n)

/-- The visible spelling of one character inside a quoted string. -/
def quoteChar (c : Char) : String :=
  match c with
  | '\\' => "\\\\"
  | '"' => "\\\""
  | '\t' => "\\t"
  | '\r' => "\\r"
  | '\n' => "\\n"
  | '\x00' => "\\0"
  | _ => if isHidden c then "\\u" ++ "\x7b" ++ hexDigits c.toNat ++ "\x7d" else c.toString

/-- The string between double quotes, each character made visible. -/
def quote (s : String) : String :=
  "\"" ++ String.join (s.toList.map quoteChar) ++ "\""

end Text
end FeedClient
