/-!
# Request methods

A request method is an HTTP token: one or more letters, digits and the marks
`! # $ % & ' * + - . ^ _` plus the grave accent, `|` and `~`. The name is kept as written, so
`get` is a method of its own beside `GET`. `Method.parse?` refuses every other text.
-/

namespace FeedClient
namespace Http

/-- The code points of the marks a token may hold besides ASCII letters and digits. -/
def tokenMarks : List Nat := [33, 35, 36, 37, 38, 39, 42, 43, 45, 46, 94, 95, 96, 124, 126]

/-- Whether a character may stand in a token. -/
def isTokenChar (c : Char) : Bool := c.isAlphanum || tokenMarks.contains c.toNat

/-- Whether a text is a token: not empty, and token characters only. -/
def isToken (s : String) : Bool := !s.isEmpty && s.toList.all isTokenChar

/-- A request method, named by a token. -/
structure Method where
  name : String
  valid : isToken name = true

namespace Method

/-- The method named by a text, when the text is a token. -/
def parse? (s : String) : Option Method :=
  if h : isToken s = true then some ⟨s, h⟩ else none

/-- The method that reads. -/
def get : Method := ⟨"GET", by decide⟩

/-- The method that submits. -/
def post : Method := ⟨"POST", by decide⟩

/-- A method read from a text has that text as its name. -/
theorem parse?_name {s : String} {m : Method} (h : parse? s = some m) : m.name = s := by
  unfold parse? at h
  split at h
  · cases h; rfl
  · cases h

/-- A text reads as no method exactly when it is not a token. -/
theorem parse?_eq_none_iff (s : String) : parse? s = none ↔ isToken s = false := by
  unfold parse?
  split <;> simp_all

end Method

end Http
end FeedClient
