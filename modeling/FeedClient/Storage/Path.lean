/-!
# Path text

Paths are texts with `/` between their parts. Read as text, without looking at the file
system, a path has components: a root when it starts with `/`, a leading `.` when a relative
path starts with one, and then its names and `..` parts; empty parts and any other `.` parts
are skipped, so `a//b/./c/` has the components `a`, `b`, `c`.

- `Path.parent?` drops the last component and spells the rest; a path with no component
  besides the root has no parent.
- `Path.fileName?` is the last component when it is a name (not `.`, `..` or the root).
- `Path.withExtension` replaces what follows the last dot of the file name (a dot that starts
  the name does not count) by a new extension, and drops what stood after the name; a last
  part `..x` only loses its extension.
-/

namespace FeedClient
namespace Path

/-- Whether a path starts at the root. -/
def isAbsolute (p : String) : Bool := p.startsWith "/"

/-- The texts between the separators of a path, empty ones included: `a//b/` has the parts
`a`, the empty text, `b` and the empty text again. -/
def parts (p : String) : List String := (p.toList.splitOn '/').map String.ofList

/-- The components of a path after its root, as texts. -/
def components (p : String) : List String :=
  let raw := parts p
  let lead := if !isAbsolute p && raw.head? == some "." then ["."] else []
  lead ++ (raw.drop (if lead.isEmpty then 0 else 1)).filter (fun s => s != "" && s != ".")

/-- Spells a root flag and components as a path. -/
def spell (absolute : Bool) (cs : List String) : String :=
  (if absolute then "/" else "") ++ "/".intercalate cs

/-- The path without its last component, when it has one besides the root. -/
def parent? (p : String) : Option String :=
  match components p with
  | [] => none
  | cs => some (spell (isAbsolute p) cs.dropLast)

/-- The last component when it is a name. -/
def fileName? (p : String) : Option String :=
  match (components p).getLast? with
  | some n => if n == "." || n == ".." then none else some n
  | none => none

/-- The stem of a file name: the name up to its last dot, unless that dot starts the name or
there is none. -/
def stem (name : String) : String :=
  let cs := name.toList
  match (cs.reverse.dropWhile (· != '.')) with
  | [] => name
  | _ :: revBefore => if revBefore.isEmpty then name else String.ofList revBefore.reverse

/-- Removes separators and `.` parts from the end of a reversed path text. -/
def trimEndRev : List Char → List Char
  | '/' :: rest => trimEndRev rest
  | '.' :: '/' :: rest => trimEndRev rest
  | cs => cs

/-- Removes separators and `.` parts from the end of a path text, keeping a leading `.`. -/
def trimEnd (cs : List Char) : List Char := (trimEndRev cs.reverse).reverse

/-- The path with the extension of its file name replaced by `ext`: what follows the stem is
dropped, the separators and `.` parts after the name too, and `.` and `ext` are added. A path
with no file name stays as it is. -/
def setExtension (p ext : String) : String :=
  match fileName? p with
  | none => p
  | some name =>
    let trimmed := trimEnd p.toList
    let dir := (trimmed.reverse.dropWhile (· != '/')).reverse
    String.ofList dir ++ stem name ++ "." ++ ext

/-- The path with a new extension `ext`. The old extension is cut from the end of the text
first, so a path whose last part is two dots and an extension, as in `a/..x`, loses the
extension and ends in `..`: that names the directory above, which has no file name to carry
an extension. Every other path gets `setExtension p ext`. -/
def withExtension (p ext : String) : String :=
  match fileName? p with
  | none => p
  | some name =>
    if stem name == "." && p.endsWith name then
      String.ofList (p.toList.take (p.length - (name.length - 2)))
    else setExtension p ext

/-- A path with no file name is left as it is: there is nothing to give the extension. -/
theorem withExtension_of_fileName?_none {p : String} (ext : String) (h : fileName? p = none) :
    withExtension p ext = p := by
  simp [withExtension, h]

end Path
end FeedClient
