import FeedClient.Storage.Path

/-!
# A working directory

The part of a file system the client touches. A place is a `Location`: the names to follow
from the working directory, where a leading `..` climbs above it and a leading `/` starts at
the root. The working directory, the directories above it and the root always exist; below
them the disk holds files with their bytes and directories.

A path is followed part by part (`Disk.resolve`): every part but the last must name an
existing directory (else `notFound`, or `notDirectory` for a file), `.` stays and `..` climbs.
A path that ends with `/`, `.` or `..` must name a directory. The empty path names nothing.
Reading, writing, making directories and renaming then fail as the operating system reports
it; `IoFault.message` gives its wording.

Main statements:

- `read_empty`: the empty path cannot be read.
-/

namespace FeedClient

/-- Why a file operation failed. -/
inductive IoFault where
  | notFound
  | isDirectory
  | notDirectory
  | alreadyExists
  | nameTooLong
  | nulInName
  | invalidUtf8
  deriving Repr, DecidableEq

/-- How the operating system words a failure. -/
def IoFault.message : IoFault → String
  | .notFound => "No such file or directory (os error 2)"
  | .isDirectory => "Is a directory (os error 21)"
  | .notDirectory => "Not a directory (os error 20)"
  | .alreadyExists => "File exists (os error 17)"
  | .nameTooLong => "File name too long (os error 36)"
  | .nulInName => "file name contained an unexpected NUL byte"
  | .invalidUtf8 => "stream did not contain valid UTF-8"

/-- The longest name a directory holds, in bytes. -/
def nameMax : Nat := 255

/-- The length in bytes from which a path is refused. -/
def pathMax : Nat := 4096

/-- A place in the file system, as names followed from the working directory. -/
abbrev Location := List String

/-- What stands at a place. -/
inductive Entry where
  | file
  | directory
  deriving Repr, DecidableEq

/-- The place above a place. Above the root is the root. -/
def Location.up (loc : Location) : Location :=
  match loc.getLast? with
  | none => [".."]
  | some ".." => loc ++ [".."]
  | some "/" => loc
  | some _ => loc.dropLast

/-- Whether a place is the working directory, a directory above it, or the root: these
always exist. -/
def Location.isBase (loc : Location) : Bool := loc.all (· == "..") || loc == ["/"]

/-- A path followed to its place, and whether the path demands a directory there. -/
structure Target where
  loc : Location
  wantsDirectory : Bool

/-- Files and directories by place. -/
structure Disk where
  files : List (Location × List UInt8) := []
  dirs : List Location := []
  deriving Inhabited

namespace Disk

/-- What stands at a place, if anything. -/
def entry? (d : Disk) (loc : Location) : Option Entry :=
  if loc.isBase || d.dirs.contains loc then some .directory
  else if d.files.any (fun f => f.1 == loc) then some .file
  else none

/-- The bytes of the file at a place. -/
def bytesAt? (d : Disk) (loc : Location) : Option (List UInt8) :=
  (d.files.find? (fun f => f.1 == loc)).map Prod.snd

/-- Follows the parts of a path that lead to its last one: each must be a directory, and a
name longer than `nameMax` is refused when it is looked up. -/
def walk (d : Disk) : Location → List String → Except IoFault Location
  | loc, [] => .ok loc
  | loc, part :: rest =>
    if part == "." then d.walk loc rest
    else if part == ".." then d.walk loc.up rest
    else if part.utf8ByteSize > nameMax then .error .nameTooLong
    else
      let next := loc ++ [part]
      match entry? d next with
      | some .directory => d.walk next rest
      | some .file => .error .notDirectory
      | none => .error .notFound

/-- Follows a path to the place it names. A path holding NUL cannot be passed to the system
at all; the empty path names nothing; a path of `pathMax` bytes or more is refused whole. -/
def resolve (d : Disk) (path : String) : Except IoFault Target :=
  if path.contains '\x00' then .error .nulInName
  else if path.isEmpty then .error .notFound
  else if path.utf8ByteSize ≥ pathMax then .error .nameTooLong
  else do
    let start : Location := if Path.isAbsolute path then ["/"] else []
    let parts := (Path.parts path).filter (· != "")
    match parts.getLast? with
    | none => pure { loc := start, wantsDirectory := true }
    | some last =>
      let loc ← d.walk start parts.dropLast
      if last == "." then pure { loc, wantsDirectory := true }
      else if last == ".." then pure { loc := loc.up, wantsDirectory := true }
      else if last.utf8ByteSize > nameMax then throw .nameTooLong
      else pure { loc := loc ++ [last], wantsDirectory := path.endsWith "/" }

/-- The empty path names nothing. -/
theorem resolve_empty (d : Disk) : d.resolve "" = .error .notFound := by
  simp [resolve]

/-- Whether a path names an existing directory. -/
def isDirectory (d : Disk) (path : String) : Bool :=
  match d.resolve path with
  | .ok t => entry? d t.loc == some .directory
  | .error _ => false

/-- Reads a file. -/
def read (d : Disk) (path : String) : Except IoFault (List UInt8) := do
  let t ← d.resolve path
  match entry? d t.loc with
  | some .directory => throw .isDirectory
  | some .file =>
    if t.wantsDirectory then throw .notDirectory
    else pure ((d.bytesAt? t.loc).getD [])
  | none => throw .notFound

/-- Reads a file as UTF-8 text. -/
def readText (d : Disk) (path : String) : Except IoFault String := do
  let bytes ← d.read path
  match String.fromUTF8? (ByteArray.mk bytes.toArray) with
  | some s => pure s
  | none => throw .invalidUtf8

/-- The disk with the file at a place holding `bytes`. -/
def store (d : Disk) (loc : Location) (bytes : List UInt8) : Disk :=
  { d with files := (d.files.filter (fun f => f.1 != loc)) ++ [(loc, bytes)] }

/-- Writes a file, creating it or replacing what it held. -/
def write (d : Disk) (path : String) (bytes : List UInt8) : Except IoFault Disk := do
  let t ← d.resolve path
  match entry? d t.loc with
  | some .directory => throw .isDirectory
  | some .file => if t.wantsDirectory then throw .notDirectory else pure (d.store t.loc bytes)
  | none => if t.wantsDirectory then throw .isDirectory else pure (d.store t.loc bytes)

/-- Makes one directory; the directory that holds it must exist. -/
def makeDirectory (d : Disk) (path : String) : Except IoFault Disk := do
  let t ← d.resolve path
  match entry? d t.loc with
  | some _ => throw .alreadyExists
  | none => pure { d with dirs := d.dirs ++ [t.loc] }

/-- Makes a directory and the directories above it, by the parents of the path's text, at
most `fuel` deep. An existing directory is fine. Directories made before a failure stay. -/
def makeDirectoriesFuel : Nat → Disk → String → Disk × Except IoFault Unit
  | 0, d, _ => (d, .ok ())
  | fuel + 1, d, path =>
    if path.isEmpty then (d, .ok ())
    else
      match d.makeDirectory path with
      | .ok d' => (d', .ok ())
      | .error .notFound =>
        match Path.parent? path with
        | none => (d, .error .notFound)
        | some up =>
          match makeDirectoriesFuel fuel d up with
          | (d', .error e) => (d', .error e)
          | (d', .ok ()) =>
            match d'.makeDirectory path with
            | .ok d'' => (d'', .ok ())
            | .error e => if d'.isDirectory path then (d', .ok ()) else (d', .error e)
      | .error e => if d.isDirectory path then (d, .ok ()) else (d, .error e)

/-- Makes a directory and every missing directory above it: the disk reached, and whether
that succeeded. -/
def createDirAll (d : Disk) (path : String) : Disk × Except IoFault Unit :=
  makeDirectoriesFuel (path.length + 1) d path

/-- Moves a file to another path, replacing a file there. A path that demands a directory is
refused for a file before the target is looked at. -/
def rename (d : Disk) (src dst : String) : Except IoFault Disk := do
  let s ← d.resolve src
  let t ← d.resolve dst
  match entry? d s.loc with
  | none => throw .notFound
  | some .directory => throw .isDirectory
  | some .file =>
    if s.wantsDirectory || t.wantsDirectory then throw .notDirectory
    else
      match entry? d t.loc with
      | some .directory => throw .isDirectory
      | _ =>
        let bytes := (d.bytesAt? s.loc).getD []
        pure ((({ d with files := d.files.filter (fun f => f.1 != s.loc) } : Disk)).store
          t.loc bytes)

/-- Puts a file on the disk, making the directories above it; a failure leaves the disk as it
was. -/
def place (d : Disk) (path : String) (bytes : List UInt8) : Disk :=
  let d' := match Path.parent? path with
    | some up => if up.isEmpty then d else (d.createDirAll up).1
    | none => d
  (d'.write path bytes).toOption.getD d'

/-- The bytes of the file a path names, if it names a readable file. -/
def file? (d : Disk) (path : String) : Option (List UInt8) := (d.read path).toOption

/-- The empty path cannot be read. -/
theorem read_empty (d : Disk) : d.read "" = .error .notFound := by
  simp [read, resolve_empty, bind, Except.bind]

end Disk
end FeedClient
