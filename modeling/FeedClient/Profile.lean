import FeedClient.Json.Decode
import FeedClient.Json.Tree
import FeedClient.Json.Writer

/-!
# The signed-in user's profile

The profile the service returns for the signed-in user: id, login, display name, photo URL,
biography, and how many users they follow and are followed by. Every member may be absent
and then takes its zero. The counters are written `following` and `followers`, and are also
read under the names `following_count` and `followers_count`; giving both names of one
counter is refused as a repeated field.
-/

namespace FeedClient

open Json

/-- A user profile. -/
structure Profile where
  id : Int64 := 0
  login : String := ""
  name : String := ""
  photoUrl : String := ""
  bio : String := ""
  following : UInt64 := 0
  followers : UInt64 := 0
  deriving Repr, DecidableEq, Inhabited

namespace Profile

/-- The field a key names. -/
def slot : String → Option Nat
  | "id" => some 0
  | "login" => some 1
  | "name" => some 2
  | "photo_url" => some 3
  | "bio" => some 4
  | "following" => some 5
  | "following_count" => some 5
  | "followers" => some 6
  | "followers_count" => some 6
  | _ => none

/-- The record shape of a profile. -/
def form : RecordForm Profile where
  expecting := "struct CurrentUser"
  fields := [("id", .useDefault), ("login", .useDefault), ("name", .useDefault),
    ("photo_url", .useDefault), ("bio", .useDefault), ("following", .useDefault),
    ("followers", .useDefault)]
  slot := slot
  start := {}

/-- Reads field `i` of a profile from JSON text. -/
def scanField (i : Nat) (p : Profile) : Scan Profile :=
  match i with
  | 0 => do pure { p with id := ← Scan.int64 }
  | 1 => do pure { p with login := ← Scan.text }
  | 2 => do pure { p with name := ← Scan.text }
  | 3 => do pure { p with photoUrl := ← Scan.text }
  | 4 => do pure { p with bio := ← Scan.text }
  | 5 => do pure { p with following := ← Scan.nat64 }
  | _ => do pure { p with followers := ← Scan.nat64 }

/-- Reads field `i` of a profile from a JSON value. -/
def valueField (i : Nat) (v : Value) (p : Profile) : Except Fault Profile :=
  match i with
  | 0 => do pure { p with id := ← Tree.int64 v }
  | 1 => do pure { p with login := ← Tree.text "a string" v }
  | 2 => do pure { p with name := ← Tree.text "a string" v }
  | 3 => do pure { p with photoUrl := ← Tree.text "a string" v }
  | 4 => do pure { p with bio := ← Tree.text "a string" v }
  | 5 => do pure { p with following := ← Tree.nat64 v }
  | _ => do pure { p with followers := ← Tree.nat64 v }

/-- Reads a profile from JSON text. -/
def scan : Scan Profile := Scan.record form scanField

/-- Reads a profile from a JSON document. -/
def readText (text : String) : Except Error Profile :=
  Scan.runDocument scan text.toUTF8.toList

/-- Reads a profile from a JSON value. -/
def ofValue : Value → Except Fault Profile := Tree.record .document form valueField

/-- The profile as JSON, members in declaration order. -/
def toValue (p : Profile) : Value :=
  .object [("id", .number (Number.ofInt64 p.id)), ("login", .str p.login),
    ("name", .str p.name), ("photo_url", .str p.photoUrl), ("bio", .str p.bio),
    ("following", .ofNat64 p.following), ("followers", .ofNat64 p.followers)]

end Profile
end FeedClient
