import FeedClient.Storage.Vault
import FeedClient.Alert
import FeedClient.Json.Decode
import FeedClient.Json.Tree

/-!
# Client settings

The settings a client starts with: the service's base URL, how long an alert stays before it
is cleared and what clearing blanks, the message shown when the service cannot be reached,
an optional request timeout, and the storage backend. Every member may be absent and takes
its default; as JSON the names are in camel case, and the backend is an object tagged by its
`backend` member (`file` with a `path`, `keyring` with a `service`, or `memory`).

Settings are read from a file, from the path given or else the one the environment names,
and the environment can replace the base URL by a non-blank value.
-/

namespace FeedClient

open Json

/-- The base URL used when none is configured. -/
def defaultBaseUrl : String := "http://localhost:8080"

/-- The message shown when a request cannot reach the service. -/
def defaultNetworkErrorMessage : String :=
  "something went wrong. please, try later or contact support@microblog.local"

/-- The environment variable naming the settings file. -/
def settingsPathVariable : String := "MICROBLOG_SETTINGS"

/-- The environment variable that replaces the base URL. -/
def baseUrlVariable : String := "MICROBLOG_API_BASE_URL"

/-- Client settings. -/
structure Settings where
  apiBaseUrl : String := defaultBaseUrl
  alertClearDelayMs : UInt64 := 5000
  alertClearPolicy : ClearPolicy := .typeAndMessage
  networkErrorMessage : String := defaultNetworkErrorMessage
  requestTimeoutMs : Option UInt64 := none
  storage : Backend := .file defaultStorageFile
  deriving Repr, Inhabited

namespace Settings

/-- The field a key names. -/
def slot : String → Option Nat
  | "apiBaseUrl" => some 0
  | "alertClearDelayMs" => some 1
  | "alertClearPolicy" => some 2
  | "networkErrorMessage" => some 3
  | "requestTimeoutMs" => some 4
  | "storage" => some 5
  | _ => none

/-- The record shape of settings: every field defaults. -/
def form : RecordForm Settings where
  expecting := "struct ClientSettings"
  fields := [("apiBaseUrl", .useDefault), ("alertClearDelayMs", .useDefault),
    ("alertClearPolicy", .useDefault), ("networkErrorMessage", .useDefault),
    ("requestTimeoutMs", .useDefault), ("storage", .useDefault)]
  slot := slot
  start := {}

/-- The names of the backends, in order. -/
def backendNames : List String := ["file", "keyring", "memory"]

/-- The record shape of the file backend's members. -/
def fileForm : RecordForm String where
  expecting := "struct variant StorageSettings::File"
  fields := [("path", .required)]
  slot k := if k == "path" then some 0 else none
  start := ""

/-- The record shape of the keyring backend's members. -/
def keyringForm : RecordForm String where
  expecting := "struct variant StorageSettings::Keyring"
  fields := [("service", .required)]
  slot k := if k == "service" then some 0 else none
  start := ""

/-- The memory backend takes no members: any object passes, an array must be empty. -/
def memoryContent : Value → Except Fault Unit
  | .array [] => .ok ()
  | .array items => .error (.wrongLength items.length "0 elements in sequence")
  | .object _ => .ok ()
  | v => .error (.wrongType v.found "unit variant StorageSettings::Memory")

/-- The backend from its variant and the members beside the tag. -/
def backendOfContent (variant : Nat) (content : Value) : Except Fault Backend :=
  match variant with
  | 0 => .file <$> Tree.record .content fileForm (fun _ v _ => Tree.text "path string" v) content
  | 1 => .keyring <$> Tree.record .content keyringForm (fun _ v _ => Tree.text "a string" v) content
  | _ => do memoryContent content; pure .memory

/-- The expected-kind text of a backend. -/
def backendExpecting : String := "internally tagged enum StorageSettings"

/-- Reads a backend from JSON text; faults in the members beside the tag take the position
of the enclosing record. -/
def scanBackend : Scan Backend := do
  let (i, content) ← Scan.tagged "backend" backendExpecting backendNames
  match backendOfContent i content with
  | .ok b => pure b
  | .error f => Scan.fault f

/-- Reads field `i` of settings from JSON text. -/
def scanField (i : Nat) (s : Settings) : Scan Settings :=
  match i with
  | 0 => do pure { s with apiBaseUrl := ← Scan.text }
  | 1 => do pure { s with alertClearDelayMs := ← Scan.nat64 }
  | 2 => do pure { s with alertClearPolicy := ClearPolicy.ofIndex (← Scan.unitVariant ClearPolicy.names) }
  | 3 => do pure { s with networkErrorMessage := ← Scan.text }
  | 4 => do pure { s with requestTimeoutMs := ← Scan.optional Scan.nat64 }
  | _ => do pure { s with storage := ← scanBackend }

/-- Reads field `i` of settings from a JSON value. -/
def valueField (i : Nat) (v : Value) (s : Settings) : Except Fault Settings :=
  match i with
  | 0 => do pure { s with apiBaseUrl := ← Tree.text "a string" v }
  | 1 => do pure { s with alertClearDelayMs := ← Tree.nat64 v }
  | 2 => do
    pure { s with alertClearPolicy := ClearPolicy.ofIndex (← Tree.unitVariant .document ClearPolicy.names v) }
  | 3 => do pure { s with networkErrorMessage := ← Tree.text "a string" v }
  | 4 => do pure { s with requestTimeoutMs := ← Tree.optional Tree.nat64 v }
  | _ => do
    let (i, content) ← Tree.tagged "backend" backendExpecting backendNames v
    pure { s with storage := ← backendOfContent i content }

/-- Reads settings from a JSON document. -/
def readText (text : String) : Except Error Settings :=
  Scan.runDocument (Scan.record form scanField) text.toUTF8.toList

/-- Reads settings from a JSON value. -/
def ofValue : Value → Except Fault Settings := Tree.record .document form valueField

/-- The backend as JSON. -/
def backendValue : Backend → Value
  | .file path => Value.obj [("backend", .str "file"), ("path", .str path)]
  | .keyring service => Value.obj [("backend", .str "keyring"), ("service", .str service)]
  | .memory => Value.obj [("backend", .str "memory")]

/-- The settings as JSON, members in declaration order. -/
def toValue (s : Settings) : Value :=
  .object [("apiBaseUrl", .str s.apiBaseUrl), ("alertClearDelayMs", .ofNat64 s.alertClearDelayMs),
    ("alertClearPolicy", .str s.alertClearPolicy.name),
    ("networkErrorMessage", .str s.networkErrorMessage),
    ("requestTimeoutMs", match s.requestTimeoutMs with
      | some t => .ofNat64 t
      | none => .null),
    ("storage", backendValue s.storage)]

/-- The request timeout, when one is set and positive. -/
def requestTimeout (s : Settings) : Option UInt64 := s.requestTimeoutMs.filter (· > 0)

/-- Replaces the base URL by the trimmed override, unless it is blank. -/
def withBaseUrl (s : Settings) (override : Option String) : Settings :=
  match override with
  | some url => if Text.isBlank url then s else { s with apiBaseUrl := Text.trim url }
  | none => s

end Settings

/-- Why settings could not be loaded. -/
inductive SettingsError where
  | unreadable (path : String) (fault : IoFault)
  | invalid (path : String) (error : Json.Error)

/-- The wording of a settings failure. -/
def SettingsError.message : SettingsError → String
  | .unreadable p _ => "failed to read settings file " ++ p
  | .invalid p _ => "settings file " ++ p ++ " is not valid json"

/-- The wording of the failure underneath. -/
def SettingsError.source : SettingsError → String
  | .unreadable _ f => f.message
  | .invalid _ e => e.message

namespace Settings

/-- Reads settings from a file of the working directory. -/
def fromFile (disk : Disk) (path : String) : Except SettingsError Settings :=
  match disk.readText path with
  | .error f => .error (.unreadable path f)
  | .ok text =>
    match readText text with
    | .ok s => .ok s
    | .error e => .error (.invalid path e)

/-- Loads settings: from `path` if given, else from the file the environment names, else the
defaults; then the environment's base URL override applies. `env` looks up a variable. -/
def load (disk : Disk) (path : Option String) (env : String → Option String) :
    Except SettingsError Settings := do
  let base ← match path.orElse (fun _ => env settingsPathVariable) with
    | some p => fromFile disk p
    | none => pure {}
  pure (base.withBaseUrl (env baseUrlVariable))

end Settings
end FeedClient
