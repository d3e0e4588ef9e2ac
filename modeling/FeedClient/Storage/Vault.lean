import FeedClient.Storage.Disk
import FeedClient.Storage.Keychain
import FeedClient.Json.Reader
import FeedClient.Json.Writer

/-!
# Durable storage

The client keeps its session under a key of a durable string store, in one of three
backends:

- memory, lost when reopened;
- a JSON file: an object whose string members are the stored values (other members are kept
  but read as absent). Every change writes the whole object, pretty-printed with sorted keys,
  to a temporary file beside it (the path with extension `json.tmp`) and renames that over
  the file. A failed write leaves the file as it was, while the change stays in memory;
- the OS keychain, one secret per key.

`Vault` is an opened store together with the working directory it writes to.
-/

namespace FeedClient

open Json

/-- Which backend to open. -/
inductive Backend where
  | file (path : String)
  | keyring (service : String)
  | memory
  deriving Repr, DecidableEq, Inhabited

/-- The file a client uses when no other is configured. -/
def defaultStorageFile : String := "microblog-client-storage.json"

/-- Why a storage operation failed. -/
inductive StorageError where
  | io (fault : IoFault)
  | json (error : Json.Error)
  | keychain (error : KeychainError)

/-- The storage's own wording of a failure. -/
def StorageError.message : StorageError → String
  | .io _ => "storage io error"
  | .json _ => "storage file is not valid json"
  | .keychain _ => "secret service is unavailable"

/-- The wording of the failure underneath. -/
def StorageError.source : StorageError → String
  | .io f => f.message
  | .json e => e.message
  | .keychain e => e.message

/-- What an opened store holds. -/
inductive Holding where
  | memory (items : List (String × String))
  | file (path : String) (items : Fields)
  | keychain (k : Keychain)
  deriving Inhabited

/-- An opened store and the directory it works in. -/
structure Vault where
  holding : Holding
  disk : Disk
  deriving Inhabited

/-- Reads the object of a storage file: an absent or blank file is empty, a document that is
not an object reads as empty. -/
def readStorageFile (disk : Disk) (path : String) : Except StorageError Fields :=
  match disk.readText path with
  | .error .notFound => .ok []
  | .error f => .error (.io f)
  | .ok text =>
    if Text.isBlank text then .ok []
    else
      match Value.readText text with
      | .error e => .error (.json e)
      | .ok (.object fs) => .ok fs
      | .ok _ => .ok []

namespace Vault

/-- Opens a backend in a directory; `mode` is how the OS keychain behaves. -/
def ofBackend (backend : Backend) (disk : Disk) (mode : KeychainMode) : Except StorageError Vault :=
  match backend with
  | .memory => .ok { holding := .memory [], disk }
  | .keyring service => .ok { holding := .keychain (Keychain.create service mode), disk }
  | .file path => do
    let items ← readStorageFile disk path
    pure { holding := .file path items, disk }

/-- Opens the same store again: memory and keychain start empty, a file is read again. -/
def reopen (v : Vault) : Except StorageError Vault :=
  match v.holding with
  | .memory _ => .ok { v with holding := .memory [] }
  | .keychain k => .ok { v with holding := .keychain { k with secrets := [] } }
  | .file path _ => do
    let items ← readStorageFile v.disk path
    pure { v with holding := .file path items }

/-- The stored value of a key. -/
def get (v : Vault) (key : String) : Except StorageError (Option String) :=
  match v.holding with
  | .memory items => .ok ((items.find? (fun i => i.1 == key)).map Prod.snd)
  | .file _ items =>
    match Fields.find? key items with
    | some (.string s) => .ok (some s)
    | _ => .ok none
  | .keychain k =>
    match k.get key with
    | .ok r => .ok r
    | .error e => .error (.keychain e)

/-- Whether a key is stored in memory. -/
def contains (v : Vault) (key : String) : Bool :=
  match v.holding with
  | .memory items => items.any (fun i => i.1 == key)
  | _ => false

/-- The text a storage file holds for its object. -/
def fileText (items : Fields) : String := (Value.object items).pretty 0

/-- Writes the object through a temporary file renamed over the storage file: the disk
reached, and whether that succeeded. What each step did stays on the disk when a later
step fails. -/
def persist (disk : Disk) (path : String) (items : Fields) : Disk × Except IoFault Unit :=
  let made : Disk × Except IoFault Unit := match Path.parent? path with
    | some up => if up.isEmpty then (disk, .ok ()) else disk.createDirAll up
    | none => (disk, .ok ())
  match made with
  | (d1, .error f) => (d1, .error f)
  | (d1, .ok ()) =>
    let tmp := Path.withExtension path "json.tmp"
    match d1.write tmp (fileText items).toUTF8.toList with
    | .error f => (d1, .error f)
    | .ok d2 =>
      match d2.rename tmp path with
      | .error f => (d2, .error f)
      | .ok d3 => (d3, .ok ())

/-- The store after a change of a file's object, and whether writing it failed. The change
stays in memory either way. -/
def commitFile (v : Vault) (path : String) (items : Fields) : Vault × Except StorageError Unit :=
  match persist v.disk path items with
  | (d, .ok ()) => ({ holding := .file path items, disk := d }, .ok ())
  | (d, .error f) => ({ holding := .file path items, disk := d }, .error (.io f))

/-- Stores a value under a key. -/
def set (v : Vault) (key value : String) : Vault × Except StorageError Unit :=
  match v.holding with
  | .memory items =>
    ({ v with holding := .memory ((items.filter (fun i => i.1 != key)) ++ [(key, value)]) }, .ok ())
  | .file path items => v.commitFile path (Fields.insert key (.string value) items)
  | .keychain k =>
    match k.set key value with
    | .ok k' => ({ v with holding := .keychain k' }, .ok ())
    | .error e => (v, .error (.keychain e))

/-- Removes a key; removing an absent key succeeds without writing. -/
def remove (v : Vault) (key : String) : Vault × Except StorageError Unit :=
  match v.holding with
  | .memory items => ({ v with holding := .memory (items.filter (fun i => i.1 != key)) }, .ok ())
  | .file path items =>
    if (Fields.find? key items).isSome then v.commitFile path (Fields.erase key items)
    else (v, .ok ())
  | .keychain k =>
    match k.remove key with
    | .ok k' => ({ v with holding := .keychain k' }, .ok ())
    | .error e => (v, .error (.keychain e))

/-- The path of the storage file, for the file backend. -/
def filePath? (v : Vault) : Option String :=
  match v.holding with
  | .file path _ => some path
  | _ => none

end Vault
end FeedClient
