import FeedClient.Client.Flow

/-!
# The command line

The program loads its settings (from the file that `MICROBLOG_SETTINGS` names, with the base
URL that `MICROBLOG_API_BASE_URL` gives), opens the storage they choose, restores the session,
loads the signed-in user, fetches the path given as its first argument, and prints the store
as indented JSON. It exits with `1` when the settings or the storage cannot be opened.

This layer only moves bytes between the file system and the pure client. It has no network
transport: the client runs with an empty script, so each request ends as a transport failure.
No OS keychain is reachable from here either.
-/

namespace FeedClient
namespace CommandLine

/-- Adds a file of the file system to a disk, when it can be read. -/
def loadFile (disk : Disk) (path : String) : IO Disk := do
  try
    let bytes ← IO.FS.readBinFile path
    pure (disk.place path bytes.toList)
  catch _ => pure disk

/-- The directory part of a path as written, or none for a bare file name. -/
def directoryOf (path : String) : Option String :=
  match (path.splitOn "/").dropLast with
  | [] => none
  | parts => some ("/".intercalate parts)

/-- Writes the storage file back when the run changed it. -/
def saveStorage (before : Disk) (vault : Vault) : IO Unit := do
  match vault.filePath? with
  | none => pure ()
  | some path =>
    match vault.disk.file? path with
    | none => pure ()
    | some bytes =>
      if before.file? path != some bytes then
        match directoryOf path with
        | some dir => if !dir.isEmpty then IO.FS.createDirAll dir
        | none => pure ()
        IO.FS.writeBinFile path (ByteArray.mk bytes.toArray)

end CommandLine
end FeedClient

open FeedClient FeedClient.CommandLine

/-- Runs the program on the first argument. -/
def main (args : List String) : IO UInt32 := do
  let settingsPath ← IO.getEnv settingsPathVariable
  let baseUrl ← IO.getEnv baseUrlVariable
  let env := fun name =>
    if name == settingsPathVariable then settingsPath
    else if name == baseUrlVariable then baseUrl
    else none
  let settingsDisk ← match settingsPath with
    | some p => loadFile {} p
    | none => pure {}
  match Settings.load settingsDisk none env with
  | .error _ => pure 1
  | .ok settings =>
    let disk ← match settings.storage with
      | .file path => loadFile {} path
      | _ => pure {}
    match Vault.ofBackend settings.storage disk .unreachable with
    | .error _ => pure 1
    | .ok vault =>
      let c := (Client.assemble settings vault [] true).runProgram args.head?
      saveStorage disk c.store.vault
      IO.println (c.store.state.toValue.pretty 0)
      pure 0
