import FeedClient.Text.Blank

/-!
# The OS keychain

Each key is a separate secret of the keychain, under one service name. A keychain that
works keeps the secrets that were set, and a secret that was never set (or was deleted)
reads as absent. The other modes are keychains that refuse: one that cannot be reached at
all, one that is locked, one whose secret service failed, one whose secrets are not UTF-8,
and one where a key matches no single secret. `KeychainError.message` words each refusal.
-/

namespace FeedClient

/-- The service name used when the configured one is blank. -/
def defaultKeychainService : String := "local.microblog.client"

/-- How a keychain behaves. -/
inductive KeychainMode where
  /-- Keeps secrets. -/
  | working
  /-- Cannot be reached: no key can even be looked up. -/
  | unreachable
  /-- Locked: reading, writing and deleting are refused. -/
  | locked
  /-- The secret service failed: reading, writing and deleting are refused. -/
  | failing
  /-- Reading gives bytes that are not UTF-8; writing and deleting succeed. -/
  | badEncoding
  /-- Reading finds no single secret; writing and deleting succeed. -/
  | ambiguous
  deriving Repr, DecidableEq, Inhabited

/-- Why the keychain refused. -/
inductive KeychainError where
  | noAccess (reason : String)
  | platform (reason : String)
  | badEncoding
  | ambiguous (count : Nat)
  deriving Repr, DecidableEq

/-- The wording of a keychain refusal. -/
def KeychainError.message : KeychainError → String
  | .noAccess r => "Couldn't access platform secure storage: " ++ r
  | .platform r => "Platform secure storage failure: " ++ r
  | .badEncoding => "Data is not UTF-8 encoded"
  | .ambiguous n => "Entry is matched by " ++ toString n ++ " credentials: []"

/-- A keychain: its mode and, when it works, the secrets by key. -/
structure Keychain where
  service : String
  mode : KeychainMode := .working
  secrets : List (String × String) := []
  deriving Repr, Inhabited

namespace Keychain

/-- A keychain for a service; a blank service name takes the default one. -/
def create (service : String) (mode : KeychainMode) : Keychain :=
  { service := if Text.isBlank service then defaultKeychainService else service, mode }

/-- The refusal every operation meets, for keychains that refuse everything. -/
def refusal : KeychainMode → Option KeychainError
  | .unreachable => some (.noAccess "no keychain")
  | .locked => some (.noAccess "keychain is locked")
  | .failing => some (.platform "secret service not running")
  | _ => none

/-- Reads the secret of a key; a blank secret counts as absent. -/
def get (k : Keychain) (key : String) : Except KeychainError (Option String) :=
  match refusal k.mode, k.mode with
  | some e, _ => .error e
  | none, .badEncoding => .error .badEncoding
  | none, .ambiguous => .error (.ambiguous 0)
  | none, _ =>
    match (k.secrets.find? (fun s => s.1 == key)).map Prod.snd with
    | some v => .ok (if Text.isBlank v then none else some v)
    | none => .ok none

/-- Sets the secret of a key. -/
def set (k : Keychain) (key value : String) : Except KeychainError Keychain :=
  match refusal k.mode with
  | some e => .error e
  | none => .ok { k with secrets := (k.secrets.filter (fun s => s.1 != key)) ++ [(key, value)] }

/-- Deletes the secret of a key; deleting an absent secret succeeds. -/
def remove (k : Keychain) (key : String) : Except KeychainError Keychain :=
  match refusal k.mode with
  | some e => .error e
  | none => .ok { k with secrets := k.secrets.filter (fun s => s.1 != key) }

end Keychain
end FeedClient
