import FeedClient.Store
import FeedClient.Proofs.Storage
import FeedClient.Proofs.Json.Records

/-!
# The session across a store's life

The store keeps the session twice: in memory, where the client reads its token, and in the
vault under `sessionKey`, as the compact JSON text of the session. This module follows both
along any run of store operations.

In memory, only the session mutations and a restore that finds a session change the token,
whatever the vault does with its writes. In the vault, only setting and clearing the session
write; a restore never does. Over a vault whose writes succeed the key therefore holds the
text of the last session set and not cleared since, and since that text reads back as the
same session for every token, a fresh store over the vault (or over the file opened again)
restores exactly that session, unless its token is blank.

Main results:

- Theorem `Session.readText_compact`: the compact text of a session reads back as it.
- Theorem `Store.accessToken_run`: the token held after a run is the one the last session
  event of the run gave.
- Theorem `Store.keepsSession_run`: over a vault whose writes succeed, the vault holds the
  last session set and not cleared.
- Theorem `session_survives_store_runs`: both, and a fresh store restores what the vault
  holds.
-/

namespace FeedClient

open Json

/-! ## The stored text of a session -/

namespace Session

/-- The one member of a session's object. -/
def written (s : Session) :
    List (Scan.Member form (fun _ s => do pure { s with accessToken := ← Scan.text }) 0) :=
  [{ key := "access_token", value := .str s.accessToken, slot := 0,
     set := fun t => { t with accessToken := s.accessToken }, slot_eq := rfl,
     reads := fun t => (Scan.readsBack_text _ s.accessToken).map
       fun x => ({ t with accessToken := x } : Session) }]

/-- A session reads back from its value. -/
theorem readsBack_scan (s : Session) : Scan.ReadsBack scan s.toValue s 1 :=
  Scan.readsBack_record (written s) (by show [0].Nodup; decide) (by cases s; rfl) rfl

/-- The compact text of a session reads back as the session, whatever its token holds. -/
theorem readText_compact (s : Session) : readText s.toValue.compact = .ok s :=
  Scan.runDocument_of_readsBack (readsBack_scan s) (by decide)

/-- The compact text of a session is never blank: it opens with a brace. -/
theorem compact_not_blank (s : Session) : Text.isBlank s.toValue.compact = false := by
  have hbrace : Text.isWhiteSpace '\x7b' = false := by decide
  have hv : s.toValue = .object [("access_token", .string s.accessToken)] := rfl
  simp [hv, Value.compact, Text.isBlank, hbrace]

end Session

/-- Every store shows the text of a session as it is. -/
theorem Vault.view_compact (v : Vault) (s : Session) :
    v.view s.toValue.compact = some s.toValue.compact := by
  unfold view
  split
  · rw [Session.compact_not_blank]
    rfl
  · rfl

/-! ## Runs of store operations -/

/-- One operation on a store: a mutation committed at a time, reading the session back, or
the pending alert clear running at a time. -/
inductive StoreOp where
  | commit (now : Nat) (m : Mutation)
  | restore
  | clearDue (t : Nat)

namespace StoreOp

/-- What an operation, given what it returned, does to the token held in memory: gives it a
value, or leaves it. -/
def heldEffect : StoreOp → Option Session → Option String
  | .commit _ (.setSession s), _ => some s.accessToken
  | .commit _ (.restoreSession s), _ => some s.accessToken
  | .commit _ .clearSession, _ => some ""
  | .restore, found => found.map (·.accessToken)
  | _, _ => none

/-- What an operation does to the session kept in the vault: keeps a new one, forgets it, or
leaves it. -/
def storedEffect : StoreOp → Option (Option Session)
  | .commit _ (.setSession s) => some (some s)
  | .commit _ .clearSession => some none
  | _ => none

end StoreOp

/-- The value a run of effects leaves: each effect that is some replaces the value. -/
def latest (init : α) (effects : List (Option α)) : α :=
  effects.foldl (fun a e => e.getD a) init

/-- With no effects, the latest value is the initial one. -/
@[simp]
theorem latest_nil (init : α) : latest init [] = init := rfl

/-- An effect that sets a value makes it the latest; one that sets none leaves it. -/
@[simp]
theorem latest_cons (init : α) (e : Option α) (effects : List (Option α)) :
    latest init (e :: effects) = latest (e.getD init) effects := rfl

namespace Store

/-- One operation on a store: the store it leaves and the session a restore found. -/
def step (st : Store) : StoreOp → Store × Option Session
  | .commit now m => (st.commit now m, none)
  | .restore => st.restoreSession
  | .clearDue t => (st.clearDue t, none)

/-- A run of operations: the store it leaves and what each operation returned. -/
def run (st : Store) : List StoreOp → Store × List (Option Session)
  | [] => (st, [])
  | op :: ops => (((st.step op).1.run ops).1, (st.step op).2 :: ((st.step op).1.run ops).2)

/-- A restore either finds nothing and leaves the store, or takes a session it found. -/
theorem restoreSession_eq (st : Store) :
    st.restoreSession = (st, none) ∨
      ∃ s, st.restoreSession = (st.commit 0 (.restoreSession s), some s) := by
  unfold restoreSession
  split
  · split
    · split
      · exact .inr ⟨_, rfl⟩
      · exact .inl rfl
    · exact .inl rfl
  · exact .inl rfl

/-- A restore never writes the vault. -/
theorem restoreSession_vault (st : Store) : st.restoreSession.1.vault = st.vault := by
  rcases restoreSession_eq st with h | ⟨s, h⟩
  · rw [h]
  · rw [h]
    rfl

/-- The alert clear changes nothing but the alert and the handle of the pending clear. -/
theorem clearDue_frame (t : Nat) (st : Store) :
    ∃ a p, st.clearDue t =
      { st with state := { st.state with alert := a }, timer := { st.timer with pending := p } } := by
  unfold clearDue runClear AlertTimer.finish
  split
  · split
    · split
      · exact ⟨_, _, rfl⟩
      · exact ⟨st.state.alert, st.timer.pending, rfl⟩
    · exact ⟨st.state.alert, st.timer.pending, rfl⟩
  · exact ⟨st.state.alert, st.timer.pending, rfl⟩

/-- The alert clear leaves the vault. -/
theorem clearDue_vault (t : Nat) (st : Store) : (st.clearDue t).vault = st.vault := by
  obtain ⟨a, tm, h⟩ := clearDue_frame t st
  rw [h]

/-- The alert clear leaves the token in memory. -/
theorem clearDue_accessToken (t : Nat) (st : Store) :
    (st.clearDue t).accessToken = st.accessToken := by
  obtain ⟨a, tm, h⟩ := clearDue_frame t st
  rw [h]
  rfl

/-! ## The token in memory -/

/-- After one operation the token is the one the operation gave, or the one before. -/
theorem accessToken_step (st : Store) (op : StoreOp) :
    (st.step op).1.accessToken = (op.heldEffect (st.step op).2).getD st.accessToken := by
  cases op with
  | commit now m => cases m <;> rfl
  | restore =>
    rcases restoreSession_eq st with h | ⟨s, h⟩ <;> simp only [step, h] <;> rfl
  | clearDue t => exact clearDue_accessToken t st

/-- After a run the token is the one the last operation that gave a token gave, or the one
before the run. -/
theorem accessToken_run (st : Store) (ops : List StoreOp) :
    (st.run ops).1.accessToken =
      latest st.accessToken (List.zipWith StoreOp.heldEffect ops (st.run ops).2) := by
  -- the operations are taken one at a time, from the store each one leaves
  induction ops generalizing st with
  | nil => rfl
  | cons op ops ih =>
    simp only [run, List.zipWith_cons_cons, latest_cons]
    rw [ih, accessToken_step]

end Store

/-! ## The session in the vault -/

/-- A vault that keeps a map whose session key holds the text of `stored`, or nothing. -/
def Vault.KeepsSession (v : Vault) (stored : Option Session) : Prop :=
  ∃ m, v.Holds m ∧ m sessionKey = stored.map (·.toValue.compact)

namespace Store

/-- One operation keeps the session its stored effect leaves. -/
theorem keepsSession_step {st : Store} {stored : Option Session}
    (h : st.vault.KeepsSession stored) (op : StoreOp) :
    (st.step op).1.vault.KeepsSession (op.storedEffect.getD stored) := by
  obtain ⟨m, hh, hm⟩ := h
  cases op with
  | commit now mu =>
    cases mu with
    | setSession s =>
      exact ⟨_, (hh.set sessionKey s.toValue.compact).2, by simp [StoreOp.storedEffect]⟩
    | clearSession =>
      exact ⟨_, (hh.remove sessionKey).2, by simp [StoreOp.storedEffect]⟩
    | restoreSession s => exact ⟨m, hh, hm⟩
    | setCurrentUser p => exact ⟨m, hh, hm⟩
    | setLoading flag => exact ⟨m, hh, hm⟩
    | setAlert a => exact ⟨m, hh, hm⟩
  | restore =>
    show st.restoreSession.1.vault.KeepsSession stored
    rw [restoreSession_vault]
    exact ⟨m, hh, hm⟩
  | clearDue t =>
    show (st.clearDue t).vault.KeepsSession stored
    rw [clearDue_vault]
    exact ⟨m, hh, hm⟩

/-- Over a vault whose writes succeed, a run leaves in the vault the last session it set and
did not clear since, or what the vault kept before. -/
theorem keepsSession_run {st : Store} {stored : Option Session}
    (h : st.vault.KeepsSession stored) (ops : List StoreOp) :
    (st.run ops).1.vault.KeepsSession (latest stored (ops.map StoreOp.storedEffect)) := by
  induction ops generalizing st stored with
  | nil => exact h
  | cons op ops ih => exact ih (keepsSession_step h op)

/-- A store over a vault that keeps a session restores it, unless its token is blank. -/
theorem restoreSession_of_keeps {st : Store} {stored : Option Session}
    (h : st.vault.KeepsSession stored) :
    st.restoreSession.2 = stored.filter (·.isAuthenticated) := by
  obtain ⟨m, hh, hm⟩ := h
  unfold restoreSession
  rw [hh.get, hm]
  cases stored with
  | none => rfl
  | some s =>
    simp only [Option.map_some, Option.bind_some, Vault.view_compact, Session.readText_compact,
      Option.filter_some]
    split <;> simp_all

end Store

/-! ## The session across stores -/

/-- The session of a fresh store, along any run of operations. In memory the token is the one
the last session event gave (a session set or restored, or a clear), over any vault, even one
whose writes fail. Over a store opened with writes that succeed and no session stored, the
vault keeps the last session set and not cleared since: a fresh store over the vault, or over
the storage file opened again, restores it when its token is not blank, and nothing
otherwise. A restore never writes the vault. -/
theorem session_survives_store_runs (opts : StoreOptions) (ops : List StoreOp) :
    (∀ w : Vault, ((Store.create w opts).run ops).1.accessToken =
      latest "" (List.zipWith StoreOp.heldEffect ops ((Store.create w opts).run ops).2)) ∧
    (∀ (b : Backend) (disk : Disk) (v : Vault), b.writableOn disk = true →
      Vault.ofBackend b disk .working = .ok v → v.get sessionKey = .ok none →
      let final := ((Store.create v opts).run ops).1
      let expected := (latest none (ops.map StoreOp.storedEffect)).filter (·.isAuthenticated)
      (∀ opts', (Store.create final.vault opts').restoreSession.2 = expected) ∧
      ∀ path, final.vault.filePath? = some path →
        ∃ w, Vault.ofBackend (.file path) final.vault.disk .working = .ok w ∧
          ∀ opts', (Store.create w opts').restoreSession.2 = expected) ∧
    (∀ st : Store, st.restoreSession.1.vault = st.vault) := by
  refine ⟨fun w => Store.accessToken_run _ ops, ?_, Store.restoreSession_vault⟩
  intro b disk v hb hopen hnone final expected
  -- the opened vault keeps a map without a session, and the run keeps it in step
  obtain ⟨m, hh, hget⟩ := Vault.holds_ofBackend hb hopen
  have hm : m sessionKey = none := by
    rw [hget] at hnone
    exact Except.ok.inj hnone
  have hstart : (Store.create v opts).vault.KeepsSession none := ⟨m, hh, hm⟩
  have hfinal : final.vault.KeepsSession (latest none (ops.map StoreOp.storedEffect)) :=
    Store.keepsSession_run hstart ops
  refine ⟨fun opts' => Store.restoreSession_of_keeps hfinal, fun path hp => ?_⟩
  -- the file opened again keeps the same map
  obtain ⟨m', hh', hm'⟩ := hfinal
  obtain ⟨w, hw, hhw⟩ := hh'.openFile hp .working
  have hkeeps : w.KeepsSession (latest none (ops.map StoreOp.storedEffect)) := ⟨m', hhw, hm'⟩
  exact ⟨w, hw, fun opts' =>
    Store.restoreSession_of_keeps (show (Store.create w opts').vault.KeepsSession _ from hkeeps)⟩

/-- In an empty working directory, a store over `storage.json` that sets a session with a quote
in its token, restores it, clears it and sets another leaves the file with the last one, and
a store over the file opened again restores it. -/
theorem session_restored_from_storage_file :
    let ops := [StoreOp.commit 0 (.setSession ⟨"a\"b"⟩), .restore, .commit 1 .clearSession,
      .commit 2 (.setSession ⟨"tok"⟩)]
    ∃ v, (Backend.file "storage.json").writableOn {} = true ∧
      Vault.ofBackend (.file "storage.json") {} .working = .ok v ∧ v.get sessionKey = .ok none ∧
      let final := ((Store.create v {}).run ops).1
      let expected := (latest none (ops.map StoreOp.storedEffect)).filter (·.isAuthenticated)
      (∀ opts', (Store.create final.vault opts').restoreSession.2 = expected) ∧
      ∀ path, final.vault.filePath? = some path →
        ∃ w, Vault.ofBackend (.file path) final.vault.disk .working = .ok w ∧
          ∀ opts', (Store.create w opts').restoreSession.2 = expected := by
  intro ops
  have hopen : Vault.ofBackend (.file "storage.json") {} .working =
      .ok ⟨.file "storage.json" [], {}⟩ := by
    rw [Vault.ofBackend, readStorageFile_storageJson]
    rfl
  exact ⟨_, Disk.writable_storageJson, hopen, rfl,
    (session_survives_store_runs {} ops).2.1 (.file "storage.json") {} _ Disk.writable_storageJson
      hopen rfl⟩

end FeedClient
