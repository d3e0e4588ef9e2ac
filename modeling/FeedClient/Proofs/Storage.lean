import FeedClient.Proofs.Disk
import FeedClient.Proofs.Json.Reread
import Mathlib.Logic.Function.Basic

/-!
# Stores as finite maps

The three backends of the durable store keep their values in different forms: memory as a
list of pairs, the file as the members of a JSON object written to disk after every change,
the keychain as one secret per key. Seen through `get`, `set` and `remove`, each is a finite
map from keys to values where the last write wins and a removal forgets the key, provided
its writes succeed: the file's while its path stays writable, the keychain's while it works.
The keychain alone reads a blank secret as no secret.

`Vault.Holds v m` says that a store keeps the map `m`, in the form its backend has, and can
keep writing. Each call keeps that relation with the map updated as the call says, so a whole
run of calls is answered as the map answers it.

Main results:

- Theorem `Vault.Holds.call`: a store that keeps a map answers a call as the map does and
  keeps the map the call leaves.
- Theorem `Vault.replay_of_holds`: such a store answers a run of calls as the map does.
- Theorem `stores_answer_as_one_map`: a fresh memory store, a file store on a writable path
  that opens empty and a working keychain answer every run of calls as one map, except that
  the keychain shows a blank value as none.
-/

namespace FeedClient

open Json

/-! ## Lists of pairs and file objects -/

/-- The value of a key in a list of pairs, as the memory store and the keychain look it up. -/
def pairValue (items : List (String × String)) (key : String) : Option String :=
  (items.find? (fun i => i.1 == key)).map Prod.snd

/-- Dropping the pairs of a key forgets it. -/
theorem pairValue_drop (items : List (String × String)) (key k : String) :
    pairValue (items.filter (fun i => i.1 != key)) k =
      if k = key then none else pairValue items k := by
  unfold pairValue
  rw [List.find?_filter]
  by_cases h : k = key
  · subst h
    -- the two tests ask opposite things of the key, so no pair passes both
    have hnone : items.find? (fun i => decide ((i.1 != k) = true ∧ (i.1 == k) = true)) = none :=
      List.find?_eq_none.mpr fun i _ => by simp
    rw [hnone]
    simp
  · have hsame : (fun i : String × String => decide ((i.1 != key) = true ∧ (i.1 == k) = true)) =
        (fun i => i.1 == k) := by
      funext i
      by_cases hi : i.1 = k
      · simp [hi, h]
      · simp [hi]
    rw [hsame, if_neg h]

/-- Replacing the pairs of a key by one new pair gives that key the new value. -/
theorem pairValue_replace (items : List (String × String)) (key value k : String) :
    pairValue ((items.filter (fun i => i.1 != key)) ++ [(key, value)]) k =
      if k = key then some value else pairValue items k := by
  have hdrop := pairValue_drop items key k
  unfold pairValue at hdrop ⊢
  rw [List.find?_append]
  by_cases h : k = key
  · subst h
    rw [if_pos rfl] at hdrop
    simp [Option.map_eq_none_iff.mp hdrop]
  · rw [if_neg h] at hdrop
    rw [if_neg h]
    cases hf : (items.filter (fun i => i.1 != key)).find? (fun i => i.1 == k) with
    | none =>
      rw [hf, Option.map_none] at hdrop
      -- the new pair is not the key's either
      have hnew : [(key, value)].find? (fun i => i.1 == k) = none := by simp [Ne.symm h]
      rw [Option.none_or, hnew, Option.map_none, hdrop]
    | some i =>
      rw [hf] at hdrop
      rw [Option.some_or, hdrop]

/-- The string a file object holds under a key; a member of another kind reads as absent. -/
def Json.Fields.stringAt (fs : Fields) (key : String) : Option String :=
  match fs.find? key with
  | some (.string s) => some s
  | _ => none

/-- An empty object holds no string. -/
@[simp]
theorem Json.Fields.stringAt_nil (key : String) : Fields.stringAt [] key = none := rfl

/-- A string put under a key is read there; other keys read as before. -/
theorem Json.Fields.stringAt_insert (fs : Fields) (key value k : String) :
    (fs.insert key (.string value)).stringAt k = if k = key then some value else fs.stringAt k := by
  unfold Fields.stringAt
  rw [Fields.find?_insert]
  by_cases h : k = key
  · simp [h]
  · simp [h, Ne.symm h]

/-- An erased key reads as absent; other keys read as before. -/
theorem Json.Fields.stringAt_erase (fs : Fields) (key k : String) :
    (fs.erase key).stringAt k = if k = key then none else fs.stringAt k := by
  unfold Fields.stringAt
  rw [Fields.find?_erase]
  by_cases h : k = key
  · simp [h]
  · simp [h, Ne.symm h]

/-! ## Storage files that read back -/

/-- An object a storage file can hold and give back: canonical, and nesting less deep than
the reader allows. -/
def Json.Fields.Storable (fs : Fields) : Prop :=
  (Value.object fs).Canonical ∧ (Value.object fs).nesting < nestingLimit

namespace Json.Fields

/-- The empty object is storable. -/
theorem storable_nil : Storable [] :=
  ⟨.object sorted_nil (by simp), by simp [Value.nesting, Value.fieldsNesting, nestingLimit]⟩

/-- Putting a string under a key keeps an object storable. -/
theorem Storable.insert_string {fs : Fields} (h : fs.Storable) (key value : String) :
    (fs.insert key (.string value)).Storable := by
  obtain ⟨hc, hn⟩ := h
  cases hc with
  | object hs hv =>
    have hmem : ∀ f ∈ fs.insert key (.string value), f = (key, .string value) ∨ f ∈ fs :=
      fun _ hf => mem_insert hf
    refine ⟨.object (sorted_insert _ _ hs) fun f hf => ?_, ?_⟩
    · rcases hmem f hf with rfl | hf
      · exact .string value
      · exact hv f hf
    · -- a string nests no deeper than what the object held
      have hle : Value.fieldsNesting (fs.insert key (.string value)) ≤ Value.fieldsNesting fs :=
        Value.fieldsNesting_le.mpr fun f hf => by
          rcases hmem f hf with rfl | hf
          · simp [Value.nesting]
          · exact Value.fieldsNesting_le.mp le_rfl f hf
      simp only [Value.nesting] at hn ⊢
      omega

/-- Erasing a key keeps an object storable. -/
theorem Storable.erase {fs : Fields} (h : fs.Storable) (key : String) : (fs.erase key).Storable := by
  obtain ⟨hc, hn⟩ := h
  cases hc with
  | object hs hv =>
    have hmem : ∀ f ∈ fs.erase key, f ∈ fs := fun _ hf => (List.mem_filter.mp hf).1
    refine ⟨.object (sorted_erase _ hs) fun f hf => hv f (hmem f hf), ?_⟩
    have hle : Value.fieldsNesting (fs.erase key) ≤ Value.fieldsNesting fs :=
      Value.fieldsNesting_le.mpr fun f hf => Value.fieldsNesting_le.mp le_rfl f (hmem f hf)
    simp only [Value.nesting] at hn ⊢
    omega

/-- Objects of one shape hold the same strings. -/
theorem stringAt_of_shape {fs gs : Fields}
    (h : (Value.object fs).shape = (Value.object gs).shape) (k : String) :
    fs.stringAt k = gs.stringAt k := by
  have hfind : (fs.find? k).map Value.shape = (gs.find? k).map Value.shape := by
    simp only [Value.shape, Value.object.injEq] at h
    rw [← Value.find?_shapeFields, ← Value.find?_shapeFields, h]
  unfold stringAt
  cases hf : fs.find? k with
  | none =>
    rw [hf, Option.map_none, eq_comm, Option.map_eq_none_iff] at hfind
    rw [hfind]
  | some w =>
    rw [hf, Option.map_some, eq_comm, Option.map_eq_some_iff] at hfind
    obtain ⟨w', hw', hshape⟩ := hfind
    rw [hw']
    cases w with
    | string s => rw [Value.shape_string, Value.shape_eq_string] at hshape; rw [hshape]
    | _ =>
      cases w' <;> simp_all [Value.shape]

end Json.Fields

/-- The text of a storage file is never blank: it opens with a brace. -/
theorem Vault.fileText_not_blank (items : Fields) : Text.isBlank (Vault.fileText items) = false := by
  have hbrace : Text.isWhiteSpace '\x7b' = false := by decide
  cases items <;> simp [Vault.fileText, Value.pretty, Text.isBlank, hbrace]

/-- Whatever a storage file gives is an object it could hold again. -/
theorem storable_of_readStorageFile {disk : Disk} {path : String} {items : Fields}
    (h : readStorageFile disk path = .ok items) : items.Storable := by
  unfold readStorageFile at h
  split at h
  · cases h
    exact Fields.storable_nil
  · cases h
  · split at h
    · cases h
      exact Fields.storable_nil
    · split at h
      · cases h
      · rename_i hread
        cases h
        exact Value.read_canonical hread
      · cases h
        exact Fields.storable_nil

/-- A disk that holds the text of a storable object reads back an object with its strings. -/
theorem readStorageFile_of_fileText {disk : Disk} {path : String} {items : Fields}
    (hs : items.Storable) (h : disk.readText path = .ok (Vault.fileText items)) :
    ∃ items', readStorageFile disk path = .ok items' ∧ ∀ k, items'.stringAt k = items.stringAt k := by
  obtain ⟨v', hread, hshape⟩ := Value.readText_pretty hs.1 hs.2
  unfold readStorageFile
  rw [h]
  dsimp only
  rw [Vault.fileText_not_blank]
  simp only [Bool.false_eq_true, ↓reduceIte]
  rw [Vault.fileText, hread]
  cases v' with
  | object fs => exact ⟨fs, rfl, Fields.stringAt_of_shape hshape⟩
  | _ => simp [Value.shape] at hshape

/-! ## A working keychain -/

namespace Keychain

variable {k : Keychain} (h : k.mode = .working)
include h

/-- A working keychain reads a key as its secret, with a blank secret read as none. -/
theorem get_of_working (key : String) :
    k.get key = .ok ((pairValue k.secrets key).bind fun x =>
      if Text.isBlank x then none else some x) := by
  unfold get
  rw [h]
  simp only [refusal, pairValue]
  cases (k.secrets.find? (fun s => s.1 == key)).map Prod.snd <;> rfl

/-- A working keychain replaces the secret of a key. -/
theorem set_of_working (key value : String) :
    k.set key value = .ok { k with secrets := (k.secrets.filter (fun s => s.1 != key)) ++
      [(key, value)] } := by
  simp [set, h, refusal]

/-- A working keychain forgets a key. -/
theorem remove_of_working (key : String) :
    k.remove key = .ok { k with secrets := k.secrets.filter (fun s => s.1 != key) } := by
  simp [remove, h, refusal]

end Keychain

/-- Whether the writes of a backend succeed in a directory: a file's need a writable path. -/
def Backend.writableOn (b : Backend) (disk : Disk) : Bool :=
  match b with
  | .file path => disk.writable path
  | _ => true

/-! ## Calls on a store and on a map -/

/-- One call on a store. -/
inductive StorageCall where
  | get (key : String)
  | set (key value : String)
  | remove (key : String)
  deriving Repr, DecidableEq

namespace StorageCall

/-- A call on a finite map: the map it leaves and its answer. A write answers nothing. -/
def onMap (m : String → Option String) : StorageCall → (String → Option String) × Option String
  | .get key => (m, m key)
  | .set key value => (Function.update m key (some value), none)
  | .remove key => (Function.update m key none, none)

/-- The answers of a run of calls on a finite map. -/
def replayMap (m : String → Option String) : List StorageCall → List (Option String)
  | [] => []
  | c :: cs => (c.onMap m).2 :: replayMap (c.onMap m).1 cs

end StorageCall

namespace Vault

/-- A call on a store: the store it leaves and its answer. A write answers nothing. -/
def call (v : Vault) : StorageCall → Vault × Except StorageError (Option String)
  | .get key => (v, v.get key)
  | .set key value => ((v.set key value).1, (v.set key value).2.map fun _ => none)
  | .remove key => ((v.remove key).1, (v.remove key).2.map fun _ => none)

/-- The answers of a run of calls on a store. -/
def replay (v : Vault) : List StorageCall → List (Except StorageError (Option String))
  | [] => []
  | c :: cs => (v.call c).2 :: (v.call c).1.replay cs

/-- What a store shows of a stored value: the keychain reads a blank secret as none. -/
def view (v : Vault) (x : String) : Option String :=
  match v.holding with
  | .keychain _ => if Text.isBlank x then none else some x
  | _ => some x

/-- The memory store shows every stored value. -/
@[simp]
theorem view_memory (items : List (String × String)) (disk : Disk) :
    Vault.view ⟨.memory items, disk⟩ = some := rfl

/-- The file store shows every stored value. -/
@[simp]
theorem view_file (path : String) (items : Fields) (disk : Disk) :
    Vault.view ⟨.file path items, disk⟩ = some := rfl

/-- The keychain shows a blank value as none. -/
@[simp]
theorem view_keychain (k : Keychain) (disk : Disk) :
    Vault.view ⟨.keychain k, disk⟩ = fun x => if Text.isBlank x then none else some x := rfl

/-- A write keeps the store's backend, and so what it shows. -/
theorem view_set (v : Vault) (key value : String) : (v.set key value).1.view = v.view := by
  funext x
  unfold set
  split <;> rename_i heq
  · simp [view, heq]
  · unfold commitFile
    split <;> simp [view, heq]
  · split <;> simp [view, heq]

/-- A removal keeps the store's backend, and so what it shows. -/
theorem view_remove (v : Vault) (key : String) : (v.remove key).1.view = v.view := by
  funext x
  unfold remove
  split <;> rename_i heq
  · simp [view, heq]
  · split
    · unfold commitFile
      split <;> simp [view, heq]
    · rfl
  · split <;> simp [view, heq]

/-- A call keeps the store's backend, and so what it shows. -/
theorem view_call (v : Vault) (c : StorageCall) : (v.call c).1.view = v.view := by
  cases c with
  | get key => rfl
  | set key value => exact view_set v key value
  | remove key => exact view_remove v key

/-- A store keeps the map `m` in its backend's form, and can go on writing: memory always,
a file while its path is writable, a keychain while it works. A file store's object is one
the file can give back, and the file on disk reads as the same map. -/
inductive Holds : Vault → (String → Option String) → Prop
  | memory {items : List (String × String)} {disk : Disk} {m : String → Option String}
      (hm : ∀ k, pairValue items k = m k) : Holds ⟨.memory items, disk⟩ m
  | file {path : String} {items : Fields} {disk : Disk} {m : String → Option String}
      (hw : disk.writable path = true) (hs : items.Storable)
      (hdisk : ∃ items', readStorageFile disk path = .ok items' ∧ ∀ k, items'.stringAt k = m k)
      (hm : ∀ k, items.stringAt k = m k) :
      Holds ⟨.file path items, disk⟩ m
  | keychain {k : Keychain} {disk : Disk} {m : String → Option String}
      (hk : k.mode = .working) (hm : ∀ key, pairValue k.secrets key = m key) :
      Holds ⟨.keychain k, disk⟩ m

variable {v : Vault} {m : String → Option String}

/-- A store that keeps a map reads every key as the map has it. -/
theorem Holds.get (h : Holds v m) (key : String) : v.get key = .ok ((m key).bind v.view) := by
  cases h with
  | memory hm =>
    rw [view_memory, Option.bind_fun_some, ← hm key]
    rfl
  | file _ _ _ hm =>
    simp only [Vault.get, view_file, Option.bind_fun_some, ← hm key, Fields.stringAt]
    split <;> simp_all
  | keychain hk hm =>
    simp only [Vault.get, view_keychain, Keychain.get_of_working hk, hm]

/-- A file store whose write succeeds holds the object written on the disk left. -/
theorem commitFile_of_persist {path : String} {items : Fields} {d : Disk}
    (h : persist v.disk path items = (d, .ok ())) :
    v.commitFile path items = (⟨.file path items, d⟩, .ok ()) := by
  unfold commitFile
  rw [h]

/-- Writing a storable object through a file store on a writable path succeeds, and the store
keeps the map the object holds, on disk as well. -/
theorem holds_commitFile {path : String} {items : Fields} {m' : String → Option String}
    (hw : v.disk.writable path = true) (hs : items.Storable) (hm : ∀ k, items.stringAt k = m' k) :
    (v.commitFile path items).2 = .ok () ∧ Holds (v.commitFile path items).1 m' := by
  obtain ⟨d, hp, hw'⟩ := persist_of_writable hw items
  obtain ⟨items', hread, hsame⟩ := readStorageFile_of_fileText hs (persist_readText hp)
  rw [commitFile_of_persist hp]
  exact ⟨rfl, .file hw' hs ⟨items', hread, fun k => (hsame k).trans (hm k)⟩ hm⟩

/-- A store that keeps a map takes a write, which succeeds, and keeps the map with the new
value at its key. -/
theorem Holds.set (h : Holds v m) (key value : String) :
    (v.set key value).2 = .ok () ∧ Holds (v.set key value).1 (Function.update m key (some value)) := by
  cases h with
  | memory hm =>
    refine ⟨rfl, .memory fun k => ?_⟩
    rw [pairValue_replace, hm, Function.update_apply]
  | file hw hs _ hm =>
    simp only [Vault.set]
    exact holds_commitFile hw (hs.insert_string key value) fun k => by
      rw [Fields.stringAt_insert, hm, Function.update_apply]
  | keychain hk hm =>
    simp only [Vault.set]
    rw [Keychain.set_of_working hk]
    refine ⟨rfl, .keychain hk fun k => ?_⟩
    rw [pairValue_replace, hm, Function.update_apply]

/-- A store that keeps a map takes a removal, which succeeds, and keeps the map without the
key. -/
theorem Holds.remove (h : Holds v m) (key : String) :
    (v.remove key).2 = .ok () ∧ Holds (v.remove key).1 (Function.update m key none) := by
  cases h with
  | memory hm =>
    refine ⟨rfl, .memory fun k => ?_⟩
    rw [pairValue_drop, hm, Function.update_apply]
  | @file path items disk _ hw hs hdisk hm =>
    by_cases hfound : (items.find? key).isSome
    · simp only [Vault.remove, hfound, if_true]
      exact holds_commitFile hw (hs.erase key) fun k => by
        rw [Fields.stringAt_erase, hm, Function.update_apply]
    · -- an absent key is not written: the object and the file already read it as absent
      have habsent : m key = none := by
        rw [← hm key, Fields.stringAt, Option.not_isSome_iff_eq_none.mp hfound]
      have hsame : Function.update m key none = m := by
        rw [← habsent, Function.update_eq_self]
      simp only [Vault.remove, hfound]
      rw [hsame]
      exact ⟨rfl, .file hw hs hdisk hm⟩
  | keychain hk hm =>
    simp only [Vault.remove]
    rw [Keychain.remove_of_working hk]
    refine ⟨rfl, .keychain hk fun k => ?_⟩
    rw [pairValue_drop, hm, Function.update_apply]

/-- A store that keeps a map answers a call as the map does, shown through the store's view,
and keeps the map the call leaves. -/
theorem Holds.call (h : Holds v m) (c : StorageCall) :
    (v.call c).2 = .ok ((c.onMap m).2.bind v.view) ∧ Holds (v.call c).1 (c.onMap m).1 := by
  cases c with
  | get key => exact ⟨h.get key, h⟩
  | set key value =>
    obtain ⟨hr, hs⟩ := h.set key value
    exact ⟨by rw [Vault.call, hr]; rfl, hs⟩
  | remove key =>
    obtain ⟨hr, hs⟩ := h.remove key
    exact ⟨by rw [Vault.call, hr]; rfl, hs⟩

/-- A store that keeps a map answers a whole run of calls as the map answers it. -/
theorem replay_of_holds (h : Holds v m) (calls : List StorageCall) :
    v.replay calls = (StorageCall.replayMap m calls).map fun a => .ok (a.bind v.view) := by
  -- the store and the map move together, one call at a time
  induction calls generalizing v m with
  | nil => rfl
  | cons c cs ih =>
    obtain ⟨hanswer, hnext⟩ := h.call c
    rw [replay, StorageCall.replayMap, List.map_cons, hanswer, ih hnext, view_call]

/-! ## Fresh stores -/

/-- A fresh memory store keeps the empty map. -/
theorem holds_memory (disk : Disk) (mode : KeychainMode) :
    ∃ v, ofBackend .memory disk mode = .ok v ∧ Holds v fun _ => none :=
  ⟨_, rfl, .memory fun _ => rfl⟩

/-- A file store opened on a writable path keeps the map its file reads as. -/
theorem holds_file {disk : Disk} {path : String} {items : Fields} (mode : KeychainMode)
    (hw : disk.writable path = true) (hread : readStorageFile disk path = .ok items) :
    ∃ v, ofBackend (.file path) disk mode = .ok v ∧ Holds v items.stringAt := by
  refine ⟨_, ?_, .file hw (storable_of_readStorageFile hread) ⟨items, hread, fun _ => rfl⟩
    fun _ => rfl⟩
  simp [ofBackend, hread, bind, Except.bind, pure, Except.pure]

/-- A fresh working keychain keeps the empty map. -/
theorem holds_keychain (disk : Disk) (service : String) :
    ∃ v, ofBackend (.keyring service) disk .working = .ok v ∧ Holds v fun _ => none :=
  ⟨_, rfl, .keychain rfl fun _ => rfl⟩

/-- Opening a file store's path again finds the map it keeps. -/
theorem Holds.openFile (h : Holds v m) {path : String} (hp : v.filePath? = some path)
    (mode : KeychainMode) : ∃ w, ofBackend (.file path) v.disk mode = .ok w ∧ Holds w m := by
  cases h with
  | memory => cases hp
  | keychain => cases hp
  | file hw _ hdisk _ =>
    cases hp
    obtain ⟨items', hread, hsame⟩ := hdisk
    obtain ⟨w, hopen, hw'⟩ := holds_file mode hw hread
    exact ⟨w, hopen, (funext hsame : items'.stringAt = m) ▸ hw'⟩

/-- A store opened with writes that succeed keeps a map, and shows it as it is. -/
theorem holds_ofBackend {b : Backend} {disk : Disk} (hb : b.writableOn disk = true)
    (h : ofBackend b disk .working = .ok v) : ∃ m, Holds v m ∧ ∀ k, v.get k = .ok (m k) := by
  cases b with
  | memory =>
    obtain ⟨w, hw, hh⟩ := holds_memory disk .working
    rw [hw] at h
    cases h
    exact ⟨_, hh, fun k => by rw [hh.get]; rfl⟩
  | keyring service =>
    obtain ⟨w, hw, hh⟩ := holds_keychain disk service
    rw [hw] at h
    cases h
    exact ⟨_, hh, fun k => by rw [hh.get]; rfl⟩
  | file path =>
    obtain ⟨items, hread, hv⟩ := Except.bind_eq_ok.mp h
    cases hv
    obtain ⟨w, hw, hh⟩ := holds_file .working hb hread
    rw [hw] at h
    cases h
    exact ⟨_, hh, fun k => by rw [hh.get, view_file, Option.bind_fun_some]⟩

end Vault

/-- The three backends answer every run of calls as one finite map, where the last write of
a key wins and a removal forgets it, and every call succeeds: memory, a file on a writable
path that opens empty, and a working keychain. The keychain alone shows a blank value as
none. -/
theorem stores_answer_as_one_map {disk : Disk} {path : String} (service : String)
    (hw : disk.writable path = true) (hempty : readStorageFile disk path = .ok [])
    (calls : List StorageCall) :
    let answers := StorageCall.replayMap (fun _ => none) calls
    (∃ v, Vault.ofBackend .memory disk .working = .ok v ∧ v.replay calls = answers.map .ok) ∧
    (∃ v, Vault.ofBackend (.file path) disk .working = .ok v ∧
      v.replay calls = answers.map .ok) ∧
    (∃ v, Vault.ofBackend (.keyring service) disk .working = .ok v ∧
      v.replay calls = answers.map fun a =>
        .ok (a.bind fun x => if Text.isBlank x then none else some x)) := by
  intro answers
  obtain ⟨vm, hm, hmh⟩ := Vault.holds_memory disk .working
  obtain ⟨vf, hf, hfh⟩ := Vault.holds_file .working hw hempty
  obtain ⟨vk, hk, hkh⟩ := Vault.holds_keychain disk service
  have hnone : Fields.stringAt [] = fun _ => none := rfl
  rw [hnone] at hfh
  refine ⟨⟨vm, hm, ?_⟩, ⟨vf, hf, ?_⟩, ⟨vk, hk, ?_⟩⟩
  · rw [Vault.replay_of_holds hmh]
    cases hm
    simp [answers]
  · rw [Vault.replay_of_holds hfh]
    simp only [Vault.ofBackend, hempty] at hf
    cases hf
    simp [answers]
  · rw [Vault.replay_of_holds hkh]
    cases hk
    simp [answers]

/-- In an empty working directory the file `storage.json` can be written. -/
theorem Disk.writable_storageJson : ({} : Disk).writable "storage.json" = true := by
  simp only [Disk.writable, Disk.makeParent, Disk.canHoldFile, Disk.resolve, Path.parent?,
    Path.withExtension, String.contains_char_eq]
  decide +kernel

/- A file store in a directory that does not exist yet makes it on its first write. -/
example : ({} : Disk).writable "nested/storage.json" = true := by
  simp only [Disk.writable, Disk.makeParent, Disk.createDirAll, Disk.makeDirectoriesFuel,
    Disk.makeDirectory, Disk.canHoldFile, Disk.resolve, Path.parent?, Path.withExtension,
    String.contains_char_eq]
  decide +kernel

/-- In an empty working directory the file `storage.json` is absent, so it opens empty. -/
theorem readStorageFile_storageJson : readStorageFile {} "storage.json" = .ok [] := by
  have habsent : ({} : Disk).readText "storage.json" = .error .notFound := by
    simp only [Disk.readText, Disk.read, Disk.resolve, String.contains_char_eq]
    decide +kernel
  rw [readStorageFile, habsent]

/-- In an empty working directory, a run that sets the session key, blanks it and removes it,
reading it after each step, is answered alike by the three stores, but for the blank value. -/
theorem stores_answer_alike_on_empty_disk :
    ({} : Disk).writable "storage.json" = true ∧ readStorageFile {} "storage.json" = .ok [] ∧
    let calls := [.set "jwt" "t", .get "jwt", .set "jwt" " ", .get "jwt", .remove "jwt", .get "jwt"]
    let answers := StorageCall.replayMap (fun _ => none) calls
    (∃ v, Vault.ofBackend .memory {} .working = .ok v ∧ v.replay calls = answers.map .ok) ∧
    (∃ v, Vault.ofBackend (.file "storage.json") {} .working = .ok v ∧
      v.replay calls = answers.map .ok) ∧
    (∃ v, Vault.ofBackend (.keyring "") {} .working = .ok v ∧
      v.replay calls = answers.map fun a =>
        .ok (a.bind fun x => if Text.isBlank x then none else some x)) :=
  ⟨Disk.writable_storageJson, readStorageFile_storageJson,
    stores_answer_as_one_map "" Disk.writable_storageJson readStorageFile_storageJson _⟩

end FeedClient
