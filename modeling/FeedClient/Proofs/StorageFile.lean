import FeedClient.Proofs.Storage

/-!
# The storage file, call by call

A file store writes its whole object after every change: into a temporary file beside the
storage file, which is then renamed over it. Through calls that succeed, the live object and
the file agree as far as a reopened store can tell, and each write leaves the file holding
the pretty text of the whole object, members that are not strings included.

A write can fail while it makes the directory, writes the temporary file or renames it. The
file at the storage path keeps its bytes then: the temporary file is written elsewhere, and
a rename that fails moves nothing. The live object took the change before the write was
tried, so the store answers as if the call had gone through, and its next write that
succeeds puts the change on disk.

Main results:

- `Vault.persist_error_bytesAt`: a failed write leaves the bytes at the place the storage
  path names.
- `Vault.FileSynced.call`: a call that succeeds keeps a file store in step with its file.
- `file_store_agrees_with_reopened_file`: along any run of calls that succeed, reopening the
  file answers as the live store does, and each write leaves the whole object on disk.
- `failed_write_keeps_file_not_store`: a failed write keeps the file but not the store.
-/

namespace FeedClient

open Json

/-! ## What a call does to a file store's object -/

namespace StorageCall

/-- The key a call names. -/
def key : StorageCall → String
  | .get key => key
  | .set key _ => key
  | .remove key => key

/-- The object a file store keeps after a call. -/
def onFields : StorageCall → Fields → Fields
  | .get _, fs => fs
  | .set key value, fs => fs.insert key (.string value)
  | .remove key, fs => fs.erase key

/-- Whether a call writes the object of a file store that holds `fs`: every `set`, and the
removal of a key the object has. -/
def writesFile (fs : Fields) : StorageCall → Bool
  | .get _ => false
  | .set _ _ => true
  | .remove key => (fs.find? key).isSome

/-- A call changes the object at its own key only, whatever kind of value the others hold. -/
theorem find?_onFields_of_ne (c : StorageCall) (fs : Fields) {k : String} (hk : k ≠ c.key) :
    Fields.find? k (c.onFields fs) = Fields.find? k fs := by
  cases c with
  | get key => rfl
  | set key value =>
    simp only [StorageCall.key] at hk
    simp [onFields, Ne.symm hk]
  | remove key =>
    simp only [StorageCall.key] at hk
    simp [onFields, Ne.symm hk]

end StorageCall

/-- Removing a key an object does not have leaves it as it is. -/
theorem Json.Fields.erase_of_find?_eq_none {fs : Fields} {key : String}
    (h : Fields.find? key fs = none) : Fields.erase key fs = fs := by
  induction fs with
  | nil => rfl
  | cons f fs ih =>
    obtain ⟨k, v⟩ := f
    have hk : k ≠ key := fun hk => by simp [Fields.find?, hk] at h
    have hrest : Fields.find? key fs = none := by simpa [Fields.find?, hk] using h
    rw [Fields.erase, List.filter_cons_of_pos (by simpa using hk)]
    exact congrArg _ (ih hrest)

/-- A call that writes nothing leaves the object as it is. -/
theorem StorageCall.onFields_of_writesFile_false {c : StorageCall} {fs : Fields}
    (h : c.writesFile fs = false) : c.onFields fs = fs := by
  cases c with
  | get key => rfl
  | set key value => cases h
  | remove key => exact Fields.erase_of_find?_eq_none (by simpa [writesFile] using h)

/-- Every call keeps the object of a file store storable. -/
theorem Json.Fields.Storable.onFields {fs : Fields} (h : fs.Storable) (c : StorageCall) :
    (c.onFields fs).Storable := by
  cases c with
  | get key => exact h
  | set key value => exact h.insert_string key value
  | remove key => exact h.erase key

/-! ## Files that a failed write leaves -/

namespace Disk

/-- Disks with the same files hold the same bytes at every place. -/
theorem bytesAt?_of_files {d d' : Disk} (h : d'.files = d.files) (loc : Location) :
    d'.bytesAt? loc = d.bytesAt? loc := by
  simp [bytesAt?, h]

/-- Storing a file leaves the bytes at every other place. -/
theorem bytesAt?_store_of_ne (d : Disk) {loc loc' : Location} (bytes : List UInt8)
    (h : loc' ≠ loc) : (d.store loc bytes).bytesAt? loc' = d.bytesAt? loc' := by
  have hsame : (d.files.filter fun f => f.1 != loc).find? (fun f => f.1 == loc') =
      d.files.find? (fun f => f.1 == loc') := by
    rw [List.find?_filter]
    congr 1
    funext f
    by_cases hf : f.1 = loc' <;> simp [hf, h]
  have hnew : [(loc, bytes)].find? (fun f => f.1 == loc') = none := by simp [Ne.symm h]
  simp only [bytesAt?, store, List.find?_append, hsame, hnew, Option.or_none]

/-- Making a directory touches no file. -/
theorem makeDirectory_files {d d' : Disk} {path : String} (h : d.makeDirectory path = .ok d') :
    d'.files = d.files := by
  obtain ⟨t, -, h⟩ := Except.bind_eq_ok.mp h
  split at h
  · cases h
  · cases h
    rfl

/-- Making the directories of a path touches no file, whether it succeeds or not. -/
theorem makeDirectoriesFuel_files (fuel : Nat) (d : Disk) (path : String) :
    (makeDirectoriesFuel fuel d path).1.files = d.files := by
  induction fuel generalizing d path with
  | zero => rfl
  | succ n ih =>
    rw [makeDirectoriesFuel]
    split
    · rfl
    · split
      · exact makeDirectory_files ‹_›
      · split
        · rfl
        · rename_i up _
          -- the directories above are made first, then the path's own
          have hup := ih d up
          split
          · rename_i d' e hrec
            rw [hrec] at hup
            exact hup
          · rename_i d' hrec
            rw [hrec] at hup
            split
            · exact (makeDirectory_files ‹_›).trans hup
            · split <;> exact hup
      · split <;> rfl

/-- Making directories leaves the files. -/
theorem createDirAll_files (d : Disk) (path : String) : (d.createDirAll path).1.files = d.files :=
  makeDirectoriesFuel_files _ d path

/-- A rename of a file that fails, to a path named as a file, finds a directory there. -/
theorem entry?_of_rename_error {d : Disk} {src dst : String} {s t : Target} {e : IoFault}
    (hs : d.resolve src = .ok s) (hsf : Disk.entry? d s.loc = some .file)
    (hsw : s.wantsDirectory = false) (hr : d.rename src dst = .error e)
    (ht : d.resolve dst = .ok t) (htw : t.wantsDirectory = false) :
    Disk.entry? d t.loc = some .directory := by
  by_contra hdir
  obtain ⟨d', hd'⟩ :=
    rename_of_canHoldFile hs hsf hsw (canHoldFile_iff.mpr ⟨t, ht, htw, hdir⟩)
  rw [hd'] at hr
  cases hr

end Disk

namespace Vault

/-- How a write can fail: with no file changed, or at the rename, after the temporary file
was written. -/
theorem persist_error_cases {disk d : Disk} {path : String} {items : Fields} {f : IoFault}
    (h : persist disk path items = (d, .error f)) :
    d.files = disk.files ∨ ∃ d₁ : Disk, d₁.files = disk.files ∧
      d₁.write (Path.withExtension path "json.tmp") (fileText items).toUTF8.toList = .ok d ∧
      d.rename (Path.withExtension path "json.tmp") path = .error f := by
  unfold persist at h
  -- the directory step reaches a disk with the same files, whichever way it goes
  split at h
  case' h_1 up _ =>
    generalize hm : (if up.isEmpty = true then (disk, Except.ok ()) else disk.createDirAll up) =
      made at h
    have hf : made.1.files = disk.files := by
      rw [← hm]
      split
      · rfl
      · exact Disk.createDirAll_files disk up
    clear hm
  case' h_2 =>
    generalize hm : ((disk, Except.ok ()) : Disk × Except IoFault Unit) = made at h
    have hf : made.1.files = disk.files := by rw [← hm]
    clear hm
  all_goals
    obtain ⟨d₁, r⟩ := made
    cases r with
    | error f' =>
      simp only [Prod.mk.injEq] at h
      exact .inl (h.1 ▸ hf)
    | ok u =>
      dsimp only at h
      split at h
      · simp only [Prod.mk.injEq] at h
        exact .inl (h.1 ▸ hf)
      · rename_i d₂ hw
        split at h
        · simp only [Prod.mk.injEq, Except.error.injEq] at h
          obtain ⟨rfl, rfl⟩ := h
          exact .inr ⟨d₁, hf, hw, ‹_›⟩
        · simp at h

/-- A write that fails leaves the bytes at the place the storage path names, as a file: a
failure before the rename touched no file, and a rename that fails found a directory where
the path leads, so the temporary file stands elsewhere. -/
theorem persist_error_bytesAt {disk d : Disk} {path : String} {items : Fields} {f : IoFault}
    (h : persist disk path items = (d, .error f)) {t : Target} (ht : d.resolve path = .ok t)
    (htw : t.wantsDirectory = false) : d.bytesAt? t.loc = disk.bytesAt? t.loc := by
  rcases persist_error_cases h with hf | ⟨d₁, hf, hw, hr⟩
  · exact Disk.bytesAt?_of_files hf _
  · obtain ⟨s, hs, hsdir, hsw, rfl⟩ := Disk.write_eq_ok hw
    have hsf := Disk.entry?_store_self (fileText items).toUTF8.toList hsdir
    have hdir := Disk.entry?_of_rename_error
      (Disk.resolve_of_dirs (Disk.store_dirs d₁ s.loc _) hs) hsf hsw hr ht htw
    have hne : t.loc ≠ s.loc := fun heq => by
      rw [heq, hsf] at hdir
      cases hdir
    rw [Disk.bytesAt?_store_of_ne _ _ hne]
    exact Disk.bytesAt?_of_files hf _

/-- After a write that succeeded, the storage file holds the bytes of the object's text. -/
theorem persist_read {disk d : Disk} {path : String} {items : Fields}
    (h : persist disk path items = (d, .ok ())) :
    d.read path = .ok (fileText items).toUTF8.toList := by
  unfold persist at h
  dsimp only at h
  split at h
  · cases h
  · split at h
    · cases h
    · split at h
      · cases h
      · cases h
        exact Disk.read_write_rename ‹_› ‹_›

/-! ## Calls on a file store -/

variable {v : Vault} {path : String} {items : Fields}

/-- A file store reads a key as the string its object holds there. -/
theorem get_of_file (h : v.holding = .file path items) (k : String) :
    v.get k = .ok (items.stringAt k) := by
  simp only [Vault.get, h, Fields.stringAt]
  split <;> simp_all

/-- Committing an object makes it the object the file store keeps, whether the write succeeds or
not. -/
theorem commitFile_holding (v : Vault) (path : String) (items : Fields) :
    (v.commitFile path items).1.holding = .file path items := by
  unfold commitFile
  split <;> rfl

/-- Committing an object leaves the disk the write leaves. -/
theorem commitFile_disk (v : Vault) (path : String) (items : Fields) :
    (v.commitFile path items).1.disk = (persist v.disk path items).1 := by
  unfold commitFile
  split <;> simp_all

/-- A commit answers as its write went. -/
theorem commitFile_result (v : Vault) (path : String) (items : Fields) :
    (v.commitFile path items).2 = ((persist v.disk path items).2.mapError .io) := by
  unfold commitFile
  split <;> simp_all [Except.mapError]

/-- A call that writes commits the object the call makes. -/
theorem call_of_writesFile (h : v.holding = .file path items) {c : StorageCall}
    (hw : c.writesFile items = true) :
    v.call c = ((v.commitFile path (c.onFields items)).1,
      (v.commitFile path (c.onFields items)).2.map fun _ => none) := by
  cases c with
  | get key => cases hw
  | set key value => simp only [Vault.call, Vault.set, h, StorageCall.onFields]
  | remove key =>
    simp only [StorageCall.writesFile] at hw
    simp only [Vault.call, Vault.remove, h, hw, if_true, StorageCall.onFields]

/-- A call that writes nothing leaves the store as it is and succeeds. -/
theorem call_of_writesFile_false (h : v.holding = .file path items) {c : StorageCall}
    (hw : c.writesFile items = false) : (v.call c).1 = v ∧ ∃ a, (v.call c).2 = .ok a := by
  cases c with
  | get key => exact ⟨rfl, _, get_of_file h key⟩
  | set key value => cases hw
  | remove key =>
    simp only [StorageCall.writesFile] at hw
    simp only [Vault.call, Vault.remove, h, hw]
    exact ⟨rfl, none, rfl⟩

/-- Every call leaves a file store holding the object the call makes. -/
theorem call_holding (h : v.holding = .file path items) (c : StorageCall) :
    (v.call c).1.holding = .file path (c.onFields items) := by
  cases hw : c.writesFile items with
  | true => rw [call_of_writesFile h hw, commitFile_holding]
  | false => rw [(call_of_writesFile_false h hw).1, h, StorageCall.onFields_of_writesFile_false hw]

/-- A call that writes hands the object it makes to `persist`: the store keeps the disk the
write leaves, and answers as the write went. -/
theorem call_persist (h : v.holding = .file path items) {c : StorageCall}
    (hw : c.writesFile items = true) :
    (v.call c).1.disk = (persist v.disk path (c.onFields items)).1 ∧
      (v.call c).2 = ((persist v.disk path (c.onFields items)).2.mapError .io).map
        fun _ => none := by
  rw [call_of_writesFile h hw, commitFile_result]
  exact ⟨commitFile_disk .., rfl⟩

/-- A call that writes and answers has written the object it makes. -/
theorem persist_of_call_ok (h : v.holding = .file path items) {c : StorageCall}
    (hw : c.writesFile items = true) {a : Option String} (hok : (v.call c).2 = .ok a) :
    persist v.disk path (c.onFields items) = ((v.call c).1.disk, .ok ()) := by
  obtain ⟨hdisk, hanswer⟩ := call_persist h hw
  rcases hp : persist v.disk path (c.onFields items) with ⟨d, r⟩
  rw [hp] at hdisk hanswer
  cases r with
  | error f => simp [hanswer, Except.mapError, Except.map] at hok
  | ok u => rw [hdisk]

/-- A call that fails is one that writes, and its write failed; the disk is the one the
failed write left. -/
theorem persist_of_call_error (h : v.holding = .file path items) {c : StorageCall}
    {e : StorageError} (hfail : (v.call c).2 = .error e) :
    c.writesFile items = true ∧
      ∃ f, persist v.disk path (c.onFields items) = ((v.call c).1.disk, .error f) := by
  cases hw : c.writesFile items with
  | false =>
    obtain ⟨-, a, ha⟩ := call_of_writesFile_false h hw
    rw [ha] at hfail
    cases hfail
  | true =>
    obtain ⟨hdisk, hanswer⟩ := call_persist h hw
    rcases hp : persist v.disk path (c.onFields items) with ⟨d, r⟩
    rw [hp] at hdisk hanswer
    cases r with
    | error f => exact ⟨rfl, f, by rw [hdisk]⟩
    | ok u => simp [hanswer, Except.mapError, Except.map] at hfail

/-- A file store whose object the file gives back: the object is one a file can hold, and
opening the file again finds the same strings. -/
structure FileSynced (v : Vault) (path : String) (items : Fields) : Prop where
  holding : v.holding = .file path items
  storable : items.Storable
  reopens : ∃ items', readStorageFile v.disk path = .ok items' ∧
    ∀ k, items'.stringAt k = items.stringAt k

/-- A file store opened on a file it accepts starts in step with it. -/
theorem fileSynced_ofBackend {disk : Disk} {mode : KeychainMode}
    (h : ofBackend (.file path) disk mode = .ok v) : ∃ items, FileSynced v path items := by
  obtain ⟨items, hread, hv⟩ := Except.bind_eq_ok.mp h
  cases hv
  exact ⟨items, rfl, storable_of_readStorageFile hread, items, hread, fun _ => rfl⟩

/-- Opening the file of a store in step with it answers every key as the store does. -/
theorem FileSynced.reopen (hv : FileSynced v path items) (mode : KeychainMode) :
    ∃ u, ofBackend (.file path) v.disk mode = .ok u ∧ ∀ k, u.get k = v.get k := by
  obtain ⟨items', hread, hsame⟩ := hv.reopens
  refine ⟨{ holding := .file path items', disk := v.disk }, ?_, fun k => ?_⟩
  · simp [ofBackend, hread, bind, Except.bind, pure, Except.pure]
  · rw [get_of_file rfl, get_of_file hv.holding, hsame]

/-- A call that succeeds keeps a file store in step with its file. A call that writes leaves
the file holding the text of the whole object; any other call leaves the disk alone. -/
theorem FileSynced.call (hv : FileSynced v path items) {c : StorageCall}
    {a : Option String} (hok : (v.call c).2 = .ok a) :
    FileSynced (v.call c).1 path (c.onFields items) ∧
      (c.writesFile items = true →
        (v.call c).1.disk.read path = .ok (fileText (c.onFields items)).toUTF8.toList) ∧
      (c.writesFile items = false → (v.call c).1.disk = v.disk) := by
  cases hw : c.writesFile items with
  | true =>
    have hp := persist_of_call_ok hv.holding hw hok
    have hs := hv.storable.onFields c
    have hreopens := readStorageFile_of_fileText hs (persist_readText hp)
    exact ⟨⟨call_holding hv.holding c, hs, hreopens⟩, fun _ => persist_read hp, nofun⟩
  | false =>
    obtain ⟨hsame, -⟩ := call_of_writesFile_false hv.holding hw
    rw [hsame, StorageCall.onFields_of_writesFile_false hw]
    exact ⟨hv, nofun, fun _ => rfl⟩

/-! ## Runs of calls -/

/-- The store after a run of calls. -/
def after (v : Vault) : List StorageCall → Vault
  | [] => v
  | c :: cs => (v.call c).1.after cs

/-- No calls leave the store as it is. -/
@[simp] theorem after_nil (v : Vault) : v.after [] = v := rfl

/-- A run of calls goes call by call. -/
@[simp] theorem after_cons (v : Vault) (c : StorageCall) (cs : List StorageCall) :
    v.after (c :: cs) = (v.call c).1.after cs := rfl

/-- The answers to two runs of calls are those of the first, then those of the second from where the
first left the store. -/
theorem replay_append (v : Vault) (cs ds : List StorageCall) :
    v.replay (cs ++ ds) = v.replay cs ++ (v.after cs).replay ds := by
  induction cs generalizing v with
  | nil => rfl
  | cons c cs ih => simp [replay, ih]

/-- Along a run of calls that all succeed, a file store stays in step with its file. -/
theorem FileSynced.after (hv : FileSynced v path items) (cs : List StorageCall)
    (hok : ∀ r ∈ v.replay cs, ∃ a, r = .ok a) :
    FileSynced (v.after cs) path (cs.foldl (fun fs c => c.onFields fs) items) := by
  induction cs generalizing v items with
  | nil => exact hv
  | cons c cs ih =>
    obtain ⟨a, ha⟩ := hok _ (List.mem_cons_self ..)
    exact ih (hv.call ha).1 fun r hr => hok r (List.mem_cons_of_mem _ hr)

end Vault

/-! ## A file store and its file, call after call -/

/-- A file store opened on any file it accepts, along any run of calls that all succeed.
After each call, opening the file again answers every key as the live store does. A call
that writes leaves the file holding the pretty text of the whole live object, members that
are not strings included; a call that writes nothing (a read, or the removal of an absent
key) leaves the disk as it was. A call changes the live object at its own key only. -/
theorem file_store_agrees_with_reopened_file {disk : Disk} {path : String}
    {mode : KeychainMode} {v₀ : Vault} (hopen : Vault.ofBackend (.file path) disk mode = .ok v₀)
    {calls pre post : List StorageCall} {c : StorageCall} (hcalls : calls = pre ++ c :: post)
    (hok : ∀ r ∈ v₀.replay calls, ∃ a, r = .ok a) :
    ∃ items, (v₀.after pre).holding = .file path items ∧
      ((v₀.after pre).call c).1.holding = .file path (c.onFields items) ∧
      (∀ k, k ≠ c.key → Fields.find? k (c.onFields items) = Fields.find? k items) ∧
      (∃ u, Vault.ofBackend (.file path) ((v₀.after pre).call c).1.disk mode = .ok u ∧
        ∀ k, u.get k = ((v₀.after pre).call c).1.get k) ∧
      (c.writesFile items = true → ((v₀.after pre).call c).1.disk.read path =
        .ok (Vault.fileText (c.onFields items)).toUTF8.toList) ∧
      (c.writesFile items = false →
        ((v₀.after pre).call c).1.disk = (v₀.after pre).disk) := by
  obtain ⟨items₀, h₀⟩ := Vault.fileSynced_ofBackend hopen
  subst hcalls
  rw [Vault.replay_append] at hok
  -- the calls before `c` keep the store in step, and `c` itself succeeded
  have hpre := h₀.after pre fun r hr => hok r (List.mem_append_left _ hr)
  obtain ⟨a, ha⟩ := hok _ (List.mem_append_right _ (List.mem_cons_self ..))
  obtain ⟨hsync, hwrite, hkeep⟩ := hpre.call ha
  exact ⟨_, hpre.holding, hsync.holding, fun k hk => c.find?_onFields_of_ne _ hk,
    hsync.reopen mode, hwrite, hkeep⟩

/-- Opened over `storage.json` in an empty working directory, a store that sets the session
key and then removes it has, after the removal, a file that opens to the same answers. -/
theorem reopened_file_agrees_after_removal :
    let v₀ : Vault := ⟨.file "storage.json" [], {}⟩
    let v := ((v₀.after [.set "jwt" "t"]).call (.remove "jwt")).1
    Vault.ofBackend (.file "storage.json") {} .working = .ok v₀ ∧
      (∀ r ∈ v₀.replay [.set "jwt" "t", .remove "jwt"], ∃ a, r = .ok a) ∧
      ∃ u, Vault.ofBackend (.file "storage.json") v.disk .working = .ok u ∧
        ∀ k, u.get k = v.get k := by
  intro v₀ v
  have hopen : Vault.ofBackend (.file "storage.json") {} .working = .ok v₀ := by
    rw [Vault.ofBackend, readStorageFile_storageJson]
    rfl
  have hok : ∀ r ∈ v₀.replay [.set "jwt" "t", .remove "jwt"], ∃ a, r = .ok a := by
    obtain ⟨w, hw, hholds⟩ :=
      Vault.holds_file .working Disk.writable_storageJson readStorageFile_storageJson
    rw [hopen, Except.ok.injEq] at hw
    rw [hw, Vault.replay_of_holds hholds]
    simp
  obtain ⟨_, -, -, -, hreopen, -⟩ := file_store_agrees_with_reopened_file hopen
    (show [StorageCall.set "jwt" "t", .remove "jwt"] = [.set "jwt" "t"] ++ .remove "jwt" :: []
      from rfl) hok
  exact ⟨hopen, hok, hreopen⟩

/-! ## A write that fails -/

/-- Over `storage.json` in a working directory where `storage.json.tmp` is a directory, every
write fails at the temporary file and leaves the disk as it was. -/
theorem persist_onto_tmp_directory (items : Fields) :
    Vault.persist { dirs := [["storage.json.tmp"]] } "storage.json" items =
      ({ dirs := [["storage.json.tmp"]] }, .error .isDirectory) := by
  have hparent : Path.parent? "storage.json" = some "" := by decide +kernel
  have htmp : Path.withExtension "storage.json" "json.tmp" = "storage.json.tmp" := by
    decide +kernel
  have hloc : (({ dirs := [["storage.json.tmp"]] } : Disk).resolve "storage.json.tmp").toOption.map
      Target.loc = some ["storage.json.tmp"] := by
    simp only [Disk.resolve, String.contains_char_eq]
    decide +kernel
  have hdir : Disk.entry? ({ dirs := [["storage.json.tmp"]] } : Disk) ["storage.json.tmp"] =
      some .directory := by decide +kernel
  -- the temporary file's place is a directory, so the write stops before any byte is used
  cases hr : ({ dirs := [["storage.json.tmp"]] } : Disk).resolve "storage.json.tmp" with
  | error f => simp [hr, Except.toOption] at hloc
  | ok t =>
    simp only [hr, Except.toOption, Option.map_some, Option.some.injEq] at hloc
    simp [Vault.persist, hparent, htmp, Disk.write, hr, hloc, hdir, bind, Except.bind, throw,
      throwThe, MonadExceptOf.throw]

/-- Where `storage.json.tmp` is a directory, setting a key over `storage.json` fails. -/
theorem set_onto_tmp_directory (items : Fields) (key value : String) :
    ((⟨.file "storage.json" items, { dirs := [["storage.json.tmp"]] }⟩ : Vault).call
      (.set key value)).2 = .error (.io .isDirectory) := by
  rw [(Vault.call_persist rfl rfl).2, persist_onto_tmp_directory]
  rfl

/-- A call that fails leaves the bytes at the storage path as they were, but not the store:
the store keeps the object the call makes and answers every key from it, and the next call
that writes and succeeds puts that object, with its own change, in the file. -/
theorem failed_write_keeps_file_not_store {v : Vault} {path : String} {items : Fields}
    (hv : v.holding = .file path items) {c : StorageCall} {e : StorageError}
    (hfail : (v.call c).2 = .error e) :
    (∀ t, (v.call c).1.disk.resolve path = .ok t → t.wantsDirectory = false →
      (v.call c).1.disk.bytesAt? t.loc = v.disk.bytesAt? t.loc) ∧
    (∀ k, (v.call c).1.get k = .ok ((c.onFields items).stringAt k)) ∧
    ∀ c', c'.writesFile (c.onFields items) = true → ∀ a, ((v.call c).1.call c').2 = .ok a →
      ((v.call c).1.call c').1.disk.read path =
        .ok (Vault.fileText (c'.onFields (c.onFields items))).toUTF8.toList := by
  obtain ⟨-, f, hp⟩ := Vault.persist_of_call_error hv hfail
  have hheld := Vault.call_holding hv c
  exact ⟨fun t ht htw => Vault.persist_error_bytesAt hp ht htw,
    fun k => Vault.get_of_file hheld k,
    fun c' hw' a hok => Vault.persist_read (Vault.persist_of_call_ok hheld hw' hok)⟩

/-- Where `storage.json.tmp` is a directory, a failed set over `storage.json` stays in the
store: the key now reads as the value that was never written. -/
theorem failed_set_kept_in_store_only :
    let v : Vault := ⟨.file "storage.json" [], { dirs := [["storage.json.tmp"]] }⟩
    v.holding = .file "storage.json" [] ∧
      (v.call (.set "jwt" "x")).2 = .error (.io .isDirectory) ∧
      (v.call (.set "jwt" "x")).1.get "jwt" = .ok (some "x") := by
  intro v
  have hfail : (v.call (.set "jwt" "x")).2 = .error (.io .isDirectory) :=
    set_onto_tmp_directory [] "jwt" "x"
  have hv : v.holding = .file "storage.json" [] := rfl
  refine ⟨hv, hfail, ?_⟩
  rw [(failed_write_keeps_file_not_store hv hfail).2.1 "jwt"]
  rfl

/-- Where `storage.json.tmp` is a directory, a store opened over `storage.json` reads a key as
absent; setting the key fails, and the store then answers it with the value it could not
write. -/
theorem failed_set_still_answers_new_value :
    let v : Vault := ⟨.file "storage.json" [], { dirs := [["storage.json.tmp"]] }⟩
    Vault.ofBackend (.file "storage.json") { dirs := [["storage.json.tmp"]] } .working = .ok v ∧
      v.get "jwt" = .ok none ∧ (v.call (.set "jwt" "x")).2 = .error (.io .isDirectory) ∧
      (v.call (.set "jwt" "x")).1.get "jwt" = .ok (some "x") := by
  intro v
  have habsent : readStorageFile { dirs := [["storage.json.tmp"]] } "storage.json" = .ok [] := by
    have hread : ({ dirs := [["storage.json.tmp"]] } : Disk).readText "storage.json" =
        .error .notFound := by
      simp only [Disk.readText, Disk.read, Disk.resolve, String.contains_char_eq]
      decide +kernel
    rw [readStorageFile, hread]
  refine ⟨by rw [Vault.ofBackend, habsent]; rfl, rfl, set_onto_tmp_directory [] "jwt" "x", ?_⟩
  rw [Vault.get_of_file (Vault.call_holding rfl _)]
  rfl

end FeedClient
