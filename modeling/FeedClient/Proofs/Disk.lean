import FeedClient.Storage.Vault
import FeedClient.Proofs.Json.Strings
import Mathlib.Tactic.SplitIfs

/-!
# Writing the storage file

Where a path leads is decided by the directories alone: every part but the last must name a
directory, and whether a place is a directory does not depend on the files. Making directories
only adds to them, so a path that could be followed before leads to the same place after;
writing and renaming files never makes or removes a directory at all.

The storage file is written after the directories above it are made (`Disk.makeParent`),
through a temporary file beside it, renamed over it. A path is `Disk.writable` when making
those directories succeeds and, on the disk it leaves, both the path and the temporary path
beside it lead to places that can hold a file. After a write the directories stand, so nothing
more is made and a writable path takes every write, one after the other.

Main results:

- Theorem `Disk.resolve_of_subset`: a disk with more directories follows a path alike.
- Theorem `Disk.isDirectory_of_createDirAll`: making the directories of a path, when it
  succeeds, leaves a directory there.
- Theorem `Disk.read_write_rename`: a file written and then renamed over a path reads back as
  what was written.
- Theorem `Vault.persist_of_writable`: a writable path takes a write of any object and stays
  writable.
- Theorem `Vault.persist_readText`: after a write that succeeded, the storage file reads as the
  text of the object written.
-/

namespace FeedClient

/-- A chain of steps that can fail succeeds when its first step does and the rest succeeds
from there. -/
theorem Except.bind_eq_ok {ε α β : Type} {x : Except ε α} {f : α → Except ε β} {b : β} :
    (x >>= f) = .ok b ↔ ∃ a, x = .ok a ∧ f a = .ok b := by
  cases x with
  | error e => simp [bind, Except.bind]
  | ok a => simp [bind, Except.bind]

namespace Disk

/-! ## Following a path -/

/-- A place is a directory when it is a base place or a made directory, whatever the files. -/
theorem entry?_eq_directory {d : Disk} {loc : Location} :
    Disk.entry? d loc = some .directory ↔ (loc.isBase || d.dirs.contains loc) = true := by
  unfold entry?
  split
  · simp_all
  · split <;> simp_all

/-- Disks with the same directories agree on which places are directories. -/
theorem entry?_eq_directory_of_dirs {d d' : Disk} (h : d'.dirs = d.dirs) {loc : Location} :
    Disk.entry? d' loc = some .directory ↔ Disk.entry? d loc = some .directory := by
  rw [entry?_eq_directory, entry?_eq_directory, h]

/-- A disk with more directories keeps every directory of the first. -/
theorem entry?_directory_of_subset {d d' : Disk} (h : d.dirs ⊆ d'.dirs) {loc : Location}
    (hd : Disk.entry? d loc = some .directory) : Disk.entry? d' loc = some .directory := by
  rw [entry?_eq_directory, Bool.or_eq_true, List.contains_iff_mem] at hd ⊢
  exact hd.imp_right fun hm => h hm

/-- A path that can be followed on a disk leads to the same place on a disk with more
directories. -/
theorem walk_of_subset {d d' : Disk} (h : d.dirs ⊆ d'.dirs) {loc l : Location}
    {parts : List String} (hw : d.walk loc parts = .ok l) : d'.walk loc parts = .ok l := by
  induction parts generalizing loc with
  | nil => exact hw
  | cons part rest ih =>
    rw [walk] at hw ⊢
    split_ifs at hw ⊢
    · exact ih hw
    · exact ih hw
    · -- a name: the place it leads to must be a directory, and stays one on the larger disk
      dsimp only at hw ⊢
      split at hw
      case h_1 hdir =>
        rw [entry?_directory_of_subset h hdir]
        exact ih hw
      all_goals cases hw

/-- A disk with more directories gives a path that can be followed the same target. -/
theorem resolve_of_subset {d d' : Disk} (h : d.dirs ⊆ d'.dirs) {path : String} {t : Target}
    (hr : d.resolve path = .ok t) : d'.resolve path = .ok t := by
  unfold resolve at hr ⊢
  generalize (if Path.isAbsolute path then ["/"] else []) = start at hr ⊢
  split_ifs at hr ⊢
  dsimp only at hr ⊢
  generalize ((Path.parts path).filter (· != "")) = parts at hr ⊢
  generalize parts.getLast? = last at hr ⊢
  cases last with
  | none => exact hr
  | some last =>
    obtain ⟨loc, hw, hr⟩ := Except.bind_eq_ok.mp hr
    exact Except.bind_eq_ok.mpr ⟨loc, walk_of_subset h hw, hr⟩

/-- Disks with the same directories agree on the target of a path that can be followed. -/
theorem resolve_of_dirs {d d' : Disk} (h : d'.dirs = d.dirs) {path : String} {t : Target}
    (hr : d.resolve path = .ok t) : d'.resolve path = .ok t :=
  resolve_of_subset (h ▸ List.Subset.refl _) hr

/-- Disks with the same directories agree on which paths name directories. -/
theorem isDirectory_of_dirs {d d' : Disk} (h : d'.dirs = d.dirs) (path : String) :
    d'.isDirectory path = d.isDirectory path := by
  unfold isDirectory
  cases hr : d.resolve path with
  | ok t =>
    rw [resolve_of_dirs h hr]
    dsimp only
    rw [Bool.eq_iff_iff, beq_iff_eq, beq_iff_eq]
    exact entry?_eq_directory_of_dirs h
  | error e =>
    cases hr' : d'.resolve path with
    | ok t => rw [resolve_of_dirs h.symm hr'] at hr; cases hr
    | error e' => rfl

/-! ## Places that can hold a file -/

/-- Whether a path can take a file: it can be followed, does not ask for a directory, and no
directory stands at its place. -/
def canHoldFile (d : Disk) (path : String) : Bool :=
  match d.resolve path with
  | .ok t => !t.wantsDirectory && Disk.entry? d t.loc != some .directory
  | .error _ => false

/-- Whether the directory that the text of a path names above it exists (a path with no
directory part is in the working directory). -/
def hasParent (d : Disk) (path : String) : Bool :=
  match Path.parent? path with
  | some up => up.isEmpty || d.isDirectory up
  | none => true

/-- Makes the directories above the storage file, as a write does before it writes: the disk
reached, and whether that succeeded. A path with no directory part needs none. -/
def makeParent (d : Disk) (path : String) : Disk × Except IoFault Unit :=
  match Path.parent? path with
  | some up => if up.isEmpty then (d, .ok ()) else d.createDirAll up
  | none => (d, .ok ())

/-- Whether the storage file at a path can be written: the directories above it can be made,
and on the disk that has them both the path and the temporary path beside it can take a
file. -/
def writable (d : Disk) (path : String) : Bool :=
  match d.makeParent path with
  | (d₁, .ok ()) => d₁.canHoldFile path && d₁.canHoldFile (Path.withExtension path "json.tmp")
  | (_, .error _) => false

/-- A path is writable when making its directories succeeds and, on the disk that has them, both the
path and its temporary path can take a file. -/
theorem writable_eq_true {d : Disk} {path : String} :
    d.writable path = true ↔ ∃ d₁, d.makeParent path = (d₁, .ok ()) ∧
      d₁.canHoldFile path = true ∧ d₁.canHoldFile (Path.withExtension path "json.tmp") = true := by
  unfold writable
  split
  · rename_i d₁ hm
    simp [hm]
  · rename_i d₁ f hm
    simp [hm]

/-- A path can take a file when it can be followed, does not ask for a directory, and leads to a
place where no directory stands. -/
theorem canHoldFile_iff {d : Disk} {path : String} :
    d.canHoldFile path = true ↔ ∃ t, d.resolve path = .ok t ∧ t.wantsDirectory = false ∧
      Disk.entry? d t.loc ≠ some .directory := by
  unfold canHoldFile
  split
  · rename_i t hr
    simp [hr]
  · rename_i e hr
    simp [hr]

/-- Whether a path can take a file depends on the directories alone. -/
theorem canHoldFile_of_dirs {d d' : Disk} (h : d'.dirs = d.dirs) {path : String}
    (hc : d.canHoldFile path = true) : d'.canHoldFile path = true := by
  obtain ⟨t, hr, hw, hdir⟩ := canHoldFile_iff.mp hc
  exact canHoldFile_iff.mpr ⟨t, resolve_of_dirs h hr, hw,
    fun h' => hdir ((entry?_eq_directory_of_dirs h).mp h')⟩

/-- Whether the directory above a path exists depends on the directories alone. -/
theorem hasParent_of_dirs {d d' : Disk} (h : d'.dirs = d.dirs) (path : String) :
    d'.hasParent path = d.hasParent path := by
  unfold hasParent
  split <;> simp [isDirectory_of_dirs h]

/-! ## Writing and renaming -/

/-- Storing a file leaves the directories. -/
@[simp]
theorem store_dirs (d : Disk) (loc : Location) (bytes : List UInt8) :
    (d.store loc bytes).dirs = d.dirs := rfl

/-- A stored file stands where it was put, unless a directory stands there. -/
theorem entry?_store_self {d : Disk} {loc : Location} (bytes : List UInt8)
    (h : Disk.entry? d loc ≠ some .directory) : Disk.entry? (d.store loc bytes) loc = some .file := by
  have hb : (loc.isBase || d.dirs.contains loc) = false := by
    rw [Ne, entry?_eq_directory] at h
    simpa using h
  unfold entry?
  rw [store_dirs, hb]
  simp [store]

/-- A stored file holds the bytes stored. -/
@[simp]
theorem bytesAt?_store_self (d : Disk) (loc : Location) (bytes : List UInt8) :
    (d.store loc bytes).bytesAt? loc = some bytes := by
  have hnone : (d.files.filter (fun f => f.1 != loc)).find? (fun f => f.1 == loc) = none :=
    List.find?_eq_none.mpr fun f hf => by simpa using (List.mem_filter.mp hf).2
  simp [bytesAt?, store, List.find?_append, hnone]

/-- A write succeeds only at a path to a place that is no directory, named as a file, and
stores the bytes there. -/
theorem write_eq_ok {d d' : Disk} {path : String} {bytes : List UInt8}
    (h : d.write path bytes = .ok d') :
    ∃ t, d.resolve path = .ok t ∧ Disk.entry? d t.loc ≠ some .directory ∧
      t.wantsDirectory = false ∧ d' = d.store t.loc bytes := by
  obtain ⟨t, hr, hw⟩ := Except.bind_eq_ok.mp h
  refine ⟨t, hr, ?_⟩
  split at hw
  · cases hw
  all_goals
    split at hw
    · cases hw
    · cases hw
      refine ⟨by simp_all, by simp_all, rfl⟩

/-- A path that can take a file takes a write. -/
theorem write_of_canHoldFile {d : Disk} {path : String} (bytes : List UInt8)
    (h : d.canHoldFile path = true) :
    ∃ t, d.resolve path = .ok t ∧ Disk.entry? d t.loc ≠ some .directory ∧
      d.write path bytes = .ok (d.store t.loc bytes) := by
  obtain ⟨t, hr, hw, hdir⟩ := canHoldFile_iff.mp h
  refine ⟨t, hr, hdir, ?_⟩
  unfold write
  rw [hr]
  simp only [bind, Except.bind]
  split
  · contradiction
  · simp [hw, pure, Except.pure]
  · simp [hw, pure, Except.pure]

/-- A rename succeeds only from a file to a place that is no directory, both named as files;
it takes the file away from its place and stores its bytes at the other. -/
theorem rename_eq_ok {d d' : Disk} {src dst : String} (h : d.rename src dst = .ok d') :
    ∃ s t, d.resolve src = .ok s ∧ d.resolve dst = .ok t ∧ Disk.entry? d t.loc ≠ some .directory ∧
      t.wantsDirectory = false ∧
      d' = ({ d with files := d.files.filter (fun f => f.1 != s.loc) } : Disk).store t.loc
        ((d.bytesAt? s.loc).getD []) := by
  obtain ⟨s, hs, h⟩ := Except.bind_eq_ok.mp h
  obtain ⟨t, ht, h⟩ := Except.bind_eq_ok.mp h
  refine ⟨s, t, hs, ht, ?_⟩
  split at h
  · cases h
  · cases h
  · split at h
    · cases h
    · split at h
      · cases h
      · cases h
        refine ⟨by simp_all, by simp_all, rfl⟩

/-- Renaming keeps the directories. -/
theorem rename_dirs {d d' : Disk} {src dst : String} (h : d.rename src dst = .ok d') :
    d'.dirs = d.dirs := by
  obtain ⟨s, t, -, -, -, -, rfl⟩ := rename_eq_ok h
  rfl

/-- A file can be renamed to a path that can take a file. -/
theorem rename_of_canHoldFile {d : Disk} {src dst : String} {s : Target}
    (hs : d.resolve src = .ok s) (hsf : Disk.entry? d s.loc = some .file)
    (hsw : s.wantsDirectory = false) (h : d.canHoldFile dst = true) :
    ∃ d', d.rename src dst = .ok d' := by
  obtain ⟨t, ht, htw, htdir⟩ := canHoldFile_iff.mp h
  unfold rename
  -- the last match is settled by `htdir`: no directory stands at the destination
  simp only [hs, ht, bind, Except.bind, hsf, hsw, htw, Bool.or_self, Bool.false_eq_true,
    ↓reduceIte]
  exact ⟨_, rfl⟩

/-- Reading a place that holds a file, named as a file, gives its bytes. -/
theorem read_eq_of_file {d : Disk} {path : String} {t : Target} (hr : d.resolve path = .ok t)
    (he : Disk.entry? d t.loc = some .file) (hw : t.wantsDirectory = false) :
    d.read path = .ok ((d.bytesAt? t.loc).getD []) := by
  simp [read, hr, he, hw, bind, Except.bind, pure, Except.pure]

/-- After a rename, the destination reads as what the source held. -/
theorem read_rename {d d' : Disk} {src dst : String} (h : d.rename src dst = .ok d') :
    ∃ s, d.resolve src = .ok s ∧ d'.read dst = .ok ((d.bytesAt? s.loc).getD []) := by
  obtain ⟨s, t, hs, ht, hdir, hwant, rfl⟩ := rename_eq_ok h
  refine ⟨s, hs, ?_⟩
  have hdirs : (({ d with files := d.files.filter (fun f => f.1 != s.loc) } : Disk).store t.loc
      ((d.bytesAt? s.loc).getD [])).dirs = d.dirs := rfl
  have hdir' : Disk.entry? ({ d with files := d.files.filter (fun f => f.1 != s.loc) } : Disk) t.loc ≠
      some .directory := by
    rw [Ne, entry?_eq_directory] at hdir ⊢
    exact hdir
  rw [read_eq_of_file (resolve_of_dirs hdirs ht) (entry?_store_self _ hdir') hwant,
    bytesAt?_store_self, Option.getD_some]

/-- A file written and then renamed over a path leaves the bytes written at that path. -/
theorem read_write_rename {d d₁ d₂ : Disk} {tmp path : String} {bytes : List UInt8}
    (hw : d.write tmp bytes = .ok d₁) (hr : d₁.rename tmp path = .ok d₂) :
    d₂.read path = .ok bytes := by
  obtain ⟨t, ht, -, -, rfl⟩ := write_eq_ok hw
  obtain ⟨s, hs, hread⟩ := read_rename hr
  -- the written file is still where the rename looks for it
  have hst : s = t := by
    rw [resolve_of_dirs (store_dirs d t.loc bytes) ht] at hs
    cases hs
    rfl
  rw [hread, hst, bytesAt?_store_self, Option.getD_some]

/-- A file that holds the bytes of a text reads as that text. -/
theorem readText_of_read {d : Disk} {path : String} {s : String}
    (h : d.read path = .ok s.toUTF8.toList) : d.readText path = .ok s := by
  unfold readText
  rw [h, String.toUTF8_toList]
  simp only [bind, Except.bind, String.fromUTF8?_encode, pure, Except.pure]

/-! ## Making the directory of a path -/

/-- Making a directory that exists already succeeds and changes nothing. -/
theorem createDirAll_of_isDirectory {d : Disk} {path : String} (hne : path.isEmpty = false)
    (h : d.isDirectory path = true) : d.createDirAll path = (d, .ok ()) := by
  obtain ⟨t, hr, hdir⟩ : ∃ t, d.resolve path = .ok t ∧ Disk.entry? d t.loc = some .directory := by
    unfold isDirectory at h
    split at h
    · rename_i t hr
      exact ⟨t, hr, by simpa using h⟩
    · cases h
  have hmake : d.makeDirectory path = .error .alreadyExists := by
    simp [makeDirectory, hr, hdir, bind, Except.bind, throw, throwThe, MonadExceptOf.throw]
  simp only [createDirAll, makeDirectoriesFuel, hne, Bool.false_eq_true, ↓reduceIte, hmake, h]

/-- A directory just made stands at its path. -/
theorem isDirectory_of_makeDirectory {d d' : Disk} {path : String}
    (h : d.makeDirectory path = .ok d') : d'.isDirectory path = true := by
  obtain ⟨t, hr, hmake⟩ := Except.bind_eq_ok.mp h
  split at hmake
  · cases hmake
  · cases hmake
    have hsub : d.dirs ⊆ d.dirs ++ [t.loc] := List.subset_append_left _ _
    unfold isDirectory
    rw [resolve_of_subset hsub hr]
    simp [Disk.entry?]

/-- Making a directory and the directories above it, when it succeeds, leaves a directory at
the path: each way to succeed ends by making the path or by finding a directory there. -/
theorem isDirectory_of_createDirAll {d d' : Disk} {path : String} (hne : path.isEmpty = false)
    (h : d.createDirAll path = (d', .ok ())) : d'.isDirectory path = true := by
  unfold createDirAll at h
  simp only [makeDirectoriesFuel, hne, Bool.false_eq_true, ↓reduceIte] at h
  split at h
  · cases h
    exact isDirectory_of_makeDirectory ‹_›
  · -- the directories above were missing: they are made first, then the path once more
    split at h
    · cases h
    · split at h
      · cases h
      · split at h
        · cases h
          exact isDirectory_of_makeDirectory ‹_›
        · split_ifs at h with hdir
          · cases h
            exact hdir
          · cases h
  · split_ifs at h with hdir
    · cases h
      exact hdir
    · cases h

/-- A path whose directory exists needs nothing made. -/
theorem makeParent_of_hasParent {d : Disk} {path : String} (h : d.hasParent path = true) :
    d.makeParent path = (d, .ok ()) := by
  unfold hasParent at h
  unfold makeParent
  split
  · rename_i up hp
    rw [hp] at h
    by_cases hne : up.isEmpty
    · simp [hne]
    · have hdir : d.isDirectory up = true := by simpa [hne] using h
      simp only [hne, Bool.false_eq_true, ↓reduceIte]
      exact createDirAll_of_isDirectory (by simpa using hne) hdir
  · rfl

/-- Once the directories above a path are made, its directory exists. -/
theorem hasParent_of_makeParent {d d₁ : Disk} {path : String}
    (h : d.makeParent path = (d₁, .ok ())) : d₁.hasParent path = true := by
  unfold makeParent at h
  unfold hasParent
  split at h
  · rename_i up hp
    by_cases hne : up.isEmpty
    · simp [hne]
    · simp only [hne, Bool.false_eq_true, ↓reduceIte] at h
      simp [isDirectory_of_createDirAll (by simpa using hne) h]
  · rfl

/-- A path whose directory exists is writable when it and its temporary path can take a
file. -/
theorem writable_of_hasParent {d : Disk} {path : String} (hp : d.hasParent path = true)
    (hf : d.canHoldFile path = true)
    (ht : d.canHoldFile (Path.withExtension path "json.tmp") = true) : d.writable path = true :=
  writable_eq_true.mpr ⟨d, makeParent_of_hasParent hp, hf, ht⟩

end Disk

/-! ## Writing the storage file -/

namespace Vault

/-- A writable path takes a write of any object, and stays writable: the directories made for
the first write stand, and the files written beside them leave the directories as they are. -/
theorem persist_of_writable {disk : Disk} {path : String} (h : disk.writable path = true)
    (items : Json.Fields) :
    ∃ d, persist disk path items = (d, .ok ()) ∧ d.writable path = true := by
  obtain ⟨d₁, hmade, hfile, htmp⟩ := Disk.writable_eq_true.mp h
  -- the temporary file is written, then renamed over the path
  obtain ⟨s, hs, hsdir, hwrite⟩ := Disk.write_of_canHoldFile
    (fileText items).toUTF8.toList htmp
  have hsw : s.wantsDirectory = false := by
    obtain ⟨s', hs', hw', -⟩ := Disk.canHoldFile_iff.mp htmp
    rw [hs] at hs'
    cases hs'
    exact hw'
  have hdirs₂ : (d₁.store s.loc (fileText items).toUTF8.toList).dirs = d₁.dirs := rfl
  obtain ⟨d₃, hrename⟩ := Disk.rename_of_canHoldFile
    (Disk.resolve_of_dirs hdirs₂ hs) (Disk.entry?_store_self _ hsdir) hsw
    (Disk.canHoldFile_of_dirs hdirs₂ hfile)
  have hdirs₃ : d₃.dirs = d₁.dirs := (Disk.rename_dirs hrename).trans hdirs₂
  refine ⟨d₃, ?_, ?_⟩
  · -- the write makes the directories as `makeParent` does
    unfold persist
    unfold Disk.makeParent at hmade
    cases hp : Path.parent? path with
    | none =>
      simp only [hp, Prod.mk.injEq, and_true] at hmade
      subst hmade
      simp only [hwrite, hrename]
    | some up =>
      simp only [hp] at hmade
      simp only [hmade, hwrite, hrename]
  · refine Disk.writable_of_hasParent ?_ (Disk.canHoldFile_of_dirs hdirs₃ hfile)
      (Disk.canHoldFile_of_dirs hdirs₃ htmp)
    rw [Disk.hasParent_of_dirs hdirs₃]
    exact Disk.hasParent_of_makeParent hmade

/-- After a write that succeeded, the storage file reads as the text of the object. -/
theorem persist_readText {disk d : Disk} {path : String} {items : Json.Fields}
    (h : persist disk path items = (d, .ok ())) :
    d.readText path = .ok (fileText items) := by
  unfold persist at h
  dsimp only at h
  split at h
  · cases h
  · split at h
    · cases h
    · split at h
      · cases h
      · cases h
        apply Disk.readText_of_read
        apply Disk.read_write_rename <;> assumption

end Vault

end FeedClient
