import Mathlib.Order.Basic

/-!
# `FileSnapshotManager`: creating and restoring snapshots

Regular files are addressed by their path; a path without a file maps to `none`.
Snapshot files live in a directory of their own, addressed by a fresh number in
place of the hash the source puts into the name, each with the checksum of its
`.meta.json` sidecar.  Which old snapshot directories `_enforce_size_limit`
removes depends on sizes and dates; here it is an argument, any set of whole
snapshot files.

`restoreFiles` is the effect of a restore that succeeds, the temporary
`.restore_backup` copy included; a `RestoreFault` is a failure after one of its
file operations.
-/

namespace SkyClaw.Db.Snapshots

open Function

/-- The regular files by path. -/
abbrev Files (Content : Type) := String → Option Content

/-- `target.with_suffix(target.suffix + ".restore_backup")`. -/
def restoreBackupPath (target : String) : String := target ++ ".restore_backup"

/-- A snapshot file and the checksum its sidecar records, if that is readable. -/
structure SnapshotFile (Content : Type) where
  content : Content
  metaChecksum : Option String

/-- What `create_snapshot` returns, as far as a restore uses it. -/
structure SnapshotInfo where
  originalPath : String
  snapshotPath : Nat
  checksum : String
deriving DecidableEq

/-- The regular files and the snapshot directory. -/
structure Disk (Content : Type) where
  files : Files Content
  snapshots : Nat → Option (SnapshotFile Content)
  nextSnapshot : Nat

/-- Where a restore fails: before any copy, while the target is copied to its
backup, while the snapshot is copied over the target, or while the backup is
removed.  A copy that fails leaves what it had written. -/
inductive RestoreFault (Content : Type)
  | beforeBackup
  | duringBackup (written : Content)
  | duringCopy (written : Content)
  | duringUnlink

variable {Content : Type}

/-- `create_snapshot`: `none` when it raises because there is no such file.
`removed` are the snapshots `_enforce_size_limit` deletes. -/
def createSnapshot (hash : Content → String) (removed : Nat → Bool) (disk : Disk Content)
    (path : String) : Option (SnapshotInfo × Disk Content) :=
  match disk.files path with
  | none => none
  | some content =>
      let info : SnapshotInfo :=
        { originalPath := path, snapshotPath := disk.nextSnapshot, checksum := hash content }
      let written := update disk.snapshots disk.nextSnapshot
        (some { content := content, metaChecksum := some (hash content) })
      some (info,
        { disk with
          snapshots := fun id => if removed id then none else written id
          nextSnapshot := disk.nextSnapshot + 1 })

/-- The files after a restore of `content` to `target` that succeeded: an
existing target was copied to its backup path first, and that copy is gone. -/
def restoreFiles (files : Files Content) (target : String) (content : Content) :
    Files Content :=
  match files target with
  | none => update files target (some content)
  | some _ =>
      update (update files target (some content))
        (restoreBackupPath target) none

/-- The files a failed restore leaves. -/
def RestoreFault.leaves (fault : RestoreFault Content) (files : Files Content) (target : String)
    (content : Content) : Files Content :=
  match fault, files target with
  | .beforeBackup, _ => files
  | .duringBackup _, none => files
  | .duringBackup written, some _ =>
      update files (restoreBackupPath target) (some written)
  | .duringCopy written, none => update files target (some written)
  | .duringCopy written, some old =>
      update (update files (restoreBackupPath target) (some old))
        target (some written)
  | .duringUnlink, none => update files target (some content)
  | .duringUnlink, some old =>
      update (update files (restoreBackupPath target) (some old))
        target (some content)

/-- The files after a checksum mismatch: the backup is copied back and removed;
without a backup the copied content stays. -/
def mismatchFiles (files : Files Content) (target : String) (content : Content) :
    Files Content :=
  match files target with
  | none => update files target (some content)
  | some _ => update files (restoreBackupPath target) none

/-- `restore_snapshot`: whether it returned `True` (it raises otherwise), and
the files it leaves. -/
def restoreSnapshot (hash : Content → String) (verifyChecksum : Bool)
    (fault : Option (RestoreFault Content)) (snapshot : Option (SnapshotFile Content))
    (files : Files Content) (target : String) : Bool × Files Content :=
  match snapshot with
  | none => (false, files)
  | some snapshot =>
      match fault with
      | some fault => (false, fault.leaves files target snapshot.content)
      | none =>
          let mismatch := snapshot.metaChecksum.any fun expected =>
            expected != hash snapshot.content
          if verifyChecksum && mismatch then (false, mismatchFiles files target snapshot.content)
          else (true, restoreFiles files target snapshot.content)

theorem restoreBackupPath_ne (target : String) : restoreBackupPath target ≠ target := by
  intro h
  have hlength := congrArg String.length h
  simp [restoreBackupPath, String.length_append] at hlength

@[simp] theorem restoreFiles_target (files : Files Content) (target : String)
    (content : Content) : restoreFiles files target content target = some content := by
  unfold restoreFiles
  cases files target with
  | none => simp
  | some old => simp [update_of_ne (Ne.symm (restoreBackupPath_ne target))]

variable {target : String}

theorem restoreFiles_of_ne (files : Files Content) {path : String} (content : Content)
    (hpath : path ≠ target) (hbackup : path ≠ restoreBackupPath target) :
    restoreFiles files target content path = files path := by
  unfold restoreFiles
  cases files target with
  | none => simp [update_of_ne hpath]
  | some old => simp [update_of_ne hpath, update_of_ne hbackup]

variable {hash : Content → String}

theorem restoreSnapshot_eq_true {verifyChecksum : Bool}
    {fault : Option (RestoreFault Content)} {snapshot : Option (SnapshotFile Content)}
    {files : Files Content}
    (h : (restoreSnapshot hash verifyChecksum fault snapshot files target).1 = true) :
    ∃ s, snapshot = some s ∧
      (restoreSnapshot hash verifyChecksum fault snapshot files target).2 =
        restoreFiles files target s.content := by
  cases snapshot with
  | none => simp [restoreSnapshot] at h
  | some s =>
      refine ⟨s, rfl, ?_⟩
      cases fault with
      | some fault => simp [restoreSnapshot] at h
      | none =>
          simp only [restoreSnapshot] at h ⊢
          split at h
          · cases h
          · rename_i hverify
            rw [if_neg hverify]

/-- What a successful `create_snapshot` did. -/
theorem createSnapshot_eq_some {removed : Nat → Bool}
    {disk disk' : Disk Content} {path : String} {info : SnapshotInfo}
    (h : createSnapshot hash removed disk path = some (info, disk')) :
    ∃ content, disk.files path = some content ∧ info.originalPath = path ∧
      info.snapshotPath = disk.nextSnapshot ∧ disk'.files = disk.files ∧
      disk'.nextSnapshot = disk.nextSnapshot + 1 ∧
      ∀ id file, disk'.snapshots id = some file →
        (id = disk.nextSnapshot ∧ file.content = content) ∨
          (id ≠ disk.nextSnapshot ∧ disk.snapshots id = some file) := by
  unfold createSnapshot at h
  split at h
  · cases h
  · rename_i content hcontent
    cases h
    refine ⟨content, hcontent, rfl, rfl, rfl, rfl, ?_⟩
    intro id file hfile
    by_cases hremoved : removed id
    · simp [hremoved] at hfile
    · simp only [hremoved, Bool.false_eq_true, if_false] at hfile
      by_cases hid : id = disk.nextSnapshot
      · subst hid
        rw [update_self] at hfile
        cases hfile
        exact .inl ⟨rfl, rfl⟩
      · rw [update_of_ne hid] at hfile
        exact .inr ⟨hid, hfile⟩

end SkyClaw.Db.Snapshots
