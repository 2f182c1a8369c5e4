import SkyClaw.Db.SnapshotManager
import SkyClaw.Lib.Json

/-!
# `restore_snapshot`, one file operation after the other

The snapshot, its `.meta.json` sidecar, the target and the `.restore_backup` of the target are
files of one disk, at any paths.  A `Faults` says which operations fail; a call that is cancelled
in front of or during an operation fails there too.  The content of a file comes with what
`copy2` copies along with it.  Directories, which `mkdir` may add to, are left out.

`restoreSnapshot_allOrNothing_iff` says when a call that raises leaves the files as they were.
`exists_restoreSnapshot_eq` connects the calls to those of `Snapshots.restoreSnapshot`, where
snapshots are kept apart from the files.
-/

namespace SkyClaw.Db.SnapshotRestore

open Function
open Snapshots (Files restoreBackupPath restoreBackupPath_ne)

/-- The digest of a file, `json.loads` of its text, and whether `int(checksum, 16)` reads. -/
structure Externals (Content : Type) where
  sha256 : Content → String
  loads : Content → Option Json
  isBase16 : String → Bool

/-- The arguments of `restore_snapshot`. -/
structure Call where
  snapshotPath : String
  target : String
  verifyChecksum : Bool

/-- What goes wrong with the sidecar: `exists` raises, or `read_text` does. -/
inductive MetaFault
  | exists
  | read
deriving DecidableEq

/-- Which operations fail.  A copy leaves what it has written, if it has written anything. -/
structure Faults (Content : Type) where
  beforeBackup : Bool := false
  backup : Option (Option Content) := none
  restore : Option (Option Content) := none
  metaFile : Option MetaFault := none
  checksum : Bool := false
  copyBack : Option (Option Content) := none
  unlinkCopiedBack : Bool := false
  unlink : Bool := false

variable {Content : Type}

/-! ## The operations -/

/-- The files after a copy to `path` that was cut. -/
def leave (files : Files Content) (path : String) : Option Content → Files Content
  | none => files
  | some written => update files path (some written)

/-- `shutil.copy2`; an error comes with the files it leaves.  A file is not copied onto itself. -/
def copy2 (fault : Option (Option Content)) (files : Files Content) (source destination : String) :
    Except (Files Content) (Files Content) :=
  match files source with
  | none => .error files
  | some content =>
      if source = destination then .error files
      else
        match fault with
        | some written => .error (leave files destination written)
        | none => .ok (update files destination (some content))

section

variable (ext : Externals Content)

def validateChecksumFormat (checksum : String) : Bool :=
  checksum.length = 64 && ext.isBase16 checksum

/-- `snapshot_path.with_suffix(snapshot_path.suffix + ".meta.json")` -/
def metaPath (snapshotPath : String) : String := snapshotPath ++ ".meta.json"

/-- `validate_checksum_format` of what the sidecar holds, which need not be a string: `len` and
`int` raise a `TypeError` that nothing catches. -/
def checksumOf : Json → Except Unit (Option String)
  | .str checksum => .ok (if validateChecksumFormat ext checksum then some checksum else none)
  | .arr items => if items.length = 64 then .error () else .ok none
  | .obj fields => if fields.length = 64 then .error () else .ok none
  | _ => .error ()

def extractChecksumFromMeta (fault : Option MetaFault)
    (files : Files Content) (snapshotPath : String) : Except Unit (Option String) :=
  if fault = some .exists then .error ()
  else
    match files (metaPath snapshotPath) with
    | none => .ok none
    | some content =>
        if fault = some .read then .ok none
        else
          match ext.loads content with
          | none => .ok none
          | some data =>
              match data.get "checksum" (.str "") with
              -- `data` is no dict: the `AttributeError` is not among those that are caught
              | .error _ => .error ()
              | .ok checksum => checksumOf ext checksum

/-- What the verification comes to. -/
inductive Verdict
  | passes
  | raises
  | mismatch
deriving DecidableEq

/-- The comparison of the checksums, on the files after the copy. -/
def verify (f : Faults Content) (call : Call) (files : Files Content) :
    Verdict :=
  if call.verifyChecksum then
    match extractChecksumFromMeta ext f.metaFile files call.snapshotPath with
    | .error _ => .raises
    | .ok none => .passes
    | .ok (some expected) =>
        match files call.target with
        | none => .raises
        | some content =>
            if f.checksum then .raises
            else if ext.sha256 content ≠ expected then .mismatch
            else .passes
  else .passes

/-- The backup of a target that exists, and its path. -/
def backUp (f : Faults Content) (files : Files Content) (target : String) :
    Except (Files Content) (Option String × Files Content) :=
  match files target with
  | none => .ok (none, files)
  | some _ =>
      (copy2 f.backup files target (restoreBackupPath target)).map fun files =>
        (some (restoreBackupPath target), files)

/-- The files after a mismatch: the backup is copied back and removed. -/
def copiedBack (f : Faults Content) (files : Files Content) (target : String) :
    Option String → Files Content
  | none => files
  | some backupPath =>
      match files backupPath with
      | none => files
      | some _ =>
          match copy2 f.copyBack files backupPath target with
          | .error left => left
          | .ok copied =>
              if f.unlinkCopiedBack then copied else update copied backupPath none

def removeBackup (f : Faults Content) (files : Files Content) :
    Option String → Except (Files Content) (Files Content)
  | none => .ok files
  | some backupPath =>
      match files backupPath with
      | none => .ok files
      | some _ => if f.unlink then .error files else .ok (update files backupPath none)

/-- `restore_snapshot`, with the files it leaves when it raises and when it returns. -/
def restoreSnapshot (f : Faults Content) (call : Call)
    (files : Files Content) : Except (Files Content) (Files Content) :=
  match files call.snapshotPath with
  | none => .error files
  | some _ =>
      if f.beforeBackup then .error files
      else do
        let (backupPath, files) ← backUp f files call.target
        let files ← copy2 f.restore files call.snapshotPath call.target
        match verify ext f call files with
        | .raises => .error files
        | .mismatch => .error (copiedBack f files call.target backupPath)
        | .passes => removeBackup f files backupPath

/-! ## All or nothing -/

/-- A call that raises leaves the files as they were; one that returns, and verifies, leaves the
content of the snapshot. -/
def AllOrNothing (f : Faults Content) (call : Call) (files : Files Content) : Prop :=
  match restoreSnapshot ext f call files with
  | .error left => left = files
  | .ok left => call.verifyChecksum = true → left call.target = files call.snapshotPath

/-- What is copied over a target that exists: its backup may have been written over the snapshot. -/
def copiedContent (call : Call) (old content : Content) : Content :=
  if call.snapshotPath = restoreBackupPath call.target then old else content

/-- The files with `old` at the backup's path and `copied` at the target. -/
def bothCopied (files : Files Content) (target : String) (old copied : Content) : Files Content :=
  update (update files (restoreBackupPath target) (some old)) target (some copied)

/-- Without a target, nothing undoes the copy: it goes through and passes, or writes nothing. -/
def RecoversAbsent (f : Faults Content) (call : Call)
    (files : Files Content) (content : Content) : Prop :=
  match f.restore with
  | some written => written = none
  | none => verify ext f call (update files call.target (some content)) = .passes

/-- With a target, whatever was written up to the error was there before, or the mismatch is
undone and nothing was at the backup's path. -/
def RecoversPresent (f : Faults Content) (call : Call)
    (files : Files Content) (old content : Content) : Prop :=
  let backedUp := files (restoreBackupPath call.target) = some old
  let copied := copiedContent call old content
  match f.backup with
  | some written => written = none ∨ files (restoreBackupPath call.target) = written
  | none =>
      if call.snapshotPath = call.target then backedUp
      else
        match f.restore with
        | some written => backedUp ∧ (written = none ∨ written = some old)
        | none =>
            match verify ext f call (bothCopied files call.target old copied) with
            | .raises => backedUp ∧ copied = old
            | .mismatch =>
                match f.copyBack with
                | some none => backedUp ∧ copied = old
                | some (some written) => backedUp ∧ written = old
                | none =>
                    if f.unlinkCopiedBack then backedUp
                    else files (restoreBackupPath call.target) = none
            | .passes =>
                if f.unlink then backedUp ∧ copied = old
                else call.verifyChecksum = true → copied = content

/-- The calls that are all or nothing. -/
def Recovers (f : Faults Content) (call : Call) (files : Files Content) :
    Prop :=
  match files call.snapshotPath with
  | none => True
  | some content =>
      f.beforeBackup = true ∨
        match files call.target with
        | none => RecoversAbsent ext f call files content
        | some old => RecoversPresent ext f call files old content

end

theorem leave_eq_iff (files : Files Content) (path : String) (written : Option Content) :
    leave files path written = files ↔ written = none ∨ files path = written := by
  cases written with
  | none => simp [leave]
  | some written => simp [leave, eq_comm]

theorem copy2_eq {files : Files Content} {source destination : String} {content : Content}
    (hsource : files source = some content) (hne : source ≠ destination)
    (fault : Option (Option Content)) :
    copy2 fault files source destination =
      match fault with
      | some written => .error (leave files destination written)
      | none => .ok (update files destination (some content)) := by
  simp only [copy2, hsource, if_neg hne]

section Target

variable {files : Files Content} {target : String} {old : Content}

@[simp] theorem bothCopied_target (copied : Content) :
    bothCopied files target old copied target = some copied := by
  simp [bothCopied]

@[simp] theorem bothCopied_backup (copied : Content) :
    bothCopied files target old copied (restoreBackupPath target) = some old := by
  simp [bothCopied, update_of_ne (restoreBackupPath_ne target)]

theorem bothCopied_eq_iff (htarget : files target = some old) (copied : Content) :
    bothCopied files target old copied = files ↔
      files (restoreBackupPath target) = some old ∧ copied = old := by
  constructor
  · intro h
    have hbackup := congrFun h (restoreBackupPath target)
    have hcopied := congrFun h target
    rw [bothCopied_backup] at hbackup
    rw [bothCopied_target, htarget] at hcopied
    exact ⟨hbackup.symm, Option.some.inj hcopied⟩
  · rintro ⟨hbackup, rfl⟩
    have hfirst : update files (restoreBackupPath target) (some copied) = files :=
      update_eq_self_iff.mpr hbackup.symm
    rw [bothCopied, hfirst]
    exact update_eq_self_iff.mpr htarget.symm

theorem update_bothCopied (htarget : files target = some old) (copied : Content) :
    update (bothCopied files target old copied) target (some old) =
      update files (restoreBackupPath target) (some old) := by
  rw [bothCopied, update_idem, update_eq_self_iff,
    update_of_ne (Ne.symm (restoreBackupPath_ne target)), htarget]

theorem copiedBack_eq (f : Faults Content) (hcopyBack : f.copyBack = none)
    (htarget : files target = some old) (copied : Content) :
    copiedBack f (bothCopied files target old copied) target (some (restoreBackupPath target)) =
      if f.unlinkCopiedBack then update files (restoreBackupPath target) (some old)
      else update files (restoreBackupPath target) none := by
  simp only [copiedBack, bothCopied_backup]
  rw [copy2_eq (bothCopied_backup copied) (restoreBackupPath_ne target), hcopyBack]
  dsimp only
  rw [update_bothCopied htarget, update_idem]

theorem copiedBack_cut (f : Faults Content) {written : Option Content}
    (hcopyBack : f.copyBack = some written) (copied : Content) :
    copiedBack f (bothCopied files target old copied) target (some (restoreBackupPath target)) =
      bothCopied files target old (written.getD copied) := by
  simp only [copiedBack, bothCopied_backup]
  rw [copy2_eq (bothCopied_backup copied) (restoreBackupPath_ne target), hcopyBack]
  cases written with
  | none => rfl
  | some written => simp only [leave, bothCopied, update_idem, Option.getD_some]

end Target

variable {f : Faults Content}

section

variable (ext : Externals Content)

/-- `restore_snapshot` where there is no target. -/
theorem restoreSnapshot_absent {call : Call}
    {files : Files Content} {content : Content} (hsnapshot : files call.snapshotPath = some content)
    (hbefore : f.beforeBackup = false) (htarget : files call.target = none) :
    restoreSnapshot ext f call files =
      match f.restore with
      | some written => .error (leave files call.target written)
      | none =>
          let copied := update files call.target (some content)
          if verify ext f call copied = .passes then .ok copied else .error copied := by
  have hne : call.snapshotPath ≠ call.target := by
    intro heq
    rw [heq, htarget] at hsnapshot
    cases hsnapshot
  simp only [restoreSnapshot, hsnapshot, hbefore, backUp, htarget]
  simp only [Bool.false_eq_true, if_false, bind, Except.bind, copy2_eq hsnapshot hne]
  cases f.restore with
  | some written => rfl
  | none =>
      dsimp only
      cases verify ext f call (update files call.target (some content)) <;> rfl

/-- `restore_snapshot` once the target is copied to its backup. -/
theorem restoreSnapshot_backedUp {call : Call} {files : Files Content} {old content : Content}
    (hsnapshot : files call.snapshotPath = some content) (hbefore : f.beforeBackup = false)
    (htarget : files call.target = some old) (hbackup : f.backup = none)
    (hne : call.snapshotPath ≠ call.target) :
    restoreSnapshot ext f call files =
      match f.restore with
      | some written =>
          .error (leave (update files (restoreBackupPath call.target) (some old))
            call.target written)
      | none =>
          let copied := bothCopied files call.target old (copiedContent call old content)
          match verify ext f call copied with
          | .raises => .error copied
          | .mismatch =>
              .error (copiedBack f copied call.target (some (restoreBackupPath call.target)))
          | .passes => removeBackup f copied (some (restoreBackupPath call.target)) := by
  have hread : update files (restoreBackupPath call.target) (some old) call.snapshotPath =
      some (copiedContent call old content) := by
    unfold copiedContent
    by_cases halias : call.snapshotPath = restoreBackupPath call.target
    · rw [halias, update_self, if_pos rfl]
    · rw [update_of_ne halias, hsnapshot, if_neg halias]
  simp only [restoreSnapshot, hsnapshot, hbefore, backUp, htarget,
    copy2_eq htarget (Ne.symm (restoreBackupPath_ne call.target)), hbackup]
  simp only [Bool.false_eq_true, if_false, bind, Except.bind, Except.map, copy2_eq hread hne]
  cases f.restore with
  | some | none => rfl

theorem allOrNothing_absent_iff {call : Call}
    {files : Files Content} {content : Content} (hsnapshot : files call.snapshotPath = some content)
    (hbefore : f.beforeBackup = false) (htarget : files call.target = none) :
    AllOrNothing ext f call files ↔ RecoversAbsent ext f call files content := by
  unfold AllOrNothing RecoversAbsent
  rw [restoreSnapshot_absent ext hsnapshot hbefore htarget]
  cases f.restore with
  | some written =>
      dsimp only
      rw [leave_eq_iff, htarget]
      simp [eq_comm]
  | none =>
      dsimp only
      by_cases hpasses : verify ext f call (update files call.target (some content)) = .passes
      · simp [hpasses, hsnapshot]
      · -- the copy is there and the target was not
        simp [hpasses, htarget]

theorem allOrNothing_present_iff {call : Call} {files : Files Content} {old content : Content}
    (hsnapshot : files call.snapshotPath = some content) (hbefore : f.beforeBackup = false)
    (htarget : files call.target = some old) :
    AllOrNothing ext f call files ↔ RecoversPresent ext f call files old content := by
  unfold AllOrNothing RecoversPresent
  dsimp only
  cases hbackup : f.backup with
  | some written =>
      simp only [restoreSnapshot, hsnapshot, hbefore, backUp, htarget,
        copy2_eq htarget (Ne.symm (restoreBackupPath_ne call.target)), hbackup]
      exact leave_eq_iff files _ written
  | none =>
      by_cases hsame : call.snapshotPath = call.target
      · -- the copy onto itself is refused when the backup is there already
        have hread : update files (restoreBackupPath call.target) (some old) call.target =
            some old := by
          rw [update_of_ne (Ne.symm (restoreBackupPath_ne call.target)), htarget]
        simp only [restoreSnapshot, hsnapshot, hbefore, backUp, htarget,
          copy2_eq htarget (Ne.symm (restoreBackupPath_ne call.target)), hbackup, if_pos hsame]
        simp only [Bool.false_eq_true, if_false, bind, Except.bind, Except.map, copy2, hsame, hread,
          if_true]
        exact update_eq_self_iff.trans eq_comm
      · rw [restoreSnapshot_backedUp ext hsnapshot hbefore htarget hbackup hsame, if_neg hsame]
        cases f.restore with
        | some written =>
            dsimp only
            cases written with
            | none => simp [leave, eq_comm]
            | some written =>
                simp only [leave, reduceCtorEq, false_or, Option.some.injEq]
                exact bothCopied_eq_iff htarget written
        | none =>
            dsimp only
            cases verify ext f call
                (bothCopied files call.target old (copiedContent call old content)) with
            | raises => exact bothCopied_eq_iff htarget _
            | mismatch =>
                dsimp only
                cases hcopyBack : f.copyBack with
                | some written =>
                    rw [copiedBack_cut f hcopyBack, bothCopied_eq_iff htarget]
                    cases written <;> rfl
                | none =>
                    rw [copiedBack_eq f hcopyBack htarget]
                    cases f.unlinkCopiedBack <;> simp [eq_comm]
            | passes =>
                simp only [removeBackup, bothCopied_backup]
                cases f.unlink with
                | true => simpa using bothCopied_eq_iff htarget (copiedContent call old content)
                | false =>
                    simp [update_of_ne (Ne.symm (restoreBackupPath_ne call.target)),
                      hsnapshot]

/-- **When a restore is all or nothing.** -/
theorem restoreSnapshot_allOrNothing_iff (ext : Externals Content) (f : Faults Content)
    (call : Call) (files : Files Content) :
    AllOrNothing ext f call files ↔ Recovers ext f call files := by
  unfold Recovers
  cases hsnapshot : files call.snapshotPath with
  | none => simp [AllOrNothing, restoreSnapshot, hsnapshot]
  | some content =>
      cases hbefore : f.beforeBackup with
      | true => simp [AllOrNothing, restoreSnapshot, hsnapshot, hbefore]
      | false =>
          simp only [Bool.false_eq_true, false_or]
          cases htarget : files call.target with
          | none => exact allOrNothing_absent_iff ext hsnapshot hbefore htarget
          | some old => exact allOrNothing_present_iff ext hsnapshot hbefore htarget

/-! ## Snapshots kept apart -/

/-- The checksum that the sidecar of a snapshot records, where it can be read. -/
def recordedChecksum (f : Faults Content) (call : Call) (files : Files Content) : Option String :=
  (extractChecksumFromMeta ext f.metaFile files call.snapshotPath).toOption.join

/-- The snapshot as `Snapshots.restoreSnapshot` takes it. -/
def snapshotFile (f : Faults Content) (call : Call)
    (files : Files Content) : Option (Snapshots.SnapshotFile Content) :=
  (files call.snapshotPath).map fun content => ⟨content, recordedChecksum ext f call files⟩

/-- Whether it returned, and the files it left. -/
def outcome : Except (Files Content) (Files Content) → Bool × Files Content
  | .error left => (false, left)
  | .ok left => (true, left)

theorem extractChecksumFromMeta_congr (fault : Option MetaFault)
    {files files' : Files Content} {snapshotPath : String}
    (h : files' (metaPath snapshotPath) = files (metaPath snapshotPath)) :
    extractChecksumFromMeta ext fault files' snapshotPath =
      extractChecksumFromMeta ext fault files snapshotPath := by
  simp only [extractChecksumFromMeta, h]

/-- A verification that does not raise is the comparison with the checksum recorded. -/
theorem verify_eq (f : Faults Content) (call : Call)
    {files copied : Files Content} {content : Content}
    (hmeta : copied (metaPath call.snapshotPath) = files (metaPath call.snapshotPath))
    (htarget : copied call.target = some content) :
    verify ext f call copied = .raises ∨
      verify ext f call copied =
        if (call.verifyChecksum && (recordedChecksum ext f call files).any fun expected =>
          expected != ext.sha256 content) = true then .mismatch else .passes := by
  unfold verify recordedChecksum
  rw [extractChecksumFromMeta_congr ext f.metaFile hmeta, htarget]
  cases call.verifyChecksum with
  | false => exact .inr rfl
  | true =>
      cases extractChecksumFromMeta ext f.metaFile files call.snapshotPath with
      | error e => exact .inl rfl
      | ok recorded =>
          cases recorded with
          | none => exact .inr rfl
          | some expected =>
              cases f.checksum with
              | true => exact .inl rfl
              | false =>
                  refine .inr ?_
                  by_cases heq : ext.sha256 content = expected
                  · simp [Except.toOption, heq]
                  · simp [Except.toOption, heq, Ne.symm heq]

theorem restoreFiles_eq_removed {files : Files Content} {target : String} {old : Content}
    (htarget : files target = some old) (content : Content) :
    Snapshots.restoreFiles files target content =
      update (bothCopied files target old content) (restoreBackupPath target) none := by
  unfold Snapshots.restoreFiles bothCopied
  simp only [htarget]
  rw [update_comm (restoreBackupPath_ne target), update_idem]

theorem exists_eq_absent (f : Faults Content) {call : Call}
    {files : Files Content} {content : Content} (hsnapshot : files call.snapshotPath = some content)
    (hbefore : f.beforeBackup = false) (htarget : files call.target = none)
    (hmetaTarget : metaPath call.snapshotPath ≠ call.target) :
    ∃ fault, Snapshots.restoreSnapshot ext.sha256 call.verifyChecksum fault
      (some ⟨content, recordedChecksum ext f call files⟩) files call.target =
        outcome (restoreSnapshot ext f call files) := by
  rw [restoreSnapshot_absent ext hsnapshot hbefore htarget]
  have hcut : ∀ written : Content, Snapshots.restoreSnapshot ext.sha256 call.verifyChecksum
      (some (.duringCopy written)) (some ⟨content, recordedChecksum ext f call files⟩) files
        call.target = (false, update files call.target (some written)) := by
    intro written
    simp [Snapshots.restoreSnapshot, Snapshots.RestoreFault.leaves, htarget]
  cases f.restore with
  | some written =>
      cases written with
      | none =>
          exact ⟨some .beforeBackup, by
            simp [Snapshots.restoreSnapshot, Snapshots.RestoreFault.leaves, outcome, leave]⟩
      | some written => exact ⟨some (.duringCopy written), hcut written⟩
  | none =>
      dsimp only
      have hverify := verify_eq ext f call
        (update_of_ne hmetaTarget (some content) files)
        (update_self call.target (some content) files)
      obtain hraises | hcompared := hverify
      · exact ⟨some (.duringCopy content), by simp [hcut, hraises, outcome]⟩
      · by_cases hmatch : (call.verifyChecksum && (recordedChecksum ext f call files).any
            fun expected => expected != ext.sha256 content) = true
        · rw [hcompared, if_pos hmatch]
          exact ⟨some (.duringCopy content), by simp [hcut, outcome]⟩
        · rw [hcompared, if_neg hmatch]
          refine ⟨none, ?_⟩
          simp only [Snapshots.restoreSnapshot, if_neg hmatch, Snapshots.restoreFiles, htarget]
          rfl

theorem exists_eq_present (f : Faults Content) {call : Call}
    {files : Files Content} {old content : Content}
    (hsnapshot : files call.snapshotPath = some content) (hbefore : f.beforeBackup = false)
    (htarget : files call.target = some old)
    (hbackup : call.snapshotPath ≠ restoreBackupPath call.target)
    (hmetaTarget : metaPath call.snapshotPath ≠ call.target)
    (hmetaBackup : metaPath call.snapshotPath ≠ restoreBackupPath call.target)
    (hne : call.snapshotPath ≠ call.target) :
    ∃ fault, Snapshots.restoreSnapshot ext.sha256 call.verifyChecksum fault
      (some ⟨content, recordedChecksum ext f call files⟩) files call.target =
        outcome (restoreSnapshot ext f call files) := by
  have hcut : ∀ written : Content, Snapshots.restoreSnapshot ext.sha256 call.verifyChecksum
      (some (.duringCopy written)) (some ⟨content, recordedChecksum ext f call files⟩) files
        call.target = (false, bothCopied files call.target old written) := by
    intro written
    simp [Snapshots.restoreSnapshot, Snapshots.RestoreFault.leaves, htarget, bothCopied]
  -- a copy of the target onto itself: only the backup is new
  have hself : bothCopied files call.target old old =
      update files (restoreBackupPath call.target) (some old) := by
    rw [bothCopied, update_eq_self_iff,
      update_of_ne (Ne.symm (restoreBackupPath_ne call.target)), htarget]
  have hcopied : copiedContent call old content = content := if_neg hbackup
  cases hmade : f.backup with
  | some written =>
      simp only [restoreSnapshot, hsnapshot, hbefore, backUp, htarget,
        copy2_eq htarget (Ne.symm (restoreBackupPath_ne call.target)), hmade]
      cases written with
      | none =>
          exact ⟨some .beforeBackup, by
            simp [Snapshots.restoreSnapshot, Snapshots.RestoreFault.leaves, outcome, leave,
              Except.map, bind, Except.bind]⟩
      | some written =>
          exact ⟨some (.duringBackup written), by
            simp [Snapshots.restoreSnapshot, Snapshots.RestoreFault.leaves, outcome, leave, htarget,
              Except.map, bind, Except.bind]⟩
  | none =>
      rw [restoreSnapshot_backedUp ext hsnapshot hbefore htarget hmade hne, hcopied]
      cases f.restore with
      | some written =>
          cases written with
          | none => exact ⟨some (.duringCopy old), by rw [hcut, hself]; rfl⟩
          | some written => exact ⟨some (.duringCopy written), by rw [hcut]; rfl⟩
      | none =>
          dsimp only
          have hmeta : bothCopied files call.target old content (metaPath call.snapshotPath) =
              files (metaPath call.snapshotPath) := by
            rw [bothCopied, update_of_ne hmetaTarget, update_of_ne hmetaBackup]
          obtain hraises | hcompared := verify_eq ext f call hmeta
            (bothCopied_target content)
          · exact ⟨some (.duringCopy content), by rw [hcut, hraises]; rfl⟩
          · by_cases hmatch : (call.verifyChecksum && (recordedChecksum ext f call files).any
                fun expected => expected != ext.sha256 content) = true
            · rw [hcompared, if_pos hmatch]
              dsimp only
              cases hcopyBack : f.copyBack with
              | some written =>
                  exact ⟨some (.duringCopy (written.getD content)), by
                    rw [hcut, copiedBack_cut f hcopyBack]; rfl⟩
              | none =>
                  rw [copiedBack_eq f hcopyBack htarget]
                  cases f.unlinkCopiedBack with
                  | true => exact ⟨some (.duringCopy old), by rw [hcut, hself]; rfl⟩
                  | false =>
                      refine ⟨none, ?_⟩
                      simp only [Snapshots.restoreSnapshot, if_pos hmatch,
                        Snapshots.mismatchFiles, htarget]
                      rfl
            · rw [hcompared, if_neg hmatch]
              simp only [removeBackup, bothCopied_backup]
              cases f.unlink with
              | true => exact ⟨some (.duringCopy content), by rw [hcut]; rfl⟩
              | false =>
                  refine ⟨none, ?_⟩
                  simp only [Snapshots.restoreSnapshot, if_neg hmatch,
                    restoreFiles_eq_removed htarget]
                  rfl

/-- **The coarser model.**  Where the snapshot and its sidecar are apart from the target and its
backup, a call ends as `Snapshots.restoreSnapshot` does for one of its faults. -/
theorem exists_restoreSnapshot_eq (f : Faults Content) {call : Call}
    (files : Files Content) (hbackup : call.snapshotPath ≠ restoreBackupPath call.target)
    (hmetaTarget : metaPath call.snapshotPath ≠ call.target)
    (hmetaBackup : metaPath call.snapshotPath ≠ restoreBackupPath call.target)
    (hne : call.snapshotPath ≠ call.target) :
    ∃ fault, Snapshots.restoreSnapshot ext.sha256 call.verifyChecksum fault
      (snapshotFile ext f call files) files call.target =
        outcome (restoreSnapshot ext f call files) := by
  unfold snapshotFile
  cases hsnapshot : files call.snapshotPath with
  | none => exact ⟨none, by simp [Snapshots.restoreSnapshot, restoreSnapshot, hsnapshot, outcome]⟩
  | some content =>
      cases hbefore : f.beforeBackup with
      | true =>
          exact ⟨some .beforeBackup, by
            simp [Snapshots.restoreSnapshot, Snapshots.RestoreFault.leaves, restoreSnapshot,
              hsnapshot, hbefore, outcome]⟩
      | false =>
          cases htarget : files call.target with
          | none =>
              exact exists_eq_absent ext f hsnapshot hbefore htarget hmetaTarget
          | some old =>
              exact exists_eq_present ext f hsnapshot hbefore htarget hbackup hmetaTarget
                hmetaBackup hne

end

/-- SHA-256 of the empty file and of `hello`, and the sidecar of a snapshot of the latter. -/
def helloExternals : Externals String where
  sha256 content :=
    if content = "" then "e3b0c44298fc1c149afbf4c8996fb92427ae41e4649b934ca495991b7852b855"
    else "2cf24dba5fb0a30e26e83b2ac5b9e29e1b161e5c1fa7425e73043362938b9824"
  loads content :=
    if content = "sidecar" then
      some (.obj [("checksum",
        .str "2cf24dba5fb0a30e26e83b2ac5b9e29e1b161e5c1fa7425e73043362938b9824")])
    else none
  isBase16 _ := true

/-- The snapshot lost its content; there is no target. -/
def truncatedFiles : Files String := fun path =>
  if path = "snapshot" then some "" else if path = "snapshot.meta.json" then some "sidecar" else none

/-- The mismatch is noticed, and the empty file stays at the target. -/
theorem restoreSnapshot_keeps_mismatch :
    ¬ AllOrNothing helloExternals {} ⟨"snapshot", "target", true⟩ truncatedFiles := by
  have hrun : restoreSnapshot helloExternals {} ⟨"snapshot", "target", true⟩ truncatedFiles =
      .error (update truncatedFiles "target" (some "")) := by rfl
  unfold AllOrNothing
  rw [hrun]
  intro h
  have htarget := congrFun h "target"
  rw [update_self] at htarget
  exact absurd htarget (by decide)

end SkyClaw.Db.SnapshotRestore
