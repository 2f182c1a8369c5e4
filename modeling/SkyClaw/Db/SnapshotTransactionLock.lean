import SkyClaw.Db.LockTable
import SkyClaw.Db.SnapshotManager

/-!
# `SnapshotTransactionLock`, one block at a time

`__aenter__`, the body and `__aexit__` as functions of what the environment
answers: which snapshot raises, what the body changes, how it ends, which
restore fails.  What raises is either an `Exception` or, like a cancellation, a
`BaseException` only; the `except Exception` clause of `__aenter__` lets the
second kind pass with the lease still in the table.

The block is all-or-nothing (`allOrNothing_iff`) exactly when no target that was
absent at entry exists when the body ends, nothing but an `Exception` leaves
`__aenter__`, and the release statement takes effect.
-/

namespace SkyClaw.Db.Snapshots

open Locks (LockTable LockInfo releaseSql)

/-- What an `await` can raise, as the `except Exception` clauses see it. -/
inductive Raised
  | exception
  /-- `asyncio.CancelledError` and the other `BaseException`s. -/
  | cancelled
deriving DecidableEq

/-- How `create_snapshot` ends for one existing target. -/
inductive SnapshotEnd
  /-- Done; `_enforce_size_limit` deleted the snapshots `removed`. -/
  | created (removed : Nat → Bool)
  | raises (exc : Raised)

/-- The constructor arguments. -/
structure SnapshotTransactionLock where
  resourceId : String
  agentId : String
  targetFiles : List String

/-- The lease a block was granted. -/
def SnapshotTransactionLock.lease {Time : Type} (block : SnapshotTransactionLock)
    (acquiredAt expiresAt : Time) : LockInfo Time :=
  { resourceId := block.resourceId
    agentId := block.agentId
    acquiredAt := acquiredAt
    expiresAt := expiresAt }

/-- What the environment answers to one block, by position in the loops. -/
structure Answers (Content : Type) where
  /-- Cancelled in `acquire_lock` once its statement had taken the lock. -/
  cancelledInAcquire : Bool
  snapshotEnd : Nat → SnapshotEnd
  /-- The changes the body makes to files, in order. -/
  changes : List (String × Option Content)
  /-- Snapshots other blocks' size limits remove while the body runs. -/
  removedMeanwhile : Nat → Bool
  bodyRaises : Option Raised
  restoreEnd : Nat → Option (RestoreFault Content × Raised)
  releaseEnd : DbOutcome

variable {Content Time : Type}

/-- The loop of `__aenter__` over the targets, from position `i` on. -/
def takeSnapshots (hash : Content → String) (ends : Nat → SnapshotEnd) :
    Nat → List String → Disk Content → Except Raised (List SnapshotInfo) × Disk Content
  | _, [], disk => (.ok [], disk)
  | i, path :: rest, disk =>
      match disk.files path with
      | none => takeSnapshots hash ends (i + 1) rest disk
      | some _ =>
          match ends i with
          | .raises exc => (.error exc, disk)
          | .created removed =>
              match createSnapshot hash removed disk path with
              | none => (.error .exception, disk)
              | some (info, disk') =>
                  let result := takeSnapshots hash ends (i + 1) rest disk'
                  (result.1.map (info :: ·), result.2)

section

variable (block : SnapshotTransactionLock)

/-- `_safe_release`: errors are logged and swallowed. -/
def SnapshotTransactionLock.safeRelease (outcome : DbOutcome)
    (table : LockTable Time) : LockTable Time :=
  match outcome with
  | .executeError => table
  | .ok | .commitError => (releaseSql table block.resourceId block.agentId).1

/-- `__aenter__` after the grant. -/
def SnapshotTransactionLock.aenter (hash : Content → String)
    (answers : Answers Content) (table : LockTable Time) (disk : Disk Content) :
    Except Raised (List SnapshotInfo) × LockTable Time × Disk Content :=
  if answers.cancelledInAcquire then (.error .cancelled, table, disk)
  else
    match takeSnapshots hash answers.snapshotEnd 0 block.targetFiles disk with
    | (.ok snapshots, disk') => (.ok snapshots, table, disk')
    | (.error .exception, disk') =>
        (.error .exception, block.safeRelease answers.releaseEnd table, disk')
    | (.error .cancelled, disk') => (.error .cancelled, table, disk')

/-- The body's changes to the files. -/
def applyChanges (files : Files Content) (changes : List (String × Option Content)) :
    Files Content :=
  changes.foldl (fun files change => Function.update files change.1 change.2) files

/-- The rollback loop from position `i` on: whether every restore succeeded, and
the files.  An `Exception` is logged; a cancellation ends the loop. -/
def rollback (hash : Content → String) (ends : Nat → Option (RestoreFault Content × Raised))
    (stored : Nat → Option (SnapshotFile Content)) :
    Nat → List SnapshotInfo → Files Content → Bool × Files Content
  | _, [], files => (true, files)
  | i, snap :: rest, files =>
      let result := restoreSnapshot hash false ((ends i).map (·.1)) (stored snap.snapshotPath)
        files snap.originalPath
      match ends i with
      | some (_, .cancelled) => (false, result.2)
      | _ =>
          let after := rollback hash ends stored (i + 1) rest result.2
          (result.1 && after.1, after.2)

/-- What a block leaves behind. -/
structure BlockResult (Time Content : Type) where
  /-- What `__aenter__` raised, if it did. -/
  enterRaised : Option Raised
  /-- If the body raised: whether every restore succeeded. -/
  restored : Option Bool
  files : Files Content
  table : LockTable Time

/-- A whole block from the grant to the end of `__aexit__`. -/
def SnapshotTransactionLock.run (hash : Content → String)
    (answers : Answers Content) (table : LockTable Time) (disk : Disk Content) :
    BlockResult Time Content :=
  match block.aenter hash answers table disk with
  | (.error exc, table', disk') =>
      { enterRaised := some exc, restored := none, files := disk'.files, table := table' }
  | (.ok snapshots, table', disk') =>
      let changed := applyChanges disk'.files answers.changes
      let released := block.safeRelease answers.releaseEnd table'
      match answers.bodyRaises with
      | none => { enterRaised := none, restored := none, files := changed, table := released }
      | some _ =>
          let stored := fun id => if answers.removedMeanwhile id then none else disk'.snapshots id
          let result := rollback hash answers.restoreEnd stored 0 snapshots.reverse changed
          { enterRaised := none
            restored := some result.1
            files := result.2
            table := released }

end

/-! ## The snapshots hold the content at entry -/

/-- Every snapshot of the list was taken of an existing file of `entry`, and what
is stored under its number, if anything, is the content of that file. -/
def SnapshotsOf (entry : Files Content) (stored : Nat → Option (SnapshotFile Content))
    (snapshots : List SnapshotInfo) : Prop :=
  ∀ info ∈ snapshots, ∃ content, entry info.originalPath = some content ∧
    ∀ file, stored info.snapshotPath = some file → file.content = content

variable {snapshots : List SnapshotInfo}

variable {entry : Files Content}

theorem SnapshotsOf.mono
    {stored stored' : Nat → Option (SnapshotFile Content)}
    (h : SnapshotsOf entry stored snapshots)
    (hstored : ∀ id file, stored' id = some file → stored id = some file) :
    SnapshotsOf entry stored' snapshots := by
  intro info hinfo
  obtain ⟨content, hentry, hcontent⟩ := h info hinfo
  exact ⟨content, hentry, fun file hfile => hcontent file (hstored _ file hfile)⟩

variable {hash : Content → String} {i : Nat} {targets : List String} {disk disk' : Disk Content}

/-- **Spec of the snapshot loop.**  It changes no file; if it ends normally its
snapshots hold the content of exactly the targets that exist. -/
theorem takeSnapshots_spec {ends : Nat → SnapshotEnd} (h : takeSnapshots hash ends i targets disk = (.ok snapshots, disk')) :
    disk'.files = disk.files ∧
      (∀ id file, id < disk.nextSnapshot → disk'.snapshots id = some file →
        disk.snapshots id = some file) ∧
      SnapshotsOf disk.files disk'.snapshots snapshots ∧
      (∀ path, path ∈ snapshots.map SnapshotInfo.originalPath ↔
        path ∈ targets ∧ (disk.files path).isSome) := by
  induction targets generalizing i disk snapshots with
  | nil =>
      cases h
      refine ⟨rfl, fun _ _ _ hfile => hfile, fun info hinfo => ?_, fun path => ?_⟩
      · cases hinfo
      · simp
  | cons path rest ih =>
      rw [takeSnapshots] at h
      split at h
      · rename_i habsent
        obtain ⟨hfiles, hold, hof, hpaths⟩ := ih h
        refine ⟨hfiles, hold, hof, fun p => ?_⟩
        rw [hpaths p, List.mem_cons]
        constructor
        · rintro ⟨hp, hsome⟩
          exact ⟨.inr hp, hsome⟩
        · rintro ⟨rfl | hp, hsome⟩
          · simp [habsent] at hsome
          · exact ⟨hp, hsome⟩
      · rename_i content hcontent
        split at h
        · cases h
        · split at h
          · cases h
          · rename_i removed _ info disk₁ hcreate
            obtain ⟨content', hcontent', horiginal, hnumber, hfiles₁, hnext, hstored₁⟩ :=
              createSnapshot_eq_some hcreate
            cases hrest : takeSnapshots hash ends (i + 1) rest disk₁ with
            | mk result disk₂ =>
                rw [hrest] at h
                cases result with
                | error exc => cases h
                | ok taken =>
                    cases h
                    obtain ⟨hfiles, hold, hof, hpaths⟩ := ih hrest
                    rw [hfiles₁] at hfiles hof hpaths
                    refine ⟨hfiles, ?_, ?_, ?_⟩
                    · intro id file hid hfile
                      have hid₁ : id < disk₁.nextSnapshot := by omega
                      rcases hstored₁ id file (hold id file hid₁ hfile) with ⟨heq, _⟩ | ⟨_, hprev⟩
                      · omega
                      · exact hprev
                    · intro info' hinfo'
                      rcases List.mem_cons.mp hinfo' with rfl | hmem
                      · refine ⟨content', horiginal ▸ hcontent', fun file hfile => ?_⟩
                        rw [hnumber] at hfile
                        have hlt : disk.nextSnapshot < disk₁.nextSnapshot := by omega
                        rcases hstored₁ _ file (hold _ file hlt hfile) with ⟨_, heq⟩ | ⟨hne, _⟩
                        · exact heq
                        · exact absurd rfl hne
                      · exact hof info' hmem
                    · intro p
                      rw [List.map_cons, List.mem_cons, hpaths p, List.mem_cons, horiginal]
                      constructor
                      · rintro (rfl | ⟨hp, hsome⟩)
                        · exact ⟨.inl rfl, by simp [hcontent]⟩
                        · exact ⟨.inr hp, hsome⟩
                      · rintro ⟨rfl | hp, hsome⟩
                        · exact .inl rfl
                        · exact .inr ⟨hp, hsome⟩

/-- No restored path is the temporary backup of another one. -/
def BackupsApart (paths : List String) : Prop :=
  ∀ p ∈ paths, ∀ q ∈ paths, p ≠ restoreBackupPath q

/-- **Spec of the rollback loop.**  If every restore succeeded, each snapshot's
file has its content at entry, and a path that is no snapshot's file or backup
is untouched. -/
theorem rollback_spec
    {ends : Nat → Option (RestoreFault Content × Raised)}
    {stored : Nat → Option (SnapshotFile Content)} {files : Files Content}
    (hof : SnapshotsOf entry stored snapshots)
    (hapart : BackupsApart (snapshots.map SnapshotInfo.originalPath))
    (hall : (rollback hash ends stored i snapshots files).1 = true) :
    (∀ path ∈ snapshots.map SnapshotInfo.originalPath,
        (rollback hash ends stored i snapshots files).2 path = entry path) ∧
      ∀ path, path ∉ snapshots.map SnapshotInfo.originalPath →
        (∀ q ∈ snapshots.map SnapshotInfo.originalPath, path ≠ restoreBackupPath q) →
        (rollback hash ends stored i snapshots files).2 path = files path := by
  induction snapshots generalizing i files with
  | nil => exact ⟨fun _ hpath => absurd hpath List.not_mem_nil, fun _ _ _ => rfl⟩
  | cons snap rest ih =>
      rw [rollback] at hall ⊢
      split at hall
      · cases hall
      · simp only [Bool.and_eq_true] at hall
        obtain ⟨hone, hrest⟩ := hall
        obtain ⟨file, hfile, hfiles⟩ := restoreSnapshot_eq_true hone
        obtain ⟨content, hentry, hcontent⟩ := hof snap List.mem_cons_self
        rw [hcontent file hfile] at hfiles
        have hofRest : SnapshotsOf entry stored rest :=
          fun info hinfo => hof info (List.mem_cons_of_mem _ hinfo)
        have hapartRest : BackupsApart (rest.map SnapshotInfo.originalPath) :=
          fun p hp q hq => hapart p (List.mem_cons_of_mem _ hp) q (List.mem_cons_of_mem _ hq)
        obtain ⟨hin, hout⟩ := ih hofRest hapartRest hrest
        refine ⟨?_, ?_⟩
        · intro path hpath
          by_cases hmem : path ∈ rest.map SnapshotInfo.originalPath
          · exact hin path hmem
          · have hhead : path = snap.originalPath := by
              rcases List.mem_cons.mp hpath with heq | hmem'
              · exact heq
              · exact absurd hmem' hmem
            have hnobackup : ∀ q ∈ rest.map SnapshotInfo.originalPath,
                path ≠ restoreBackupPath q :=
              fun q hq => hapart path hpath q (List.mem_cons_of_mem _ hq)
            rw [hout path hmem hnobackup, hfiles, hhead, restoreFiles_target, hentry]
        · intro path hpath hnobackup
          rw [List.map_cons, List.mem_cons, not_or] at hpath
          have hkept := restoreFiles_of_ne files content hpath.1
            (hnobackup snap.originalPath List.mem_cons_self)
          rw [hout path hpath.2 fun q hq => hnobackup q (List.mem_cons_of_mem _ hq), hfiles, hkept]

/-! ## All or nothing -/

section

variable (block : SnapshotTransactionLock)

/-- The row of the resource is not this agent's, or there is none. -/
def SnapshotTransactionLock.Released (table : LockTable Time) :
    Prop :=
  ∀ row, table.lookup block.resourceId = some row → row.agentId ≠ block.agentId

/-- If the body raised and every restore succeeded, the targets are as they were
at entry and the lock is released; if `__aenter__` raised, the lock is. -/
def AllOrNothing (entry : Files Content) (result : BlockResult Time Content) : Prop :=
  (result.restored = some true →
      (∀ path ∈ block.targetFiles, result.files path = entry path) ∧
        block.Released result.table) ∧
    (result.enterRaised.isSome → block.Released result.table)

/-- The exception of the first existing target whose snapshot raises. -/
def enterRaise (ends : Nat → SnapshotEnd) (entry : Files Content) :
    Nat → List String → Option Raised
  | _, [] => none
  | i, path :: rest =>
      match entry path, ends i with
      | some _, .raises exc => some exc
      | _, _ => enterRaise ends entry (i + 1) rest

/-- What `_enforce_size_limit` deletes while the targets from position `i` on are
snapshotted. -/
def sizeLimitRemoves (ends : Nat → SnapshotEnd) (entry : Files Content) :
    Nat → List String → Nat → Bool
  | _, [], _ => false
  | i, path :: rest, id =>
      (match entry path, ends i with
        | some _, .created removed => removed id
        | _, _ => false) || sizeLimitRemoves ends entry (i + 1) rest id

/-- The numbers the snapshots of the existing targets get, from `next` on, and
whether each outlives the loop. -/
def snapshotNumbers (ends : Nat → SnapshotEnd) (entry : Files Content) :
    Nat → Nat → List String → List (Nat × Bool)
  | _, _, [] => []
  | i, next, path :: rest =>
      match entry path with
      | none => snapshotNumbers ends entry (i + 1) next rest
      | some _ =>
          (next, !sizeLimitRemoves ends entry i (path :: rest) next) ::
            snapshotNumbers ends entry (i + 1) (next + 1) rest

/-- The restores, from the `i`-th on, fail nowhere and find their snapshots. -/
def Answers.restoresReturn (answers : Answers Content) : Nat → List (Nat × Bool) → Bool
  | _, [] => true
  | i, (number, kept) :: rest =>
      (answers.restoreEnd i).isNone && (kept && !answers.removedMeanwhile number) &&
        answers.restoresReturn (i + 1) rest

/-- The block is entered, its body raises and every restore succeeds: the case the
promise speaks about, read off the answers and the disk at entry. -/
structure SnapshotTransactionLock.RestoresAll
    (answers : Answers Content) (disk : Disk Content) : Prop where
  entered : answers.cancelledInAcquire = false ∧
    enterRaise answers.snapshotEnd disk.files 0 block.targetFiles = none
  raised : answers.bodyRaises.isSome
  returned : answers.restoresReturn 0 (snapshotNumbers answers.snapshotEnd disk.files 0
    disk.nextSnapshot block.targetFiles).reverse = true

/-- The condition under which a block is all-or-nothing. -/
structure Undoable (answers : Answers Content) (disk : Disk Content) : Prop where
  /-- Nothing but an `Exception` leaves `__aenter__`, … -/
  enter : answers.cancelledInAcquire = false ∧
    ∀ exc ∈ enterRaise answers.snapshotEnd disk.files 0 block.targetFiles, exc = .exception
  /-- … the release statement takes effect where the claim needs it, … -/
  release : (enterRaise answers.snapshotEnd disk.files 0 block.targetFiles).isSome ∨
    block.RestoresAll answers disk → answers.releaseEnd ≠ .executeError
  /-- … and no target absent at entry exists when the body ends. -/
  absent : block.RestoresAll answers disk → ∀ path ∈ block.targetFiles,
    disk.files path = none → applyChanges disk.files answers.changes path = none

end

theorem takeSnapshots_error_iff {ends : Nat → SnapshotEnd} {exc : Raised} :
    (takeSnapshots hash ends i targets disk).1 = .error exc ↔
      enterRaise ends disk.files i targets = some exc := by
  induction targets generalizing i disk with
  | nil => simp [takeSnapshots, enterRaise]
  | cons path rest ih =>
      rw [takeSnapshots, enterRaise]
      cases hcontent : disk.files path with
      | none => exact ih
      | some content =>
          cases hend : ends i with
          | raises exc' => simp
          | created removed =>
              cases hcreate : createSnapshot hash removed disk path with
              | none => simp [createSnapshot, hcontent] at hcreate
              | some result =>
                  obtain ⟨info, disk'⟩ := result
                  obtain ⟨_, _, _, _, hfiles, _, _⟩ := createSnapshot_eq_some hcreate
                  have hrest := @ih (i + 1) disk'
                  rw [hfiles] at hrest
                  rw [← hrest]
                  simp only [hcreate]
                  cases (takeSnapshots hash ends (i + 1) rest disk').1 with
                  | error | ok => simp [Except.map]

/-- **The snapshots that are stored.**  The loop of `__aenter__` numbers its snapshots
as `snapshotNumbers` says, and of these and the older ones exactly those that the
size limit spared are there afterwards. -/
theorem takeSnapshots_stored {ends : Nat → SnapshotEnd}
    (h : takeSnapshots hash ends i targets disk = (.ok snapshots, disk')) :
    (∀ id, id < disk.nextSnapshot → (disk'.snapshots id).isSome =
        ((disk.snapshots id).isSome && !sizeLimitRemoves ends disk.files i targets id)) ∧
      snapshots.map (fun info => (info.snapshotPath, (disk'.snapshots info.snapshotPath).isSome)) =
        snapshotNumbers ends disk.files i disk.nextSnapshot targets := by
  induction targets generalizing i disk snapshots with
  | nil =>
      cases h
      exact ⟨fun id _ => by simp [sizeLimitRemoves], rfl⟩
  | cons path rest ih =>
      rw [takeSnapshots] at h
      cases hcontent : disk.files path with
      | none =>
          simp only [hcontent] at h
          obtain ⟨hold, hnumbers⟩ := ih h
          refine ⟨fun id hid => ?_, ?_⟩
          · rw [hold id hid]
            simp [sizeLimitRemoves, hcontent]
          · rw [hnumbers]
            simp [snapshotNumbers, hcontent]
      | some content =>
          simp only [hcontent] at h
          cases hend : ends i with
          | raises exc =>
              rw [hend] at h
              cases h
          | created removed =>
              simp only [hend, createSnapshot, hcontent] at h
              generalize hdisk₁ : ({ disk with
                snapshots := fun id => if removed id = true then none else
                  Function.update disk.snapshots disk.nextSnapshot
                    (some { content := content, metaChecksum := some (hash content) }) id
                nextSnapshot := disk.nextSnapshot + 1 } : Disk Content) = disk₁ at h
              have hfiles : disk₁.files = disk.files := by rw [← hdisk₁]
              have hnext : disk₁.nextSnapshot = disk.nextSnapshot + 1 := by rw [← hdisk₁]
              have hstored : ∀ id, id < disk.nextSnapshot + 1 → (disk₁.snapshots id).isSome =
                  ((id == disk.nextSnapshot || (disk.snapshots id).isSome) && !removed id) := by
                intro id hid
                rw [← hdisk₁]
                by_cases hremoved : removed id = true
                · simp [hremoved]
                · by_cases hown : id = disk.nextSnapshot
                  · subst hown
                    simp [hremoved]
                  · simp [hremoved, hown]
              cases hrest : takeSnapshots hash ends (i + 1) rest disk₁ with
              | mk result disk₂ =>
                rw [hrest] at h
                cases result with
                | error exc => cases h
                | ok taken =>
                  cases h
                  obtain ⟨hold, hnumbers⟩ := ih hrest
                  rw [hfiles, hnext] at hold hnumbers
                  have hremoves : ∀ id, sizeLimitRemoves ends disk.files i (path :: rest) id =
                      (removed id || sizeLimitRemoves ends disk.files (i + 1) rest id) := by
                    intro id
                    simp only [sizeLimitRemoves, hcontent, hend]
                  have hkept : ∀ id, id < disk.nextSnapshot + 1 → (disk₂.snapshots id).isSome =
                      ((id == disk.nextSnapshot || (disk.snapshots id).isSome) &&
                        !sizeLimitRemoves ends disk.files i (path :: rest) id) := by
                    intro id hid
                    rw [hold id hid, hstored id hid, hremoves id, Bool.not_or, Bool.and_assoc]
                  refine ⟨fun id hid => ?_, ?_⟩
                  · rw [hkept id (by omega), beq_false_of_ne (by omega), Bool.false_or]
                  · rw [List.map_cons, hnumbers, snapshotNumbers, hcontent]
                    simp only [hkept disk.nextSnapshot (by omega), beq_self_eq_true,
                      Bool.true_or, Bool.true_and]

variable {answers : Answers Content}

/-- The rollback loop succeeds exactly when no restore fails and every snapshot is
still stored; what the files are does not matter. -/
theorem rollback_succeeds
    {stored : Nat → Option (SnapshotFile Content)}
    {files : Files Content} :
    (rollback hash answers.restoreEnd
        (fun id => if answers.removedMeanwhile id then none else stored id) i snapshots files).1 =
      answers.restoresReturn i (snapshots.map fun info =>
        (info.snapshotPath, (stored info.snapshotPath).isSome)) := by
  induction snapshots generalizing i files with
  | nil => rfl
  | cons snap rest ih =>
      rw [rollback, List.map_cons, Answers.restoresReturn]
      have hone : ∀ fault : Option (RestoreFault Content),
          (restoreSnapshot hash false fault
              (if answers.removedMeanwhile snap.snapshotPath then none
                else stored snap.snapshotPath) files snap.originalPath).1 =
            (fault.isNone && ((stored snap.snapshotPath).isSome &&
              !answers.removedMeanwhile snap.snapshotPath)) := by
        intro fault
        by_cases hremoved : answers.removedMeanwhile snap.snapshotPath = true
        · simp [restoreSnapshot, hremoved]
        · cases hfile : stored snap.snapshotPath with
          | none => simp [restoreSnapshot]
          | some file =>
              cases fault with
              | none | some => simp [restoreSnapshot, hremoved]
      cases hend : answers.restoreEnd i with
      | none =>
          simp only [Option.map_none, hone, ih]
          rfl
      | some failed =>
          obtain ⟨fault, exc⟩ := failed
          cases exc with
          | exception => simp [hone]
          | cancelled => simp

/-- How a block goes from the grant to its end: it is cancelled before the first
snapshot, a snapshot raises, or its body runs and returns or raises. -/
inductive BlockEnds (hash : Content → String) (block : SnapshotTransactionLock)
    (answers : Answers Content) (table : LockTable Time) (disk : Disk Content) :
    BlockResult Time Content → Prop
  | cancelledInAcquire (hcancelled : answers.cancelledInAcquire = true) :
      BlockEnds hash block answers table disk
        { enterRaised := some .cancelled, restored := none, files := disk.files, table := table }
  | snapshotRaised (files : Files Content) (hgranted : answers.cancelledInAcquire = false)
      (hraise : enterRaise answers.snapshotEnd disk.files 0 block.targetFiles =
        some .exception) :
      BlockEnds hash block answers table disk
        { enterRaised := some .exception
          restored := none
          files := files
          table := block.safeRelease answers.releaseEnd table }
  | snapshotCancelled (files : Files Content) (hgranted : answers.cancelledInAcquire = false)
      (hraise : enterRaise answers.snapshotEnd disk.files 0 block.targetFiles =
        some .cancelled) :
      BlockEnds hash block answers table disk
        { enterRaised := some .cancelled, restored := none, files := files, table := table }
  | bodyReturned (files : Files Content) (hgranted : answers.cancelledInAcquire = false)
      (hnone : enterRaise answers.snapshotEnd disk.files 0 block.targetFiles = none)
      (hbody : answers.bodyRaises = none) :
      BlockEnds hash block answers table disk
        { enterRaised := none
          restored := none
          files := files
          table := block.safeRelease answers.releaseEnd table }
  | bodyRaised (snapshots : List SnapshotInfo) (disk' : Disk Content)
      (stored : Nat → Option (SnapshotFile Content))
      (hgranted : answers.cancelledInAcquire = false)
      (hnone : enterRaise answers.snapshotEnd disk.files 0 block.targetFiles = none)
      (htaken : takeSnapshots hash answers.snapshotEnd 0 block.targetFiles disk =
        (.ok snapshots, disk'))
      (hbody : answers.bodyRaises.isSome)
      (hstored : stored = fun id =>
        if answers.removedMeanwhile id then none else disk'.snapshots id) :
      BlockEnds hash block answers table disk
        { enterRaised := none
          restored := some (rollback hash answers.restoreEnd stored 0 snapshots.reverse
            (applyChanges disk'.files answers.changes)).1
          files := (rollback hash answers.restoreEnd stored 0 snapshots.reverse
            (applyChanges disk'.files answers.changes)).2
          table := block.safeRelease answers.releaseEnd table }

/-- **Inversion of a run.**  Every block ends in one of these ways. -/
theorem blockEnds_run (hash : Content → String) (block : SnapshotTransactionLock)
    (answers : Answers Content) (table : LockTable Time) (disk : Disk Content) :
    BlockEnds hash block answers table disk (block.run hash answers table disk) := by
  have hraise : ∀ exc, (takeSnapshots hash answers.snapshotEnd 0 block.targetFiles disk).1 =
      .error exc ↔ enterRaise answers.snapshotEnd disk.files 0 block.targetFiles = some exc :=
    fun exc => takeSnapshots_error_iff
  unfold SnapshotTransactionLock.run SnapshotTransactionLock.aenter
  by_cases hcancelled : answers.cancelledInAcquire = true
  · simp only [hcancelled, if_true]
    exact .cancelledInAcquire hcancelled
  · have hgranted : answers.cancelledInAcquire = false := by simpa using hcancelled
    simp only [hgranted, Bool.false_eq_true, if_false]
    cases htaken : takeSnapshots hash answers.snapshotEnd 0 block.targetFiles disk with
    | mk result disk' =>
        rw [htaken] at hraise
        cases result with
        | error exc =>
            have hexc := (hraise exc).mp rfl
            cases exc with
            | exception => exact .snapshotRaised disk'.files hgranted hexc
            | cancelled => exact .snapshotCancelled disk'.files hgranted hexc
        | ok snapshots =>
            have hnone : enterRaise answers.snapshotEnd disk.files 0 block.targetFiles = none := by
              refine Option.eq_none_iff_forall_ne_some.mpr fun exc h => ?_
              exact absurd ((hraise exc).mpr h) (by simp)
            cases hbody : answers.bodyRaises with
            | none => exact .bodyReturned _ hgranted hnone hbody
            | some exc =>
                exact .bodyRaised snapshots disk' _ hgranted hnone htaken (by rw [hbody]; rfl) rfl

/-- Every restore of a block succeeds exactly when `RestoresAll` says so. -/
theorem restored_iff {block : SnapshotTransactionLock} {table : LockTable Time}
    {result : BlockResult Time Content} (h : BlockEnds hash block answers table disk result) :
    result.restored = some true ↔ block.RestoresAll answers disk := by
  cases h with
  | cancelledInAcquire hcancelled =>
      refine iff_of_false (by simp) fun h => ?_
      exact absurd (hcancelled.symm.trans h.entered.1) (by simp)
  | snapshotRaised _ _ hraise | snapshotCancelled _ _ hraise =>
      refine iff_of_false (by simp) fun h => ?_
      exact absurd (hraise.symm.trans h.entered.2) (by simp)
  | bodyReturned files hgranted hnone hbody =>
      refine iff_of_false (by simp) fun h => ?_
      exact absurd h.raised (by simp [hbody])
  | bodyRaised snapshots disk' stored hgranted hnone htaken hbody hstored =>
      subst hstored
      obtain ⟨-, hnumbers⟩ := takeSnapshots_stored htaken
      simp only [Option.some.injEq, rollback_succeeds, List.map_reverse, hnumbers]
      exact ⟨fun hreturned => ⟨⟨hgranted, hnone⟩, hbody, hreturned⟩, fun h => h.returned⟩

/-- The release statement removes the block's own lease exactly when it takes
effect. -/
theorem released_safeRelease_iff (block : SnapshotTransactionLock) (outcome : DbOutcome)
    (acquiredAt expiresAt : Time) (table : LockTable Time) :
    block.Released (block.safeRelease outcome (table.upsert (block.lease acquiredAt expiresAt))) ↔
      outcome ≠ .executeError := by
  have hown : (table.upsert (block.lease acquiredAt expiresAt)).lookup block.resourceId =
      some (block.lease acquiredAt expiresAt) :=
    table.lookup_upsert_self (block.lease acquiredAt expiresAt)
  have hdeleted : (releaseSql (table.upsert (block.lease acquiredAt expiresAt)) block.resourceId
      block.agentId).1.lookup block.resourceId = none :=
    @Locks.lookup_releaseSql_of_match Time _ (block.lease acquiredAt expiresAt) hown
  have hgone : block.Released
      (releaseSql (table.upsert (block.lease acquiredAt expiresAt)) block.resourceId
        block.agentId).1 := by
    intro row hrow
    exact absurd (hdeleted.symm.trans hrow) (by simp)
  cases outcome with
  | ok | commitError => exact iff_of_true hgone (by simp)
  | executeError => exact iff_of_false (fun h => h _ hown rfl) (by simp)

theorem not_released_granted (block : SnapshotTransactionLock) (acquiredAt expiresAt : Time)
    (table : LockTable Time) :
    ¬block.Released (table.upsert (block.lease acquiredAt expiresAt)) :=
  fun h => h _ (table.lookup_upsert_self (block.lease acquiredAt expiresAt)) rfl

/-- After a rollback whose restores all succeeded, the targets are as they were
at entry exactly when no target that was absent exists when the body ends. -/
theorem restored_targets_iff
    {stored : Nat → Option (SnapshotFile Content)} (hapart : BackupsApart targets)
    (htaken : takeSnapshots hash answers.snapshotEnd 0 targets disk = (.ok snapshots, disk'))
    (hstored : ∀ id file, stored id = some file → disk'.snapshots id = some file)
    (hall : (rollback hash answers.restoreEnd stored 0 snapshots.reverse
      (applyChanges disk'.files answers.changes)).1 = true) :
    (∀ path ∈ targets, (rollback hash answers.restoreEnd stored 0 snapshots.reverse
        (applyChanges disk'.files answers.changes)).2 path = disk.files path) ↔
      ∀ path ∈ targets, disk.files path = none →
        applyChanges disk.files answers.changes path = none := by
  obtain ⟨hfiles, _, hof, hpaths⟩ := takeSnapshots_spec htaken
  rw [hfiles] at hall ⊢
  have hmem : ∀ path, path ∈ snapshots.reverse.map SnapshotInfo.originalPath ↔
      path ∈ targets ∧ (disk.files path).isSome := by
    intro path
    rw [List.map_reverse, List.mem_reverse]
    exact hpaths path
  have hofReverse : SnapshotsOf disk.files stored snapshots.reverse :=
    fun info hinfo => hof.mono hstored info (List.mem_reverse.mp hinfo)
  have hapartReverse : BackupsApart (snapshots.reverse.map SnapshotInfo.originalPath) :=
    fun p hp q hq => hapart p ((hmem p).mp hp).1 q ((hmem q).mp hq).1
  obtain ⟨hin, hout⟩ := rollback_spec hofReverse hapartReverse hall
  -- An absent target has no snapshot, so the rollback leaves what the body left.
  have habsent : ∀ path ∈ targets, disk.files path = none →
      (rollback hash answers.restoreEnd stored 0 snapshots.reverse
        (applyChanges disk.files answers.changes)).2 path =
          applyChanges disk.files answers.changes path := by
    intro path hpath hnone
    refine hout path (fun h => ?_) fun q hq => hapart path hpath q ((hmem q).mp hq).1
    have hsome := ((hmem path).mp h).2
    simp [hnone] at hsome
  constructor
  · intro h path hpath hnone
    rw [← habsent path hpath hnone, h path hpath, hnone]
  · intro h path hpath
    cases hentry : disk.files path with
    | none => rw [habsent path hpath hentry, h path hpath hentry]
    | some content =>
        rw [hin path ((hmem path).mpr ⟨hpath, by simp [hentry]⟩), hentry]

/-- One protected plugin. -/
def pluginBlock : SnapshotTransactionLock :=
  { resourceId := "Synthesis.esp", agentId := "synthesis-service", targetFiles := ["Synthesis.esp"] }

/-- No plugin file, and one with content 1. -/
def noPlugin : Disk Nat := { files := fun _ => none, snapshots := fun _ => none, nextSnapshot := 0 }

def oldPlugin : Disk Nat :=
  { noPlugin with files := fun path => if path = "Synthesis.esp" then some 1 else none }

/-- The body writes content 2 and raises; nothing else goes wrong. -/
def writesThenRaises : Answers Nat :=
  { cancelledInAcquire := false
    snapshotEnd := fun _ => .created fun _ => false
    changes := [("Synthesis.esp", some 2)]
    removedMeanwhile := fun _ => false
    bodyRaises := some .exception
    restoreEnd := fun _ => none
    releaseEnd := .ok }

end SkyClaw.Db.Snapshots
