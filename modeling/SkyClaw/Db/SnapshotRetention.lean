import SkyClaw.Db.SnapshotLimit

/-!
# How long snapshots are kept

`FileSnapshotManager.cleanup_old_snapshots` on the date directories of `create_snapshot`.  Instants
are microseconds since the epoch.

A directory is named by the UTC date of the snapshots in it, and goes as a whole when the local
midnight of that date is before the limit.  `cleanupOldSnapshots_deletesExactly_iff` says for which
snapshots that is the comparison of their age with the limit.
-/

namespace SkyClaw.Db.SnapshotRetention

open SnapshotLimit

/-! ## The cleanup -/

/-- A day in microseconds. -/
def dayLength : Nat := 24 * 60 * 60 * 1000000

/-- How far the local time of the host is ahead of UTC at the local midnight of a day. -/
abbrev TimeZone := Nat → Int

/-- `time.mktime(time.strptime(date_dir.name, "%Y-%m-%d"))` -/
def dirTimestamp (zone : TimeZone) (dir : DateDir) : Int := dir.day * dayLength - zone dir.day

structure CleanupResult where
  deletedCount : Nat
  freedBytes : Nat
  errors : List String
deriving DecidableEq

/-- Where the cleanup of a directory raises an `OSError`: while its files are looked at, or while
they are removed, which leaves some. -/
inductive DirFault
  | stat (message : String)
  | rmtree (message : String) (keeps : String → Bool)

abbrev DirFaults := DateDir → Option DirFault

/-- The files of one directory. -/
def filesIn (dir : DateDir) (files : List StoredFile) : List StoredFile :=
  files.filter fun file => file.dir = some dir

def CleanupResult.count (result : CleanupResult) (dir : DateDir) (files : List StoredFile) :
    CleanupResult :=
  { result with
    deletedCount := result.deletedCount + (filesIn dir files).length
    freedBytes := result.freedBytes + calculateTotalSize (filesIn dir files) }

def CleanupResult.fail (result : CleanupResult) (message : String) : CleanupResult :=
  { result with errors := result.errors ++ ["Error during cleanup: " ++ message] }

/-- The removal of one directory: whether the loop goes on, the result and the files. -/
def cleanupDir (dryRun : Bool) (fault : Option DirFault) (dir : DateDir) (result : CleanupResult)
    (files : List StoredFile) : Bool × CleanupResult × List StoredFile :=
  match fault, dryRun with
  | some (.stat message), _ => (false, result.fail message, files)
  | _, true => (true, result.count dir files, files)
  | some (.rmtree message keeps), false =>
      (false, result.fail message,
        files.filter fun file => file.dir ≠ some dir ∨ keeps file.name)
  | none, false =>
      (true, result.count dir files, files.filter fun file => file.dir ≠ some dir)

/-- The loop over `iterdir`; what is no directory, or has no date as its name, is skipped. -/
def cleanupDirs (zone : TimeZone) (cutoffTime : Int) (dryRun : Bool) (faults : DirFaults) :
    List DateDir → CleanupResult → List StoredFile → CleanupResult × List StoredFile
  | [], result, files => (result, files)
  | dir :: dirs, result, files =>
      if dirTimestamp zone dir < cutoffTime then
        let after := cleanupDir dryRun (faults dir) dir result files
        if after.1 then cleanupDirs zone cutoffTime dryRun faults dirs after.2.1 after.2.2
        else after.2
      else cleanupDirs zone cutoffTime dryRun faults dirs result files

/-- `cleanup_old_snapshots`, at `now`. -/
def cleanupOldSnapshots (zone : TimeZone) (now daysOld : Int) (dryRun : Bool) (faults : DirFaults)
    (dateDirs : List DateDir) (files : List StoredFile) : CleanupResult × List StoredFile :=
  cleanupDirs zone (now - daysOld * dayLength) dryRun faults dateDirs ⟨0, 0, []⟩ files

variable {file : StoredFile}

variable {zone : TimeZone}

theorem mem_cleanupDirs_iff {cutoffTime : Int} {dirs : List DateDir}
    {result : CleanupResult} {files : List StoredFile} :
    file ∈ (cleanupDirs zone cutoffTime false (fun _ => none) dirs result files).2 ↔
      file ∈ files ∧ ∀ dir ∈ dirs, file.dir = some dir → ¬ dirTimestamp zone dir < cutoffTime := by
  induction dirs generalizing result files with
  | nil => simp [cleanupDirs]
  | cons first dirs ih =>
      rw [cleanupDirs, List.forall_mem_cons]
      by_cases hold : dirTimestamp zone first < cutoffTime
      · simp only [if_pos hold, cleanupDir, if_true]
        rw [ih, List.mem_filter, decide_eq_true_eq]
        simp only [hold, not_true_eq_false, imp_false]
        tauto
      · rw [if_neg hold, ih]
        simp only [hold, not_false_eq_true, imp_true_iff, true_and]

/-! ## Snapshots and their age -/

/-- What `create_snapshot` made: its time stamp, the name and the size of the copy, and the size of
the metadata. -/
structure Snapshot where
  createdAt : Nat
  snapshotName : String
  size : Nat
  metaSize : Nat
deriving DecidableEq

/-- `timestamp.strftime("%Y-%m-%d")`, in UTC -/
def Snapshot.day (s : Snapshot) : Nat := s.createdAt / dayLength

def Snapshot.dir (s : Snapshot) : DateDir := .ofDay s.day

/-- The copy and the metadata. -/
def Snapshot.stored (s : Snapshot) : StoredFile := ⟨some s.dir, s.snapshotName, s.size⟩

def Snapshot.storedMeta (s : Snapshot) : StoredFile :=
  ⟨some s.dir, metaName s.snapshotName, s.metaSize⟩

/-- The snapshot directory: snapshots, other files, and the date directories in the order in which
`iterdir` yields them. -/
structure Store where
  snapshots : List Snapshot
  others : List StoredFile
  dateDirs : List DateDir
  listed : ∀ s ∈ snapshots, s.dir ∈ dateDirs

def Store.files (store : Store) : List StoredFile :=
  store.others ++ store.snapshots.flatMap fun s => [s.stored, s.storedMeta]

/-- The files after `cleanup_old_snapshots`. -/
def Store.cleanedUp (store : Store) (zone : TimeZone) (now daysOld : Int) : List StoredFile :=
  (cleanupOldSnapshots zone now daysOld false (fun _ => none) store.dateDirs store.files).2

/-- The snapshots that are gone are those that are at least `daysOld` days old. -/
def DeletesExactly (zone : TimeZone) (now daysOld : Int) (store : Store) : Prop :=
  ∀ s ∈ store.snapshots,
    s.stored ∉ store.cleanedUp zone now daysOld ↔ daysOld * dayLength ≤ now - s.createdAt

/-- How much older than the snapshot its directory is taken to be: the time since midnight, and
what local time is ahead. -/
def Snapshot.lag (zone : TimeZone) (s : Snapshot) : Int := (s.createdAt % dayLength : Nat) + zone s.day

/-- The limit falls between the age of a snapshot and the one its directory is taken to have. -/
def Misjudged (zone : TimeZone) (now daysOld : Int) (s : Snapshot) : Prop :=
  let age := now - s.createdAt
  let limit := daysOld * dayLength
  (age < limit ∧ limit < age + s.lag zone) ∨ (age + s.lag zone ≤ limit ∧ limit ≤ age)

variable {s : Snapshot}

theorem stored_mem_files {store : Store} (h : s ∈ store.snapshots) :
    s.stored ∈ store.files :=
  List.mem_append_right _ (List.mem_flatMap.mpr ⟨s, h, List.mem_cons_self⟩)

theorem dirTimestamp_dir (zone : TimeZone) (s : Snapshot) :
    dirTimestamp zone s.dir = s.createdAt - s.lag zone := by
  have hsplit : s.day * dayLength + s.createdAt % dayLength = s.createdAt :=
    Nat.div_add_mod' s.createdAt dayLength
  have hcast : (s.day : Int) * dayLength + (s.createdAt % dayLength : Nat) = s.createdAt := by
    exact_mod_cast hsplit
  simp only [dirTimestamp, Snapshot.lag, Snapshot.dir, DateDir.ofDay]
  omega

theorem stored_notMem_cleanedUp_iff {store : Store} (h : s ∈ store.snapshots)
    (zone : TimeZone) (now daysOld : Int) :
    s.stored ∉ store.cleanedUp zone now daysOld ↔
      daysOld * dayLength < now - s.createdAt + s.lag zone := by
  have hold : dirTimestamp zone s.dir < now - daysOld * dayLength ↔
      daysOld * dayLength < now - s.createdAt + s.lag zone := by
    rw [dirTimestamp_dir]
    omega
  rw [← hold]
  unfold Store.cleanedUp cleanupOldSnapshots
  rw [mem_cleanupDirs_iff, and_iff_right (stored_mem_files h)]
  constructor
  · intro hgone
    by_contra hnot
    refine hgone fun dir _ heq => ?_
    rw [← Option.some.inj heq]
    exact hnot
  · intro hbefore hkept
    exact hkept s.dir (store.listed s h) rfl hbefore

/-- **Which snapshots are deleted.** -/
theorem cleanupOldSnapshots_deletesExactly_iff (zone : TimeZone) (now daysOld : Int)
    (store : Store) :
    DeletesExactly zone now daysOld store ↔
      ∀ s ∈ store.snapshots, ¬ Misjudged zone now daysOld s := by
  refine forall₂_congr fun s hs => ?_
  rw [stored_notMem_cleanedUp_iff hs]
  simp only [Misjudged]
  constructor
  · rintro h (⟨hyoung, hgone⟩ | ⟨hkept, hold⟩)
    · exact absurd (h.mp hgone) (by omega)
    · exact absurd (h.mpr hold) (by omega)
  · intro h
    omega

/-- A store of one snapshot, of the last second of a day. -/
def lateStore : Store where
  snapshots := [⟨dayLength - 1000000, "0123456789abcdef_plugins.txt", 5, 80⟩]
  others := []
  dateDirs := [⟨0, 0⟩]
  listed := by decide

/-- A snapshot of 29 days and two seconds goes, on a host in UTC that keeps 30 days. -/
theorem cleanupOldSnapshots_deletes_younger :
    ¬ DeletesExactly (fun _ => 0) (30 * dayLength + 1000000) 30 lateStore := by
  intro h
  have hgone := (h _ List.mem_cons_self).mp (by decide)
  exact absurd hgone (by decide)

end SkyClaw.Db.SnapshotRetention
