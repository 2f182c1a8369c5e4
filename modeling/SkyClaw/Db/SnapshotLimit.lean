import Mathlib.Algebra.BigOperators.Group.List.Basic
import Mathlib.Algebra.GroupWithZero.Nat
import Mathlib.Data.List.Sort
import SkyClaw.Lib.Runs

/-!
# The size limit of the snapshot directory

`FileSnapshotManager.create_snapshot` with the directories and the sizes that
`_enforce_size_limit` looks at, under the blocks that take snapshots.

The limit is enforced by whole date directories, oldest first, and nothing exempts the directory
of the day or one that a block still needs.  `lasting_iff` says for which sizes no snapshot
is lost.
-/

namespace SkyClaw.Db.SnapshotLimit

/-! ## The snapshot directory -/

/-- A directory whose name is a date.  `strptime` reads a date in several spellings, of which
`strftime` writes the one that is numbered 0. -/
structure DateDir where
  day : Nat
  spelling : Nat
deriving DecidableEq, Repr

/-- `timestamp.strftime("%Y-%m-%d")` -/
def DateDir.ofDay (day : Nat) : DateDir := ⟨day, 0⟩

/-- A file below `snapshot_dir`, in a date directory or elsewhere. -/
structure StoredFile where
  dir : Option DateDir
  name : String
  size : Nat
deriving DecidableEq, Repr

section

variable (files : List StoredFile)

def calculateTotalSize : Nat := (files.map StoredFile.size).sum

/-- There is a file of a name in a date directory. -/
def Has (dir : DateDir) (name : String) : Prop :=
  ∃ file ∈ files, file.dir = some dir ∧ file.name = name

instance (files : List StoredFile) (dir : DateDir) (name : String) :
    Decidable (Has files dir name) :=
  inferInstanceAs (Decidable (∃ file ∈ files, _))

/-- A file is written, over the one that is there. -/
def put (dir : DateDir) (name : String) (size : Nat) : List StoredFile :=
  files.filter (fun file => ¬(file.dir = some dir ∧ file.name = name)) ++ [⟨some dir, name, size⟩]

/-- `max_size_bytes`, and the bytes that `max_size_bytes * 0.9` comes to, rounded down. -/
structure Limits where
  maxSizeBytes : Nat
  lowWater : Nat

/-- Where removals of directories raise, or the call is cancelled after them: which files such a
removal leaves. -/
abbrev Faults := DateDir → Option (String → Bool)

/-- The loop of `_enforce_size_limit`: whether it gets to its end, and the files it leaves. -/
def removeOldest (lowWater : Nat) (faults : Faults) :
    List DateDir → Nat → List StoredFile → Bool × List StoredFile
  | [], _, files => (true, files)
  | dir :: dirs, current, files =>
      if current ≤ lowWater then (true, files)
      else
        match faults dir with
        | some keeps => (false, files.filter fun file => file.dir ≠ some dir ∨ keeps file.name)
        | none =>
            removeOldest lowWater faults dirs
              (current - calculateTotalSize (files.filter fun file => file.dir = some dir))
              (files.filter fun file => file.dir ≠ some dir)

/-- The date directories, the oldest first. -/
def sortByDate (dateDirs : List DateDir) : List DateDir :=
  dateDirs.insertionSort fun dir other => dir.day ≤ other.day

/-- `_enforce_size_limit`, with the date directories that `iterdir` yields. -/
def enforceSizeLimit (limits : Limits) (faults : Faults) (dateDirs : List DateDir)
    (files : List StoredFile) : Bool × List StoredFile :=
  if calculateTotalSize files ≤ limits.maxSizeBytes then (true, files)
  else
    removeOldest limits.lowWater faults (sortByDate dateDirs) (calculateTotalSize files) files

/-! ## Snapshots and blocks -/

/-- How a `create_snapshot` goes. -/
inductive CreateEnd where
  /-- it raises before it has written anything -/
  | notWritten
  /-- the copy fails, and leaves what it has written -/
  | copyFails (written : Option Nat)
  | metaFails (written : Option Nat)
  /-- both files are written, and it raises before anything is removed -/
  | sizeFails
  | enforces (faults : Faults) (dateDirs : List DateDir)

/-- A call of `create_snapshot`: the day of its time stamp, the name of its snapshot file, the size
of the file it copies and that of the metadata. -/
structure CreateCall where
  day : Nat
  snapshotName : String
  fileSize : Nat
  metaSize : Nat
  ends : CreateEnd

def CreateCall.dateDir (call : CreateCall) : DateDir := .ofDay call.day

/-- `snapshot_path.with_suffix(snapshot_path.suffix + ".meta.json")` -/
def metaName (snapshotName : String) : String := snapshotName ++ ".meta.json"

/-- The snapshot file is written. -/
def CreateCall.copied (call : CreateCall) (files : List StoredFile) : List StoredFile :=
  put files call.dateDir call.snapshotName call.fileSize

/-- The metadata file is written as well. -/
def CreateCall.written (call : CreateCall) (files : List StoredFile) : List StoredFile :=
  put (call.copied files) call.dateDir (metaName call.snapshotName) call.metaSize

/-- `create_snapshot`: where the snapshot is, unless it raises, and the files it leaves. -/
def createSnapshot (limits : Limits) (call : CreateCall) (files : List StoredFile) :
    Option (DateDir × String) × List StoredFile :=
  match call.ends with
  | .notWritten => (none, files)
  | .copyFails none => (none, files)
  | .copyFails (some size) => (none, put files call.dateDir call.snapshotName size)
  | .metaFails none => (none, call.copied files)
  | .metaFails (some size) =>
      (none, put (call.copied files) call.dateDir (metaName call.snapshotName) size)
  | .sizeFails => (none, call.written files)
  | .enforces faults dateDirs =>
      let enforced := enforceSizeLimit limits faults dateDirs (call.written files)
      (if enforced.1 then some (call.dateDir, call.snapshotName) else none, enforced.2)

/-- A snapshot that a block has taken. -/
structure Taken where
  block : Nat
  dir : DateDir
  name : String
deriving DecidableEq, Repr

/-- The files, and the snapshots of the blocks that have not exited. -/
structure State where
  files : List StoredFile
  taken : List Taken
deriving DecidableEq, Repr

/-- A call of `create_snapshot`, by the `__aenter__` of a block or by another caller, or a block
exits. -/
inductive Action where
  | createSnapshot (block : Option Nat) (call : CreateCall)
  | exitBlock (block : Nat)

/-- The snapshots of a block are needed no longer. -/
def State.exit (s : State) (block : Nat) : State :=
  { s with taken := s.taken.filter fun snapshot => snapshot.block ≠ block }

/-- What `__aenter__` does with the answer: when it raises the block is over. -/
def State.take (s : State) : Option Nat → Option (DateDir × String) → State
  | none, _ => s
  | some block, none => s.exit block
  | some block, some (dir, name) => { s with taken := s.taken ++ [⟨block, dir, name⟩] }

/-- `iterdir` yields every date directory in which there is a file. -/
def ListsAll (call : CreateCall) (files : List StoredFile) : Prop :=
  match call.ends with
  | .enforces _ dateDirs => ∀ file ∈ call.written files, ∀ dir ∈ file.dir, dir ∈ dateDirs
  | _ => True

instance (call : CreateCall) (files : List StoredFile) : Decidable (ListsAll call files) := by
  unfold ListsAll
  split <;> infer_instance

def step (limits : Limits) (s : State) : Action → Option State
  | .createSnapshot block call =>
      if ListsAll call s.files then
        let created := createSnapshot limits call s.files
        some ({ s with files := created.2 }.take block created.1)
      else none
  | .exitBlock block => some (s.exit block)

/-! ## Which files the limit removes -/

/-- The files that are in none of some date directories. -/
def outside (dirs : List DateDir) (files : List StoredFile) : List StoredFile :=
  files.filter fun file => ∀ dir ∈ dirs, file.dir ≠ some dir

/-- The directories before a date directory. -/
def before (dirs : List DateDir) (dir : DateDir) : List DateDir :=
  dirs.takeWhile fun other => other ≠ dir

/-- The files outside the directories before this one come to more than 90% of the limit. -/
def Reached (lowWater : Nat) (dirs : List DateDir) (files : List StoredFile) (dir : DateDir) : Prop :=
  lowWater < calculateTotalSize (outside (before dirs dir) files)

instance (lowWater : Nat) (dirs : List DateDir) (files : List StoredFile) (dir : DateDir) :
    Decidable (Reached lowWater dirs files dir) :=
  inferInstanceAs (Decidable (_ < _))

/-- A directory is reached, no removal before it raises, and its own one does not leave a file. -/
def Removes (lowWater : Nat) (faults : Faults) (dirs : List DateDir) (files : List StoredFile)
    (dir : DateDir) (name : String) : Prop :=
  Reached lowWater dirs files dir ∧ (∀ other ∈ before dirs dir, faults other = none) ∧
    ∀ keeps ∈ faults dir, keeps name = false

theorem calculateTotalSize_filter (p : StoredFile → Bool) :
    calculateTotalSize (files.filter p) + calculateTotalSize (files.filter fun file => !p file) =
      calculateTotalSize files := by
  induction files with
  | nil => rfl
  | cons file files ih =>
      cases hp : p file <;>
        simp only [List.filter_cons, hp, calculateTotalSize, List.map_cons, List.sum_cons] at ih ⊢ <;>
        simp <;> omega

theorem calculateTotalSize_outside_le (dirs : List DateDir) (files : List StoredFile) :
    calculateTotalSize (outside dirs files) ≤ calculateTotalSize files := by
  have h := calculateTotalSize_filter files fun file => ∀ dir ∈ dirs, file.dir ≠ some dir
  unfold outside
  omega

theorem calculateTotalSize_removed (dir : DateDir) :
    calculateTotalSize files - calculateTotalSize (files.filter fun file => file.dir = some dir) =
      calculateTotalSize (files.filter fun file => file.dir ≠ some dir) := by
  have h := calculateTotalSize_filter files fun file => file.dir = some dir
  simp only [decide_not]
  omega

end

theorem before_self (dirs : List DateDir) (dir : DateDir) : before (dir :: dirs) dir = [] := by
  simp [before]

theorem before_of_ne (dirs : List DateDir) {dir other : DateDir} (h : other ≠ dir) :
    before (other :: dirs) dir = other :: before dirs dir := by
  simp [before, h]

theorem outside_cons (dir : DateDir) (dirs : List DateDir) (files : List StoredFile) :
    outside (dir :: dirs) files = outside dirs (files.filter fun file => file.dir ≠ some dir) := by
  simp only [outside, List.filter_filter]
  congr 1
  funext file
  simp [Bool.and_comm]

theorem reached_self (lowWater : Nat) (dirs : List DateDir) (files : List StoredFile)
    (dir : DateDir) :
    Reached lowWater (dir :: dirs) files dir ↔ lowWater < calculateTotalSize files := by
  unfold Reached
  rw [before_self]
  simp [outside]

theorem reached_of_ne (lowWater : Nat) (dirs : List DateDir) (files : List StoredFile)
    {dir other : DateDir} (h : other ≠ dir) :
    Reached lowWater (other :: dirs) files dir ↔
      Reached lowWater dirs (files.filter fun file => file.dir ≠ some other) dir := by
  unfold Reached
  rw [before_of_ne dirs h, outside_cons]

variable {lowWater : Nat} {dirs : List DateDir}

theorem not_reached {files : List StoredFile} {dir : DateDir}
    (h : calculateTotalSize files ≤ lowWater) : ¬ Reached lowWater dirs files dir := by
  have := calculateTotalSize_outside_le (before dirs dir) files
  unfold Reached
  omega

theorem reached_of_before {files : List StoredFile}
    {dir other : DateDir} (hother : other ∈ before dirs dir)
    (h : Reached lowWater dirs files dir) : Reached lowWater dirs files other := by
  induction dirs generalizing files with
  | nil => cases hother
  | cons first dirs ih =>
      by_cases hdir : first = dir
      · rw [hdir, before_self] at hother
        cases hother
      · by_cases hfirst : first = other
        · rw [hfirst, reached_self]
          by_contra hle
          exact not_reached (Nat.not_lt.mp hle) h
        · rw [reached_of_ne lowWater dirs files hfirst]
          rw [before_of_ne dirs hdir] at hother
          have hlater : other ∈ before dirs dir :=
            (List.mem_cons.mp hother).resolve_left fun heq => hfirst heq.symm
          exact ih hlater ((reached_of_ne lowWater dirs files hdir).mp h)

/-- The loop gets to its end when no removal raises of those that it reaches. -/
theorem removeOldest_fst (lowWater : Nat) (faults : Faults) (dirs : List DateDir)
    (files : List StoredFile) :
    (removeOldest lowWater faults dirs (calculateTotalSize files) files).1 = true ↔
      ∀ dir ∈ dirs, Reached lowWater dirs files dir → faults dir = none := by
  induction dirs generalizing files with
  | nil => simp [removeOldest]
  | cons first dirs ih =>
      by_cases hlow : calculateTotalSize files ≤ lowWater
      · rw [removeOldest, if_pos hlow]
        simp only [true_iff]
        exact fun dir _ hreached => absurd hreached (not_reached hlow)
      · have hfirst : Reached lowWater (first :: dirs) files first :=
          (reached_self lowWater dirs files first).mpr (by omega)
        rw [removeOldest, if_neg hlow]
        cases hfault : faults first with
        | some keeps =>
            simp only [Bool.false_eq_true, false_iff]
            intro h
            have := h first List.mem_cons_self hfirst
            rw [hfault] at this
            cases this
        | none =>
            simp only [calculateTotalSize_removed, ih]
            constructor
            · intro h dir hdir hreached
              by_cases heq : first = dir
              · rw [← heq]
                exact hfault
              · have hlater : dir ∈ dirs :=
                  (List.mem_cons.mp hdir).resolve_left fun hsame => heq hsame.symm
                exact h dir hlater ((reached_of_ne lowWater dirs files heq).mp hreached)
            · intro h dir hdir hreached
              by_cases heq : first = dir
              · rw [← heq]
                exact hfault
              · exact h dir (List.mem_cons_of_mem first hdir)
                  ((reached_of_ne lowWater dirs files heq).mpr hreached)

variable {faults : Faults}

theorem mem_of_removeOldest {current : Nat}
    {files : List StoredFile} {file : StoredFile}
    (h : file ∈ (removeOldest lowWater faults dirs current files).2) : file ∈ files := by
  induction dirs generalizing current files with
  | nil => exact h
  | cons first dirs ih =>
      rw [removeOldest] at h
      split at h
      · exact h
      · split at h
        · exact (List.mem_filter.mp h).1
        · exact (List.mem_filter.mp (ih h)).1

variable {name : String}

theorem has_filter {files : List StoredFile} {p : StoredFile → Bool} {dir : DateDir}
    (h : ∀ file, file.dir = some dir → file.name = name → p file = true) :
    Has (files.filter p) dir name ↔ Has files dir name := by
  constructor
  · rintro ⟨file, hfile, hplace⟩
    exact ⟨file, (List.mem_filter.mp hfile).1, hplace⟩
  · rintro ⟨file, hfile, hplace⟩
    exact ⟨file, List.mem_filter.mpr ⟨hfile, h file hplace.1 hplace.2⟩, hplace⟩

theorem removes_self
    {files : List StoredFile} {dir : DateDir}
    (h : ¬ calculateTotalSize files ≤ lowWater) :
    Removes lowWater faults (dir :: dirs) files dir name ↔
      ∀ keeps ∈ faults dir, keeps name = false := by
  have hreached : Reached lowWater (dir :: dirs) files dir :=
    (reached_self lowWater dirs files dir).mpr (by omega)
  simp [Removes, hreached, before_self]

theorem removes_of_ne
    {files : List StoredFile} {dir other : DateDir} (h : other ≠ dir) :
    Removes lowWater faults (other :: dirs) files dir name ↔ faults other = none ∧
      Removes lowWater faults dirs (files.filter fun file => file.dir ≠ some other) dir name := by
  unfold Removes
  rw [reached_of_ne lowWater dirs files h, before_of_ne dirs h, List.forall_mem_cons]
  tauto

/-- The files that the loop leaves in a directory that is listed. -/
theorem has_removeOldest (lowWater : Nat) (faults : Faults)
    (files : List StoredFile) {dir : DateDir} (hdir : dir ∈ dirs) (name : String) :
    Has (removeOldest lowWater faults dirs (calculateTotalSize files) files).2 dir name ↔
      Has files dir name ∧ ¬ Removes lowWater faults dirs files dir name := by
  induction dirs generalizing files with
  | nil => cases hdir
  | cons first dirs ih =>
      by_cases hlow : calculateTotalSize files ≤ lowWater
      · rw [removeOldest, if_pos hlow]
        have hnot : ¬ Removes lowWater faults (first :: dirs) files dir name :=
          fun h => not_reached hlow h.1
        simp only [hnot, not_false_eq_true, and_true]
      · rw [removeOldest, if_neg hlow]
        by_cases heq : first = dir
        · subst heq
          rw [removes_self hlow]
          cases hfault : faults first with
          | some keeps =>
              simp only [Option.mem_some_iff, forall_eq', Bool.not_eq_false]
              constructor
              · rintro ⟨file, hfile, hplace, rfl⟩
                obtain ⟨hfile, hkept⟩ := List.mem_filter.mp hfile
                refine ⟨⟨file, hfile, hplace, rfl⟩, ?_⟩
                exact (of_decide_eq_true hkept).resolve_left fun h => h hplace
              · rintro ⟨⟨file, hfile, hplace, rfl⟩, hkept⟩
                exact ⟨file, List.mem_filter.mpr ⟨hfile, decide_eq_true (.inr hkept)⟩, hplace, rfl⟩
          | none =>
              -- nothing comes back once the directory is gone
              have hgone : ¬ Has (removeOldest lowWater faults dirs
                  (calculateTotalSize files -
                    calculateTotalSize (files.filter fun file => file.dir = some first))
                  (files.filter fun file => file.dir ≠ some first)).2 first name := by
                rintro ⟨file, hfile, hplace, -⟩
                have := (List.mem_filter.mp (mem_of_removeOldest hfile)).2
                exact of_decide_eq_true this hplace
              simpa using hgone
        · have hlater : dir ∈ dirs :=
            (List.mem_cons.mp hdir).resolve_left fun hsame => heq hsame.symm
          have hother : ∀ file : StoredFile, file.dir = some dir → file.dir ≠ some first := by
            intro file hplace hfirst
            exact heq (Option.some.inj (hfirst.symm.trans hplace))
          rw [removes_of_ne heq]
          cases hfault : faults first with
          | some keeps =>
              rw [has_filter fun file hplace _ => decide_eq_true (.inl (hother file hplace))]
              simp
          | none =>
              simp only [calculateTotalSize_removed]
              rw [ih _ hlater, has_filter fun file hplace _ => decide_eq_true (hother file hplace)]
              simp

/-! ## No snapshot is lost -/

/-- The promise about one step: where `create_snapshot` returns there are the snapshot and its
metadata, and the snapshots of the blocks that have not exited are still there. -/
def Lasting (limits : Limits) (s : State) (a : Action) (t : State) : Prop :=
  match a with
  | .createSnapshot _ call =>
      (∀ info ∈ (createSnapshot limits call s.files).1,
          Has t.files info.1 info.2 ∧ Has t.files info.1 (metaName info.2)) ∧
        ∀ snapshot ∈ s.taken, Has s.files snapshot.dir snapshot.name →
          Has t.files snapshot.dir snapshot.name
  | .exitBlock _ => True

/-- What `_enforce_size_limit` finds when it has too much to keep: the directory of the day is not
reached, unless a removal raises, and none with a snapshot of a block that has not exited is
removed. -/
def Spares (limits : Limits) (s : State) (call : CreateCall) (faults : Faults)
    (dateDirs : List DateDir) : Prop :=
  limits.maxSizeBytes < calculateTotalSize (call.written s.files) →
    ((∀ dir ∈ dateDirs,
        Reached limits.lowWater (sortByDate dateDirs) (call.written s.files) dir →
          faults dir = none) →
      ¬ Reached limits.lowWater (sortByDate dateDirs) (call.written s.files) call.dateDir) ∧
    ∀ snapshot ∈ s.taken, Has s.files snapshot.dir snapshot.name →
      ¬ Removes limits.lowWater faults (sortByDate dateDirs) (call.written s.files) snapshot.dir
        snapshot.name

/-- The condition on one step. -/
def Within (limits : Limits) (s : State) (a : Action) (_ : State) : Prop :=
  match a with
  | .createSnapshot _ call =>
      match call.ends with
      | .enforces faults dateDirs => Spares limits s call faults dateDirs
      | _ => True
  | .exitBlock _ => True

variable {what : String}

theorem has_put {files : List StoredFile} {dir other : DateDir} {size : Nat} :
    Has (put files dir name size) other what ↔
      Has files other what ∨ (other = dir ∧ what = name) := by
  unfold Has put
  constructor
  · rintro ⟨file, hfile, hplace, hname⟩
    rcases List.mem_append.mp hfile with hold | hnew
    · exact .inl ⟨file, (List.mem_filter.mp hold).1, hplace, hname⟩
    · obtain rfl := List.mem_singleton.mp hnew
      exact .inr ⟨(Option.some.inj hplace).symm, hname.symm⟩
  · by_cases heq : other = dir ∧ what = name
    · rintro -
      obtain ⟨rfl, rfl⟩ := heq
      exact ⟨_, List.mem_append_right _ (List.mem_singleton_self _), rfl, rfl⟩
    · rintro (⟨file, hfile, hplace, rfl⟩ | h)
      · refine ⟨file, List.mem_append_left _ (List.mem_filter.mpr ⟨hfile, ?_⟩), hplace, rfl⟩
        exact decide_eq_true fun h => heq ⟨Option.some.inj (hplace.symm.trans h.1), h.2⟩
      · exact absurd h heq

@[simp] theorem take_files (s : State) (block : Option Nat) (info : Option (DateDir × String)) :
    (s.take block info).files = s.files := by
  cases block with
  | none => rfl
  | some block =>
      cases info with
      | none | some => rfl

variable {dateDirs : List DateDir}

theorem mem_sortByDate {dir : DateDir} :
    dir ∈ sortByDate dateDirs ↔ dir ∈ dateDirs :=
  (List.perm_insertionSort _ dateDirs).mem_iff

theorem has_written (call : CreateCall) {files : List StoredFile} {dir : DateDir} :
    Has (call.written files) dir name ↔ Has files dir name ∨
      dir = call.dateDir ∧ (name = call.snapshotName ∨ name = metaName call.snapshotName) := by
  unfold CreateCall.written CreateCall.copied
  rw [has_put, has_put]
  tauto

theorem has_enforceSizeLimit (limits : Limits) (faults : Faults)
    (files : List StoredFile) {dir : DateDir} (hdir : dir ∈ dateDirs) (name : String) :
    Has (enforceSizeLimit limits faults dateDirs files).2 dir name ↔
      Has files dir name ∧ (limits.maxSizeBytes < calculateTotalSize files →
        ¬ Removes limits.lowWater faults (sortByDate dateDirs) files dir name) := by
  unfold enforceSizeLimit
  split
  · rename_i hle
    simp [Nat.not_lt.mpr hle]
  · rename_i hgt
    rw [has_removeOldest limits.lowWater faults files (mem_sortByDate.mpr hdir)]
    simp [Nat.lt_of_not_le hgt]

theorem enforceSizeLimit_fst (limits : Limits) (faults : Faults) (dateDirs : List DateDir)
    (files : List StoredFile) :
    (enforceSizeLimit limits faults dateDirs files).1 = true ↔
      (limits.maxSizeBytes < calculateTotalSize files → ∀ dir ∈ dateDirs,
        Reached limits.lowWater (sortByDate dateDirs) files dir → faults dir = none) := by
  unfold enforceSizeLimit
  split
  · rename_i hle
    simp [Nat.not_lt.mpr hle]
  · rename_i hgt
    rw [removeOldest_fst]
    simp [Nat.lt_of_not_le hgt, mem_sortByDate]

variable {s t : State}

/-- A call that enforces the limit keeps the promise when it spares what is needed. -/
theorem lasting_enforces_iff (limits : Limits) {call : CreateCall} (block : Option Nat) (hends : call.ends = .enforces faults dateDirs)
    (hlists : ListsAll call s.files)
    (ht : t.files = (enforceSizeLimit limits faults dateDirs (call.written s.files)).2) :
    Lasting limits s (.createSnapshot block call) t ↔ Spares limits s call faults dateDirs := by
  have hlisted : ∀ {dir name}, Has (call.written s.files) dir name → dir ∈ dateDirs := by
    rintro dir name ⟨file, hfile, hplace, -⟩
    rw [ListsAll, hends] at hlists
    exact hlists file hfile dir hplace
  have hnew : ∀ {name}, (name = call.snapshotName ∨ name = metaName call.snapshotName) →
      Has (call.written s.files) call.dateDir name :=
    fun hname => (has_written call).mpr (.inr ⟨rfl, hname⟩)
  have hcreated : (createSnapshot limits call s.files).1 =
      if (enforceSizeLimit limits faults dateDirs (call.written s.files)).1 = true
        then some (call.dateDir, call.snapshotName) else none := by
    rw [createSnapshot, hends]
  -- what a finished enforcement leaves of the directory of the day
  have hday : (∀ dir ∈ dateDirs, Reached limits.lowWater (sortByDate dateDirs)
        (call.written s.files) dir → faults dir = none) → ∀ name,
      (Removes limits.lowWater faults (sortByDate dateDirs) (call.written s.files) call.dateDir name ↔
        Reached limits.lowWater (sortByDate dateDirs) (call.written s.files) call.dateDir) := by
    intro hall name
    refine ⟨And.left, fun hreached => ⟨hreached, fun other hother => ?_, fun keeps hkeeps => ?_⟩⟩
    · refine hall other (mem_sortByDate.mp ((List.takeWhile_sublist _).subset hother)) ?_
      exact reached_of_before hother hreached
    · rw [hall call.dateDir (hlisted (hnew (.inl rfl))) hreached] at hkeeps
      cases hkeeps
  have hkept : ∀ {dir name}, Has (call.written s.files) dir name →
      (Has t.files dir name ↔ (limits.maxSizeBytes < calculateTotalSize (call.written s.files) →
        ¬ Removes limits.lowWater faults (sortByDate dateDirs) (call.written s.files) dir name)) := by
    intro dir name hwritten
    rw [ht, has_enforceSizeLimit limits faults _ (hlisted hwritten)]
    exact and_iff_right hwritten
  have hold : ∀ {dir name}, Has s.files dir name → Has (call.written s.files) dir name :=
    fun h => (has_written call).mpr (.inl h)
  constructor
  · rintro ⟨hreturned, htaken⟩ hexceeds
    refine ⟨fun hall hreached => ?_, fun snapshot hmem hhas => ?_⟩
    · have hdone := (enforceSizeLimit_fst limits faults dateDirs _).mpr fun _ => hall
      rw [if_pos hdone] at hcreated
      have hhas := (hreturned _ hcreated).1
      exact (hkept (hnew (.inl rfl))).mp hhas hexceeds ((hday hall _).mpr hreached)
    · exact (hkept (hold hhas)).mp (htaken snapshot hmem hhas) hexceeds
  · intro h
    refine ⟨fun info hinfo => ?_, fun snapshot hmem hhas => ?_⟩
    · rw [hcreated] at hinfo
      split at hinfo
      · rename_i hdone
        have hall := (enforceSizeLimit_fst limits faults dateDirs _).mp hdone
        cases hinfo
        have hspared : ∀ {name}, (name = call.snapshotName ∨ name = metaName call.snapshotName) →
            Has t.files call.dateDir name := by
          intro name hname
          refine (hkept (hnew hname)).mpr fun hexceeds hremoves => ?_
          exact (h hexceeds).1 (hall hexceeds) ((hday (hall hexceeds) name).mp hremoves)
        exact ⟨hspared (.inl rfl), hspared (.inr rfl)⟩
      · cases hinfo
    · exact (hkept (hold hhas)).mpr fun hexceeds => (h hexceeds).2 snapshot hmem hhas

theorem lasting_of_raises {limits : Limits} {block : Option Nat} {call : CreateCall}
    (hnone : (createSnapshot limits call s.files).1 = none)
    (hkept : ∀ dir name, Has s.files dir name → Has t.files dir name) :
    Lasting limits s (.createSnapshot block call) t := by
  refine ⟨fun info hinfo => ?_, fun snapshot _ => hkept _ _⟩
  rw [hnone] at hinfo
  cases hinfo

theorem has_of_put {files : List StoredFile} {dir other : DateDir} {size : Nat}
    (h : Has files other what) : Has (put files dir name size) other what :=
  has_put.mpr (.inl h)

theorem lasting_step_iff {limits : Limits} {a : Action}
    (hstep : step limits s a = some t) : Lasting limits s a t ↔ Within limits s a t := by
  cases a with
  | exitBlock block => exact Iff.rfl
  | createSnapshot block call =>
      simp only [step, Option.ite_none_right_eq_some, Option.some.injEq] at hstep
      obtain ⟨hlists, rfl⟩ := hstep
      have hraises : ∀ files, (createSnapshot limits call s.files) = (none, files) →
          (∀ dir name, Has s.files dir name → Has files dir name) →
          Lasting limits s (.createSnapshot block call)
            ({ s with files := (createSnapshot limits call s.files).2 }.take block
              (createSnapshot limits call s.files).1) := by
        intro files heq hkept
        refine lasting_of_raises (by rw [heq]) ?_
        rw [take_files, heq]
        exact hkept
      simp only [Within]
      cases hends : call.ends with
      | enforces faults dateDirs =>
          refine lasting_enforces_iff limits block hends hlists ?_
          rw [take_files, createSnapshot, hends]
      | notWritten =>
          exact iff_of_true (hraises s.files (by rw [createSnapshot, hends]) fun _ _ => id) trivial
      | copyFails written =>
          refine iff_of_true ?_ trivial
          cases written with
          | none => exact hraises s.files (by rw [createSnapshot, hends]) fun _ _ => id
          | some size => exact hraises _ (by rw [createSnapshot, hends]) fun _ _ => has_of_put
      | metaFails written =>
          refine iff_of_true ?_ trivial
          cases written with
          | none =>
              exact hraises (call.copied s.files) (by rw [createSnapshot, hends])
                fun _ _ => has_of_put
          | some size =>
              exact hraises (put (call.copied s.files) _ _ size) (by rw [createSnapshot, hends])
                fun _ _ h => has_of_put (has_of_put h)
      | sizeFails =>
          refine iff_of_true ?_ trivial
          exact hraises (call.written s.files) (by rw [createSnapshot, hends])
            fun _ _ h => has_of_put (has_of_put h)

/-- **Snapshots are not lost while needed.**  In every run of `create_snapshot` calls and exits of
blocks: the files of each snapshot that is returned are there, and the limit takes no
snapshot of a block that has not exited, if and only if every enforcement spares the directory
of the day and those snapshots. -/
theorem lasting_iff (limits : Limits) (s : State) (actions : List Action) :
    Runs.Always (step limits) (Lasting limits) s actions ↔
      Runs.Always (step limits) (Within limits) s actions :=
  Runs.always_congr (fun _ _ _ => lasting_step_iff) s actions

/-- A file of two megabytes under a limit of one. -/
def oversized : CreateCall where
  day := 20000
  snapshotName := "0123456789abcdef_Skyrim.esm"
  fileSize := 2097152
  metaSize := 80
  ends := .enforces (fun _ => none) [.ofDay 20000]

/-- The snapshot that is returned has been removed with the directory of its day. -/
theorem lasting_counterexample :
    ¬ ∀ (limits : Limits) (s : State) (actions : List Action),
      Runs.Always (step limits) (Lasting limits) s actions := by
  intro h
  have hat := h ⟨1048576, 943718⟩ ⟨[], []⟩ [.createSnapshot none oversized] ⟨[], []⟩ (by decide)
  have hreturned := hat.1.1 (.ofDay 20000, oversized.snapshotName) (by decide)
  exact absurd hreturned.1 (by decide)

end SkyClaw.Db.SnapshotLimit
