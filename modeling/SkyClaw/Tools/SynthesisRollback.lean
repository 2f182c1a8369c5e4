import SkyClaw.Db.SnapshotTransactionLock
import SkyClaw.Tools.SnapshotPipelines

/-!
# The rollback of the Synthesis plugin

The Synthesis service over real files: `__aenter__` takes a snapshot of the plugin,
`__aexit__` restores it, the tool writes what it likes.  What the environment
answers is a record, `SynthesisAnswers`, and other runs may change files while this
one waits for the lock and after it has released it.

`FailureUndone` is the promise for a run that fails without being cancelled, and
`failureUndone_iff` says for which answers the service keeps it.  The plugin that
the tool created stays, and so does what it wrote when the commit, which comes
after the lock, fails.
-/

namespace SkyClaw.Tools

open Db (DbOutcome)
open Db.Journal
open Db.Snapshots (Files Disk SnapshotInfo SnapshotEnd Raised RestoreFault takeSnapshots
  applyChanges rollback)

/-- How a call without a value ends. -/
inductive CallEnd
  | returns
  | raises (message : String)
  | cancelled

def CallEnd.reply : CallEnd → Except Exc Unit
  | .returns => .ok ()
  | .raises message => .error (.other message)
  | .cancelled => .error .cancelled

/-- How `acquire_lock` ends. -/
inductive AcquireEnd
  | granted
  | contention (message : String)
  | raises (message : String)
  | cancelled

/-- What the runner's calls raise; `LockAcquisitionError` is the lock manager's. -/
inductive ToolError
  | domain (message : String)
  | timeout
  | other (message : String)
  | cancelled

def ToolError.exc : ToolError → Exc
  | .domain message => .domain message
  | .timeout => .timeout
  | .other message => .other message
  | .cancelled => .cancelled

/-- What the environment answers to one run. -/
structure SynthesisAnswers (Content : Type) where
  ensureRunner : Except Exc (List String)
  publishStarted : CallEnd
  publishCompleted : CallEnd
  /-- What other runs change while this one waits for the lock. -/
  othersWaiting : List (String × Option Content)
  acquire : AcquireEnd
  snapshotEnd : Nat → SnapshotEnd
  /-- The message of a snapshot that raises. -/
  snapshotError : String
  /-- What changes while the tool runs. -/
  changes : List (String × Option Content)
  runPipeline : Except ToolError SynthesisResult
  valid : Except ToolError Bool
  /-- Snapshots that size limits remove while the tool runs. -/
  removedMeanwhile : Nat → Bool
  restoreEnd : Nat → Option (RestoreFault Content × Raised)
  releaseCancelled : Bool
  /-- What other runs change once this one has released the lock. -/
  othersAfter : List (String × Option Content)
  beginEnd : JournalEnd
  commitEnd : JournalEnd
  markEnd : JournalEnd

/-- The files and the snapshots of the lock.  The flags are history: `__aexit__` had
a snapshot and restored every one; another run changed the plugin after this one
had released the lock. -/
structure PluginWorld (Content : Type) where
  disk : Disk Content
  snapshots : List SnapshotInfo
  restored : Bool
  changedAfterRelease : Bool

variable {Content : Type}

/-- Changes to the files of a world. -/
def PluginWorld.change (world : PluginWorld Content)
    (changes : List (String × Option Content)) : PluginWorld Content :=
  { world with disk := { world.disk with files := applyChanges world.disk.files changes } }

/-- The release of the lock, and what other runs change from then on. -/
def PluginWorld.release (world : PluginWorld Content)
    (changes : List (String × Option Content)) : PluginWorld Content :=
  { world.change changes with
    changedAfterRelease := changes.any fun change => change.1 = targetEsp }

section

variable (answers : SynthesisAnswers Content)

/-- `__aenter__`. -/
def SynthesisAnswers.enter (hash : Content → String)
    (targetFiles : List String) : Proc (PluginWorld Content) Exc Unit := fun world =>
  let waited := world.change answers.othersWaiting
  match answers.acquire with
  | .contention message => (.error (.lockAcquisition message), waited)
  | .raises message => (.error (.other message), waited)
  | .cancelled => (.error .cancelled, waited)
  | .granted =>
      match takeSnapshots hash answers.snapshotEnd 0 targetFiles waited.disk with
      | (.ok snapshots, disk) => (.ok (), { waited with disk := disk, snapshots := snapshots })
      | (.error .cancelled, disk) => (.error .cancelled, { waited with disk := disk })
      | (.error .exception, disk) =>
          -- The lock is released before the exception goes on.
          (.error (if answers.releaseCancelled then .cancelled
              else .other answers.snapshotError),
            { waited with disk := disk }.release answers.othersAfter)

/-- A restore of the loop in `__aexit__` is cancelled. -/
def SynthesisAnswers.restoreCancelled (snapshots : List SnapshotInfo) : Bool :=
  (List.range snapshots.length).any fun i => (answers.restoreEnd i).any (·.2 = .cancelled)

/-- The rollback loop of `__aexit__`. -/
def SynthesisAnswers.restoreAll (hash : Content → String)
    (world : PluginWorld Content) : PluginWorld Content :=
  let stored := fun id =>
    if answers.removedMeanwhile id then none else world.disk.snapshots id
  let restoring := rollback hash answers.restoreEnd stored 0 world.snapshots.reverse
    world.disk.files
  { world with
    disk := { world.disk with files := restoring.2 }
    restored := restoring.1 && !world.snapshots.isEmpty }

/-- `__aexit__`. -/
def SynthesisAnswers.exit (hash : Content → String)
    (exc : Option Exc) : Proc (PluginWorld Content) Exc Unit := fun world =>
  match exc with
  | none =>
      (if answers.releaseCancelled then .error .cancelled else .ok (),
        world.release answers.othersAfter)
  | some _ =>
      (if answers.restoreCancelled world.snapshots || answers.releaseCancelled then
          .error .cancelled
        else .ok (),
        (answers.restoreAll hash world).release answers.othersAfter)

/-- The service over these answers. -/
def SynthesisAnswers.service (hash : Content → String) :
    SynthesisPipelineService (PluginWorld Content) where
  publishStarted := .reply answers.publishStarted.reply
  publishCompleted := .reply answers.publishCompleted.reply
  enter := answers.enter hash
  exit := answers.exit hash
  beginEnd := answers.beginEnd
  commitEnd := answers.commitEnd
  markEnd := answers.markEnd
  ensureRunner := .reply answers.ensureRunner
  targetExists world := (world.disk.files targetEsp).isSome
  runPipeline _ := do
    .modify fun world => world.change answers.changes
    .reply (answers.runPipeline.mapError ToolError.exc)
  validateSynthesisEsp _ := .reply (answers.valid.mapError ToolError.exc)

/-- The start of a run on these files. -/
def PluginWorld.initial (disk : Disk Content) : PluginWorld Content :=
  { disk := disk, snapshots := [], restored := false, changedAfterRelease := false }

/-! ## The promise -/

def PipelineEvent.isCompleted : PipelineEvent → Bool
  | .started => false
  | .completed _ _ => true

/-- The plugin is as on entry, unless another run changed it after the release. -/
def PluginWorld.Keeps (world : PluginWorld Content) (entry : Files Content) : Prop :=
  world.changedAfterRelease = false → world.disk.files targetEsp = entry targetEsp

/-- A run that fails otherwise than by a cancellation returns a report without
success; the plugin is as it was, unless another run changed it afterwards; the
started event is followed by exactly one completed event, and that says
`rolled_back` only if the snapshot was restored. -/
def FailureUndone (entry : Files Content)
    (result : Except Exc Report × Run (PluginWorld Content)) : Prop :=
  match result.1 with
  | .error .cancelled => True
  | .error _ => False
  | .ok report => report.success = false →
      result.2.world.Keeps entry ∧
      (∀ before after, result.2.events = before ++ .started :: after →
        after.countP PipelineEvent.isCompleted = 1) ∧
      ∀ success, .completed success true ∈ result.2.events → result.2.world.restored = true

/-! ## When it is kept -/

/-- The completed event is published in a state that meets `P`, or its publication
is cancelled. -/
def CallEnd.Delivers (ending : CallEnd) (P : Prop) : Prop :=
  match ending with
  | .returns => P
  | .raises _ => False
  | .cancelled => True

def JournalEnd.isCancelled : JournalEnd → Bool
  | .cancelled _ => true
  | .done _ => false

/-- The files when the lock is granted. -/
def SynthesisAnswers.waited (entry : Files Content) :
    Files Content :=
  applyChanges entry answers.othersWaiting

/-- With these files at the release the plugin is as before the call, unless
another run changes it afterwards. -/
def SynthesisAnswers.Keeps (entry files : Files Content) :
    Prop :=
  (∀ change ∈ answers.othersAfter, change.1 ≠ targetEsp) → files targetEsp = entry targetEsp

/-- The lock takes a snapshot of the plugin: it was there before the wait, which
makes it a target, and after it. -/
def SynthesisAnswers.takesSnapshot (entry : Files Content) :
    Bool :=
  (entry targetEsp).isSome && (answers.waited entry targetEsp).isSome

/-- The exception of the snapshot, if it is taken and raises. -/
def SynthesisAnswers.snapshotRaise (entry : Files Content) :
    Option Raised :=
  match answers.takesSnapshot entry, answers.snapshotEnd 0 with
  | true, .raises exc => some exc
  | _, _ => none

/-- The snapshot with this number is still there when it is restored, and the
restore does not fail. -/
def SynthesisAnswers.Restorable (number : Nat) : Prop :=
  (∀ removed, answers.snapshotEnd 0 = .created removed → removed number = false) ∧
    answers.removedMeanwhile number = false ∧ answers.restoreEnd 0 = none

/-- The block is undone when it raises after these changes.  A plugin that was
absent has to be absent still; one that was there has to be as it was at the
grant, with a snapshot that can be restored. -/
def SynthesisAnswers.Undone (disk : Disk Content)
    (changes : List (String × Option Content)) : Prop :=
  match disk.files targetEsp with
  | none => answers.Keeps disk.files (applyChanges (answers.waited disk.files) changes)
  | some _ =>
      (answers.waited disk.files targetEsp).isSome = true ∧
        answers.Restorable disk.nextSnapshot ∧
        answers.Keeps disk.files (answers.waited disk.files)

/-- `__aexit__` is cancelled after a body that raised. -/
def SynthesisAnswers.exitCancelled (entry : Files Content) :
    Bool :=
  (answers.takesSnapshot entry && (answers.restoreEnd 0).any (·.2 = .cancelled)) ||
    answers.releaseCancelled

/-- How the tool and the validation end. -/
def SynthesisAnswers.toolEnd : Except ToolError Report :=
  match answers.runPipeline with
  | .error e => .error e
  | .ok result =>
      match result.success, result.outputEsp, answers.valid with
      | true, none, _ | true, some _, .ok true => .ok { success := true, errors := result.errors }
      | true, some _, .ok false => .error (.domain "ESP validation failed: corrupted or invalid")
      | true, some _, .error e => .error e
      | false, _, _ =>
          .error (.domain
            (if result.errors.isEmpty then "Pipeline failed" else "; ".intercalate result.errors))

/-- The condition once the transaction was begun.  After a failure of the tool the
block has to be undone, and an `UPDATE` that marks the transaction must not raise
out of the clause for the service's own errors; after a failure of the commit,
where nothing is undone, the tool must have left the plugin as it was. -/
def SynthesisAnswers.KeepsBegun (disk : Disk Content) :
    Prop :=
  match answers.toolEnd with
  | .error .cancelled => True
  | .error (.domain _) =>
      answers.exitCancelled disk.files = true ∨
        match answers.markEnd with
        | .cancelled _ => True
        | .done .ok => answers.publishCompleted.Delivers (answers.Undone disk answers.changes)
        | .done _ => False
  | .error _ =>
      answers.exitCancelled disk.files = true ∨ answers.markEnd.isCancelled = true ∨
        answers.publishCompleted.Delivers (answers.Undone disk answers.changes)
  | .ok _ =>
      answers.releaseCancelled = true ∨
        match answers.commitEnd with
        | .cancelled _ => True
        | .done .ok => answers.publishCompleted.Delivers True
        | .done _ =>
            answers.markEnd.isCancelled = true ∨
              answers.publishCompleted.Delivers (answers.Keeps disk.files
                (applyChanges (answers.waited disk.files) answers.changes))

/-- The condition from the lock on. -/
def SynthesisAnswers.KeepsLocked (disk : Disk Content) :
    Prop :=
  match answers.acquire, answers.snapshotRaise disk.files, answers.beginEnd with
  | .cancelled, _, _ => True
  | .contention _, _, _ | .raises _, _, _ =>
      answers.publishCompleted.Delivers
        (answers.waited disk.files targetEsp = disk.files targetEsp)
  | .granted, some .cancelled, _ => True
  | .granted, some .exception, _ =>
      answers.releaseCancelled = true ∨
        answers.publishCompleted.Delivers (answers.Keeps disk.files (answers.waited disk.files))
  | .granted, none, .cancelled _ => True
  | .granted, none, .done .ok => answers.KeepsBegun disk
  | .granted, none, .done _ =>
      answers.exitCancelled disk.files = true ∨
        answers.publishCompleted.Delivers (answers.Undone disk [])

/-- The condition from the start of a run. -/
def SynthesisAnswers.KeepsPromise
    (patcherIds : Option (List String)) (disk : Disk Content) : Prop :=
  match answers.ensureRunner with
  | .error (.domain _) | .error .cancelled => True
  | .error _ => False
  | .ok enabled =>
      match patcherIds.getD enabled, answers.publishStarted with
      | [], _ => True
      | _ :: _, .cancelled => True
      | _ :: _, .raises _ => False
      | _ :: _, .returns => answers.KeepsLocked disk

end

/-! ## The end of a run -/

variable {changes : List (String × Option Content)}

theorem applyChanges_of_ne {path : String}
    (files : Files Content) (h : ∀ change ∈ changes, change.1 ≠ path) :
    applyChanges files changes path = files path := by
  induction changes generalizing files with
  | nil => rfl
  | cons change rest ih =>
      have hrest := ih (Function.update files change.1 change.2)
        fun c hc => h c (List.mem_cons_of_mem _ hc)
      have hne : path ≠ change.1 := Ne.symm (h change List.mem_cons_self)
      calc applyChanges files (change :: rest) path
          = applyChanges (Function.update files change.1 change.2) rest path := rfl
        _ = Function.update files change.1 change.2 path := hrest
        _ = files path := Function.update_of_ne hne _ _

theorem keeps_release_iff (answers : SynthesisAnswers Content) (entry : Files Content)
    (world : PluginWorld Content) :
    (world.release answers.othersAfter).Keeps entry ↔ answers.Keeps entry world.disk.files := by
  have halone : (world.release answers.othersAfter).changedAfterRelease = false ↔
      ∀ change ∈ answers.othersAfter, change.1 ≠ targetEsp := by
    simp [PluginWorld.release]
  unfold PluginWorld.Keeps SynthesisAnswers.Keeps
  rw [halone]
  refine forall_congr' fun h => ?_
  rw [show (world.release answers.othersAfter).disk.files targetEsp = world.disk.files targetEsp
    from applyChanges_of_ne _ h]

/-- A world at the end of a failed run: the plugin is as before the call, and what
the event says about the rollback is true. -/
def PluginWorld.Fine (world : PluginWorld Content) (entry : Files Content) (rolledBack : Bool) :
    Prop :=
  world.Keeps entry ∧ (rolledBack = true → world.restored = true)

variable {answers : SynthesisAnswers Content} {hash : Content → String} {entry : Files Content}
  {targetFiles : List String} {t : Run (PluginWorld Content)}

open Proc

/-- **Spec of the last step** for a report of failure. -/
theorem failureUndone_finish_iff (message : String) (hevents : t.events = [.started]) :
    FailureUndone entry
        (finish (.reply answers.publishCompleted.reply) (errorDict message) t) ↔
      answers.publishCompleted.Delivers (t.world.Fine entry t.rolledBack) := by
  simp only [finish, publish, onWorld, bind_apply, focus_apply, reply_apply]
  cases answers.publishCompleted with
  | raises | cancelled => exact Iff.rfl
  | returns =>
      simp only [CallEnd.reply, modify_apply, pure_apply, hevents]
      constructor
      · intro h
        obtain ⟨hkept, _, hrestored⟩ := h rfl
        refine ⟨hkept, fun hrolledBack => hrestored false ?_⟩
        rw [← hrolledBack]
        simp [errorDict]
      · rintro ⟨hkept, hrestored⟩ _
        refine ⟨hkept, ?_, ?_⟩
        · intro before after hsplit
          cases before with
          | nil =>
              cases hsplit
              rfl
          | cons first rest =>
              have hrest := (List.cons.inj hsplit).2
              cases rest with
              | nil => cases hrest
              | cons second tail => simp at hrest
        · intro success hmem
          have hmem' : PipelineEvent.completed success true ∈
              [.started, .completed (errorDict message).success t.rolledBack] := hmem
          simp only [List.mem_cons, List.not_mem_nil, or_false, reduceCtorEq, false_or,
            PipelineEvent.completed.injEq] at hmem'
          exact hrestored hmem'.2.symm

theorem failureUndone_finish_success {errors : List String} :
    FailureUndone entry
        (finish (.reply answers.publishCompleted.reply) { success := true, errors := errors } t) ↔
      answers.publishCompleted.Delivers True := by
  simp only [finish, publish, onWorld, bind_apply, focus_apply, reply_apply]
  cases answers.publishCompleted with
  | raises | cancelled => exact Iff.rfl
  | returns =>
      refine iff_of_true (fun hfailed => ?_) trivial
      cases hfailed

variable {id : Nat}

theorem markTransactionRolledBack_frame (ending : JournalEnd) {s : Run (PluginWorld Content)}
    (htx : s.txId = some id) :
    ∃ u, markTransactionRolledBack ending s = (ending.reply "Failed to mark transaction", u) ∧
      u.world = s.world ∧ u.events = s.events ∧ u.rolledBack = s.rolledBack := by
  unfold markTransactionRolledBack
  simp only [htx]
  exact ⟨_, rfl, rfl, rfl, rfl⟩

theorem safeMarkRolledBack_frame (ending : JournalEnd) (s : Run (PluginWorld Content)) :
    ∃ u, safeMarkRolledBack ending s =
        (if s.txId.isSome && ending.isCancelled then .error .cancelled else .ok (), u) ∧
      u.world = s.world ∧ u.events = s.events ∧ u.rolledBack = s.rolledBack := by
  cases htx : s.txId with
  | none => exact ⟨s, safeMarkRolledBack_unknown ending htx, rfl, rfl, rfl⟩
  | some id =>
      obtain ⟨u, hcall, hframe⟩ := markTransactionRolledBack_frame ending htx
      refine ⟨u, ?_, hframe⟩
      unfold safeMarkRolledBack
      cases ending with
      | cancelled ran => rw [handle_of_error hcall]; rfl
      | done outcome =>
          cases outcome with
          | ok => rw [handle_of_ok hcall]; rfl
          | executeError | commitError => rw [handle_of_error hcall]; rfl

theorem beginTransaction_frame (description : String) (ending : JournalEnd)
    (s : Run (PluginWorld Content)) :
    ∃ u, beginTransaction description ending s =
        (ending.reply "Failed to begin transaction", u) ∧
      u.world = s.world ∧ u.events = s.events ∧ u.inLockContext = s.inLockContext ∧
      (ending ≠ .done .ok → u.txId = s.txId) := by
  cases ending with
  | cancelled ran => exact ⟨_, rfl, rfl, rfl, rfl, fun _ => rfl⟩
  | done outcome =>
      cases outcome with
      | ok => exact ⟨_, rfl, rfl, rfl, rfl, fun h => absurd rfl h⟩
      | executeError | commitError => exact ⟨_, rfl, rfl, rfl, rfl, fun _ => rfl⟩

theorem commitTransaction_frame (ending : JournalEnd) (s : Run (PluginWorld Content)) :
    (commitTransaction ending s).2.world = s.world ∧
      (commitTransaction ending s).2.events = s.events ∧
      (commitTransaction ending s).2.txId = s.txId ∧
      (commitTransaction ending s).2.inLockContext = s.inLockContext := by
  unfold commitTransaction
  split
  · exact ⟨rfl, rfl, rfl, rfl⟩
  · split
    · split <;> exact ⟨rfl, rfl, rfl, rfl⟩
    · exact ⟨rfl, rfl, rfl, rfl⟩

/-- The clauses and the last step after the `try` part raised `exc`. -/
abbrev SynthesisAnswers.ending (answers : SynthesisAnswers Content) (hash : Content → String)
    (targetFiles : List String) (exc : Exc) : Proc (Run (PluginWorld Content)) Exc Report := do
  let report ← recover (answers.service hash).toCollaborators targetFiles exc
  finish (answers.service hash).publishCompleted report

/-- **Spec of the clause for a lock that is not acquired.** -/
theorem failureUndone_lockAcquisition_iff (message : String) (hevents : t.events = [.started])
    (hrolledBack : t.rolledBack = false) :
    FailureUndone entry (answers.ending hash targetFiles (.lockAcquisition message) t) ↔
      answers.publishCompleted.Delivers (t.world.Keeps entry) := by
  have hfinish := @failureUndone_finish_iff Content answers entry t ("Lock contention: " ++ message)
    hevents
  have hfine : t.world.Fine entry t.rolledBack ↔ t.world.Keeps entry :=
    ⟨fun h => h.1, fun h => ⟨h, fun htrue => by rw [hrolledBack] at htrue; cases htrue⟩⟩
  rw [hfine] at hfinish
  exact hfinish

/-- An exception that the last clause catches. -/
def Exc.isUnexpected : Exc → Bool
  | .timeout | .other _ => true
  | .domain _ | .lockAcquisition _ | .cancelled => false

/-- **Spec of the last clause**, where the transaction is marked under a guard. -/
theorem failureUndone_unexpected_iff {exc : Exc} (hexc : exc.isUnexpected = true)
    (hevents : t.events = [.started]) :
    FailureUndone entry (answers.ending hash targetFiles exc t) ↔
      (t.txId.isSome = true ∧ answers.markEnd.isCancelled = true) ∨
        answers.publishCompleted.Delivers
          (t.world.Fine entry (t.inLockContext && !targetFiles.isEmpty)) := by
  obtain ⟨u, hcall, hworld, huevents, hrolledBack⟩ := safeMarkRolledBack_frame answers.markEnd
    { t with rolledBack := t.inLockContext && !targetFiles.isEmpty }
  have hrecover : recover (answers.service hash).toCollaborators targetFiles exc t =
      (if t.txId.isSome && answers.markEnd.isCancelled then .error .cancelled
        else .ok (errorDict ("Unexpected error: " ++ exc.message)), u) := by
    cases exc with
    | domain | lockAcquisition | cancelled => cases hexc
    | timeout | other =>
        simp only [recover, setRolledBack, bind_apply, modify_apply]
        rw [show (answers.service hash).markEnd = answers.markEnd from rfl, hcall]
        cases t.txId.isSome && answers.markEnd.isCancelled <;> rfl
  have hfinish := @failureUndone_finish_iff Content answers entry u
    ("Unexpected error: " ++ exc.message) (huevents.trans hevents)
  rw [hworld, hrolledBack] at hfinish
  rw [← Bool.and_eq_true]
  cases hcancelled : t.txId.isSome && answers.markEnd.isCancelled with
  | true =>
      rw [hcancelled] at hrecover
      rw [SynthesisAnswers.ending, bind_of_error hrecover]
      exact iff_of_true trivial (.inl rfl)
  | false =>
      rw [hcancelled] at hrecover
      rw [SynthesisAnswers.ending, bind_of_ok hrecover]
      simp only [Bool.false_eq_true, false_or]
      exact hfinish

/-- **Spec of the clause for the service's own errors**, where marking the
transaction is not guarded. -/
theorem failureUndone_domain_iff (message : String) (hevents : t.events = [.started])
    (htx : t.txId = some id) :
    FailureUndone entry (answers.ending hash targetFiles (.domain message) t) ↔
      match answers.markEnd with
      | .cancelled _ => True
      | .done .ok =>
          answers.publishCompleted.Delivers (t.world.Fine entry (!targetFiles.isEmpty))
      | .done _ => False := by
  obtain ⟨u, hcall, hworld, huevents, hrolledBack⟩ :=
    markTransactionRolledBack_frame answers.markEnd
      (s := { t with rolledBack := !targetFiles.isEmpty }) htx
  have hrecover : recover (answers.service hash).toCollaborators targetFiles (.domain message) t =
      ((answers.markEnd.reply "Failed to mark transaction").map fun _ => errorDict message,
        u) := by
    simp only [recover, setRolledBack, bind_apply, modify_apply]
    rw [show (answers.service hash).markEnd = answers.markEnd from rfl, hcall]
    cases answers.markEnd.reply "Failed to mark transaction" <;> rfl
  have hfinish := @failureUndone_finish_iff Content answers entry u message
    (huevents.trans hevents)
  rw [hworld, hrolledBack] at hfinish
  rw [SynthesisAnswers.ending]
  cases hmark : answers.markEnd with
  | cancelled ran =>
      rw [hmark] at hrecover
      rw [bind_of_error hrecover]
      exact Iff.rfl
  | done outcome =>
      rw [hmark] at hrecover
      cases outcome with
      | ok =>
          rw [bind_of_ok hrecover]
          exact hfinish
      | executeError | commitError =>
          rw [bind_of_error hrecover]
          exact Iff.rfl

/-! ## The lock around the plugin -/

theorem targetFiles_initial (disk : Disk Content) :
    (answers.service hash).targetFiles true (.initial disk) =
      if (disk.files targetEsp).isSome then [targetEsp] else [] := rfl

/-- The world once the lock is entered: other runs have changed what they liked,
and the plugin has a snapshot if it was there before and after that. -/
structure Entered (answers : SynthesisAnswers Content) (hash : Content → String)
    (disk : Disk Content) (world : PluginWorld Content) : Prop where
  files : world.disk.files = answers.waited disk.files
  restored : world.restored = false
  untaken : answers.takesSnapshot disk.files = false → world.snapshots = []
  taken : answers.takesSnapshot disk.files = true → ∃ removed content info,
    answers.snapshotEnd 0 = .created removed ∧
    answers.waited disk.files targetEsp = some content ∧
    world.snapshots = [info] ∧ info.originalPath = targetEsp ∧
    info.snapshotPath = disk.nextSnapshot ∧
    world.disk.snapshots disk.nextSnapshot =
      if removed disk.nextSnapshot then none
      else some { content := content, metaChecksum := some (hash content) }

variable {disk : Disk Content}

open Db.Snapshots

open PluginWorld

/-- **Spec of `__aenter__`** after the grant. -/
theorem enter_spec (hacquire : answers.acquire = .granted) :
    match answers.snapshotRaise disk.files with
    | none => ∃ world, answers.enter hash
        ((answers.service hash).targetFiles true (.initial disk)) (.initial disk) =
          (.ok (), world) ∧ Entered answers hash disk world
    | some .cancelled => ∃ world, answers.enter hash
        ((answers.service hash).targetFiles true (.initial disk)) (.initial disk) =
          (.error .cancelled, world)
    | some .exception => ∃ world : PluginWorld Content, answers.enter hash
        ((answers.service hash).targetFiles true (.initial disk)) (.initial disk) =
          (.error (if answers.releaseCancelled then .cancelled
            else .other answers.snapshotError), world.release answers.othersAfter) ∧
        world.disk.files = answers.waited disk.files ∧ world.restored = false := by
  have hwaited : ((initial disk).change answers.othersWaiting).disk.files =
      answers.waited disk.files := rfl
  rw [targetFiles_initial]
  unfold SynthesisAnswers.enter SynthesisAnswers.snapshotRaise
  simp only [hacquire]
  cases htakes : answers.takesSnapshot disk.files with
  | false =>
      -- No target, or a target that is gone: no snapshot is taken.
      have htaken : takeSnapshots hash answers.snapshotEnd 0
          (if (disk.files targetEsp).isSome then [targetEsp] else [])
          ((initial disk).change answers.othersWaiting).disk =
            (.ok [], ((initial disk).change answers.othersWaiting).disk) := by
        cases hentry : disk.files targetEsp with
        | none => rfl
        | some old =>
            have hgone : answers.waited disk.files targetEsp = none := by
              rw [SynthesisAnswers.takesSnapshot, hentry, Option.isSome_some, Bool.true_and] at htakes
              simpa using htakes
            simp only [Option.isSome_some, if_true, takeSnapshots, hwaited, hgone]
      simp only [htaken]
      exact ⟨_, rfl, rfl, rfl, fun _ => rfl, fun h => by rw [htakes] at h; cases h⟩
  | true =>
      rw [SynthesisAnswers.takesSnapshot, Bool.and_eq_true] at htakes
      obtain ⟨hentry, hthere⟩ := htakes
      obtain ⟨content, hcontent⟩ := Option.isSome_iff_exists.mp hthere
      rw [if_pos hentry]
      cases hend : answers.snapshotEnd 0 with
      | raises exc =>
          have htaken : takeSnapshots hash answers.snapshotEnd 0 [targetEsp]
              ((initial disk).change answers.othersWaiting).disk =
                (.error exc, ((initial disk).change answers.othersWaiting).disk) := by
            simp only [takeSnapshots, hwaited, hcontent, hend]
          simp only [htaken]
          cases exc with
          | cancelled => exact ⟨_, rfl⟩
          | exception => exact ⟨_, rfl, rfl, rfl⟩
      | created removed =>
          simp only [takeSnapshots, hwaited, hcontent, hend, createSnapshot]
          refine ⟨_, rfl, rfl, rfl, fun h => ?_, fun _ => ?_⟩
          · rw [SynthesisAnswers.takesSnapshot, hentry, hthere] at h
            cases h
          · refine ⟨removed, content, _, hend, hcontent, rfl, rfl, rfl, ?_⟩
            simp only [change, initial, Function.update_self]

/-- **Spec of the restore** of the one snapshot: it succeeds exactly if the snapshot
is restorable, and then the plugin is as it was at the grant. -/
theorem restore_plugin_iff {number : Nat} {removed : Nat → Bool} {content : Content}
    {snapshot : Option (Db.Snapshots.SnapshotFile Content)} (files : Files Content)
    (hend : answers.snapshotEnd 0 = .created removed)
    (hsnapshot : snapshot = if answers.removedMeanwhile number || removed number then none
      else some { content := content, metaChecksum := some (hash content) }) :
    ((restoreSnapshot hash false ((answers.restoreEnd 0).map (·.1)) snapshot files
        targetEsp).1 = true ↔ answers.Restorable number) ∧
      ((restoreSnapshot hash false ((answers.restoreEnd 0).map (·.1)) snapshot files
          targetEsp).1 = true →
        (restoreSnapshot hash false ((answers.restoreEnd 0).map (·.1)) snapshot files
          targetEsp).2 targetEsp = some content) := by
  have hrestorable : answers.Restorable number ↔
      removed number = false ∧
        answers.removedMeanwhile number = false ∧ answers.restoreEnd 0 = none := by
    unfold SynthesisAnswers.Restorable
    rw [hend]
    constructor
    · intro ⟨hremoved, hrest⟩
      exact ⟨hremoved removed rfl, hrest⟩
    · intro ⟨hremoved, hrest⟩
      refine ⟨fun removed' heq => ?_, hrest⟩
      cases heq
      exact hremoved
  constructor
  · rw [hrestorable, hsnapshot]
    cases hmeanwhile : answers.removedMeanwhile number <;>
      cases hremoved : removed number <;>
      cases hrestore : answers.restoreEnd 0 <;>
      simp [restoreSnapshot]
  · intro htrue
    obtain ⟨file, hfile, hfiles⟩ := restoreSnapshot_eq_true htrue
    rw [hsnapshot] at hfile
    have hcontent : file.content = content := by
      split at hfile
      · cases hfile
      · cases hfile
        rfl
    rw [hfiles, restoreFiles_target, hcontent]

variable {info : SnapshotInfo}

theorem rollback_singleton {stored : Nat → Option (Db.Snapshots.SnapshotFile Content)}
    {files : Files Content}
    (hgoes : (answers.restoreEnd 0).any (·.2 = .cancelled) = false) :
    rollback hash answers.restoreEnd stored 0 [info] files =
      restoreSnapshot hash false ((answers.restoreEnd 0).map (·.1))
        (stored info.snapshotPath) files info.originalPath := by
  rw [rollback]
  split
  · rename_i hend
    rw [hend] at hgoes
    simp at hgoes
  · simp only [rollback, Bool.and_true]

variable {world : PluginWorld Content}

theorem Entered.files_change
    (h : Entered answers hash disk world) (changes : List (String × Option Content)) :
    (world.change changes).disk.files = applyChanges (answers.waited disk.files) changes := by
  rw [← h.files]
  rfl

theorem restoreAll_of_nil (h : world.snapshots = []) :
    answers.restoreAll hash world = { world with restored := false } := by
  simp only [SynthesisAnswers.restoreAll, h]
  rfl

theorem restoreAll_of_singleton
    (h : world.snapshots = [info])
    (hgoes : (answers.restoreEnd 0).any (·.2 = .cancelled) = false) :
    answers.restoreAll hash world =
      let restoring := restoreSnapshot hash false ((answers.restoreEnd 0).map (·.1))
        (if answers.removedMeanwhile info.snapshotPath then none
          else world.disk.snapshots info.snapshotPath) world.disk.files info.originalPath
      { world with
        disk := { world.disk with files := restoring.2 }
        restored := restoring.1 } := by
  simp only [SynthesisAnswers.restoreAll, h, List.reverse_singleton, List.isEmpty_cons,
    Bool.not_false, Bool.and_true, rollback_singleton hgoes]

theorem Entered.exitCancelled_eq
    (h : Entered answers hash disk world) :
    answers.exitCancelled disk.files =
      (answers.restoreCancelled world.snapshots || answers.releaseCancelled) := by
  cases htakes : answers.takesSnapshot disk.files with
  | false =>
      rw [SynthesisAnswers.exitCancelled, htakes, h.untaken htakes]
      rfl
  | true =>
      obtain ⟨_, _, info, _, _, hsnapshots, _⟩ := h.taken htakes
      rw [SynthesisAnswers.exitCancelled, htakes, hsnapshots]
      simp [SynthesisAnswers.restoreCancelled, List.range_succ]

/-- A block without a snapshot leaves what its body left: that is fine only where
the plugin was absent and is so again. -/
theorem Entered.fine_untaken_iff
    (h : Entered answers hash disk world) (changes : List (String × Option Content))
    (htakes : answers.takesSnapshot disk.files = false) :
    ((answers.restoreAll hash (world.change changes)).release answers.othersAfter).Fine
        disk.files (disk.files targetEsp).isSome ↔ answers.Undone disk changes := by
  have hrestoreAll := @restoreAll_of_nil Content answers hash (world.change changes)
    (h.untaken htakes)
  rw [PluginWorld.Fine, keeps_release_iff, hrestoreAll, SynthesisAnswers.Undone]
  cases hentry : disk.files targetEsp with
  | none =>
      show answers.Keeps disk.files (world.change changes).disk.files ∧ _ ↔ _
      rw [h.files_change]
      exact ⟨fun hfine => hfine.1, fun hkeeps => ⟨hkeeps, by simp⟩⟩
  | some old =>
      have hgone : answers.waited disk.files targetEsp = none := by
        rw [SynthesisAnswers.takesSnapshot, hentry, Option.isSome_some, Bool.true_and] at htakes
        simpa using htakes
      refine iff_of_false (fun hfine => ?_) (fun hundone => ?_)
      · have htrue : false = true := hfine.2 rfl
        cases htrue
      · rw [hgone] at hundone
        cases hundone.1

/-- A block with a snapshot is undone by its restore, if that can be done. -/
theorem Entered.fine_taken_iff
    (h : Entered answers hash disk world) (changes : List (String × Option Content))
    (htakes : answers.takesSnapshot disk.files = true)
    (hgoes : (answers.restoreEnd 0).any (·.2 = .cancelled) = false) :
    ((answers.restoreAll hash (world.change changes)).release answers.othersAfter).Fine
        disk.files (disk.files targetEsp).isSome ↔ answers.Undone disk changes := by
  obtain ⟨removed, content, info, hend, hcontent, hsnapshots, horiginal, hnumber, hstored⟩ :=
    h.taken htakes
  obtain ⟨old, hentry⟩ : ∃ old, disk.files targetEsp = some old := by
    rw [SynthesisAnswers.takesSnapshot, Bool.and_eq_true] at htakes
    exact Option.isSome_iff_exists.mp htakes.1
  have hsnapshot : (if answers.removedMeanwhile disk.nextSnapshot then none
      else (world.change changes).disk.snapshots disk.nextSnapshot) =
      if answers.removedMeanwhile disk.nextSnapshot || removed disk.nextSnapshot then none
      else some { content := content, metaChecksum := some (hash content) } := by
    rw [show (world.change changes).disk.snapshots = world.disk.snapshots from rfl, hstored]
    cases answers.removedMeanwhile disk.nextSnapshot <;> simp
  obtain ⟨hrestorable, hplugin⟩ :=
    restore_plugin_iff (applyChanges (answers.waited disk.files) changes) hend hsnapshot
  have hrestoreAll := @restoreAll_of_singleton Content answers hash info (world.change changes) hsnapshots hgoes
  rw [hnumber, horiginal, h.files_change] at hrestoreAll
  rw [PluginWorld.Fine, keeps_release_iff, hrestoreAll, SynthesisAnswers.Undone]
  simp only [hentry, Option.isSome_some, forall_const]
  constructor
  · intro ⟨hkeeps, htrue⟩
    refine ⟨by rw [hcontent]; rfl, hrestorable.mp htrue, fun halone => ?_⟩
    rw [hcontent, ← hplugin htrue]
    exact hkeeps halone
  · intro ⟨_, husable, hkeeps⟩
    have htrue := hrestorable.mpr husable
    refine ⟨fun halone => ?_, htrue⟩
    rw [← hkeeps halone, hcontent]
    exact hplugin htrue

/-- **Spec of `__aexit__`** after a body that made these changes and raised. -/
theorem exit_spec (exc : Exc)
    (changes : List (String × Option Content)) (h : Entered answers hash disk world) :
    ∃ world', answers.exit hash (some exc) (world.change changes) =
        (if answers.exitCancelled disk.files then .error .cancelled else .ok (), world') ∧
      (answers.exitCancelled disk.files = false →
        (world'.Fine disk.files (disk.files targetEsp).isSome ↔
          answers.Undone disk changes)) := by
  refine ⟨(answers.restoreAll hash (world.change changes)).release answers.othersAfter, ?_,
    fun hgoes => ?_⟩
  · rw [h.exitCancelled_eq]
    rfl
  · cases htakes : answers.takesSnapshot disk.files with
    | false => exact h.fine_untaken_iff changes htakes
    | true =>
        rw [SynthesisAnswers.exitCancelled, htakes, Bool.true_and, Bool.or_eq_false_iff] at hgoes
        exact h.fine_taken_iff changes htakes hgoes.1

/-! ## Whole runs -/

theorem runAndValidate_apply (patcherIds : List String) (world : PluginWorld Content) :
    (answers.service hash).runAndValidate patcherIds world =
      (answers.toolEnd.mapError ToolError.exc, world.change answers.changes) := by
  simp only [SynthesisPipelineService.runAndValidate, SynthesisAnswers.service, bind_apply,
    modify_apply, reply_apply, SynthesisAnswers.toolEnd]
  cases answers.runPipeline with
  | error e => rfl
  | ok result =>
      obtain ⟨success, outputEsp, errors⟩ := result
      cases success with
      | false => rfl
      | true =>
          cases outputEsp with
          | none => rfl
          | some esp =>
              cases hvalid : answers.valid with
              | error e => simp [Except.mapError, bind_apply]
              | ok valid => cases valid <;> simp [Except.mapError, bind_apply, ToolError.exc]

/-- The `try` part of the run. -/
abbrev SynthesisAnswers.tried (answers : SynthesisAnswers Content) (hash : Content → String)
    (patcherIds targetFiles : List String) : Proc (Run (PluginWorld Content)) Exc Report :=
  lockedTransaction (answers.service hash).toCollaborators "synthesis_pipeline" targetFiles
    ((answers.service hash).runAndValidate patcherIds)

/-- The run from the lock on. -/
abbrev SynthesisAnswers.locked (answers : SynthesisAnswers Content) (hash : Content → String)
    (patcherIds targetFiles : List String) : Proc (Run (PluginWorld Content)) Exc Report :=
  runTransaction (answers.service hash).toCollaborators "synthesis_pipeline" targetFiles
    ((answers.service hash).runAndValidate patcherIds)

/-- How the block ends once the transaction was begun. -/
abbrev SynthesisAnswers.blockEnd (answers : SynthesisAnswers Content) (hash : Content → String)
    (patcherIds : List String) : PluginWorld Content → Except Exc Report × PluginWorld Content :=
  (answers.service hash).toCollaborators.blockEnd ((answers.service hash).runAndValidate patcherIds)

variable {patcherIds : List String} {s : Run (PluginWorld Content)}

open SynthesisAnswers

theorem locked_of_error {exc : Exc}
    (htry : answers.tried hash patcherIds targetFiles s = (.error exc, t)) :
    answers.locked hash patcherIds targetFiles s = answers.ending hash targetFiles exc t := by
  rw [locked, runTransaction, bind_apply, handle_of_error htry]
  rfl

theorem locked_of_ok {report : Report}
    (htry : answers.tried hash patcherIds targetFiles s = (.ok report, t)) :
    answers.locked hash patcherIds targetFiles s =
      finish (.reply answers.publishCompleted.reply) report t := by
  rw [locked, runTransaction, bind_apply, handle_of_ok htry]
  rfl

/-- The local variables when the lock is asked for. -/
structure Asking (disk : Disk Content) (s : Run (PluginWorld Content)) : Prop where
  world : s.world = .initial disk
  txId : s.txId = none
  rolledBack : s.rolledBack = false
  inLockContext : s.inLockContext = false
  events : s.events = [.started]
  demoted : s.demoted = false

variable {world' : PluginWorld Content}

/-- **A block that raised once the lock was entered**, by an exception of the last
clause. -/
theorem raised_unexpected_iff
    {exc : Exc} (hexc : exc.isUnexpected = true)
    (hevents : t.events = [.started]) (hin : t.inLockContext = true)
    (htargets : targetFiles.isEmpty = !(disk.files targetEsp).isSome) (hworld : t.world = world')
    (hfine : answers.exitCancelled disk.files = false →
      (world'.Fine disk.files (disk.files targetEsp).isSome ↔ answers.Undone disk changes))
    (htry : answers.tried hash patcherIds targetFiles s =
      (.error (if answers.exitCancelled disk.files then .cancelled else exc), t)) :
    FailureUndone disk.files (answers.locked hash patcherIds targetFiles s) ↔
      answers.exitCancelled disk.files = true ∨
        (t.txId.isSome = true ∧ answers.markEnd.isCancelled = true) ∨
        answers.publishCompleted.Delivers (answers.Undone disk changes) := by
  rw [locked_of_error htry]
  cases hcancelled : answers.exitCancelled disk.files with
  | true => exact iff_of_true trivial (.inl rfl)
  | false =>
      have hiff := @failureUndone_unexpected_iff Content answers hash disk.files targetFiles t exc
        hexc hevents
      rw [hin, htargets, Bool.true_and, Bool.not_not, hworld, hfine hcancelled] at hiff
      simp only [Bool.false_eq_true, if_false, false_or]
      exact hiff

variable {e : ToolError}

theorem blockEnd_of_error
    {cancelled : Bool} (htool : answers.toolEnd = .error e)
    (hexit : answers.exit hash (some e.exc) (world.change answers.changes) =
      (if cancelled then .error .cancelled else .ok (), world')) :
    answers.blockEnd hash patcherIds world =
      ((.error (if cancelled then .cancelled else e.exc) : Except Exc Report), world') := by
  have hbody : (answers.service hash).runAndValidate patcherIds world =
      (.error e.exc, world.change answers.changes) := by
    rw [runAndValidate_apply, htool]
    rfl
  rw [blockEnd, Collaborators.blockEnd,
    asyncWith_of_error (pure_apply () world) hbody, bind_apply,
    show (answers.service hash).toCollaborators.exit = answers.exit hash from rfl, hexit]
  cases cancelled <;> rfl

theorem blockEnd_of_ok {report : Report}
    (htool : answers.toolEnd = .ok report) :
    answers.blockEnd hash patcherIds world =
      ((if answers.releaseCancelled then .error .cancelled else .ok report : Except Exc Report),
        (world.change answers.changes).release answers.othersAfter) := by
  have hbody : (answers.service hash).runAndValidate patcherIds world =
      (.ok report, world.change answers.changes) := by
    rw [runAndValidate_apply, htool]
    rfl
  rw [blockEnd, Collaborators.blockEnd,
    asyncWith_of_ok (pure_apply () world) hbody, bind_apply,
    show (answers.service hash).toCollaborators.exit = answers.exit hash from rfl,
    exit]
  cases answers.releaseCancelled <;> rfl

variable {journal : OperationJournal}

/-- **A run whose tool failed.** -/
theorem toolFailed_iff (hentered : Entered answers hash disk world)
    (htool : answers.toolEnd = .error e)
    (hblock : lockedBlock (answers.service hash).toCollaborators "synthesis_pipeline" targetFiles
        ((answers.service hash).runAndValidate patcherIds) s =
      ((answers.blockEnd hash patcherIds world).1,
        { t with world := (answers.blockEnd hash patcherIds world).2 }))
    (hbegun : Begun journal t .pending false) (hevents : t.events = [.started])
    (hin : t.inLockContext = true)
    (htargets : targetFiles.isEmpty = !(disk.files targetEsp).isSome) :
    FailureUndone disk.files (answers.locked hash patcherIds targetFiles s) ↔
      answers.KeepsBegun disk := by
  obtain ⟨world', hexit, hfine⟩ := exit_spec e.exc answers.changes hentered
  rw [blockEnd_of_error htool hexit] at hblock
  have htry : answers.tried hash patcherIds targetFiles s =
      (.error (if answers.exitCancelled disk.files then .cancelled else e.exc),
        { t with world := world' }) := bind_of_error hblock
  rw [SynthesisAnswers.KeepsBegun, htool]
  have hunexpected : e.exc.isUnexpected = true →
      (FailureUndone disk.files (answers.locked hash patcherIds targetFiles s) ↔
        answers.exitCancelled disk.files = true ∨ answers.markEnd.isCancelled = true ∨
          answers.publishCompleted.Delivers (answers.Undone disk answers.changes)) := by
    intro hexc
    have hiff := @raised_unexpected_iff Content answers.changes answers hash targetFiles { t with world := world' } disk patcherIds s world' e.exc hexc hevents hin htargets rfl hfine htry
    simpa only [hbegun.txId, Option.isSome_some, true_and] using hiff
  cases e with
  | timeout | other => exact hunexpected rfl
  | cancelled =>
      rw [locked_of_error htry]
      refine iff_of_true ?_ trivial
      cases answers.exitCancelled disk.files <;> exact trivial
  | domain message =>
      rw [locked_of_error htry]
      cases hcancelled : answers.exitCancelled disk.files with
      | true => exact iff_of_true trivial (.inl rfl)
      | false =>
          have hiff := @failureUndone_domain_iff Content answers hash disk.files targetFiles
            { t with world := world' } journal.transactions.next message hevents hbegun.txId
          rw [htargets, Bool.not_not, hfine hcancelled] at hiff
          simp only [Bool.false_eq_true, if_false, false_or]
          exact hiff

theorem success_of_toolEnd {report : Report} (h : answers.toolEnd = .ok report) :
    report.success = true := by
  unfold toolEnd at h
  split at h
  · cases h
  · split at h
    · cases h
      rfl
    · cases h
      rfl
    · cases h
    · cases h
    · cases h

/-- The `try` part once the block has returned: the transaction is committed, outside
the lock. -/
theorem tried_of_block_ok
    {report : Report}
    (hblock : lockedBlock (answers.service hash).toCollaborators "synthesis_pipeline" targetFiles
        ((answers.service hash).runAndValidate patcherIds) s =
      (.ok report, { t with world := world }))
    (hbegun : Begun journal t .pending false) :
    ∃ u, answers.tried hash patcherIds targetFiles s =
        ((answers.commitEnd.reply "Failed to commit transaction").map fun _ => report, u) ∧
      u.world = world ∧ u.events = t.events ∧ u.txId = some journal.transactions.next ∧
      u.inLockContext = false := by
  let left : Run (PluginWorld Content) := { t with world := world, inLockContext := false }
  have hleft : Begun journal left .pending false := ⟨hbegun.txId, hbegun.status, hbegun.demoted⟩
  obtain ⟨u, hcommit, hworld, _⟩ := commitTransaction_spec answers.commitEnd hleft
  obtain ⟨_, hevents, htx, hin⟩ := commitTransaction_frame answers.commitEnd left
  rw [hcommit] at hevents htx hin
  refine ⟨u, ?_, hworld, hevents, htx.trans hbegun.txId, hin⟩
  rw [tried, lockedTransaction, bind_of_ok hblock]
  simp only [setInLockContext, bind_apply, modify_apply]
  rw [show (answers.service hash).commitEnd = answers.commitEnd from rfl, hcommit]
  cases answers.commitEnd.reply "Failed to commit transaction" <;> rfl

/-- **A run whose tool succeeded**: the lock is released, and the commit comes
after that. -/
theorem toolSucceeded_iff {report : Report} (hentered : Entered answers hash disk world)
    (htool : answers.toolEnd = .ok report)
    (hblock : lockedBlock (answers.service hash).toCollaborators "synthesis_pipeline" targetFiles
        ((answers.service hash).runAndValidate patcherIds) s =
      ((answers.blockEnd hash patcherIds world).1,
        { t with world := (answers.blockEnd hash patcherIds world).2 }))
    (hbegun : Begun journal t .pending false) (hevents : t.events = [.started]) :
    FailureUndone disk.files (answers.locked hash patcherIds targetFiles s) ↔
      answers.KeepsBegun disk := by
  rw [blockEnd_of_ok htool] at hblock
  rw [SynthesisAnswers.KeepsBegun, htool]
  cases hrelease : answers.releaseCancelled with
  | true =>
      rw [hrelease] at hblock
      have htry : answers.tried hash patcherIds targetFiles s = (.error .cancelled, _) :=
        bind_of_error hblock
      rw [locked_of_error htry]
      exact iff_of_true trivial (.inl rfl)
  | false =>
      rw [hrelease] at hblock
      simp only [Bool.false_eq_true, if_false, false_or] at hblock ⊢
      obtain ⟨u, htry, huworld, huevents, hutx, huin⟩ := tried_of_block_ok hblock hbegun
      have hfailed : ∀ message, answers.tried hash patcherIds targetFiles s =
          (.error (.other message), u) →
          (FailureUndone disk.files (answers.locked hash patcherIds targetFiles s) ↔
            answers.markEnd.isCancelled = true ∨ answers.publishCompleted.Delivers
              (answers.Keeps disk.files
                (applyChanges (answers.waited disk.files) answers.changes))) := by
        intro message hraised
        have hfine : u.world.Fine disk.files false ↔ answers.Keeps disk.files
            (applyChanges (answers.waited disk.files) answers.changes) := by
          rw [huworld, PluginWorld.Fine, keeps_release_iff, ← hentered.files]
          simp only [Bool.false_eq_true, false_implies, and_true]
          rfl
        have hiff := @failureUndone_unexpected_iff Content answers hash disk.files targetFiles u
          (.other message) rfl (huevents.trans hevents)
        rw [hutx, huin, Bool.false_and, hfine] at hiff
        rw [locked_of_error hraised]
        simpa only [Option.isSome_some, true_and] using hiff
      cases hcommitEnd : answers.commitEnd with
      | cancelled ran =>
          rw [hcommitEnd] at htry
          have hraised : answers.tried hash patcherIds targetFiles s = (.error .cancelled, u) :=
            htry
          rw [locked_of_error hraised]
          exact iff_of_true trivial trivial
      | done outcome =>
          rw [hcommitEnd] at htry
          cases outcome with
          | ok =>
              obtain ⟨success, errors⟩ := report
              obtain rfl : success = true := success_of_toolEnd htool
              have hreturned : answers.tried hash patcherIds targetFiles s =
                  (.ok { success := true, errors := errors }, u) := htry
              rw [locked_of_ok hreturned]
              exact failureUndone_finish_success
          | executeError | commitError => exact hfailed _ htry

/-- The `try` part of a run whose `begin_transaction` raised inside the lock. -/
theorem tried_of_begin_error {exc : Exc}
    (hentered : Entered answers hash disk world)
    (henter : answers.enter hash targetFiles s.world = (.ok (), world))
    (hbegin : beginTransaction "synthesis_pipeline" answers.beginEnd
      { s with world := world, inLockContext := true } = (.error exc, t))
    (hworld : t.world = world) :
    ∃ world', answers.tried hash patcherIds targetFiles s =
        (.error (if answers.exitCancelled disk.files then .cancelled else exc),
          { t with world := world' }) ∧
      (answers.exitCancelled disk.files = false →
        (world'.Fine disk.files (disk.files targetEsp).isSome ↔ answers.Undone disk [])) := by
  obtain ⟨world', hexit, hfine⟩ := exit_spec exc [] hentered
  refine ⟨world', bind_of_error ?_, hfine⟩
  have henter' : onWorld (answers.enter hash targetFiles) s =
      (.ok (), { s with world := world }) := by
    simp only [onWorld, focus_apply, henter]
  have hinner : (do
      setInLockContext true
      beginTransaction "synthesis_pipeline" answers.beginEnd
      onWorld ((answers.service hash).runAndValidate patcherIds) :
        Proc (Run (PluginWorld Content)) Exc Report) { s with world := world } =
      (.error exc, t) := by
    simp only [setInLockContext, bind_apply, modify_apply, hbegin]
  have hexit' : answers.exit hash (some exc) t.world =
      (if answers.exitCancelled disk.files then .error .cancelled else .ok (), world') := by
    rw [hworld]
    exact hexit
  refine (asyncWith_of_error henter' hinner).trans ?_
  simp only [bind_apply, onWorld, focus_apply]
  rw [show (answers.service hash).toCollaborators.exit = answers.exit hash from rfl, hexit']
  cases answers.exitCancelled disk.files <;> rfl

theorem tried_of_enter_error {exc : Exc}
    (henter : answers.enter hash targetFiles s.world = (.error exc, world)) :
    answers.tried hash patcherIds targetFiles s = (.error exc, { s with world := world }) := by
  refine bind_of_error (asyncWith_of_enter_error ?_)
  simp only [onWorld, focus_apply]
  rw [show (answers.service hash).toCollaborators.enter = answers.enter hash from rfl, henter]

/-- **A run that does not enter the lock** keeps its promise if other runs left the
plugin alone and the completed event is published. -/
theorem unlocked_iff {exc : Exc}
    (h : Asking disk s) (hexc : exc.isUnexpected = true ∨ ∃ message, exc = .lockAcquisition message)
    (henter : answers.enter hash targetFiles s.world = (.error exc, world)) :
    FailureUndone disk.files (answers.locked hash patcherIds targetFiles s) ↔
      answers.publishCompleted.Delivers (world.Keeps disk.files) := by
  rw [locked_of_error (tried_of_enter_error henter)]
  rcases hexc with hunexpected | ⟨message, rfl⟩
  · have hiff := @failureUndone_unexpected_iff Content answers hash disk.files targetFiles
      { s with world := world } exc hunexpected h.events
    simpa only [h.txId, h.inLockContext, Option.isSome_none, Bool.false_eq_true, false_and,
      false_or, Bool.false_and, PluginWorld.Fine, and_true, false_implies] using hiff
  · exact @failureUndone_lockAcquisition_iff Content answers hash disk.files targetFiles
      { s with world := world } message h.events h.rolledBack

/-- **A run that has entered the lock.** -/
theorem entered_iff
    (h : Asking disk s) (hentered : Entered answers hash disk world)
    (henter : answers.enter hash targetFiles s.world = (.ok (), world))
    (htargets : targetFiles.isEmpty = !(disk.files targetEsp).isSome) :
    FailureUndone disk.files (answers.locked hash patcherIds targetFiles s) ↔
      match answers.beginEnd with
      | .cancelled _ => True
      | .done .ok => answers.KeepsBegun disk
      | .done _ =>
          answers.exitCancelled disk.files = true ∨
            answers.publishCompleted.Delivers (answers.Undone disk []) := by
  obtain ⟨u, hbegin, huworld, huevents, huin, hutx⟩ := beginTransaction_frame
    "synthesis_pipeline" answers.beginEnd { s with world := world, inLockContext := true }
  replace huevents : u.events = [.started] := huevents.trans h.events
  have hfailed : answers.beginEnd ≠ .done .ok → ∀ message,
      beginTransaction "synthesis_pipeline" answers.beginEnd
        { s with world := world, inLockContext := true } = (.error (.other message), u) →
      (FailureUndone disk.files (answers.locked hash patcherIds targetFiles s) ↔
        answers.exitCancelled disk.files = true ∨
          answers.publishCompleted.Delivers (answers.Undone disk [])) := by
    intro hending message hraised
    have hnone : u.txId = none := (hutx hending).trans h.txId
    obtain ⟨world', htry, hfine⟩ :=
      @tried_of_begin_error Content answers hash targetFiles u disk world patcherIds s _ hentered henter hraised huworld
    have hiff := @raised_unexpected_iff Content [] answers hash targetFiles { u with world := world' } disk patcherIds s world' (.other message) rfl huevents huin htargets rfl hfine htry
    simpa only [hnone, Option.isSome_none, Bool.false_eq_true, false_and, false_or] using hiff
  cases hend : answers.beginEnd with
  | cancelled ran =>
      have hraised : beginTransaction "synthesis_pipeline" answers.beginEnd
          { s with world := world, inLockContext := true } = (.error .cancelled, u) := by
        rw [hbegin, hend]
        rfl
      obtain ⟨world', htry, _⟩ :=
        @tried_of_begin_error Content answers hash targetFiles u disk world patcherIds s _ hentered henter hraised huworld
      rw [ite_self] at htry
      rw [locked_of_error htry]
      exact iff_of_true trivial trivial
  | done outcome =>
      cases outcome with
      | executeError | commitError =>
          exact hfailed (by rw [hend]; simp) _ (by rw [hbegin, hend]; rfl)
      | ok =>
          have hbegan : beginTransaction "synthesis_pipeline" answers.beginEnd
              { s with world := world, inLockContext := true } = (.ok (), u) := by
            rw [hbegin, hend]
            rfl
          have hbegun : Begun s.journal u .pending false := by
            rcases beginTransaction_spec s.journal "synthesis_pipeline" answers.beginEnd
                (s := { s with world := world, inLockContext := true }) rfl h.txId h.demoted with
              ⟨t, hcall, _, _, ht⟩ | ⟨exc, t, hcall, _, hending, _⟩
            · rw [hbegan] at hcall
              cases hcall
              exact ht
            · exact absurd hend hending
          replace huworld : u.world = world := huworld
          subst huworld
          have hblock := @lockedBlock_begun (PluginWorld Content) s u
            (answers.service hash).toCollaborators "synthesis_pipeline"
            ((answers.service hash).runAndValidate patcherIds) targetFiles henter hbegan
          cases htool : answers.toolEnd with
          | error e =>
              exact toolFailed_iff hentered htool hblock hbegun huevents huin htargets
          | ok report => exact toolSucceeded_iff hentered htool hblock hbegun huevents

/-- **A run from the lock on.** -/
theorem locked_iff (h : Asking disk s)
    (hfiles : targetFiles = (answers.service hash).targetFiles true (.initial disk)) :
    FailureUndone disk.files (answers.locked hash patcherIds targetFiles s) ↔
      answers.KeepsLocked disk := by
  have htargets : targetFiles.isEmpty = !(disk.files targetEsp).isSome := by
    rw [hfiles, targetFiles_initial]
    cases disk.files targetEsp <;> rfl
  have hunreleased : ((initial disk).change answers.othersWaiting).Keeps disk.files ↔
      answers.waited disk.files targetEsp = disk.files targetEsp :=
    ⟨fun hkeeps => hkeeps rfl, fun hkeeps _ => hkeeps⟩
  have hcancelled : ∀ world : PluginWorld Content,
      answers.enter hash targetFiles s.world = (.error .cancelled, world) →
      FailureUndone disk.files (answers.locked hash patcherIds targetFiles s) := by
    intro world henter
    rw [locked_of_error (tried_of_enter_error henter)]
    trivial
  have hungranted : ∀ exc, answers.enter hash targetFiles s.world =
        (.error exc, (initial disk).change answers.othersWaiting) →
      (exc.isUnexpected = true ∨ ∃ message, exc = .lockAcquisition message) →
      (FailureUndone disk.files (answers.locked hash patcherIds targetFiles s) ↔
        answers.publishCompleted.Delivers
          (answers.waited disk.files targetEsp = disk.files targetEsp)) := by
    intro exc henter hexc
    rw [unlocked_iff h hexc henter, hunreleased]
  unfold SynthesisAnswers.KeepsLocked
  cases hacquire : answers.acquire with
  | cancelled =>
      refine iff_of_true (hcancelled ((initial disk).change answers.othersWaiting) ?_)
        trivial
      rw [h.world, enter, hacquire]
  | contention message =>
      refine hungranted (.lockAcquisition message) ?_ (.inr ⟨message, rfl⟩)
      rw [h.world, enter, hacquire]
  | raises message =>
      refine hungranted (.other message) ?_ (.inl rfl)
      rw [h.world, enter, hacquire]
  | granted =>
      have hspec := @enter_spec Content answers hash disk hacquire
      rw [← hfiles, ← h.world] at hspec
      cases hraise : answers.snapshotRaise disk.files with
      | some exc =>
          rw [hraise] at hspec
          cases exc with
          | cancelled =>
              obtain ⟨world, henter⟩ := hspec
              exact iff_of_true (hcancelled world henter) trivial
          | exception =>
              obtain ⟨world, henter, hwaited, _⟩ := hspec
              cases hrelease : answers.releaseCancelled with
              | true =>
                  rw [hrelease] at henter
                  exact iff_of_true (hcancelled _ henter) (.inl rfl)
              | false =>
                  rw [hrelease] at henter
                  simp only [Bool.false_eq_true, if_false, false_or] at henter ⊢
                  rw [unlocked_iff h (.inl rfl) henter, keeps_release_iff, hwaited]
      | none =>
          rw [hraise] at hspec
          obtain ⟨world, henter, hentered⟩ := hspec
          rw [entered_iff h hentered henter htargets]
          cases answers.beginEnd with
          | cancelled ran => exact Iff.rfl
          | done outcome => cases outcome <;> exact Iff.rfl

/-- **The promise of a Synthesis run.**  Whatever the plugin was, and however its
calls end, a run with `create_snapshot=True` that fails undoes its work and says so
exactly when the answers meet `KeepsPromise`. -/
theorem failureUndone_iff (answers : SynthesisAnswers Content) (hash : Content → String)
    (patcherIds : Option (List String)) (journal : OperationJournal) (disk : Disk Content) :
    FailureUndone disk.files ((answers.service hash).executePipeline patcherIds true
        (Run.initial journal (.initial disk))) ↔
      answers.KeepsPromise patcherIds disk := by
  unfold SynthesisPipelineService.executePipeline SynthesisAnswers.KeepsPromise
  simp only [bind_apply, attempt_apply, onWorld, focus_apply]
  rw [show (answers.service hash).ensureRunner = .reply answers.ensureRunner from rfl]
  simp only [reply_apply]
  cases hensure : answers.ensureRunner with
  | error exc =>
      cases exc with
      | domain message =>
          refine iff_of_true (fun _ => ⟨fun _ => rfl, ?_, fun success hmem => ?_⟩) trivial
          · intro before after hsplit
            simp [Run.initial] at hsplit
          · cases hmem
      | cancelled => exact Iff.rfl
      | timeout => exact Iff.rfl
      | lockAcquisition message => exact Iff.rfl
      | other message => exact Iff.rfl
  | ok enabled =>
      dsimp only
      cases hpatchers : patcherIds.getD enabled with
      | nil =>
          refine iff_of_true (fun _ => ⟨fun _ => rfl, ?_, fun success hmem => ?_⟩) trivial
          · intro before after hsplit
            simp [Run.initial] at hsplit
          · cases hmem
      | cons first rest =>
          simp only [publish, bind_apply, onWorld, focus_apply]
          rw [show (answers.service hash).publishStarted = .reply answers.publishStarted.reply
            from rfl]
          simp only [reply_apply]
          cases hstarted : answers.publishStarted with
          | raises message => exact Iff.rfl
          | cancelled => exact Iff.rfl
          | returns =>
              have hasking : Asking disk
                  { Run.initial journal (initial disk) with events := [.started] } :=
                ⟨rfl, rfl, rfl, rfl, rfl, rfl⟩
              exact @locked_iff Content answers hash _ disk (first :: rest) { Run.initial journal (initial disk) with events := [.started] } hasking rfl

/-- The tool writes content 2 to the plugin and fails; nothing else goes wrong. -/
def failingTool : SynthesisAnswers Nat where
  ensureRunner := .ok ["patcher"]
  publishStarted := .returns
  publishCompleted := .returns
  othersWaiting := []
  acquire := .granted
  snapshotEnd _ := .created fun _ => false
  snapshotError := ""
  changes := [(targetEsp, some 2)]
  runPipeline := .ok { success := false, outputEsp := none, errors := [] }
  valid := .ok true
  removedMeanwhile _ := false
  restoreEnd _ := none
  releaseCancelled := false
  othersAfter := []
  beginEnd := .done .ok
  commitEnd := .done .ok
  markEnd := .done .ok

/-- The tool succeeds, and the commit after the lock does not. -/
def failingCommit : SynthesisAnswers Nat :=
  { failingTool with
    runPipeline := .ok { success := true, outputEsp := none, errors := [] }
    commitEnd := .done .executeError }

/-- A failed restore is logged, and marking the transaction raises. -/
def failingRestore : SynthesisAnswers Nat :=
  { failingTool with restoreEnd := fun _ => some (.beforeBackup, .exception) }

def failingMark : SynthesisAnswers Nat :=
  { failingTool with markEnd := .done .executeError }

/-- A plugin that the tool created stays; what it wrote before a failed commit
stays; a restore that failed is announced as a rollback; an error of the journal
leaves the call. -/
theorem failureUndone_counterexample :
    ¬FailureUndone noPlugin.files ((failingTool.service toString).executePipeline none
        true (Run.initial .empty (.initial noPlugin))) ∧
      ¬FailureUndone oldPlugin.files ((failingCommit.service toString).executePipeline
        none true (Run.initial .empty (.initial oldPlugin))) ∧
      ¬FailureUndone oldPlugin.files ((failingRestore.service toString).executePipeline
        none true (Run.initial .empty (.initial oldPlugin))) ∧
      ¬FailureUndone oldPlugin.files ((failingMark.service toString).executePipeline
        none true (Run.initial .empty (.initial oldPlugin))) := by
  refine ⟨fun h => ?_, fun h => ?_, fun h => ?_, fun h => h⟩
  · have hplugin := (h rfl).1 rfl
    exact absurd hplugin (by decide)
  · have hplugin := (h rfl).1 rfl
    exact absurd hplugin (by decide)
  · have hrestored := (h rfl).2.2 false (by decide)
    exact absurd hrestored (by decide)

end SkyClaw.Tools
