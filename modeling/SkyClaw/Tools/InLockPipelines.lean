import SkyClaw.Tools.SnapshotPipelines

/-!
# The VRAMr and DynDOLOD pipelines

These two services commit their journal transaction while they still hold the
lock.  VRAMr recovers inside the lock as well; DynDOLOD recovers outside, also
from a cancellation, and publishes its completed event before it leaves the lock,
so that a publication or an exit that raises meets a committed transaction.
-/

namespace SkyClaw.Tools

open Db (DbOutcome)
open Db.Journal

variable {ω : Type}

/-! ## `VRAMrPipelineService` -/

/-- The service: path validation, the listing of the output directory, the event
bus, the lock, the subprocess (exit code and tail of its stderr), the cleanup and
the ends of the journal calls. -/
structure VRAMrPipelineService (ω : Type) where
  validatePaths : Proc ω Exc Unit
  snapshotExisting : Proc ω Exc Unit
  publishStarted : Proc ω Exc Unit
  publishCompleted : Proc ω Exc Unit
  acquireLock : Proc ω Exc Unit
  releaseLock : Proc ω Exc Unit
  runVramr : Proc ω Exc (Int × String)
  cleanupOutputDir : Proc ω Exc Unit
  beginEnd : JournalEnd
  commitEnd : JournalEnd
  markEnd : JournalEnd

/-- `success = error is None`. -/
def vramrReport (error : Option String) : Report :=
  { success := error.isNone, errors := error.toList }

/-- An exception the clauses inside the lock catch. -/
def Exc.isException : Exc → Bool
  | .cancelled => false
  | .domain _ | .timeout | .lockAcquisition _ | .other _ => true

namespace VRAMrPipelineService

section

variable (svc : VRAMrPipelineService ω)

/-- The `finally` clause of `_lock_scope`: a failed release is logged. -/
def leaveScope : Proc ω Exc Unit :=
  svc.releaseLock.handle fun exc =>
    match exc with
    | .cancelled => .raise .cancelled
    | _ => pure ()

/-- Run VRAMr; a nonzero exit code raises `VRAMrExecutionError`. -/
def execute : Proc ω Exc Unit := do
  let ended ← svc.runVramr
  match ended.1 with
  | 0 => pure ()
  | exitCode => .raise (.domain ("VRAMr exit " ++ toString exitCode ++ ": " ++ ended.2))

/-- The three `except` clauses inside the lock; the value is `error`. -/
def recover (exc : Exc) :
    Proc (Run ω) Exc (Option String) :=
  let cleanUp (rolledBack : Run ω → Bool) (error : String) : Proc (Run ω) Exc (Option String) := do
    setRolledBack rolledBack
    onWorld svc.cleanupOutputDir
    safeMarkRolledBack svc.markEnd
    pure (some error)
  match exc with
  | .cancelled => .raise .cancelled
  | .domain message => cleanUp (fun _ => true) message
  | .timeout => cleanUp (fun s => s.txId.isSome) "VRAMr timed out"
  | .lockAcquisition message | .other message =>
      cleanUp (fun s => s.txId.isSome) ("Unexpected error: " ++ message)

/-- The `try` part inside the lock. -/
def tryBody :
    Proc (Run ω) Exc (Option String) := do
  beginTransaction "vramr_pipeline" svc.beginEnd
  onWorld svc.execute
  commitTransaction svc.commitEnd
  pure none

/-- What runs inside the lock. -/
def lockedBody :
    Proc (Run ω) Exc (Option String) :=
  svc.tryBody.handle svc.recover

/-- The lock scope with its `except LockAcquisitionError`. -/
def locked :
    Proc (Run ω) Exc (Option String) :=
  .handle (.asyncWith (onWorld svc.acquireLock) (fun _ => onWorld svc.leaveScope) svc.lockedBody)
    fun exc =>
      match exc with
      | .lockAcquisition message => pure (some ("Lock contention: " ++ message))
      | exc => .raise exc

/-- The run from the lock to the completed event. -/
def lockedRun : Proc (Run ω) Exc Report := do
  let error ← svc.locked
  finish svc.publishCompleted (vramrReport error)

def executePipeline :
    Proc (Run ω) Exc Report := do
  match ← (onWorld svc.validatePaths).attempt with
  | .error (.domain message) => pure (errorDict ("Path violation: " ++ message))
  | .error exc => .raise exc
  | .ok () =>
      onWorld svc.snapshotExisting
      publish svc.publishStarted fun _ => .started
      svc.lockedRun

/-- The condition for a run that gets the lock in this world: if the transaction is
begun, VRAMr succeeds, the commit returns, leaving the lock is not cancelled and
the completed event is published; or VRAMr or the commit raises an `Exception`
before the commit's statement ran, the cleanup raises nothing, and the statement
that marks the transaction takes effect. -/
def Settles (world : ω) : Prop :=
  match svc.beginEnd with
  | .done .ok =>
      match svc.execute world with
      | (.ok (), world) =>
          match svc.commitEnd with
          | .done .ok =>
              (svc.leaveScope world).1.isOk = true ∧
                (svc.publishCompleted (svc.leaveScope world).2).1.isOk = true
          | .done .executeError =>
              (svc.cleanupOutputDir world).1.isOk = true ∧ svc.markEnd.ran = true
          | _ => False
      | (.error .cancelled, _) => False
      | (.error _, world) =>
          (svc.cleanupOutputDir world).1.isOk = true ∧ svc.markEnd.ran = true
  | ending => ending.ran = false

/-- The condition from the start of a VRAMr run. -/
def SettlesRun (world : ω) : Prop :=
  match (do
      svc.validatePaths
      svc.snapshotExisting
      svc.publishStarted
      svc.acquireLock : Proc ω Exc Unit) world with
  | (.error _, _) => True
  | (.ok (), world) => svc.Settles world

end

variable {journal : OperationJournal} {s : Run ω}

/-- **Spec of the clauses inside the lock** for a run that knows no transaction. -/
theorem recover_unknown
    {status : Option TransactionStatus} (svc : VRAMrPipelineService ω) (exc : Exc)
    (h : Unknown journal s status) :
    ∃ r t, svc.recover exc s = (r, t) ∧ r ≠ .ok none ∧ Unknown journal t status := by
  obtain ⟨htx, hstatus, hdemoted⟩ := h
  have hsafe : ∀ (world : ω) (rolledBack : Bool),
      safeMarkRolledBack svc.markEnd { s with world := world, rolledBack := rolledBack } =
        (.ok (), { s with world := world, rolledBack := rolledBack }) :=
    fun _ _ => safeMarkRolledBack_unknown svc.markEnd htx
  cases exc <;>
    simp only [recover, setRolledBack, Proc.bind_apply, Proc.modify_apply,
      onWorld, Proc.focus_apply, Proc.raise_apply]
  case cancelled => exact ⟨_, _, rfl, by simp, htx, hstatus, hdemoted⟩
  all_goals
    cases (svc.cleanupOutputDir s.world).1 with
    | error exc => exact ⟨_, _, rfl, by simp, htx, hstatus, hdemoted⟩
    | ok u =>
        simp only [hsafe, Proc.pure_apply]
        exact ⟨_, _, rfl, by simp, htx, hstatus, hdemoted⟩

variable {status : TransactionStatus}

/-- **Spec of the clauses inside the lock** for a run that has begun its
transaction. -/
theorem recover_begun (svc : VRAMrPipelineService ω) (exc : Exc)
    (h : Begun journal s status false) {marks : Bool}
    (hmarks : marks = (exc.isException && (svc.cleanupOutputDir s.world).1.isOk &&
      svc.markEnd.ran)) :
    ∃ r t, svc.recover exc s = (r, t) ∧ r ≠ .ok none ∧
      Begun journal t (if marks then .rolledBack else status)
        (marks && decide (status = .committed)) := by
  subst hmarks
  have hclean : ∀ (rolledBack : Run ω → Bool) (error : String),
      ∃ r t, (do
          setRolledBack rolledBack
          onWorld svc.cleanupOutputDir
          safeMarkRolledBack svc.markEnd
          pure (some error) : Proc (Run ω) Exc (Option String)) s = (r, t) ∧ r ≠ .ok none ∧
        Begun journal t
          (if (svc.cleanupOutputDir s.world).1.isOk && svc.markEnd.ran then .rolledBack
            else status)
          ((svc.cleanupOutputDir s.world).1.isOk && svc.markEnd.ran &&
            decide (status = .committed)) := by
    intro rolledBack error
    simp only [setRolledBack, Proc.bind_apply, Proc.modify_apply, onWorld, Proc.focus_apply]
    cases hcleanup : svc.cleanupOutputDir s.world with
    | mk ended world =>
      cases ended with
      | error exc => exact ⟨_, _, rfl, by simp, h.txId, h.status, h.demoted⟩
      | ok u =>
          have hkept : Begun journal { s with rolledBack := rolledBack s, world := world } status
              false := ⟨h.txId, h.status, h.demoted⟩
          obtain ⟨r, t, hcall, _, hbegun⟩ := safeMarkRolledBack_spec svc.markEnd hkept
          simp only [hcall]
          cases r with
          | ok | error => exact ⟨_, t, rfl, by simp, hbegun⟩
  cases exc with
  | cancelled => exact ⟨_, s, rfl, by simp, h⟩
  | domain | timeout | lockAcquisition | other => exact hclean _ _

variable {svc : VRAMrPipelineService ω} {world world' : ω}

theorem leaveScope_raises {exc : Exc}
    (h : svc.leaveScope world = (.error exc, world')) : exc = .cancelled := by
  rw [leaveScope] at h
  cases hrelease : svc.releaseLock world with
  | mk ended w =>
    cases ended with
    | ok u =>
        rw [Proc.handle_of_ok hrelease] at h
        cases h
    | error e =>
        rw [Proc.handle_of_error hrelease] at h
        cases e <;> cases h
        rfl

variable {t : Run ω} {r : Except Exc (Option String)}

/-- **Spec of leaving the lock.**  The run goes on without an error exactly when the
body had none and the release was not cancelled. -/
theorem locked_spec
    (hacquire : svc.acquireLock s.world = (.ok (), world))
    (hbody : svc.lockedBody { s with world := world } = (r, t)) :
    ∃ r' t', svc.locked s = (r', t') ∧ t'.world = (svc.leaveScope t.world).2 ∧
      t'.ownStatus journal = t.ownStatus journal ∧ t'.demoted = t.demoted ∧
      (r' = .ok none ↔ r = .ok none ∧ (svc.leaveScope t.world).1.isOk = true) := by
  have hacquire' : onWorld svc.acquireLock s = (.ok (), { s with world := world }) := by
    simp only [onWorld, Proc.focus_apply, hacquire]
  unfold locked
  cases hleave : svc.leaveScope t.world with
  | mk left world' =>
    cases left with
    | error e =>
        -- A cancelled release replaces whatever the body ended in.
        obtain rfl := leaveScope_raises hleave
        have hwith : Proc.asyncWith (onWorld svc.acquireLock) (fun _ => onWorld svc.leaveScope)
            svc.lockedBody s = (.error .cancelled, { t with world := world' }) := by
          cases r with
          | ok error =>
              rw [Proc.asyncWith_of_ok hacquire' hbody]
              simp only [Proc.bind_apply, onWorld, Proc.focus_apply, hleave]
          | error exc =>
              rw [Proc.asyncWith_of_error hacquire' hbody]
              simp only [Proc.bind_apply, onWorld, Proc.focus_apply, hleave]
        rw [Proc.handle_of_error hwith]
        refine ⟨_, _, rfl, rfl, rfl, rfl, ?_⟩
        exact iff_of_false (by simp) (fun h => absurd h.2 (by simp [Except.isOk, Except.toBool]))
    | ok u =>
        cases r with
        | ok error =>
            have hwith : Proc.asyncWith (onWorld svc.acquireLock) (fun _ => onWorld svc.leaveScope)
                svc.lockedBody s = (.ok error, { t with world := world' }) := by
              rw [Proc.asyncWith_of_ok hacquire' hbody]
              simp only [Proc.bind_apply, onWorld, Proc.focus_apply, hleave, Proc.pure_apply]
            rw [Proc.handle_of_ok hwith]
            exact ⟨_, _, rfl, rfl, rfl, rfl, by simp [Except.isOk, Except.toBool]⟩
        | error exc =>
            have hwith : Proc.asyncWith (onWorld svc.acquireLock) (fun _ => onWorld svc.leaveScope)
                svc.lockedBody s = (.error exc, { t with world := world' }) := by
              rw [Proc.asyncWith_of_error hacquire' hbody]
              simp only [Proc.bind_apply, onWorld, Proc.focus_apply, hleave, Proc.raise_apply]
            rw [Proc.handle_of_error hwith]
            cases exc <;> exact ⟨_, _, rfl, rfl, rfl, rfl, by simp⟩

theorem lockedRun_of_failed (hlocked : svc.locked s = (r, t))
    (hfailed : r ≠ .ok none) :
    Ended journal (svc.lockedRun s) (t.ownStatus journal) t.demoted false := by
  cases r with
  | error exc =>
      rw [lockedRun, Proc.bind_of_error hlocked]
      exact ⟨rfl, rfl, rfl⟩
  | ok error =>
      rw [lockedRun, Proc.bind_of_ok hlocked]
      cases error with
      | none => exact absurd rfl hfailed
      | some message =>
          exact @finish_ended ω journal t svc.publishCompleted (vramrReport (some message))

/-- A run whose locked body had an error, or raised, reports no success. -/
theorem lockedRun_failed
    (hacquire : svc.acquireLock s.world = (.ok (), world))
    (hbody : svc.lockedBody { s with world := world } = (r, t)) (hfailed : r ≠ .ok none) :
    Ended journal (svc.lockedRun s) (t.ownStatus journal) t.demoted false := by
  obtain ⟨r', t', hlocked, _, hstatus, hdemoted, hnone⟩ :=
    @locked_spec ω journal s svc world t r hacquire hbody
  have hended := @lockedRun_of_failed ω journal s svc t' r' hlocked
    fun h => hfailed (hnone.mp h).1
  rw [hstatus, hdemoted] at hended
  exact hended

/-- A run whose locked body succeeded. -/
theorem lockedRun_succeeded
    (hacquire : svc.acquireLock s.world = (.ok (), world))
    (hbody : svc.lockedBody { s with world := world } = (.ok none, t)) :
    Ended journal (svc.lockedRun s) (t.ownStatus journal) t.demoted
      ((svc.leaveScope t.world).1.isOk &&
        (svc.publishCompleted (svc.leaveScope t.world).2).1.isOk) := by
  obtain ⟨r', t', hlocked, hworld, hstatus, hdemoted, hnone⟩ :=
    @locked_spec ω journal s svc world t _ hacquire hbody
  cases hleft : (svc.leaveScope t.world).1.isOk with
  | true =>
      obtain rfl := hnone.mpr ⟨rfl, hleft⟩
      rw [lockedRun, Proc.bind_of_ok hlocked]
      have hfinish := @finish_ended ω journal t' svc.publishCompleted (vramrReport none)
      rw [hstatus, hdemoted, hworld] at hfinish
      exact hfinish
  | false =>
      have hended := @lockedRun_of_failed ω journal s svc t' r' hlocked fun h =>
        Bool.false_ne_true (hleft.symm.trans (hnone.mp h).2)
      rw [hstatus, hdemoted] at hended
      exact hended

theorem lockedRun_raised {exc : Exc}
    (hacquire : svc.acquireLock s.world = (.ok (), world))
    (htry : svc.tryBody { s with world := world } = (.error exc, t))
    (h : Begun journal t status false) {marks : Bool}
    (hmarks : marks = (exc.isException && (svc.cleanupOutputDir t.world).1.isOk &&
      svc.markEnd.ran)) :
    Ended journal (svc.lockedRun s) (some (if marks then .rolledBack else status))
      (marks && decide (status = .committed)) false := by
  obtain ⟨r, u, hrecover, hfailed, hu⟩ := svc.recover_begun exc h hmarks
  have hbody : svc.lockedBody { s with world := world } = (r, u) := by
    rw [lockedBody, Proc.handle_of_error htry, hrecover]
  have hended := @lockedRun_failed ω journal s svc world u r hacquire hbody hfailed
  rw [hu.status, hu.demoted] at hended
  exact hended

/-- **A VRAMr run that gets the lock settles its transaction exactly when** it meets
`Settles`. -/
theorem lockedRun_closed_iff
    (svc : VRAMrPipelineService ω) (hacquire : svc.acquireLock s.world = (.ok (), world))
    (htx : s.txId = none) (hdemoted : s.demoted = false) :
    TransactionClosed s.journal (svc.lockedRun s) ↔ svc.Settles world := by
  rcases beginTransaction_spec s.journal "vramr_pipeline" svc.beginEnd
      (s := { s with world := world }) rfl htx hdemoted with
    ⟨t, hbegin, hworld, hending, hbegun⟩ | ⟨exc, t, hbegin, hworld, hending, hunknown⟩
  · replace hworld : t.world = world := hworld
    subst hworld
    have hkept : ∀ world' : ω, Begun s.journal { t with world := world' } .pending false :=
      fun _ => ⟨hbegun.txId, hbegun.status, hbegun.demoted⟩
    simp only [Settles, hending]
    cases hexecute : svc.execute t.world with
    | mk ended world' =>
      cases ended with
      | error exc =>
          have htry : svc.tryBody { s with world := t.world } =
              (.error exc, { t with world := world' }) := by
            rw [tryBody, Proc.bind_of_ok hbegin]
            simp only [Proc.bind_apply, onWorld, Proc.focus_apply, hexecute]
          have hended := svc.lockedRun_raised hacquire htry (hkept world') rfl
          rw [hended.closed_pending_iff]
          cases exc <;> simp [Exc.isException]
      | ok _ =>
          obtain ⟨u, hcommit, huworld, hu⟩ :=
            commitTransaction_spec svc.commitEnd (hkept world')
          have htry : svc.tryBody { s with world := t.world } =
              ((svc.commitEnd.reply "Failed to commit transaction").map fun _ => none, u) := by
            rw [tryBody, Proc.bind_of_ok hbegin]
            simp only [Proc.bind_apply, onWorld, Proc.focus_apply, hexecute, hcommit]
            cases svc.commitEnd.reply "Failed to commit transaction" <;> rfl
          replace huworld : u.world = world' := huworld
          cases hcommitEnd : svc.commitEnd with
          | cancelled ran =>
              rw [hcommitEnd] at htry hu
              refine iff_of_false ?_ (fun h => h)
              have hended := svc.lockedRun_raised hacquire htry hu rfl
              cases ran with
              | true => exact hended.not_closed_committed
              | false =>
                  rw [hended.closed_pending_iff]
                  simp [Exc.isException]
          | done outcome =>
              rw [hcommitEnd] at htry hu
              cases outcome with
              | ok =>
                  have hbody : svc.lockedBody { s with world := t.world } = (.ok none, u) :=
                    Proc.handle_of_ok htry
                  have hended := @lockedRun_succeeded ω s.journal s svc t.world
                    u hacquire hbody
                  rw [hu.status, hu.demoted, huworld] at hended
                  rw [hended.closed_committed_iff, Bool.and_eq_true]
              | executeError =>
                  have hended := svc.lockedRun_raised hacquire htry hu rfl
                  rw [hended.closed_pending_iff, huworld]
                  simp [Exc.isException]
              | commitError =>
                  have hended := svc.lockedRun_raised hacquire htry hu rfl
                  exact iff_of_false hended.not_closed_committed (fun h => h)
  · obtain ⟨r, u, hrecover, hfailed, hu⟩ := svc.recover_unknown exc hunknown
    have htry : svc.tryBody { s with world := world } = (.error exc, t) :=
      Proc.bind_of_error hbegin
    have hbody : svc.lockedBody { s with world := world } = (r, u) := by
      rw [lockedBody, Proc.handle_of_error htry, hrecover]
    have hended := @lockedRun_failed ω s.journal s svc world u r hacquire hbody hfailed
    rw [hu.status, hu.demoted] at hended
    rw [hended.closed_unknown_iff]
    cases hend : svc.beginEnd with
    | cancelled ran => simp [Settles, hend]
    | done outcome =>
        cases outcome with
        | ok => exact absurd hend hending
        | executeError | commitError => simp [Settles, hend]

/-- A VRAMr run that does not get the lock begins no transaction. -/
theorem lockedRun_unlocked {exc : Exc}
    (svc : VRAMrPipelineService ω) (hacquire : svc.acquireLock s.world = (.error exc, world))
    (hdemoted : s.demoted = false) : TransactionClosed s.journal (svc.lockedRun s) := by
  have hwith : Proc.asyncWith (onWorld svc.acquireLock) (fun _ => onWorld svc.leaveScope)
      svc.lockedBody s = (.error exc, { s with world := world }) := by
    apply Proc.asyncWith_of_enter_error
    simp only [onWorld, Proc.focus_apply, hacquire]
  have hraised : svc.locked s = (.error exc, { s with world := world }) ∨
      ∃ message, svc.locked s = (.ok (some message), { s with world := world }) := by
    unfold locked
    rw [Proc.handle_of_error hwith]
    cases exc with
    | lockAcquisition message => exact .inr ⟨_, rfl⟩
    | domain | timeout | other | cancelled => exact .inl rfl
  rcases hraised with hlocked | ⟨message, hlocked⟩
  · rw [lockedRun, Proc.bind_of_error hlocked]
    exact closed_of_no_transaction rfl hdemoted rfl
  · rw [lockedRun, Proc.bind_of_ok hlocked]
    exact finish_closed_of_no_transaction svc.publishCompleted rfl hdemoted rfl

/-- **A VRAMr run settles its transaction exactly when** it meets `SettlesRun`. -/
theorem executePipeline_closed_iff (svc : VRAMrPipelineService ω)
    (journal : OperationJournal) (world : ω) :
    TransactionClosed journal (svc.executePipeline (Run.initial journal world)) ↔
      svc.SettlesRun world := by
  unfold executePipeline SettlesRun
  simp only [Proc.bind_apply, Proc.attempt_apply, onWorld, Proc.focus_apply, Run.initial]
  cases hvalidate : svc.validatePaths world with
  | mk ended world₁ =>
    cases ended with
    | error exc =>
        refine iff_of_true ?_ trivial
        cases exc <;> exact closed_of_no_transaction rfl rfl rfl
    | ok _ =>
        simp only [publish, Proc.bind_apply, onWorld, Proc.focus_apply]
        cases hlist : svc.snapshotExisting world₁ with
        | mk listed world₂ =>
          cases listed with
          | error exc => exact iff_of_true (closed_of_no_transaction rfl rfl rfl) trivial
          | ok _ =>
              dsimp only
              cases hstarted : svc.publishStarted world₂ with
              | mk started world₃ =>
                cases started with
                | error exc => exact iff_of_true (closed_of_no_transaction rfl rfl rfl) trivial
                | ok _ =>
                    simp only [Proc.modify_apply]
                    cases hacquire : svc.acquireLock world₃ with
                    | mk acquired world₄ =>
                      cases acquired with
                      | error exc =>
                          exact iff_of_true (@lockedRun_unlocked ω
                            { Run.initial journal world₃ with events := [.started] } world₄ exc svc
                            hacquire rfl) trivial
                      | ok _ =>
                          exact @lockedRun_closed_iff ω
                            { Run.initial journal world₃ with events := [.started] } world₄ svc
                            hacquire rfl rfl

end VRAMrPipelineService

/-! ## `DynDOLODPipelineService` -/

/-- `DynDOLODPipelineResult`, as far as the service reads it. -/
structure DynDOLODPipelineResult where
  success : Bool
  outputPath : Option String
  errors : List String

/-- The service: the collaborators of a snapshot lock, `_ensure_runner`, the
existence test on `DynDOLOD.esp` and the runner. -/
structure DynDOLODPipelineService (ω : Type) extends Collaborators ω where
  ensureRunner : Proc ω Exc Unit
  dyndolodEspExists : ω → Bool
  runFullPipeline : Proc ω Exc DynDOLODPipelineResult
  validateDyndolodOutput : String → Proc ω Exc Bool

/-- An exception whose clause marks the transaction: every one but the failure to
acquire the lock. -/
def Exc.isSafelyMarked : Exc → Bool
  | .lockAcquisition _ => false
  | .domain _ | .timeout | .other _ | .cancelled => true

namespace DynDOLODPipelineService

variable {journal : OperationJournal} {s t : Run ω} {status : TransactionStatus} {world world' : ω}

section

variable (svc : DynDOLODPipelineService ω)

/-- Run the tools, validate, raise on failure. -/
def runAndValidate :
    Proc ω Exc Report := do
  let result ← svc.runFullPipeline
  match result.success, result.outputPath with
  | true, some outputPath =>
      if ← svc.validateDyndolodOutput outputPath then pure { success := true, errors := [] }
      else .raise (.domain "DynDOLOD output validation failed")
  | true, none => pure { success := true, errors := [] }
  | false, _ =>
      .raise (.domain ("DynDOLOD pipeline failed: " ++
        if result.errors.isEmpty then "Unknown error" else "; ".intercalate result.errors))

/-- What runs inside the lock, the completed event included. -/
def lockedBody :
    Proc (Run ω) Exc Report := do
  beginTransaction "DynDOLOD pipeline" svc.beginEnd
  let report ← onWorld svc.runAndValidate
  commitTransaction svc.commitEnd
  publish svc.publishCompleted fun _ => .completed true false
  pure report

/-- The `except` clauses; each publishes the completed event of a failure, but for
a cancellation. -/
def recover (exc : Exc) :
    Proc (Run ω) Exc Report :=
  match exc with
  | .lockAcquisition message =>
      finish svc.publishCompleted (errorDict ("Lock acquisition failed: " ++ message))
  | .cancelled => do
      safeMarkRolledBack svc.markEnd
      .raise .cancelled
  | .domain _ | .timeout | .other _ => do
      setRolledBack fun _ => true
      safeMarkRolledBack svc.markEnd
      finish svc.publishCompleted (errorDict exc.message)

def targetFiles (createSnapshot : Bool) (world : ω) : List String :=
  if createSnapshot && svc.dyndolodEspExists world then ["DynDOLOD Output/DynDOLOD.esp"] else []

/-- The locked part with its `except` clauses. -/
def locked (targetFiles : List String) :
    Proc (Run ω) Exc Report :=
  .handle (.asyncWith (onWorld (svc.enter targetFiles)) (fun exc => onWorld (svc.exit exc))
    svc.lockedBody) svc.recover

end

open Proc

section

variable (svc : DynDOLODPipelineService ω)

def executePipeline (createSnapshot : Bool) : Proc (Run ω) Exc Report := do
  publish svc.publishStarted fun _ => .started
  match ← (onWorld svc.ensureRunner).attempt with
  | .error (.domain message) => finish svc.publishCompleted (errorDict message)
  | .error exc => .raise exc
  | .ok () =>
      let targetFiles ← read fun s => svc.targetFiles createSnapshot s.world
      svc.locked targetFiles

/-- How the body ends once the transaction was begun, in the world alone. -/
def bodyEnd : Proc ω Exc Report := do
  let report ← svc.runAndValidate
  .reply (svc.commitEnd.reply "Failed to commit transaction")
  svc.publishCompleted
  pure report

/-- How the block ends then: the body, and `__aexit__`. -/
def lockedEnd : Proc ω Exc Report :=
  .asyncWith (pure ()) svc.exit svc.bodyEnd

/-- The tools returned and the commit's statement took effect. -/
def commits (world : ω) : Bool :=
  (svc.runAndValidate world).1.isOk && svc.commitEnd.ran

/-- The condition for a run that gets the lock in this world: if the transaction is
begun, the block returns, or it raises without the commit's statement having run,
and the statement that marks the transaction takes effect. -/
def Settles (world : ω) : Prop :=
  match svc.beginEnd with
  | .done .ok =>
      match (svc.lockedEnd world).1 with
      | .ok _ => True
      | .error (.lockAcquisition _) => False
      | .error _ => svc.commits world = false ∧ svc.markEnd.ran = true
  | ending => ending.ran = false

/-- The condition from the start of a DynDOLOD run. -/
def SettlesRun (createSnapshot : Bool) (world : ω) : Prop :=
  match (do
      svc.publishStarted
      svc.ensureRunner : Proc ω Exc Unit) world with
  | (.error _, _) => True
  | (.ok (), world) =>
      match svc.enter (svc.targetFiles createSnapshot world) world with
      | (.error _, _) => True
      | (.ok (), world) => svc.Settles world

/-- **Spec of the `except` clauses** for a run that knows no transaction. -/
theorem recover_unknown
    {status : Option TransactionStatus} (svc : DynDOLODPipelineService ω) (exc : Exc)
    (h : Unknown journal s status) : Ended journal (svc.recover exc s) status false false := by
  obtain ⟨htx, hstatus, hdemoted⟩ := h
  have hfinish : ∀ (message : String) (rolledBack : Bool),
      Ended journal (finish svc.publishCompleted (errorDict message)
        { s with rolledBack := rolledBack }) status false false := by
    intro message rolledBack
    have hended := @finish_ended ω journal { s with rolledBack := rolledBack }
      svc.publishCompleted (errorDict message)
    exact ⟨hended.status.trans hstatus, hended.demoted.trans hdemoted, hended.success⟩
  have hcaught : ∀ message : String, Ended journal
      ((do
        setRolledBack fun _ => true
        safeMarkRolledBack svc.markEnd
        finish svc.publishCompleted (errorDict message) : Proc (Run ω) Exc Report) s)
      status false false := by
    intro message
    have hsafe : safeMarkRolledBack svc.markEnd { s with rolledBack := true } =
        (.ok (), { s with rolledBack := true }) := safeMarkRolledBack_unknown svc.markEnd htx
    simp only [setRolledBack, bind_apply, modify_apply, hsafe]
    exact hfinish message true
  cases exc with
  | domain | timeout | other => exact hcaught _
  | lockAcquisition message => exact hfinish _ s.rolledBack
  | cancelled =>
      rw [recover,
        bind_of_ok (safeMarkRolledBack_unknown svc.markEnd htx)]
      exact ⟨hstatus, hdemoted, rfl⟩

/-- **Spec of the `except` clauses** for a run that has begun its transaction. -/
theorem recover_begun (exc : Exc) (h : Begun journal s status false) :
    Ended journal (svc.recover exc s)
      (some (if exc.isSafelyMarked && svc.markEnd.ran then .rolledBack else status))
      (exc.isSafelyMarked && svc.markEnd.ran && decide (status = .committed)) false := by
  have hfinish : ∀ {t : Run ω} {status' : TransactionStatus} {demoted : Bool} (message : String),
      Begun journal t status' demoted →
      Ended journal (finish svc.publishCompleted (errorDict message) t) (some status') demoted
        false := by
    intro t status' demoted message ht
    have hended := @finish_ended ω journal t svc.publishCompleted (errorDict message)
    exact ⟨hended.status.trans ht.status, hended.demoted.trans ht.demoted, hended.success⟩
  have hcaught : ∀ message : String, Ended journal
      ((do
        setRolledBack fun _ => true
        safeMarkRolledBack svc.markEnd
        finish svc.publishCompleted (errorDict message) : Proc (Run ω) Exc Report) s)
      (some (if svc.markEnd.ran then .rolledBack else status))
      (svc.markEnd.ran && decide (status = .committed)) false := by
    intro message
    have hlocal : Begun journal { s with rolledBack := true } status false :=
      ⟨h.txId, h.status, h.demoted⟩
    obtain ⟨r, t, hcall, _, hbegun⟩ := safeMarkRolledBack_spec svc.markEnd hlocal
    simp only [setRolledBack, bind_apply, modify_apply, hcall]
    cases r with
    | ok u => exact hfinish message hbegun
    | error exc => exact ⟨hbegun.status, hbegun.demoted, rfl⟩
  cases exc with
  | domain | timeout | other => exact hcaught _
  | lockAcquisition message => exact hfinish _ h
  | cancelled =>
      obtain ⟨r, t, hcall, _, hbegun⟩ := safeMarkRolledBack_spec svc.markEnd h
      rw [recover, bind_apply, hcall]
      cases r with
      | ok | error => exact ⟨hbegun.status, hbegun.demoted, rfl⟩

/-- The block of a run whose transaction was begun ends as its world part does, its
transaction committed or still pending. -/
theorem lockedBlock_begun
    {targetFiles : List String} (svc : DynDOLODPipelineService ω)
    (henter : svc.enter targetFiles s.world = (.ok (), t.world))
    (hbegin : beginTransaction "DynDOLOD pipeline" svc.beginEnd { s with world := t.world } =
      (.ok (), t)) (hbegun : Begun journal t .pending false) :
    ∃ u, asyncWith (onWorld (svc.enter targetFiles)) (fun exc => onWorld (svc.exit exc))
        svc.lockedBody s = ((svc.lockedEnd t.world).1, u) ∧
      Begun journal u (if svc.commits t.world then .committed else .pending) false := by
  have hbody : ∃ u, svc.lockedBody { s with world := t.world } =
      ((svc.bodyEnd t.world).1, u) ∧ u.world = (svc.bodyEnd t.world).2 ∧
      Begun journal u (if svc.commits t.world then .committed else .pending) false := by
    cases hrun : svc.runAndValidate t.world with
    | mk ended world =>
      have hkept : Begun journal { t with world := world } .pending false :=
        ⟨hbegun.txId, hbegun.status, hbegun.demoted⟩
      simp only [lockedBody, bodyEnd,
        commits, bind_apply, hbegin, onWorld, focus_apply,
        reply_apply, hrun]
      cases ended with
      | error exc => exact ⟨_, rfl, rfl, hkept⟩
      | ok report =>
          obtain ⟨u, hcommit, huworld, hu⟩ := commitTransaction_spec svc.commitEnd hkept
          simp only [hcommit, Except.isOk, Except.toBool, Bool.true_and]
          cases svc.commitEnd.reply "Failed to commit transaction" with
          | error exc => exact ⟨u, rfl, huworld, hu⟩
          | ok _ =>
              replace huworld : u.world = world := huworld
              simp only [publish, onWorld, bind_apply, focus_apply, huworld]
              cases hpublish : svc.publishCompleted world with
              | mk published world' =>
                cases published with
                | error exc => exact ⟨_, rfl, rfl, hu.txId, hu.status, hu.demoted⟩
                | ok _ => exact ⟨_, rfl, rfl, hu.txId, hu.status, hu.demoted⟩
  obtain ⟨u, hinner, huworld, hu⟩ := hbody
  exact ⟨_, asyncWith_onWorld henter hinner huworld, hu.txId, hu.status, hu.demoted⟩

theorem runAndValidate_success {svc : DynDOLODPipelineService ω}
    {report : Report}
    (h : svc.runAndValidate world = (.ok report, world')) : report.success = true := by
  obtain ⟨⟨success, outputPath, errors⟩, world₁, -, h⟩ := bind_eq_ok_iff.mp h
  cases success with
  | false => cases h
  | true =>
      cases outputPath with
      | none =>
          cases h
          rfl
      | some path =>
          obtain ⟨valid, world₂, -, h⟩ := bind_eq_ok_iff.mp h
          cases valid with
          | true =>
              cases h
              rfl
          | false => cases h

/-- A block that returns has committed, and its report is one of success. -/
theorem committed_of_lockedEnd {svc : DynDOLODPipelineService ω}
    {report : Report} (h : (svc.lockedEnd world).1 = .ok report) :
    report.success = true ∧ svc.commits world = true := by
  cases hbody : svc.bodyEnd world with
  | mk ended world₁ =>
    rw [lockedEnd] at h
    cases ended with
    | error exc =>
        rw [asyncWith_of_error (pure_apply () world) hbody, bind_apply] at h
        split at h <;> cases h
    | ok returned =>
        have hreturned : returned = report := by
          rw [asyncWith_of_ok (pure_apply () world) hbody, bind_apply] at h
          split at h
          · cases h
            rfl
          · cases h
        subst hreturned
        cases hrun : svc.runAndValidate world with
        | mk ran world₂ =>
          simp only [bodyEnd, bind_apply, hrun] at hbody
          cases ran with
          | error exc => cases hbody
          | ok first =>
              have hcommit : ∃ u, svc.commitEnd.reply "Failed to commit transaction" = .ok u := by
                simp only [reply_apply] at hbody
                cases hreply : svc.commitEnd.reply "Failed to commit transaction" with
                | ok u => exact ⟨u, rfl⟩
                | error exc =>
                    rw [hreply] at hbody
                    cases hbody
              have hsame : first = returned := by
                obtain ⟨u, hreply⟩ := hcommit
                simp only [reply_apply, hreply] at hbody
                split at hbody
                · cases hbody
                  rfl
                · cases hbody
              have hran : svc.commitEnd.ran = true := by
                obtain ⟨u, hreply⟩ := hcommit
                cases hend : svc.commitEnd with
                | cancelled ran =>
                    rw [hend] at hreply
                    cases hreply
                | done outcome =>
                    rw [hend] at hreply
                    cases outcome with
                    | ok => rfl
                    | executeError | commitError => cases hreply
              subst hsame
              refine ⟨runAndValidate_success hrun, ?_⟩
              rw [commits, hrun, hran]
              rfl

/-- **A DynDOLOD run that gets the lock settles its transaction exactly when** it
meets `Settles`. -/
theorem locked_closed_iff (targetFiles : List String)
    (henter : svc.enter targetFiles s.world = (.ok (), world)) (htx : s.txId = none)
    (hdemoted : s.demoted = false) :
    TransactionClosed s.journal (svc.locked targetFiles s) ↔ svc.Settles world := by
  unfold locked
  rcases beginTransaction_spec s.journal "DynDOLOD pipeline" svc.beginEnd
      (s := { s with world := world }) rfl htx hdemoted with
    ⟨t, hbegin, hworld, hending, hbegun⟩ | ⟨exc, t, hbegin, hworld, hending, hunknown⟩
  · replace hworld : t.world = world := hworld
    subst hworld
    obtain ⟨u, hblock, hu⟩ := svc.lockedBlock_begun henter hbegin hbegun
    simp only [Settles, hending]
    cases hend : (svc.lockedEnd t.world).1 with
    | ok report =>
        obtain ⟨hsuccess, hcommits⟩ := committed_of_lockedEnd hend
        rw [hend] at hblock
        rw [hcommits] at hu
        have hended : Ended s.journal (.ok report, u) (some .committed) false true :=
          ⟨hu.status, hu.demoted, hsuccess⟩
        rw [handle_of_ok hblock, hended.closed_committed_iff]
        exact iff_of_true rfl trivial
    | error exc =>
        rw [hend] at hblock
        have hended := svc.recover_begun exc hu
        rw [handle_of_error hblock]
        cases hcommits : svc.commits t.world with
        | true =>
            rw [hcommits] at hended
            refine iff_of_false hended.not_closed_committed ?_
            cases exc <;> simp
        | false =>
            rw [hcommits] at hended
            rw [hended.closed_pending_iff]
            cases exc <;> simp [Exc.isSafelyMarked]
  · have hbody : svc.lockedBody { s with world := world } = (.error exc, t) :=
      bind_of_error hbegin
    obtain ⟨exc', world', hblock⟩ := asyncWith_onWorld_raised henter hbody
    have hkept : Unknown s.journal { t with world := world' }
        (if svc.beginEnd.ran then some .pending else none) :=
      ⟨hunknown.txId, hunknown.status, hunknown.demoted⟩
    have hended := svc.recover_unknown exc' hkept
    rw [handle_of_error hblock, hended.closed_unknown_iff]
    cases hend : svc.beginEnd with
    | cancelled ran => simp [Settles, hend]
    | done outcome =>
        cases outcome with
        | ok => exact absurd hend hending
        | executeError | commitError => simp [Settles, hend]

theorem locked_closed_of_unlocked {exc : Exc}
    (svc : DynDOLODPipelineService ω) (targetFiles : List String)
    (henter : svc.enter targetFiles s.world = (.error exc, world)) (htx : s.txId = none)
    (hdemoted : s.demoted = false) :
    TransactionClosed s.journal (svc.locked targetFiles s) := by
  have hwith : asyncWith (onWorld (svc.enter targetFiles))
      (fun exc => onWorld (svc.exit exc)) svc.lockedBody s =
        (.error exc, { s with world := world }) := by
    apply asyncWith_of_enter_error
    simp only [onWorld, focus_apply, henter]
  have hunknown : Unknown s.journal { s with world := world } none :=
    ⟨htx, ownStatus_self s.journal rfl, hdemoted⟩
  have hended : Ended s.journal (svc.locked targetFiles s)
      (if false then some .pending else none) false false := by
    rw [locked, handle_of_error hwith]
    exact svc.recover_unknown exc hunknown
  exact hended.closed_unknown_iff.mpr rfl

/-- **A DynDOLOD run settles its transaction exactly when** it meets `SettlesRun`. -/
theorem executePipeline_closed_iff
    (createSnapshot : Bool) (journal : OperationJournal) (world : ω) :
    TransactionClosed journal (svc.executePipeline createSnapshot (Run.initial journal world)) ↔
      svc.SettlesRun createSnapshot world := by
  unfold executePipeline SettlesRun
  simp only [publish, bind_apply, onWorld, focus_apply, Run.initial]
  cases hstarted : svc.publishStarted world with
  | mk started world₁ =>
    cases started with
    | error exc => exact iff_of_true (closed_of_no_transaction rfl rfl rfl) trivial
    | ok _ =>
        simp only [modify_apply, attempt_apply, focus_apply]
        cases hensure : svc.ensureRunner world₁ with
        | mk ensured world₂ =>
          cases ensured with
          | error exc =>
              refine iff_of_true ?_ trivial
              cases exc with
              | domain message => exact finish_closed_of_no_transaction _ rfl rfl rfl
              | timeout | lockAcquisition | other | cancelled
                  => exact closed_of_no_transaction rfl rfl rfl
          | ok _ =>
              dsimp only [read_apply, bind_apply]
              cases henter : svc.enter (svc.targetFiles createSnapshot world₂) world₂ with
              | mk entered world₃ =>
                cases entered with
                | error exc =>
                    exact iff_of_true (@locked_closed_of_unlocked ω
                      { Run.initial journal world₂ with events := [.started] } world₃ exc svc _
                      henter rfl rfl) trivial
                | ok _ =>
                    exact @locked_closed_iff ω
                      { Run.initial journal world₂ with events := [.started] } world₃ svc _
                      henter rfl rfl

end

end DynDOLODPipelineService

end SkyClaw.Tools
