import SkyClaw.Tools.PipelineRun

/-!
# The Synthesis and xEdit pipelines

Both services run their tool inside a `SnapshotTransactionLock` and commit the
journal transaction once the lock is gone; their `except` clauses are the same.
`runTransaction` is that common text.  What `__aenter__`, `__aexit__`, the tool
and the event bus do is a parameter, so the results hold for every such world.

`runTransaction_closed_iff` is the exact condition under which a run settles its
transaction as it reports.
-/

namespace SkyClaw.Tools

open Db (DbOutcome)
open Db.Journal

/-- What the services are built from. -/
structure Collaborators (ω : Type) where
  publishStarted : Proc ω Exc Unit
  publishCompleted : Proc ω Exc Unit
  /-- `SnapshotTransactionLock.__aenter__` on these target files. -/
  enter : List String → Proc ω Exc Unit
  /-- `SnapshotTransactionLock.__aexit__`. -/
  exit : Option Exc → Proc ω Exc Unit
  beginEnd : JournalEnd
  commitEnd : JournalEnd
  markEnd : JournalEnd

variable {ω : Type}

/-- The `async with SnapshotTransactionLock(…)` block. -/
def lockedBlock (c : Collaborators ω) (description : String) (targetFiles : List String)
    (body : Proc ω Exc Report) : Proc (Run ω) Exc Report :=
  .asyncWith (onWorld (c.enter targetFiles)) (fun exc => onWorld (c.exit exc)) do
    setInLockContext true
    beginTransaction description c.beginEnd
    onWorld body

/-- The block and the commit after it. -/
def lockedTransaction (c : Collaborators ω) (description : String) (targetFiles : List String)
    (body : Proc ω Exc Report) : Proc (Run ω) Exc Report := do
  let report ← lockedBlock c description targetFiles body
  setInLockContext false
  commitTransaction c.commitEnd
  pure report

/-- The `except` clauses. -/
def recover (c : Collaborators ω) (targetFiles : List String) (exc : Exc) :
    Proc (Run ω) Exc Report :=
  match exc with
  | .domain message => do
      setRolledBack fun _ => !targetFiles.isEmpty
      markTransactionRolledBack c.markEnd
      pure { success := false, errors := [message] }
  | .lockAcquisition message =>
      pure { success := false, errors := ["Lock contention: " ++ message] }
  | .cancelled => .raise .cancelled
  | .timeout | .other _ => do
      setRolledBack fun s => s.inLockContext && !targetFiles.isEmpty
      safeMarkRolledBack c.markEnd
      pure { success := false, errors := ["Unexpected error: " ++ exc.message] }

/-- From the lock to the completed event. -/
def runTransaction (c : Collaborators ω) (description : String) (targetFiles : List String)
    (body : Proc ω Exc Report) : Proc (Run ω) Exc Report := do
  let report ← (lockedTransaction c description targetFiles body).handle (recover c targetFiles)
  finish c.publishCompleted report

/-! ## Settling the transaction -/

/-- An `except` clause marks the transaction for this exception. -/
def Exc.isMarked : Exc → Bool
  | .domain _ | .timeout | .other _ => true
  | .lockAcquisition _ | .cancelled => false

open Proc

/-- How the block ends once the transaction was begun: the tool, then `__aexit__`. -/
def Collaborators.blockEnd (c : Collaborators ω) (body : Proc ω Exc Report) (world : ω) :
    Except Exc Report × ω :=
  asyncWith (pure ()) c.exit body world

/-- The condition for a run that gets the lock in this world: the statement of
`begin_transaction` does not take effect unless the call returns; and then either
the block returns, the commit returns and so does the publication of the
completed event, or the commit's statement does not run, or the block raises
something an `except` clause marks, and in these two cases the statement that
marks takes effect. -/
def Collaborators.Settles (c : Collaborators ω) (body : Proc ω Exc Report) (world : ω) : Prop :=
  match c.beginEnd with
  | .done .ok =>
      match c.blockEnd body world with
      | (.ok _, world') =>
          match c.commitEnd with
          | .done .ok => (c.publishCompleted world').1.isOk = true
          | .done .executeError => c.markEnd.ran = true
          | _ => False
      | (.error exc, _) => exc.isMarked = true ∧ c.markEnd.ran = true
  | ending => ending.ran = false

/-- The same from before the lock: nothing is asked of a run that does not get it. -/
def Collaborators.SettlesIfLocked (c : Collaborators ω) (targetFiles : List String)
    (body : Proc ω Exc Report) (world : ω) : Prop :=
  match c.enter targetFiles world with
  | (.error _, _) => True
  | (.ok (), world') => c.Settles body world'

variable {journal : OperationJournal} {s : Run ω} {status : Option TransactionStatus}

/-- **Spec of the `except` clauses** for a run that knows no transaction. -/
theorem recover_unknown (c : Collaborators ω) (targetFiles : List String)
    (exc : Exc) (h : Unknown journal s status) :
    ∃ r t, recover c targetFiles exc s = (r, t) ∧ reportsSuccess r = false ∧
      Unknown journal t status := by
  obtain ⟨htx, hstatus, hdemoted⟩ := h
  have hmark : ∀ rolledBack : Bool,
      markTransactionRolledBack c.markEnd { s with rolledBack := rolledBack } =
        (.ok (), { s with rolledBack := rolledBack }) :=
    fun _ => markTransactionRolledBack_unknown c.markEnd htx
  have hsafe : ∀ rolledBack : Bool,
      safeMarkRolledBack c.markEnd { s with rolledBack := rolledBack } =
        (.ok (), { s with rolledBack := rolledBack }) :=
    fun _ => safeMarkRolledBack_unknown c.markEnd htx
  cases exc <;>
    simp only [recover, setRolledBack, bind_apply, modify_apply, pure_apply,
      raise_apply, hmark, hsafe] <;>
    exact ⟨_, _, rfl, rfl, htx, hstatus, hdemoted⟩

/-- **Spec of the `except` clauses** for a run that has begun its transaction. -/
theorem recover_begun {status : TransactionStatus}
    {demoted : Bool} (c : Collaborators ω) (targetFiles : List String) (exc : Exc)
    (h : Begun journal s status demoted) :
    ∃ r t, recover c targetFiles exc s = (r, t) ∧ reportsSuccess r = false ∧
      Begun journal t (if exc.isMarked && c.markEnd.ran then .rolledBack else status)
        (demoted || (exc.isMarked && c.markEnd.ran && decide (status = .committed))) := by
  have hlocal : ∀ rolledBack : Bool,
      Begun journal { s with rolledBack := rolledBack } status demoted :=
    fun _ => ⟨h.txId, h.status, h.demoted⟩
  have hguarded : ∀ (rolledBack : Run ω → Bool) (report : Report), report.success = false →
      ∃ r t, (do
          setRolledBack rolledBack
          safeMarkRolledBack c.markEnd
          pure report : Proc (Run ω) Exc Report) s = (r, t) ∧ reportsSuccess r = false ∧
        Begun journal t (if c.markEnd.ran then .rolledBack else status)
          (demoted || (c.markEnd.ran && decide (status = .committed))) := by
    intro rolledBack report hreport
    obtain ⟨r, t, hcall, _, hbegun⟩ := safeMarkRolledBack_spec c.markEnd (hlocal (rolledBack s))
    simp only [setRolledBack, bind_apply, modify_apply, hcall]
    cases r with
    | ok u => exact ⟨_, t, rfl, hreport, hbegun⟩
    | error exc => exact ⟨_, t, rfl, rfl, hbegun⟩
  cases exc with
  | domain message =>
      obtain ⟨t, hcall, _, hbegun⟩ :=
        markTransactionRolledBack_spec c.markEnd (hlocal (!targetFiles.isEmpty))
      simp only [recover, setRolledBack, bind_apply, modify_apply, hcall]
      cases c.markEnd.reply "Failed to mark transaction" with
      | ok | error => exact ⟨_, t, rfl, rfl, hbegun⟩
  | timeout | other => exact hguarded _ _ rfl
  | lockAcquisition | cancelled => exact ⟨_, s, rfl, rfl, by simpa [Exc.isMarked] using h⟩

variable {t : Run ω} {c : Collaborators ω} {description : String} {body : Proc ω Exc Report}

/-- The block of a run whose transaction was begun ends as its world part does, and
leaves all else alone. -/
theorem lockedBlock_begun
    {targetFiles : List String}
    (henter : c.enter targetFiles s.world = (.ok (), t.world))
    (hbegin : beginTransaction description c.beginEnd
      { s with world := t.world, inLockContext := true } = (.ok (), t)) :
    lockedBlock c description targetFiles body s =
      ((c.blockEnd body t.world).1, { t with world := (c.blockEnd body t.world).2 }) := by
  have hinner : (do
      setInLockContext true
      beginTransaction description c.beginEnd
      onWorld body : Proc (Run ω) Exc Report) { s with world := t.world } =
        ((body t.world).1, { t with world := (body t.world).2 }) := by
    simp only [setInLockContext, bind_apply, modify_apply, hbegin, onWorld,
      focus_apply]
  exact @asyncWith_onWorld ω Report s _ { t with world := (body t.world).2 } t.world (c.enter targetFiles) c.exit body henter hinner rfl

variable {world : ω}

theorem lockedBlock_unknown {exc : Exc}
    {targetFiles : List String}
    (henter : c.enter targetFiles s.world = (.ok (), world))
    (hbegin : beginTransaction description c.beginEnd
      { s with world := world, inLockContext := true } = (.error exc, t))
    (hunknown : Unknown journal t status) :
    ∃ exc' u, lockedBlock c description targetFiles body s = (.error exc', u) ∧
      Unknown journal u status := by
  have hinner : (do
      setInLockContext true
      beginTransaction description c.beginEnd
      onWorld body : Proc (Run ω) Exc Report) { s with world := world } = (.error exc, t) := by
    simp only [setInLockContext, bind_apply, modify_apply, hbegin]
  obtain ⟨exc', world', hblock⟩ := asyncWith_onWorld_raised henter hinner
  exact ⟨exc', _, hblock, hunknown.txId, hunknown.status, hunknown.demoted⟩

theorem runTransaction_unknown
    {targetFiles : List String} {exc : Exc}
    (htry : lockedTransaction c description targetFiles body s = (.error exc, t))
    (h : Unknown journal t status) :
    Ended journal (runTransaction c description targetFiles body s) status false false := by
  obtain ⟨r, u, hrecover, hfailed, hunknown⟩ := recover_unknown c targetFiles exc h
  have hrun : (lockedTransaction c description targetFiles body).handle
      (recover c targetFiles) s = (r, u) := by
    rw [handle_of_error htry, hrecover]
  have hended := @finish_of_failed ω journal s r u _ c.publishCompleted hrun hfailed
  rw [hunknown.status, hunknown.demoted] at hended
  exact hended

theorem runTransaction_begun
    {status : TransactionStatus}
    {targetFiles : List String} {exc : Exc}
    (htry : lockedTransaction c description targetFiles body s = (.error exc, t))
    (h : Begun journal t status false) :
    Ended journal (runTransaction c description targetFiles body s)
      (some (if exc.isMarked && c.markEnd.ran then .rolledBack else status))
      (exc.isMarked && c.markEnd.ran && decide (status = .committed)) false := by
  obtain ⟨r, u, hrecover, hfailed, hbegun⟩ := recover_begun c targetFiles exc h
  have hrun : (lockedTransaction c description targetFiles body).handle
      (recover c targetFiles) s = (r, u) := by
    rw [handle_of_error htry, hrecover]
  have hended := @finish_of_failed ω journal s r u _ c.publishCompleted hrun hfailed
  rw [hbegun.status, hbegun.demoted, Bool.false_or] at hended
  exact hended

variable {world' : ω}

/-- The commit after the lock, the publication of its success, and the recovery if
it raises. -/
theorem committing_closed_iff {u : Run ω} {targetFiles : List String} {report : Report}
    (hbody : ∀ world report world', body world = (.ok report, world') → report.success = true)
    (hend : c.blockEnd body world = (.ok report, world'))
    (hblock : lockedBlock c description targetFiles body s = (.ok report, u))
    (hworld : u.world = world') (hbegun : Begun journal u .pending false) :
    TransactionClosed journal (runTransaction c description targetFiles body s) ↔
      match c.commitEnd with
      | .done .ok => (c.publishCompleted world').1.isOk = true
      | .done .executeError => c.markEnd.ran = true
      | _ => False := by
  have hsuccess : report.success = true := by
    cases hreturn : body world with
    | mk r w =>
      cases r with
      | error exc =>
          rw [Collaborators.blockEnd, asyncWith_of_error (pure_apply () world) hreturn,
            bind_apply] at hend
          split at hend <;> cases hend
      | ok returned =>
          rw [Collaborators.blockEnd, asyncWith_of_ok (pure_apply () world) hreturn,
            bind_apply] at hend
          split at hend
          · cases hend
            exact hbody world report w hreturn
          · cases hend
  have hleft : Begun journal { u with inLockContext := false } .pending false :=
    ⟨hbegun.txId, hbegun.status, hbegun.demoted⟩
  obtain ⟨v, hcommit, hvworld, hv⟩ := commitTransaction_spec c.commitEnd hleft
  have htry : lockedTransaction c description targetFiles body s =
      ((c.commitEnd.reply "Failed to commit transaction").map fun _ => report, v) := by
    rw [lockedTransaction, bind_of_ok hblock]
    simp only [setInLockContext, bind_apply, modify_apply, hcommit]
    cases c.commitEnd.reply "Failed to commit transaction" <;> rfl
  cases hending : c.commitEnd with
  | done outcome =>
      rw [hending] at htry hv
      cases outcome with
      | ok =>
          have hfinish := @finish_ended ω journal v c.publishCompleted report
          rw [hv.status, hv.demoted, hsuccess, Bool.true_and, hvworld, hworld] at hfinish
          have hrun : runTransaction c description targetFiles body s =
              finish c.publishCompleted report v :=
            bind_of_ok (handle_of_ok htry)
          rw [hrun]
          exact hfinish.closed_committed_iff
      | executeError =>
          have hended := runTransaction_begun htry hv
          rw [hended.closed_pending_iff, Bool.and_eq_true]
          exact and_iff_right rfl
      | commitError =>
          exact iff_of_false (runTransaction_begun htry hv).not_closed_committed (fun h => h)
  | cancelled ran =>
      rw [hending] at htry hv
      refine iff_of_false ?_ (fun h => h)
      cases ran with
      | true => exact (runTransaction_begun htry hv).not_closed_committed
      | false =>
          rw [(runTransaction_begun htry hv).closed_pending_iff]
          simp [Exc.isMarked]

/-- **A run settles its transaction exactly when** its collaborators meet
`SettlesIfLocked`. -/
theorem runTransaction_closed_iff (c : Collaborators ω) (description : String)
    (targetFiles : List String)
    (hbody : ∀ world report world', body world = (.ok report, world') → report.success = true)
    (htx : s.txId = none) (hdemoted : s.demoted = false) :
    TransactionClosed s.journal (runTransaction c description targetFiles body s) ↔
      c.SettlesIfLocked targetFiles body s.world := by
  unfold Collaborators.SettlesIfLocked
  cases henter : c.enter targetFiles s.world with
  | mk entered world =>
    cases entered with
    | error exc =>
        have htry : lockedTransaction c description targetFiles body s =
            (.error exc, { s with world := world }) := by
          refine bind_of_error (asyncWith_of_enter_error ?_)
          simp only [onWorld, focus_apply, henter]
        have hunknown : Unknown s.journal { s with world := world } none :=
          ⟨htx, ownStatus_self s.journal rfl, hdemoted⟩
        have hended : Ended s.journal (runTransaction c description targetFiles body s)
            (if false then some .pending else none) false false :=
          runTransaction_unknown htry hunknown
        exact iff_of_true (hended.closed_unknown_iff.mpr rfl) trivial
    | ok _ =>
        rcases beginTransaction_spec s.journal description c.beginEnd
            (s := { s with world := world, inLockContext := true }) rfl htx hdemoted with
          ⟨t, hbegin, hworld, hending, hbegun⟩ | ⟨exc, t, hbegin, hworld, hending, hunknown⟩
        · replace hworld : t.world = world := hworld
          subst hworld
          have hblock := @lockedBlock_begun ω s t c description body targetFiles henter hbegin
          have hu : Begun s.journal { t with world := (c.blockEnd body t.world).2 } .pending false :=
            ⟨hbegun.txId, hbegun.status, hbegun.demoted⟩
          simp only [Collaborators.Settles, hending]
          cases hend : c.blockEnd body t.world with
          | mk ended world' =>
            rw [hend] at hblock hu
            cases ended with
            | error exc =>
                have htry : lockedTransaction c description targetFiles body s =
                    (.error exc, { t with world := world' }) := bind_of_error hblock
                rw [(runTransaction_begun htry hu).closed_pending_iff, Bool.and_eq_true]
            | ok report =>
                exact committing_closed_iff hbody hend hblock rfl hu
        · obtain ⟨exc', u, hblock, hu⟩ :=
            @lockedBlock_unknown ω s.journal s _ t c description body world exc targetFiles henter hbegin hunknown
          have htry : lockedTransaction c description targetFiles body s = (.error exc', u) :=
            bind_of_error hblock
          rw [(runTransaction_unknown htry hu).closed_unknown_iff]
          cases hend : c.beginEnd with
          | cancelled ran => simp [Collaborators.Settles, hend]
          | done outcome =>
              cases outcome with
              | ok => exact absurd hend hending
              | executeError | commitError => simp [Collaborators.Settles, hend]

/-! ## `SynthesisPipelineService` -/

/-- What `run_pipeline` returns, as far as the service reads it. -/
structure SynthesisResult where
  success : Bool
  outputEsp : Option String
  errors : List String

/-- The service: its collaborators, `_ensure_synthesis_runner` with
`_ensure_patcher_pipeline` (which yields the enabled patchers), the existence test
on the target and the runner. -/
structure SynthesisPipelineService (ω : Type) extends Collaborators ω where
  ensureRunner : Proc ω Exc (List String)
  targetExists : ω → Bool
  runPipeline : List String → Proc ω Exc SynthesisResult
  validateSynthesisEsp : String → Proc ω Exc Bool

/-- `runner._config.output_path / "Synthesis.esp"`. -/
def targetEsp : String := "Synthesis.esp"

def errorDict (message : String) : Report := { success := false, errors := [message] }

section

variable (svc : SynthesisPipelineService ω)

/-- The body of the block: run the patchers, validate the plugin, raise on failure. -/
def SynthesisPipelineService.runAndValidate (patcherIds : List String) : Proc ω Exc Report := do
  let result ← svc.runPipeline patcherIds
  match result.success, result.outputEsp with
  | true, some esp =>
      if ← svc.validateSynthesisEsp esp then pure { success := true, errors := result.errors }
      else .raise (.domain "ESP validation failed: corrupted or invalid")
  | true, none => pure { success := true, errors := result.errors }
  | false, _ =>
      .raise (.domain
        (if result.errors.isEmpty then "Pipeline failed" else "; ".intercalate result.errors))

/-- `target_files`: the plugin, if a snapshot is wanted and it exists. -/
def SynthesisPipelineService.targetFiles (createSnapshot : Bool) (world : ω) : List String :=
  if createSnapshot && svc.targetExists world then [targetEsp] else []

def SynthesisPipelineService.executePipeline
    (patcherIds : Option (List String)) (createSnapshot : Bool) : Proc (Run ω) Exc Report := do
  match ← (onWorld svc.ensureRunner).attempt with
  | .error (.domain message) => pure (errorDict message)
  | .error exc => .raise exc
  | .ok enabled =>
      match patcherIds.getD enabled with
      | [] => pure (errorDict "No patchers configured or enabled")
      | first :: rest => do
          publish svc.publishStarted fun _ => .started
          let targetFiles ← read fun s => svc.targetFiles createSnapshot s.world
          runTransaction svc.toCollaborators "synthesis_pipeline" targetFiles
            (svc.runAndValidate (first :: rest))

/-- The condition from the start of a Synthesis run; a run that ends before the
lock is asked nothing. -/
def SynthesisPipelineService.SettlesRun
    (patcherIds : Option (List String)) (createSnapshot : Bool) (world : ω) : Prop :=
  match svc.ensureRunner world with
  | (.error _, _) => True
  | (.ok enabled, world) =>
      match patcherIds.getD enabled, svc.publishStarted world with
      | first :: rest, (.ok (), world) =>
          svc.SettlesIfLocked (svc.targetFiles createSnapshot world)
            (svc.runAndValidate (first :: rest)) world
      | _, _ => True

theorem runAndValidate_success {svc : SynthesisPipelineService ω} {patcherIds : List String}
    {report : Report}
    (h : svc.runAndValidate patcherIds world = (.ok report, world')) : report.success = true := by
  obtain ⟨⟨success, outputEsp, errors⟩, world₁, -, h⟩ := bind_eq_ok_iff.mp h
  cases success with
  | false => cases h
  | true =>
      cases outputEsp with
      | none =>
          cases h
          rfl
      | some esp =>
          obtain ⟨valid, world₂, -, h⟩ := bind_eq_ok_iff.mp h
          cases valid with
          | true =>
              cases h
              rfl
          | false => cases h

/-- **A Synthesis run settles its transaction exactly when** it meets `SettlesRun`. -/
theorem executePipeline_closed_iff
    (patcherIds : Option (List String)) (createSnapshot : Bool) (journal : OperationJournal)
    (world : ω) :
    TransactionClosed journal
        (svc.executePipeline patcherIds createSnapshot (Run.initial journal world)) ↔
      svc.SettlesRun patcherIds createSnapshot world := by
  unfold SynthesisPipelineService.executePipeline SynthesisPipelineService.SettlesRun
  simp only [bind_apply, attempt_apply, onWorld, focus_apply, Run.initial]
  cases hinit : svc.ensureRunner world with
  | mk ended world₁ =>
    cases ended with
    | error exc =>
        refine iff_of_true ?_ trivial
        cases exc <;> exact closed_of_no_transaction rfl rfl rfl
    | ok enabled =>
        dsimp only
        generalize patcherIds.getD enabled = patchers
        cases patchers with
        | nil => exact iff_of_true (closed_of_no_transaction rfl rfl rfl) trivial
        | cons first rest =>
            simp only [publish, bind_apply, onWorld, focus_apply]
            cases hstarted : svc.publishStarted world₁ with
            | mk started world₂ =>
              cases started with
              | error exc => exact iff_of_true (closed_of_no_transaction rfl rfl rfl) trivial
              | ok _ =>
                  exact @runTransaction_closed_iff ω
                    { Run.initial journal world₂ with events := [.started] }
                    (svc.runAndValidate (first :: rest)) svc.toCollaborators "synthesis_pipeline"
                    (svc.targetFiles createSnapshot world₂) (fun _ _ _ h => runAndValidate_success h) rfl rfl

end

/-! ## `XEditPipelineService` -/

/-- `PatchResult`, as far as the service reads it. -/
structure PatchResult where
  success : Bool
  outputPath : Option String
  xeditExitCode : Int
  error : Option String

/-- `ScriptExecutionResult`, likewise. -/
structure ScriptExecutionResult where
  exitCode : Int
  stderr : String

/-- The service: its collaborators, `_ensure_patch_orchestrator`, `resolve` of the
orchestrator on the report, and `execute_patch` of the xEdit runner if there is one. -/
structure XEditPipelineService (ω : Type) extends Collaborators ω where
  ensurePatchOrchestrator : Proc ω Exc Unit
  resolve : Proc ω Exc PatchResult
  executeScript : Option (Proc ω Exc ScriptExecutionResult)

section

variable (svc : XEditPipelineService ω)

/-- Run the script of a resolved patch when it has an output and there is a runner. -/
def XEditPipelineService.runScript (resolved : PatchResult) :
    Proc ω Exc PatchResult :=
  match resolved.success, resolved.outputPath, svc.executeScript with
  | true, some outputPath, some executeScript => do
      let script ← executeScript
      pure {
        success := script.exitCode == 0
        outputPath := some outputPath
        xeditExitCode := script.exitCode
        error := if script.exitCode == 0 then none else some script.stderr }
  | _, _, _ => pure resolved

/-- `if result is not None and not result.success: raise PatchingError(…)`. -/
def raiseIfFailed (result : PatchResult) : Proc ω Exc Report :=
  match result.success with
  | true => pure { success := true, errors := [] }
  | false =>
      .raise (.domain ("xEdit falló con código " ++ toString result.xeditExitCode ++ ": " ++
        result.error.getD "None"))

/-- The body of the block. -/
def XEditPipelineService.resolveAndRun : Proc ω Exc Report := do
  let resolved ← svc.resolve
  let result ← svc.runScript resolved
  raiseIfFailed result

def XEditPipelineService.executePatch (targetPlugin : String) :
    Proc (Run ω) Exc Report := do
  match ← (onWorld svc.ensurePatchOrchestrator).attempt with
  | .error (.domain message) => pure (errorDict message)
  | .error exc => .raise exc
  | .ok () =>
      publish svc.publishStarted fun _ => .started
      runTransaction svc.toCollaborators "xedit_patch" [targetPlugin] svc.resolveAndRun

/-- The condition from the start of an xEdit run. -/
def XEditPipelineService.SettlesRun (targetPlugin : String) (world : ω) : Prop :=
  match svc.ensurePatchOrchestrator world with
  | (.error _, _) => True
  | (.ok (), world) =>
      match svc.publishStarted world with
      | (.error _, _) => True
      | (.ok (), world) => svc.SettlesIfLocked [targetPlugin] svc.resolveAndRun world

theorem raiseIfFailed_success {result : PatchResult} {report : Report}
    (h : raiseIfFailed result world = (.ok report, world')) : report.success = true := by
  unfold raiseIfFailed at h
  cases hsuccess : result.success with
  | true =>
      rw [hsuccess] at h
      cases h
      rfl
  | false =>
      rw [hsuccess] at h
      cases h

theorem resolveAndRun_success {svc : XEditPipelineService ω} {report : Report}
    (h : svc.resolveAndRun world = (.ok report, world')) : report.success = true := by
  obtain ⟨resolved, world₁, -, h⟩ := bind_eq_ok_iff.mp h
  obtain ⟨result, world₂, -, h⟩ := bind_eq_ok_iff.mp h
  exact raiseIfFailed_success h

/-- **An xEdit run settles its transaction exactly when** it meets `SettlesRun`. -/
theorem executePatch_closed_iff (targetPlugin : String) (journal : OperationJournal) (world : ω) :
    TransactionClosed journal (svc.executePatch targetPlugin (Run.initial journal world)) ↔
      svc.SettlesRun targetPlugin world := by
  unfold XEditPipelineService.executePatch XEditPipelineService.SettlesRun
  simp only [bind_apply, attempt_apply, onWorld, focus_apply, Run.initial]
  cases hensure : svc.ensurePatchOrchestrator world with
  | mk ended world₁ =>
    cases ended with
    | error exc =>
        refine iff_of_true ?_ trivial
        cases exc <;> exact closed_of_no_transaction rfl rfl rfl
    | ok _ =>
        simp only [publish, bind_apply, onWorld, focus_apply]
        cases hstarted : svc.publishStarted world₁ with
        | mk started world₂ =>
          cases started with
          | error exc => exact iff_of_true (closed_of_no_transaction rfl rfl rfl) trivial
          | ok _ =>
              exact @runTransaction_closed_iff ω
                { Run.initial journal world₂ with events := [.started] } svc.resolveAndRun
                svc.toCollaborators "xedit_patch" [targetPlugin] (fun _ _ _ h => resolveAndRun_success h) rfl rfl

end

end SkyClaw.Tools
