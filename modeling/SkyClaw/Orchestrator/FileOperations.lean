import SkyClaw.Db.Journal
import SkyClaw.Db.SnapshotTransactionLock

/-!
# Concurrent `execute_file_operation` calls

Any number of calls of the sync engine, numbered by `Nat`, each on its own target
file, share one journal and one snapshot directory.  A step is what happens
between two suspension points of one call.  All calls log under the agent
`sync_engine`, and the rollback of a failed call asks the journal for the last
operation *of that agent*, restores that entry's snapshot, if it has one, and
marks that entry.

No step of any call marks a transaction as rolled back, so no call whose
operation raised meets what is expected of it (`failuresIsolated_iff`); and a
call that fails after another one succeeded undoes the other's work
(`failuresIsolated_counterexample`).
-/

namespace SkyClaw.Orchestrator.FileOperations

open Db (DbOutcome)
open Db.Journal Function
open Db.Snapshots

/-- `self._agent_id` of the sync engine. -/
def agentId : String := "sync_engine"

/-- The arguments of one call. -/
structure CallArgs where
  operationType : OperationType
  targetPath : String
  description : String

/-- The two journal ids a call holds from `begin_operation` on. -/
structure CallIds where
  transactionId : Nat
  entryId : Nat
deriving DecidableEq

/-- Where a call stands. -/
inductive CallPhase
  | idle
  /-- `begin_transaction` returned. -/
  | begun (transactionId : Nat)
  /-- The target was absent, or its snapshot was taken. -/
  | prepared (transactionId : Nat) (snapshot : Option SnapshotInfo)
  /-- `await operation`. -/
  | running (ids : CallIds)
  | completing (ids : CallIds)
  | committing (ids : CallIds)
  /-- The `except Exception` clause, before `fail_operation`; `operationRaised`
  tells a failed operation from a failed journal call. -/
  | failing (ids : CallIds) (operationRaised : Bool)
  /-- `undo_last_operation`, before `get_last_operation`. -/
  | undoing (ids : CallIds) (operationRaised : Bool)
  | restoring (ids : CallIds) (operationRaised : Bool) (found : Nat) (entry : JournalEntry)
  | marking (ids : CallIds) (operationRaised : Bool) (found : Nat)
  | returned (ids : CallIds)
  /-- An exception left the call before `begin_operation` returned. -/
  | aborted
  /-- An exception left the call later on. -/
  | raised (ids : CallIds) (operationRaised : Bool)

/-- The journal, the disk, the clock in seconds and the calls.  `before` and
`touched` are history: the target's content when the call began, and the entries
and files a call's steps wrote. -/
structure State (Content : Type) where
  journal : OperationJournal
  disk : Disk Content
  now : Nat
  calls : Nat → CallPhase
  before : Nat → Option Content
  touchedEntries : Nat → List Nat
  touchedFiles : Nat → List String

/-- One step of one call, of the clock or of the pruning. -/
inductive Action (Content : Type)
  | tick (now : Nat)
  /-- `_passive_pruning`, or `cleanup_old_snapshots` called elsewhere. -/
  | prune (removed : Nat → Bool)
  | beginTransaction (c : Nat) (outcome : DbOutcome)
  /-- `create_snapshot`, or nothing for an absent target; `none` when it raises. -/
  | prepare (c : Nat) (removed : Option (Nat → Bool))
  | beginOperation (c : Nat) (outcome : DbOutcome)
  /-- The operation changes the call's target. -/
  | change (c : Nat) (content : Option Content)
  | operationReturns (c : Nat)
  | operationRaises (c : Nat) (exc : Raised)
  | completeOperation (c : Nat) (outcome : DbOutcome)
  | commitTransaction (c : Nat) (outcome : DbOutcome)
  | failOperation (c : Nat) (outcome : DbOutcome)
  /-- `get_last_operation` answers `found`. -/
  | findLast (c : Nat) (found : Option Nat)
  | restore (c : Nat) (fault : Option (RestoreFault Content))
  | markRolledBack (c : Nat) (outcome : DbOutcome)
  /-- Cancelled, or a journal call raised, outside the inner `try`. -/
  | interrupt (c : Nat)

variable {Content : Type}

/-- No call has been made; the journal and the disk are arbitrary. -/
def State.initial (journal : OperationJournal) (disk : Disk Content) (now : Nat) :
    State Content :=
  { journal := journal
    disk := disk
    now := now
    calls := fun _ => .idle
    before := fun _ => none
    touchedEntries := fun _ => []
    touchedFiles := fun _ => [] }

section

variable (s : State Content)

/-- Move call `c` on. -/
def State.moveTo (c : Nat) (phase : CallPhase) : State Content :=
  { s with calls := update s.calls c phase }

/-- Record that a step of `c` wrote this entry. -/
def State.touchEntry (c entryId : Nat) : State Content :=
  { s with touchedEntries := update s.touchedEntries c (entryId :: s.touchedEntries c) }

/-- Record that a step of `c` wrote this file. -/
def State.touchFile (c : Nat) (path : String) : State Content :=
  { s with touchedFiles := update s.touchedFiles c (path :: s.touchedFiles c) }

/-- The phase after a journal call that raises a `JournalError` when it fails. -/
def onResult {α : Type} (result : Except JournalError α) (ok error : CallPhase) : CallPhase :=
  match result with
  | .ok _ => ok
  | .error _ => error

/-- Where an exception outside the inner `try` leads. -/
def CallPhase.interrupted : CallPhase → Option CallPhase
  | .begun _ | .prepared .. => some .aborted
  | .completing ids | .committing ids => some (.raised ids false)
  | .failing ids operationRaised | .undoing ids operationRaised
  | .restoring ids operationRaised _ _ | .marking ids operationRaised _ =>
      some (.raised ids operationRaised)
  | .idle | .running _ | .returned _ | .aborted | .raised .. => none

def step (hash : Content → String) (args : Nat → CallArgs) (s : State Content) :
    Action Content → Option (State Content)
  | .tick now => if s.now ≤ now then some { s with now := now } else none
  | .prune removed =>
      some { s with disk := { s.disk with
        snapshots := fun id => if removed id then none else s.disk.snapshots id } }
  | .beginTransaction c outcome =>
      match s.calls c with
      | .idle =>
          let result := s.journal.beginTransaction (args c).description none outcome
          some { s.moveTo c (onResult result.1 (.begun s.journal.transactions.next) .aborted) with
            journal := result.2
            before := update s.before c (s.disk.files (args c).targetPath) }
      | _ => none
  | .prepare c removed =>
      match s.calls c with
      | .begun transactionId =>
          match s.disk.files (args c).targetPath, removed with
          | none, _ => some (s.moveTo c (.prepared transactionId none))
          | some _, none => some (s.moveTo c .aborted)
          | some _, some removed =>
              (createSnapshot hash removed s.disk (args c).targetPath).map fun result =>
                { s.moveTo c (.prepared transactionId (some result.1)) with disk := result.2 }
      | _ => none
  | .beginOperation c outcome =>
      match s.calls c with
      | .prepared transactionId snapshot =>
          let result := s.journal.beginOperation agentId (args c).operationType
            (args c).targetPath (some transactionId) (snapshot.map (·.snapshotPath)) s.now outcome
          some { s.moveTo c (onResult result.1 (.running ⟨transactionId, s.journal.entries.next⟩)
              .aborted) with
            journal := result.2 }
      | _ => none
  | .change c content =>
      match s.calls c with
      | .running _ =>
          some { s.touchFile c (args c).targetPath with
            disk := { s.disk with
              files := update s.disk.files (args c).targetPath content } }
      | _ => none
  | .operationReturns c =>
      match s.calls c with
      | .running ids => some (s.moveTo c (.completing ids))
      | _ => none
  | .operationRaises c exc =>
      match s.calls c with
      | .running ids =>
          match exc with
          | .exception => some (s.moveTo c (.failing ids true))
          | .cancelled => some (s.moveTo c (.raised ids true))
      | _ => none
  | .completeOperation c outcome =>
      match s.calls c with
      | .completing ids =>
          let result := s.journal.completeOperation ids.entryId outcome
          some { (s.touchEntry c ids.entryId).moveTo c
              (onResult result.1 (.committing ids) (.failing ids false)) with
            journal := result.2 }
      | _ => none
  | .commitTransaction c outcome =>
      match s.calls c with
      | .committing ids =>
          let result := s.journal.commitTransaction ids.transactionId outcome
          some { s.moveTo c (onResult result.1 (.returned ids) (.failing ids false)) with
            journal := result.2 }
      | _ => none
  | .failOperation c outcome =>
      match s.calls c with
      | .failing ids operationRaised =>
          let result := s.journal.failOperation ids.entryId outcome
          some { (s.touchEntry c ids.entryId).moveTo c
              (onResult result.1 (.undoing ids operationRaised) (.raised ids operationRaised)) with
            journal := result.2 }
      | _ => none
  | .findLast c found =>
      match s.calls c with
      | .undoing ids operationRaised =>
          match found with
          | none =>
              if s.journal.lastOperations agentId = [] then
                some (s.moveTo c (.raised ids operationRaised))
              else none
          | some id =>
              if id ∈ s.journal.lastOperations agentId then
                (s.journal.entries.row id).map fun entry =>
                  s.moveTo c (.restoring ids operationRaised id entry)
              else none
      | _ => none
  | .restore c fault =>
      match s.calls c with
      | .restoring ids operationRaised found entry =>
          match entry.snapshotPath with
          | none => some (s.moveTo c (.marking ids operationRaised found))
          | some snapshotPath =>
              let result := restoreSnapshot hash true fault (s.disk.snapshots snapshotPath)
                s.disk.files entry.targetPath
              let phase : CallPhase :=
                if result.1 then .marking ids operationRaised found
                else .raised ids operationRaised
              some { (s.touchFile c entry.targetPath).moveTo c phase with
                disk := { s.disk with files := result.2 } }
      | _ => none
  | .markRolledBack c outcome =>
      match s.calls c with
      | .marking ids operationRaised found =>
          some { (s.touchEntry c found).moveTo c (.raised ids operationRaised) with
            journal := (s.journal.markRolledBack found outcome).2 }
      | _ => none
  | .interrupt c => (s.calls c).interrupted.map fun phase => s.moveTo c phase

/-! ## Isolation of failures -/

/-- An exception has left call `c`, whose operation had raised. -/
def FailedWith (c : Nat) (ids : CallIds) : Prop :=
  s.calls c = .raised ids true

/-- What a failed call is expected to leave: its entry rolled back, its target as
before, nothing else touched, its transaction rolled back. -/
structure Isolated (args : Nat → CallArgs) (s : State Content) (c : Nat) (ids : CallIds) :
    Prop where
  entry : ∃ entry, s.journal.entries.row ids.entryId = some entry ∧ entry.status = .rolledBack
  target : s.disk.files (args c).targetPath = s.before c
  entriesApart : ∀ id ∈ s.touchedEntries c, id = ids.entryId
  filesApart : ∀ path ∈ s.touchedFiles c, path = (args c).targetPath
  transaction : ∃ tx, s.journal.transactions.row ids.transactionId = some tx ∧
    tx.status = .rolledBack

/-- A step that ends a call whose operation raised leaves the call isolated. -/
def FailuresIsolated (args : Nat → CallArgs) (s : State Content) (_ : Action Content)
    (t : State Content) : Prop :=
  ∀ c ids, ¬FailedWith s c ids → FailedWith t c ids → Isolated args t c ids

/-- The step does not end a call whose operation raised. -/
def NoFailedExit (_ : Action Content) (t : State Content) : Prop :=
  ∀ c ids, FailedWith t c ids → FailedWith s c ids

/-- The transaction a call has begun. -/
def CallPhase.transactionId : CallPhase → Option Nat
  | .begun transactionId | .prepared transactionId _ => some transactionId
  | .running ids | .completing ids | .committing ids | .failing ids _ | .undoing ids _
  | .restoring ids _ _ _ | .marking ids _ _ | .returned ids | .raised ids _ =>
      some ids.transactionId
  | .idle | .aborted => none

/-- No call's transaction is rolled back. -/
def NoneRolledBack : Prop :=
  ∀ c id, (s.calls c).transactionId = some id → s.journal.NotRolledBack id

end

theorem noneRolledBack_initial (journal : OperationJournal) (disk : Disk Content) (now : Nat) :
    NoneRolledBack (State.initial journal disk now) := by
  intro c id h
  cases h

variable {s t : State Content} {c : Nat}

/-- A call's step keeps the invariant when the journal operation it performs rolls
no transaction back and the call's new phase names a transaction that is not. -/
theorem NoneRolledBack.move (h : NoneRolledBack s)
    {phase : CallPhase} (hcalls : t.calls = update s.calls c phase)
    (hjournal : ∀ id, s.journal.NotRolledBack id → t.journal.NotRolledBack id)
    (hphase : ∀ id, phase.transactionId = some id → t.journal.NotRolledBack id) :
    NoneRolledBack t := by
  intro b id hb
  rw [hcalls] at hb
  by_cases hbc : b = c
  · subst hbc
    rw [update_self] at hb
    exact hphase id hb
  · rw [update_of_ne hbc] at hb
    exact hjournal id (h b id hb)

theorem NoneRolledBack.moveWithin (h : NoneRolledBack s)
    {phase : CallPhase} (hcalls : t.calls = update s.calls c phase)
    (hjournal : ∀ id, s.journal.NotRolledBack id → t.journal.NotRolledBack id)
    (hsame : ∀ id, phase.transactionId = some id → (s.calls c).transactionId = some id) :
    NoneRolledBack t :=
  h.move hcalls hjournal fun id hid => hjournal id (h c id (hsame id hid))

theorem NoneRolledBack.stays (h : NoneRolledBack s)
    {phase phase' : CallPhase} (hphase : s.calls c = phase)
    (hcalls : t.calls = update s.calls c phase') (hjournal : t.journal = s.journal)
    (hsame : phase'.transactionId = phase.transactionId) : NoneRolledBack t := by
  refine h.moveWithin hcalls (fun id hid => ?_) fun id hid => ?_
  · rw [hjournal]
    exact hid
  · rw [hphase, ← hsame]
    exact hid

theorem onResult_transactionId {α : Type} {result : Except JournalError α} {ok error : CallPhase}
    {id : Nat} (h : (onResult result ok error).transactionId = some id) :
    ok.transactionId = some id ∨ error.transactionId = some id := by
  cases result with
  | ok a => exact .inl h
  | error e => exact .inr h

theorem interrupted_transactionId {phase phase' : CallPhase} {id : Nat}
    (h : phase.interrupted = some phase') (hid : phase'.transactionId = some id) :
    phase.transactionId = some id := by
  cases phase <;> simp only [CallPhase.interrupted, Option.some.injEq, reduceCtorEq] at h <;>
    subst h <;> simp_all [CallPhase.transactionId]

/-- **Step lemma.**  No step of any call rolls a transaction back. -/
theorem noneRolledBack_step {hash : Content → String} {args : Nat → CallArgs} {act : Action Content} (h : NoneRolledBack s)
    (hstep : step hash args s act = some t) : NoneRolledBack t := by
  have hentries : ∀ id entryId set outcome, s.journal.NotRolledBack id →
      (s.journal.updateEntry entryId set outcome).2.NotRolledBack id :=
    fun id entryId set outcome hid =>
      notRolledBack_of_eq (transactions_updateEntry s.journal entryId set outcome) hid
  cases act with
  | tick | change =>
      simp only [step] at hstep
      split at hstep <;> cases hstep
      exact h
  | prune removed =>
      cases hstep
      exact h
  | beginTransaction c outcome =>
      simp only [step] at hstep
      split at hstep <;> cases hstep
      refine h.move rfl (fun id hid => notRolledBack_beginTransaction _ _ outcome hid) ?_
      intro id hid
      cases outcome with
      | ok =>
          cases hid
          exact notRolledBack_begun rfl
      | commitError | executeError => cases hid
  | prepare c removed =>
      simp only [step] at hstep
      split at hstep
      · rename_i transactionId hphase
        split at hstep
        · cases hstep
          exact h.stays hphase rfl rfl rfl
        · cases hstep
          exact h.moveWithin rfl (fun _ hid => hid) fun id hid => by cases hid
        · simp only [Option.map_eq_some_iff] at hstep
          obtain ⟨result, _, rfl⟩ := hstep
          exact h.stays hphase rfl rfl rfl
      · cases hstep
  | beginOperation c outcome =>
      simp only [step] at hstep
      split at hstep
      · rename_i transactionId snapshot hphase
        cases hstep
        refine h.moveWithin rfl
          (fun _ hid => notRolledBack_of_eq (transactions_beginOperation ..) hid) ?_
        intro id hid
        rw [hphase]
        rcases onResult_transactionId hid with hrunning | haborted
        · exact hrunning
        · cases haborted
      · cases hstep
  | operationReturns c =>
      simp only [step] at hstep
      split at hstep
      · rename_i ids hphase
        cases hstep
        exact h.stays hphase rfl rfl rfl
      · cases hstep
  | operationRaises c exc =>
      simp only [step] at hstep
      split at hstep
      · rename_i ids hphase
        cases exc with
        | exception | cancelled =>
            cases hstep
            exact h.stays hphase rfl rfl rfl
      · cases hstep
  | completeOperation c outcome | failOperation c outcome =>
      simp only [step] at hstep
      split at hstep
      · rename_i hphase
        cases hstep
        refine h.moveWithin rfl (fun id hid => hentries id _ _ _ hid) ?_
        intro id hid
        rw [hphase]
        exact (onResult_transactionId hid).elim (fun h => h) (fun h => h)
      · cases hstep
  | commitTransaction c outcome =>
      simp only [step] at hstep
      split at hstep
      · rename_i ids hphase
        cases hstep
        refine h.moveWithin rfl (fun _ hid => notRolledBack_commitTransaction _ outcome hid) ?_
        intro id hid
        rw [hphase]
        exact (onResult_transactionId hid).elim (fun h => h) (fun h => h)
      · cases hstep
  | findLast c found =>
      simp only [step] at hstep
      split at hstep
      · rename_i ids operationRaised hphase
        split at hstep
        · split at hstep <;> cases hstep
          exact h.stays hphase rfl rfl rfl
        · split at hstep
          · simp only [Option.map_eq_some_iff] at hstep
            obtain ⟨entry, _, rfl⟩ := hstep
            exact h.stays hphase rfl rfl rfl
          · cases hstep
      · cases hstep
  | restore c fault =>
      simp only [step] at hstep
      split at hstep
      · rename_i ids operationRaised found entry hphase
        split at hstep
        · cases hstep
          exact h.stays hphase rfl rfl rfl
        · cases hstep
          refine h.moveWithin rfl (fun _ hid => hid) ?_
          intro id hid
          rw [hphase]
          split at hid <;> exact hid
      · cases hstep
  | markRolledBack c outcome =>
      simp only [step] at hstep
      split at hstep
      · rename_i ids operationRaised found hphase
        cases hstep
        exact h.moveWithin rfl (fun id hid => hentries id _ _ _ hid)
          fun id hid => by rw [hphase]; exact hid
      · cases hstep
  | interrupt c =>
      simp only [step, Option.map_eq_some_iff] at hstep
      obtain ⟨phase, hphase, rfl⟩ := hstep
      exact h.moveWithin rfl (fun _ hid => hid) fun id hid => interrupted_transactionId hphase hid

/-- **No failure is isolated.**  In every run of any calls, from any journal and
disk: whenever an exception leaves a call whose operation raised, its transaction
is not rolled back; so a run isolates its failures exactly when it has none. -/
theorem failuresIsolated_iff (hash : Content → String) (args : Nat → CallArgs)
    (journal : OperationJournal) (disk : Disk Content) (now : Nat)
    (schedule : List (Action Content)) :
    Runs.Always (step hash args) (FailuresIsolated args) (State.initial journal disk now)
        schedule ↔
      Runs.Always (step hash args) NoFailedExit (State.initial journal disk now) schedule := by
  refine Runs.always_iff_of_guarded (fun _ _ _ h hstep _ => noneRolledBack_step h hstep) ?_
    (noneRolledBack_initial journal disk now) schedule
  intro s act t h hstep
  constructor
  · intro hisolated c ids hfailed
    by_contra hbefore
    obtain ⟨tx, htx, hrolled⟩ := (hisolated c ids hbefore hfailed).transaction
    obtain ⟨tx', htx', hnot⟩ := noneRolledBack_step h hstep c ids.transactionId (by
      rw [show t.calls c = .raised ids true from hfailed]
      rfl)
    obtain rfl : tx = tx' := Option.some.inj (htx.symm.trans htx')
    exact hnot hrolled
  · intro hnone c ids hbefore hfailed
    exact absurd (hnone c ids hfailed) hbefore

/-- Two plugins, one per call. -/
def twoPlugins : Disk Nat :=
  { files := fun path =>
      if path = "A.esp" then some 1 else if path = "B.esp" then some 5 else none
    snapshots := fun _ => none
    nextSnapshot := 0 }

def twoCalls (c : Nat) : CallArgs :=
  { operationType := .fileModify
    targetPath := if c = 0 then "A.esp" else "B.esp"
    description := "" }

/-- Call `c` up to its operation's first write. -/
def startSchedule (c : Nat) (content : Nat) : List (Action Nat) :=
  [.beginTransaction c .ok, .prepare c (some fun _ => false), .beginOperation c .ok,
    .change c (some content)]

/-- Call 1 starts a second after call 0 and succeeds; then the operation of call 0
raises. -/
def mixedUpSchedule : List (Action Nat) :=
  startSchedule 0 2 ++ .tick 1 :: startSchedule 1 6 ++
    [.operationReturns 1, .completeOperation 1 .ok, .commitTransaction 1 .ok,
      .operationRaises 0 .exception, .failOperation 0 .ok, .findLast 0 (some 2), .restore 0 none]

/-- The rollback of call 0 restores the file of call 1 and marks its entry, and
leaves the file of call 0 as the failed operation wrote it. -/
theorem failuresIsolated_counterexample :
    ¬Runs.Always (step toString twoCalls) (FailuresIsolated twoCalls)
        (State.initial .empty twoPlugins 0) (mixedUpSchedule ++ [.markRolledBack 0 .ok]) ∧
      (Runs.exec (step toString twoCalls) (State.initial .empty twoPlugins 0)
        (mixedUpSchedule ++ [.markRolledBack 0 .ok])).map (fun s =>
          (s.disk.files "A.esp", s.disk.files "B.esp")) = some (some 2, some 5) := by
  refine ⟨?_, by decide⟩
  intro h
  have hisolated := h.at_prefix rfl rfl 0 ⟨1, 1⟩ (by intro h; cases h) rfl
  have hentry := hisolated.entriesApart 2 (by decide)
  exact absurd hentry (by decide)

end SkyClaw.Orchestrator.FileOperations
