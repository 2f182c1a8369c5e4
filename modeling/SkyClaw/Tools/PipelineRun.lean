import SkyClaw.Lib.Effects
import SkyClaw.Db.Journal

/-!
# One run of a service pipeline and its journal transaction

What the four pipeline services share: the exceptions as their `except` clauses
tell them apart, the local variables `tx_id`, `rolled_back` and `in_lock_context`,
the published events, and the journal calls they make.  What the lock, the tool
and the snapshots do to their part of the world is a parameter `ω`.

`TransactionClosed` is what every run owes the journal: the transaction it began
is committed or rolled back when it exits, committed exactly if it reports
success, and never taken from committed to rolled back.
-/

namespace SkyClaw.Tools

open Db (DbOutcome)
open Db.Journal

/-- Exceptions, by the `except` clauses of the services. -/
inductive Exc
  /-- The service's own error classes. -/
  | domain (message : String)
  | timeout
  | lockAcquisition (message : String)
  /-- Any other `Exception`. -/
  | other (message : String)
  /-- `asyncio.CancelledError`, which is no `Exception`. -/
  | cancelled

def Exc.message : Exc → String
  | .domain message | .lockAcquisition message | .other message => message
  | .timeout | .cancelled => ""

/-- The part of the returned dictionary that says how the run went. -/
structure Report where
  success : Bool
  errors : List String
deriving DecidableEq

inductive PipelineEvent
  | started
  | completed (success rolledBack : Bool)
deriving DecidableEq

/-- How an awaited journal call ends: as its statement does, or cancelled before
or after the statement ran. -/
inductive JournalEnd
  | done (outcome : DbOutcome)
  | cancelled (ran : Bool)

/-- The call's statement took effect. -/
def JournalEnd.ran : JournalEnd → Bool
  | .done .executeError => false
  | .done _ => true
  | .cancelled ran => ran

/-- A pipeline run: the journal, the rest of the world and the local variables.
`demoted` is history: a statement of the run took its transaction from committed
to rolled back. -/
structure Run (ω : Type) where
  journal : OperationJournal
  world : ω
  txId : Option Nat
  rolledBack : Bool
  inLockContext : Bool
  events : List PipelineEvent
  demoted : Bool

variable {ω α : Type}

section

variable (journal : OperationJournal)

/-- The start of a run. -/
def Run.initial (world : ω) : Run ω :=
  { journal := journal
    world := world
    txId := none
    rolledBack := false
    inLockContext := false
    events := []
    demoted := false }

/-- A call that only concerns the rest of the world. -/
def onWorld (p : Proc ω Exc α) : Proc (Run ω) Exc α :=
  .focus (fun s => s.world) (fun s world => { s with world := world }) p

def setRolledBack (rolledBack : Run ω → Bool) : Proc (Run ω) Exc Unit :=
  .modify fun s => { s with rolledBack := rolledBack s }

def setInLockContext (inLockContext : Bool) : Proc (Run ω) Exc Unit :=
  .modify fun s => { s with inLockContext := inLockContext }

/-- `event_bus.publish`: an event whose publication raises is not queued. -/
def publish (call : Proc ω Exc Unit) (event : Run ω → PipelineEvent) :
    Proc (Run ω) Exc Unit := do
  onWorld call
  .modify fun s => { s with events := s.events ++ [event s] }

/-- What the caller of a journal call sees. -/
def JournalEnd.reply (ending : JournalEnd) (message : String) : Except Exc Unit :=
  match ending with
  | .done .ok => .ok ()
  | .done _ => .error (.other message)
  | .cancelled _ => .error .cancelled

/-- `tx_id = await self._journal.begin_transaction(…)`. -/
def beginTransaction (description : String) (ending : JournalEnd) : Proc (Run ω) Exc Unit :=
  fun s =>
    match ending with
    | .done outcome =>
        match s.journal.beginTransaction description none outcome with
        | (.ok id, journal) => (.ok (), { s with journal := journal, txId := some id })
        | (.error _, journal) =>
            (.error (.other "Failed to begin transaction"), { s with journal := journal })
    | .cancelled ran =>
        (.error .cancelled, { s with
          journal :=
            if ran then (s.journal.beginTransaction description none .commitError).2
            else s.journal })

/-- `if tx_id is not None: await self._journal.commit_transaction(tx_id)`. -/
def commitTransaction (ending : JournalEnd) : Proc (Run ω) Exc Unit := fun s =>
  match s.txId with
  | none => (.ok (), s)
  | some id =>
      match ending with
      | .done outcome =>
          match s.journal.commitTransaction id outcome with
          | (.ok _, journal) => (.ok (), { s with journal := journal })
          | (.error _, journal) =>
              (.error (.other "Failed to commit transaction"), { s with journal := journal })
      | .cancelled ran =>
          (.error .cancelled, { s with
            journal :=
              if ran then (s.journal.commitTransaction id .commitError).2 else s.journal })

/-- `if tx_id is not None: await self._journal.mark_transaction_rolled_back(tx_id)`. -/
def markTransactionRolledBack (ending : JournalEnd) : Proc (Run ω) Exc Unit := fun s =>
  match s.txId with
  | none => (.ok (), s)
  | some id =>
      let outcome := if ending.ran then DbOutcome.ok else .executeError
      let marked := { s with
        journal := (s.journal.markTransactionRolledBack id outcome).2
        demoted := s.demoted ||
          (ending.ran && (s.journal.transactions.row id).any (·.status = .committed)) }
      (ending.reply "Failed to mark transaction", marked)

/-- The same inside `try … except Exception`, which logs the failure. -/
def safeMarkRolledBack (ending : JournalEnd) : Proc (Run ω) Exc Unit :=
  (markTransactionRolledBack ending).handle fun exc =>
    match exc with
    | .cancelled => .raise .cancelled
    | _ => pure ()

/-! ## What a run owes the journal -/

/-- The status of the transaction that a run on `journal` begins, if it did. -/
def Run.ownStatus (s : Run ω) : Option TransactionStatus :=
  (s.journal.transactions.row journal.transactions.next).map Transaction.status

/-- The run returned, and its report says so. -/
def reportsSuccess : Except Exc Report → Bool
  | .ok report => report.success
  | .error _ => false

/-- The transaction that the run began is settled at its exit, in the way it
reports, and was never taken back from committed. -/
structure TransactionClosed (result : Except Exc Report × Run ω) : Prop where
  settled : result.2.ownStatus journal ≠ some .pending
  reported : (result.2.ownStatus journal).isSome →
    (result.2.ownStatus journal = some .committed ↔ reportsSuccess result.1 = true)
  forward : result.2.demoted = false

/-! ## What the journal calls do to the run's own transaction -/

structure Begun (s : Run ω) (status : TransactionStatus) (demoted : Bool) : Prop where
  txId : s.txId = some journal.transactions.next
  status : s.ownStatus journal = some status
  demoted : s.demoted = demoted

/-- The run knows no transaction; if `status` is not `none`, a statement of
`begin_transaction` took effect all the same. -/
structure Unknown (s : Run ω) (status : Option TransactionStatus) :
    Prop where
  txId : s.txId = none
  status : s.ownStatus journal = status
  demoted : s.demoted = false

end

variable {journal : OperationJournal} {s : Run ω}

theorem ownStatus_self (journal : OperationJournal) (h : s.journal = journal) :
    s.ownStatus journal = none := by
  rw [Run.ownStatus, h, journal.transactions.fresh _ (Nat.le_refl _)]
  rfl

/-- **Spec of `begin_transaction`.**  It returns and the transaction is pending, or
it raises and `tx_id` stays `None`. -/
theorem beginTransaction_spec (journal : OperationJournal) (description : String)
    (ending : JournalEnd) (hjournal : s.journal = journal) (htx : s.txId = none)
    (hdemoted : s.demoted = false) :
    (∃ t, beginTransaction description ending s = (.ok (), t) ∧ t.world = s.world ∧
        ending = .done .ok ∧ Begun journal t .pending false) ∨
      ∃ exc t, beginTransaction description ending s = (.error exc, t) ∧ t.world = s.world ∧
        ending ≠ .done .ok ∧
        Unknown journal t (if ending.ran then some .pending else none) := by
  subst hjournal
  have hpending : ∀ t : Run ω, t.journal.transactions =
      s.journal.transactions.insert
        { modId := none, description := description, status := .pending } →
      t.ownStatus s.journal = some .pending := by
    intro t ht
    rw [Run.ownStatus, ht, AutoTable.row_insert_self]
    rfl
  have hnone : s.ownStatus s.journal = none := ownStatus_self s.journal rfl
  cases ending with
  | done outcome =>
      cases outcome with
      | ok => exact .inl ⟨_, rfl, rfl, rfl, rfl, hpending _ rfl, hdemoted⟩
      | commitError =>
          exact .inr ⟨_, _, rfl, rfl, by simp, htx, hpending _ rfl, hdemoted⟩
      | executeError => exact .inr ⟨_, _, rfl, rfl, by simp, htx, hnone, hdemoted⟩
  | cancelled ran =>
      cases ran with
      | true => exact .inr ⟨_, _, rfl, rfl, by simp, htx, hpending _ rfl, hdemoted⟩
      | false => exact .inr ⟨_, _, rfl, rfl, by simp, htx, hnone, hdemoted⟩

variable {demoted : Bool}

/-- **Spec of `commit_transaction`** on the run's pending transaction. -/
theorem commitTransaction_spec
    (ending : JournalEnd) (h : Begun journal s .pending demoted) :
    ∃ t, commitTransaction ending s = (ending.reply "Failed to commit transaction", t) ∧
      t.world = s.world ∧
      Begun journal t (if ending.ran then .committed else .pending) demoted := by
  obtain ⟨htx, hstatus, hdemoted⟩ := h
  obtain ⟨tx, hrow, hpending⟩ := Option.map_eq_some_iff.mp hstatus
  have hany : (s.journal.transactions.row journal.transactions.next).any
      (·.status = .pending) = true := by
    rw [hrow]
    simpa using hpending
  have hcommitted : ∀ t : Run ω, t.journal.transactions =
      s.journal.transactions.update journal.transactions.next (·.setStatus .committed) →
      t.ownStatus journal = some .committed := by
    intro t ht
    rw [Run.ownStatus, ht, AutoTable.row_update_self, hrow]
    rfl
  have hcommit : ∀ outcome, s.journal.commitTransaction journal.transactions.next outcome =
      (if outcome = .ok then .ok () else .error (.commitFailed journal.transactions.next),
        (s.journal.commitTransaction journal.transactions.next outcome).2) := by
    intro outcome
    cases outcome <;> simp [OperationJournal.commitTransaction, hany]
  have htransactions : ∀ outcome, outcome ≠ .executeError →
      (s.journal.commitTransaction journal.transactions.next outcome).2.transactions =
        s.journal.transactions.update journal.transactions.next (·.setStatus .committed) := by
    intro outcome hran
    cases outcome with
    | ok => simp [OperationJournal.commitTransaction, hany]
    | commitError => simp [OperationJournal.commitTransaction, hany, DbOutcome.leaves]
    | executeError => exact absurd rfl hran
  have hkept : (s.journal.commitTransaction journal.transactions.next .executeError).2 =
      s.journal := by
    simp [OperationJournal.commitTransaction]
  unfold commitTransaction
  simp only [htx]
  cases ending with
  | done outcome =>
      have hcall := hcommit outcome
      cases outcome with
      | ok =>
          simp only [if_true] at hcall ⊢
          rw [hcall]
          exact ⟨_, rfl, rfl, rfl, hcommitted _ (htransactions .ok (by simp)), hdemoted⟩
      | commitError =>
          simp only [reduceCtorEq, if_false] at hcall ⊢
          rw [hcall]
          exact ⟨_, rfl, rfl, rfl, hcommitted _ (htransactions .commitError (by simp)), hdemoted⟩
      | executeError =>
          simp only [reduceCtorEq, if_false] at hcall ⊢
          rw [hcall]
          refine ⟨_, rfl, rfl, rfl, ?_, hdemoted⟩
          simp only [Run.ownStatus, hkept]
          exact hstatus
  | cancelled ran =>
      cases ran with
      | true =>
          exact ⟨_, rfl, rfl, rfl, hcommitted _ (htransactions .commitError (by simp)), hdemoted⟩
      | false => exact ⟨_, rfl, rfl, rfl, hstatus, hdemoted⟩

variable {status : TransactionStatus}

/-- **Spec of `mark_transaction_rolled_back`** on the run's transaction. -/
theorem markTransactionRolledBack_spec (ending : JournalEnd)
    (h : Begun journal s status demoted) :
    ∃ t, markTransactionRolledBack ending s =
        (ending.reply "Failed to mark transaction", t) ∧ t.world = s.world ∧
      Begun journal t (if ending.ran then .rolledBack else status)
        (demoted || (ending.ran && decide (status = .committed))) := by
  obtain ⟨htx, hstatus, hdemoted⟩ := h
  obtain ⟨tx, hrow, hrowStatus⟩ := Option.map_eq_some_iff.mp hstatus
  unfold markTransactionRolledBack
  simp only [htx]
  refine ⟨_, rfl, rfl, rfl, ?_, ?_⟩
  · cases hran : ending.ran with
    | true =>
        simp only [Run.ownStatus, if_true, OperationJournal.markTransactionRolledBack,
          DbOutcome.leaves, AutoTable.row_update_self, hrow]
        rfl
    | false =>
        simp only [Run.ownStatus, OperationJournal.markTransactionRolledBack, DbOutcome.leaves,
          hrow, hrowStatus, Bool.false_eq_true, if_false, Option.map_some]
  · simp only [hdemoted, hrow, Option.any_some, hrowStatus]

open Proc

theorem safeMarkRolledBack_spec (ending : JournalEnd)
    (h : Begun journal s status demoted) :
    ∃ r t, safeMarkRolledBack ending s = (r, t) ∧ t.world = s.world ∧
      Begun journal t (if ending.ran then .rolledBack else status)
        (demoted || (ending.ran && decide (status = .committed))) := by
  obtain ⟨t, hcall, hworld, hbegun⟩ := markTransactionRolledBack_spec ending h
  unfold safeMarkRolledBack
  cases hreply : ending.reply "Failed to mark transaction" with
  | ok u =>
      rw [hreply] at hcall
      exact ⟨_, t, handle_of_ok hcall, hworld, hbegun⟩
  | error exc =>
      rw [hreply] at hcall
      rw [handle_of_error hcall]
      cases exc <;> exact ⟨_, t, rfl, hworld, hbegun⟩

theorem markTransactionRolledBack_unknown (ending : JournalEnd) (h : s.txId = none) :
    markTransactionRolledBack ending s = (.ok (), s) := by
  simp only [markTransactionRolledBack, h]

theorem safeMarkRolledBack_unknown (ending : JournalEnd) (h : s.txId = none) :
    safeMarkRolledBack ending s = (.ok (), s) :=
  handle_of_ok (markTransactionRolledBack_unknown ending h)

variable {body : Proc (Run ω) Exc α} {u : Run ω} {world : ω}

/-- **Spec of an `async with` block** whose entry and exit only concern the world:
if the body's end and world are those of `inner`, so are the block's. -/
theorem asyncWith_onWorld {enter : Proc ω Exc Unit} {exit : Option Exc → Proc ω Exc Unit}
    {inner : Proc ω Exc α}
    (henter : enter s.world = (.ok (), world))
    (hbody : body { s with world := world } = ((inner world).1, u))
    (hworld : u.world = (inner world).2) :
    asyncWith (onWorld enter) (fun exc => onWorld (exit exc)) body s =
      ((asyncWith (pure ()) exit inner world).1,
        { u with world := (asyncWith (pure ()) exit inner world).2 }) := by
  have henter' : onWorld enter s = (.ok (), { s with world := world }) := by
    simp only [onWorld, focus_apply, henter]
  cases hinner : inner world with
  | mk r world' =>
      rw [hinner] at hbody hworld
      replace hworld : u.world = world' := hworld
      cases r with
      | ok a =>
          rw [asyncWith_of_ok henter' hbody,
            asyncWith_of_ok (pure_apply () world) hinner]
          simp only [bind_apply, onWorld, focus_apply, hworld]
          cases hexit : exit none world' with
          | mk e world'' => cases e <;> rfl
      | error exc =>
          rw [asyncWith_of_error henter' hbody,
            asyncWith_of_error (pure_apply () world) hinner]
          simp only [bind_apply, onWorld, focus_apply, hworld]
          cases hexit : exit (some exc) world' with
          | mk e world'' => cases e <;> rfl

theorem asyncWith_onWorld_raised {enter : Proc ω Exc Unit} {exit : Option Exc → Proc ω Exc Unit}
    {exc : Exc}
    (henter : enter s.world = (.ok (), world))
    (hbody : body { s with world := world } = (.error exc, u)) :
    ∃ exc' world', asyncWith (onWorld enter) (fun exc => onWorld (exit exc)) body s =
      (.error exc', { u with world := world' }) := by
  have henter' : onWorld enter s = (.ok (), { s with world := world }) := by
    simp only [onWorld, focus_apply, henter]
  rw [asyncWith_of_error henter' hbody]
  simp only [bind_apply, onWorld, focus_apply]
  cases hexit : exit (some exc) u.world with
  | mk e world' => cases e <;> exact ⟨_, _, rfl⟩

/-! ## Ends of a run -/

/-- How a run ended: what became of its transaction, and what it reports. -/
structure Ended (journal : OperationJournal) (result : Except Exc Report × Run ω)
    (status : Option TransactionStatus) (demoted success : Bool) : Prop where
  status : result.2.ownStatus journal = status
  demoted : result.2.demoted = demoted
  success : reportsSuccess result.1 = success

variable {success : Bool}

theorem Ended.closed_iff {result : Except Exc Report × Run ω}
    {status : Option TransactionStatus}
    (h : Ended journal result status demoted success) :
    TransactionClosed journal result ↔
      status ≠ some .pending ∧ (status.isSome → (status = some .committed ↔ success = true)) ∧
        demoted = false := by
  obtain ⟨rfl, rfl, rfl⟩ := h
  exact ⟨fun hclosed => ⟨hclosed.settled, hclosed.reported, hclosed.forward⟩,
    fun ⟨hsettled, hreported, hforward⟩ => ⟨hsettled, hreported, hforward⟩⟩

/-- A run that fails with its transaction pending before the `except` clauses: they
have to mark it. -/
theorem Ended.closed_pending_iff
    {result : Except Exc Report × Run ω} {marks : Bool}
    (h : Ended journal result (some (if marks then .rolledBack else .pending))
      (marks && decide (TransactionStatus.pending = .committed)) false) :
    TransactionClosed journal result ↔ marks = true := by
  rw [h.closed_iff]
  cases marks <;> simp

/-- A run that fails with its transaction committed is lost: marked or not, the
transaction is mislabelled. -/
theorem Ended.not_closed_committed
    {result : Except Exc Report × Run ω} {marks : Bool}
    (h : Ended journal result (some (if marks then .rolledBack else .committed))
      (marks && decide (TransactionStatus.committed = .committed)) false) :
    ¬TransactionClosed journal result := by
  rw [h.closed_iff]
  cases marks <;> simp

theorem Ended.closed_unknown_iff
    {result : Except Exc Report × Run ω} {ran : Bool}
    (h : Ended journal result (if ran then some .pending else none) false false) :
    TransactionClosed journal result ↔ ran = false := by
  rw [h.closed_iff]
  cases ran <;> simp

theorem Ended.closed_committed_iff
    {result : Except Exc Report × Run ω}
    (h : Ended journal result (some .committed) false success) :
    TransactionClosed journal result ↔ success = true := by
  rw [h.closed_iff]
  simp

/-- Publish the completed event and return the report. -/
def finish (publishCompleted : Proc ω Exc Unit) (report : Report) : Proc (Run ω) Exc Report := do
  publish publishCompleted fun s => .completed report.success s.rolledBack
  pure report

/-- **Spec of the last step.**  It changes nothing but events; a report is only
returned if the event was published. -/
theorem finish_ended (publishCompleted : Proc ω Exc Unit)
    (report : Report) :
    Ended journal (finish publishCompleted report s) (s.ownStatus journal) s.demoted
      (report.success && (publishCompleted s.world).1.isOk) := by
  simp only [finish, publish, onWorld, bind_apply, focus_apply]
  cases (publishCompleted s.world).1 with
  | ok | error => exact ⟨rfl, rfl, by simp [reportsSuccess, Except.isOk, Except.toBool]⟩

variable {r : Except Exc Report}

theorem finish_of_failed {t : Run ω}
    {p : Proc (Run ω) Exc Report} (publishCompleted : Proc ω Exc Unit) (hp : p s = (r, t))
    (hfailed : reportsSuccess r = false) :
    Ended journal ((p >>= finish publishCompleted) s) (t.ownStatus journal) t.demoted false := by
  cases r with
  | error exc =>
      rw [bind_of_error hp]
      exact ⟨rfl, rfl, rfl⟩
  | ok report =>
      rw [bind_of_ok hp]
      have hended := @finish_ended ω journal t publishCompleted report
      rw [show report.success = false from hfailed] at hended
      exact hended

theorem closed_of_no_transaction (hjournal : s.journal = journal) (hdemoted : s.demoted = false)
    (hfailed : reportsSuccess r = false) : TransactionClosed journal (r, s) := by
  have hended : Ended journal (r, s) (if false then some .pending else none) false false :=
    ⟨ownStatus_self journal hjournal, hdemoted, hfailed⟩
  exact hended.closed_unknown_iff.mpr rfl

theorem finish_closed_of_no_transaction
    {report : Report} (publishCompleted : Proc ω Exc Unit) (hjournal : s.journal = journal)
    (hdemoted : s.demoted = false) (hfailed : report.success = false) :
    TransactionClosed journal (finish publishCompleted report s) := by
  have hended := @finish_ended ω journal s publishCompleted report
  rw [hdemoted, hfailed, Bool.false_and] at hended
  have hnone : Ended journal (finish publishCompleted report s)
      (if false then some .pending else none) false false :=
    ⟨hended.status.trans (ownStatus_self journal hjournal), hended.demoted, hended.success⟩
  exact hnone.closed_unknown_iff.mpr rfl

end SkyClaw.Tools
