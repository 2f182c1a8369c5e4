import SkyClaw.Lib.AutoTable
import SkyClaw.Lib.Runs
import SkyClaw.Db.Statement
import Mathlib.Data.Finset.Max

/-!
# `OperationJournal`

The two journal tables, the cached `_current_transaction` and the operations
that write them.  Each operation runs under the journal's own `asyncio.Lock`, so
its statements are one step; a database error is the `DbOutcome` of that step.
Foreign keys are on (both connection paths set the pragma), so an entry is only
inserted for a transaction that has a row.

`commit_transaction` asks for a pending row; `mark_transaction_rolled_back`,
`_update_status` and `begin_operation` ask for nothing.  `statusMachine_iff` says
exactly which calls take the journal off its status machine.
-/

namespace SkyClaw.Db.Journal

inductive OperationType
  | modInstall
  | modUninstall
  | modUpdate
  | pluginClean
  | fileCreate
  | fileModify
  | fileDelete
  | fileRename
deriving DecidableEq

inductive OperationStatus
  | started
  | completed
  | failed
  | rolledBack
deriving DecidableEq

inductive TransactionStatus
  | pending
  | committed
  | rolledBack
deriving DecidableEq

/-- A row of `transactions`. -/
structure Transaction where
  modId : Option Nat
  description : String
  status : TransactionStatus
deriving DecidableEq

/-- A row of `journal_entries`; `timestamp` is `datetime('now')`, whole seconds. -/
structure JournalEntry where
  transactionId : Nat
  timestamp : Nat
  agentId : String
  operationType : OperationType
  targetPath : String
  status : OperationStatus
  snapshotPath : Option Nat
  rolledBack : Bool
deriving DecidableEq

/-- The two tables and `_current_transaction`. -/
structure OperationJournal where
  transactions : AutoTable Transaction
  entries : AutoTable JournalEntry
  currentTransaction : Option Nat

/-- What the operations raise. -/
inductive JournalError
  /-- `Failed to begin transaction: …` -/
  | beginFailed
  /-- `Transaction … not found or not pending` -/
  | notPending (transactionId : Nat)
  /-- `Failed to commit transaction: …` -/
  | commitFailed (transactionId : Nat)
  /-- `No active transaction. Call begin_transaction first.` -/
  | noActiveTransaction
  /-- `Failed to log operation: …`, a missing transaction row included -/
  | logFailed (transactionId : Nat)
  /-- A `sqlite3.Error` of an operation without an `except` clause. -/
  | sqlite
deriving DecidableEq

/-- A journal no transaction was ever begun in. -/
def OperationJournal.empty : OperationJournal :=
  { transactions := .empty, entries := .empty, currentTransaction := none }

def Transaction.setStatus (status : TransactionStatus) (tx : Transaction) : Transaction :=
  { tx with status := status }

def JournalEntry.setStatus (status : OperationStatus) (entry : JournalEntry) : JournalEntry :=
  { entry with status := status }

/-- `UPDATE journal_entries SET status = ?, rolled_back = 1`. -/
def JournalEntry.setRolledBack (entry : JournalEntry) : JournalEntry :=
  { entry with status := .rolledBack, rolledBack := true }

section

variable (journal : OperationJournal)

def OperationJournal.beginTransaction (description : String) (modId : Option Nat)
    (outcome : DbOutcome) : Except JournalError Nat × OperationJournal :=
  let id := journal.transactions.next
  let inserted := { journal with
    transactions := journal.transactions.insert
      { modId := modId, description := description, status := .pending } }
  match outcome with
  | .ok => (.ok id, { inserted with currentTransaction := some id })
  | _ => (.error .beginFailed, outcome.leaves journal inserted)

def OperationJournal.commitTransaction (transactionId : Nat) (outcome : DbOutcome) :
    Except JournalError Unit × OperationJournal :=
  let pending := (journal.transactions.row transactionId).any (·.status = .pending)
  let updated :=
    if pending then
      { journal with
        transactions := journal.transactions.update transactionId (·.setStatus .committed) }
    else journal
  match outcome with
  | .ok =>
      if pending then
        (.ok (), { updated with
          currentTransaction :=
            if journal.currentTransaction = some transactionId then none
            else journal.currentTransaction })
      else (.error (.notPending transactionId), updated)
  | _ => (.error (.commitFailed transactionId), outcome.leaves journal updated)

/-- `transaction_id or self._current_transaction`: 0 counts as not given. -/
def OperationJournal.effectiveTransaction : Option Nat → Option Nat
  | some (id + 1) => some (id + 1)
  | _ => journal.currentTransaction

/-- `begin_operation`, at the second `now`. -/
def OperationJournal.beginOperation (agentId : String) (operationType : OperationType)
    (targetPath : String) (transactionId : Option Nat) (snapshotPath : Option Nat) (now : Nat)
    (outcome : DbOutcome) : Except JournalError Nat × OperationJournal :=
  match journal.effectiveTransaction transactionId with
  | none => (.error .noActiveTransaction, journal)
  | some txId =>
      match journal.transactions.row txId with
      | none => (.error (.logFailed txId), journal)
      | some _ =>
          let inserted := { journal with
            entries := journal.entries.insert
              { transactionId := txId
                timestamp := now
                agentId := agentId
                operationType := operationType
                targetPath := targetPath
                status := .started
                snapshotPath := snapshotPath
                rolledBack := false } }
          match outcome with
          | .ok => (.ok journal.entries.next, inserted)
          | _ => (.error (.logFailed txId), outcome.leaves journal inserted)

/-- An `UPDATE … WHERE id = ?` on one entry, committed, with no `except` clause. -/
def OperationJournal.updateEntry (entryId : Nat) (set : JournalEntry → JournalEntry)
    (outcome : DbOutcome) : Except JournalError Unit × OperationJournal :=
  (match outcome with
    | .ok => .ok ()
    | _ => .error .sqlite,
    outcome.leaves journal { journal with entries := journal.entries.update entryId set })

def OperationJournal.updateStatus (entryId : Nat) (status : OperationStatus)
    (outcome : DbOutcome) : Except JournalError Unit × OperationJournal :=
  journal.updateEntry entryId (·.setStatus status) outcome

def OperationJournal.completeOperation (entryId : Nat) (outcome : DbOutcome) :
    Except JournalError Unit × OperationJournal :=
  journal.updateStatus entryId .completed outcome

def OperationJournal.failOperation (entryId : Nat) (outcome : DbOutcome) :
    Except JournalError Unit × OperationJournal :=
  journal.updateStatus entryId .failed outcome

def OperationJournal.markRolledBack (entryId : Nat) (outcome : DbOutcome) :
    Except JournalError Unit × OperationJournal :=
  journal.updateEntry entryId JournalEntry.setRolledBack outcome

/-- `mark_transaction_rolled_back`: any row, whatever its status. -/
def OperationJournal.markTransactionRolledBack (transactionId : Nat)
    (outcome : DbOutcome) : Except JournalError Unit × OperationJournal :=
  (match outcome with
    | .ok => .ok ()
    | _ => .error .sqlite,
    outcome.leaves journal { journal with
      transactions := journal.transactions.update transactionId (·.setStatus .rolledBack) })

/-- The `WHERE` clause of `get_last_operation`, with its default statuses. -/
def JournalEntry.isFinishedBy (agentId : String) (entry : JournalEntry) : Bool :=
  entry.agentId == agentId && (entry.status == .completed || entry.status == .failed)

/-- The entries `get_last_operation` may answer: it orders by `timestamp DESC`,
whole seconds, and takes one row, so each finished entry of the latest second is
a possible answer. -/
def OperationJournal.lastOperations (agentId : String) : List Nat :=
  let finished := journal.entries.numbersWhere (JournalEntry.isFinishedBy agentId)
  finished.filter fun id => finished.all fun other =>
    decide ((journal.entries.row other).elim 0 JournalEntry.timestamp ≤
      (journal.entries.row id).elim 0 JournalEntry.timestamp)

/-! ## Runs of the journal -/

/-- One call of an operation, and how its statement ends. -/
inductive Action
  | beginTransaction (description : String) (modId : Option Nat) (outcome : DbOutcome)
  | commitTransaction (transactionId : Nat) (outcome : DbOutcome)
  | beginOperation (agentId : String) (operationType : OperationType) (targetPath : String)
      (transactionId : Option Nat) (snapshotPath : Option Nat) (now : Nat) (outcome : DbOutcome)
  | completeOperation (entryId : Nat) (outcome : DbOutcome)
  | failOperation (entryId : Nat) (outcome : DbOutcome)
  | markRolledBack (entryId : Nat) (outcome : DbOutcome)
  | markTransactionRolledBack (transactionId : Nat) (outcome : DbOutcome)

/-- The journal after one call. -/
def OperationJournal.after : Action → OperationJournal
  | .beginTransaction description modId outcome =>
      (journal.beginTransaction description modId outcome).2
  | .commitTransaction transactionId outcome => (journal.commitTransaction transactionId outcome).2
  | .beginOperation agentId operationType targetPath transactionId snapshotPath now outcome =>
      (journal.beginOperation agentId operationType targetPath transactionId snapshotPath now
        outcome).2
  | .completeOperation entryId outcome => (journal.completeOperation entryId outcome).2
  | .failOperation entryId outcome => (journal.failOperation entryId outcome).2
  | .markRolledBack entryId outcome => (journal.markRolledBack entryId outcome).2
  | .markTransactionRolledBack transactionId outcome =>
      (journal.markTransactionRolledBack transactionId outcome).2

/-- Every call can be made in every state. -/
def step (act : Action) : Option OperationJournal := some (journal.after act)

end

/-- A transaction moves from pending to committed or rolled back and then stays;
a new one is pending. -/
def TransactionsMoveForward (s t : OperationJournal) : Prop :=
  ∀ id tx', t.transactions.row id = some tx' →
    match s.transactions.row id with
    | none => tx'.status = .pending
    | some tx => tx'.status = tx.status ∨ tx.status = .pending

/-- A rolled-back entry never becomes completed or failed. -/
def RolledBackStays (s t : OperationJournal) : Prop :=
  ∀ id entry entry', s.entries.row id = some entry → t.entries.row id = some entry' →
    entry.status = .rolledBack → entry'.status ≠ .completed ∧ entry'.status ≠ .failed

/-- An entry is only appended to a pending transaction. -/
def AppendedToPending (s t : OperationJournal) : Prop :=
  ∀ id entry', s.entries.row id = none → t.entries.row id = some entry' →
    ∃ tx, s.transactions.row entry'.transactionId = some tx ∧ tx.status = .pending

/-- The journal's status machine, as a property of one step. -/
def StatusMachine (s : OperationJournal) (_ : Action) (t : OperationJournal) : Prop :=
  TransactionsMoveForward s t ∧ RolledBackStays s t ∧ AppendedToPending s t

/-- The call asks for no move the status machine lacks: a transaction to roll back
is not committed, an entry to complete or to fail is not rolled back, and the
transaction to log to, if it exists, is pending. -/
def AsksForward (s : OperationJournal) (act : Action) (_ : OperationJournal) : Prop :=
  match act with
  | .markTransactionRolledBack transactionId outcome =>
      outcome ≠ .executeError →
        ∀ tx ∈ s.transactions.row transactionId, tx.status ≠ .committed
  | .completeOperation entryId outcome | .failOperation entryId outcome =>
      outcome ≠ .executeError → ∀ entry ∈ s.entries.row entryId, entry.status ≠ .rolledBack
  | .beginOperation _ _ _ transactionId _ _ outcome =>
      outcome ≠ .executeError → ∀ txId ∈ s.effectiveTransaction transactionId,
        ∀ tx ∈ s.transactions.row txId, tx.status = .pending
  | _ => True

/-! ## What the statements do to the three properties -/

variable {s t : OperationJournal}

theorem transactionsMoveForward_of_eq
    (h : t.transactions = s.transactions) : TransactionsMoveForward s t := by
  intro id tx' htx'
  rw [h] at htx'
  rw [htx']
  exact .inl rfl

theorem rolledBackStays_of_eq (h : t.entries = s.entries) :
    RolledBackStays s t := by
  intro id entry entry' hentry hentry' hrolled
  rw [h, hentry] at hentry'
  cases hentry'
  rw [hrolled]
  exact ⟨by simp, by simp⟩

theorem appendedToPending_of_eq (h : t.entries = s.entries) :
    AppendedToPending s t := by
  intro id entry' hnone hentry'
  rw [h, hnone] at hentry'
  cases hentry'

theorem statusMachine_of_entries_eq (act : Action)
    (h : t.entries = s.entries) : StatusMachine s act t ↔ TransactionsMoveForward s t :=
  ⟨fun hmachine => hmachine.1,
    fun hforward => ⟨hforward, rolledBackStays_of_eq h, appendedToPending_of_eq h⟩⟩

theorem statusMachine_refl (s : OperationJournal) (act : Action) : StatusMachine s act s :=
  (statusMachine_of_entries_eq act rfl).mpr (transactionsMoveForward_of_eq rfl)

open AutoTable

theorem transactionsMoveForward_insert (s : OperationJournal) (description : String)
    (modId current : Option Nat) :
    TransactionsMoveForward s { s with
      transactions := s.transactions.insert
        { modId := modId, description := description, status := .pending }
      currentTransaction := current } := by
  intro id tx' htx'
  rcases row_insert_eq_some htx' with hold | ⟨hid, rfl⟩
  · rw [hold]
    exact .inl rfl
  · rw [hid, s.transactions.fresh _ (Nat.le_refl _)]

/-- A status update is a move forward when the row is pending or keeps its status. -/
theorem transactionsMoveForward_update_iff (s : OperationJournal) (transactionId : Nat)
    (status : TransactionStatus) (current : Option Nat) :
    TransactionsMoveForward s { s with
        transactions := s.transactions.update transactionId (·.setStatus status)
        currentTransaction := current } ↔
      ∀ tx ∈ s.transactions.row transactionId, status = tx.status ∨ tx.status = .pending := by
  constructor
  · intro h tx htx
    rw [Option.mem_def] at htx
    have hrow : (s.transactions.update transactionId (·.setStatus status)).row transactionId =
        some (tx.setStatus status) := by
      rw [row_update_self, htx]
      rfl
    have hmove := h transactionId _ hrow
    rw [htx] at hmove
    exact hmove
  · intro h id tx' htx'
    by_cases hid : id = transactionId
    · subst hid
      rw [row_update_self, Option.map_eq_some_iff] at htx'
      obtain ⟨tx, htx, rfl⟩ := htx'
      rw [htx]
      exact h tx htx
    · rw [row_update_of_ne _ _ hid] at htx'
      rw [htx']
      exact .inl rfl

theorem statusMachine_updateTransaction_iff (s : OperationJournal) (act : Action)
    (transactionId : Nat) (status : TransactionStatus) (current : Option Nat) :
    StatusMachine s act { s with
        transactions := s.transactions.update transactionId (·.setStatus status)
        currentTransaction := current } ↔
      ∀ tx ∈ s.transactions.row transactionId, status = tx.status ∨ tx.status = .pending :=
  Iff.trans (statusMachine_of_entries_eq act rfl)
    (transactionsMoveForward_update_iff s transactionId status current)

/-- An entry update meets the status machine when it takes no rolled-back entry
to completed or failed. -/
theorem statusMachine_updateEntry_iff (s : OperationJournal) (act : Action) (entryId : Nat)
    (set : JournalEntry → JournalEntry) :
    StatusMachine s act { s with entries := s.entries.update entryId set } ↔
      ∀ entry ∈ s.entries.row entryId, entry.status = .rolledBack →
        (set entry).status ≠ .completed ∧ (set entry).status ≠ .failed := by
  constructor
  · intro h entry hentry hrolled
    rw [Option.mem_def] at hentry
    refine h.2.1 entryId entry (set entry) hentry ?_ hrolled
    rw [row_update_self, hentry]
    rfl
  · intro h
    refine ⟨transactionsMoveForward_of_eq rfl, ?_, ?_⟩
    · intro id entry entry' hentry hentry' hrolled
      by_cases hid : id = entryId
      · subst hid
        rw [row_update_self, hentry] at hentry'
        cases hentry'
        exact h entry hentry hrolled
      · rw [row_update_of_ne _ _ hid, hentry] at hentry'
        cases hentry'
        rw [hrolled]
        exact ⟨by simp, by simp⟩
    · intro id entry' hnone hentry'
      by_cases hid : id = entryId
      · subst hid
        rw [row_update_self, hnone] at hentry'
        cases hentry'
      · rw [row_update_of_ne _ _ hid, hnone] at hentry'
        cases hentry'

/-- An insert of an entry meets it when the entry's transaction is pending. -/
theorem statusMachine_insertEntry_iff (s : OperationJournal) (act : Action)
    (entry : JournalEntry) :
    StatusMachine s act { s with entries := s.entries.insert entry } ↔
      ∃ tx, s.transactions.row entry.transactionId = some tx ∧ tx.status = .pending := by
  have hfresh : s.entries.row s.entries.next = none := s.entries.fresh _ (Nat.le_refl _)
  constructor
  · intro h
    exact h.2.2 s.entries.next entry hfresh (s.entries.row_insert_self entry)
  · intro hpending
    refine ⟨transactionsMoveForward_of_eq rfl, ?_, ?_⟩
    · intro id old old' hold hold' hrolled
      have hkept : (s.entries.insert entry).row id = some old :=
        s.entries.row_insert_of_some entry hold
      have heq : old = old' := Option.some.inj (hkept.symm.trans hold')
      subst heq
      rw [hrolled]
      exact ⟨by simp, by simp⟩
    · intro id entry' hnone hentry'
      rcases row_insert_eq_some hentry' with hold | ⟨_, rfl⟩
      · rw [hnone] at hold
        cases hold
      · exact hpending

/-! ## The status machine -/

theorem leaves_iff {P : OperationJournal → Prop} {C : Prop}
    {outcome : DbOutcome} (hs : P s) (ht : P t ↔ C) :
    P (outcome.leaves s t) ↔ (outcome ≠ .executeError → C) := by
  by_cases hran : outcome = .executeError
  · subst hran
    exact iff_of_true hs (fun h => absurd rfl h)
  · rw [DbOutcome.leaves_of_ran s t hran, ht]
    exact ⟨fun h _ => h, fun h => h hran⟩

/-- **Step lemma.**  A call keeps to the status machine exactly when it asks for
no other move. -/
theorem statusMachine_after_iff (s : OperationJournal) (act : Action) :
    StatusMachine s act (s.after act) ↔ AsksForward s act (s.after act) := by
  cases act with
  | beginTransaction description modId outcome =>
      refine iff_of_true ?_ trivial
      have hentries : (s.beginTransaction description modId outcome).2.entries = s.entries := by
        cases outcome <;> rfl
      refine (statusMachine_of_entries_eq _ hentries).mpr ?_
      cases outcome with
      | ok | commitError => exact transactionsMoveForward_insert s description modId _
      | executeError => exact transactionsMoveForward_of_eq rfl
  | commitTransaction transactionId outcome =>
      refine iff_of_true ?_ trivial
      simp only [OperationJournal.after, OperationJournal.commitTransaction]
      by_cases hpending : (s.transactions.row transactionId).any (·.status = .pending) = true
      · have hforward : ∀ tx ∈ s.transactions.row transactionId,
            TransactionStatus.committed = tx.status ∨ tx.status = .pending := by
          intro tx htx
          rw [Option.mem_def] at htx
          rw [htx] at hpending
          exact .inr (by simpa using hpending)
        simp only [hpending, if_true]
        cases outcome with
        | ok | commitError =>
            exact (statusMachine_updateTransaction_iff s _ transactionId .committed _).mpr hforward
        | executeError => exact statusMachine_refl s _
      · simp only [hpending]
        cases outcome <;> exact statusMachine_refl s _
  | beginOperation agentId operationType targetPath transactionId snapshotPath now outcome =>
      simp only [OperationJournal.after, OperationJournal.beginOperation, AsksForward]
      cases heffective : s.effectiveTransaction transactionId with
      | none =>
          exact iff_of_true (statusMachine_refl s _) (fun _ txId h => absurd h (by simp))
      | some txId =>
          cases htx : s.transactions.row txId with
          | none =>
              refine iff_of_true (by simpa only [htx] using statusMachine_refl s _) ?_
              rintro _ _ ⟨⟩ tx h
              rw [htx] at h
              cases h
          | some tx =>
              have hinsert := statusMachine_insertEntry_iff s
                (.beginOperation agentId operationType targetPath transactionId snapshotPath now
                  outcome)
                { transactionId := txId, timestamp := now, agentId := agentId,
                  operationType := operationType, targetPath := targetPath, status := .started,
                  snapshotPath := snapshotPath, rolledBack := false }
              have hleaves := @leaves_iff s _ _ _ outcome (statusMachine_refl s _) hinsert
              have hpending : (∃ tx', s.transactions.row txId = some tx' ∧
                  tx'.status = .pending) ↔ ∀ txId' ∈ some txId,
                    ∀ tx' ∈ s.transactions.row txId', tx'.status = .pending := by
                simp [htx]
              rw [hpending] at hleaves
              simp only [htx]
              cases outcome with
              | ok | commitError | executeError => exact hleaves
  | completeOperation | failOperation =>
      refine leaves_iff (P := fun t => StatusMachine s _ t) (statusMachine_refl s _) ?_
      rw [statusMachine_updateEntry_iff]
      simp [JournalEntry.setStatus]
  | markRolledBack entryId outcome =>
      refine iff_of_true ?_ trivial
      refine (leaves_iff (P := fun t => StatusMachine s _ t) (statusMachine_refl s _)
        (statusMachine_updateEntry_iff s _ entryId JournalEntry.setRolledBack)).mpr ?_
      intro _ entry _ _
      exact ⟨by simp [JournalEntry.setRolledBack], by simp [JournalEntry.setRolledBack]⟩
  | markTransactionRolledBack transactionId outcome =>
      refine leaves_iff (P := fun t => StatusMachine s _ t) (statusMachine_refl s _) ?_
      have hupdate := statusMachine_updateTransaction_iff s
        (.markTransactionRolledBack transactionId outcome) transactionId .rolledBack
        s.currentTransaction
      refine hupdate.trans (forall₂_congr fun tx _ => ?_)
      cases tx.status <;> simp

/-- **The journal keeps to its status machine** in every run of calls, from any
journal, exactly when no call asks for another move. -/
theorem statusMachine_iff (journal : OperationJournal) (calls : List Action) :
    Runs.Always step StatusMachine journal calls ↔ Runs.Always step AsksForward journal calls := by
  refine Runs.always_congr ?_ journal calls
  rintro s act _ ⟨⟩
  exact statusMachine_after_iff s act

/-- One transaction with one entry of the sync engine. -/
def oneEntryCalls : List Action :=
  [.beginTransaction "sync" none .ok,
    .beginOperation "sync_engine" .fileModify "Synthesis.esp" (some 1) none 0 .ok]

/-- A committed transaction is rolled back, a rolled-back entry is completed, and
an entry is appended to a committed transaction. -/
theorem statusMachine_counterexample :
    ¬Runs.Always step StatusMachine .empty
        (oneEntryCalls ++ [.commitTransaction 1 .ok] ++ [.markTransactionRolledBack 1 .ok]) ∧
      ¬Runs.Always step StatusMachine .empty
        (oneEntryCalls ++ [.markRolledBack 1 .ok] ++ [.completeOperation 1 .ok]) ∧
      ¬Runs.Always step StatusMachine .empty
        (oneEntryCalls ++ [.commitTransaction 1 .ok] ++
          [.beginOperation "sync_engine" .fileModify "Synthesis.esp" (some 1) none 0 .ok]) := by
  refine ⟨?_, ?_, ?_⟩
  · intro h
    rcases (h.at_prefix rfl rfl).1 1 _ rfl with hkept | hpending
    · exact absurd hkept (by decide)
    · exact absurd hpending (by decide)
  · intro h
    have hstays := (h.at_prefix rfl rfl).2.1 1 _ _ rfl rfl rfl
    exact absurd rfl hstays.1
  · intro h
    obtain ⟨tx, htx, hpending⟩ := (h.at_prefix rfl rfl).2.2 2 _ rfl rfl
    cases htx
    exact absurd hpending (by decide)

/-! ## Transactions that nothing rolls back -/

/-- The transaction exists and is not rolled back. -/
def OperationJournal.NotRolledBack (journal : OperationJournal) (transactionId : Nat) : Prop :=
  ∃ tx, journal.transactions.row transactionId = some tx ∧ tx.status ≠ .rolledBack

theorem notRolledBack_of_eq {transactionId : Nat}
    (h : t.transactions = s.transactions) (hkept : s.NotRolledBack transactionId) :
    t.NotRolledBack transactionId := by
  obtain ⟨tx, htx, hstatus⟩ := hkept
  exact ⟨tx, by rw [h, htx], hstatus⟩

theorem notRolledBack_beginTransaction {transactionId : Nat}
    (description : String) (modId : Option Nat) (outcome : DbOutcome)
    (hkept : s.NotRolledBack transactionId) :
    (s.beginTransaction description modId outcome).2.NotRolledBack transactionId := by
  obtain ⟨tx, htx, hstatus⟩ := hkept
  have hrow := s.transactions.row_insert_of_some
    { modId := modId, description := description, status := .pending } htx
  cases outcome with
  | ok | commitError => exact ⟨tx, hrow, hstatus⟩
  | executeError => exact ⟨tx, htx, hstatus⟩

theorem notRolledBack_begun {description : String} {modId : Option Nat}
    {outcome : DbOutcome} {transactionId : Nat}
    (h : (s.beginTransaction description modId outcome).1 = .ok transactionId) :
    (s.beginTransaction description modId outcome).2.NotRolledBack transactionId := by
  cases outcome with
  | ok =>
      cases h
      exact ⟨_, s.transactions.row_insert_self _, by simp⟩
  | commitError | executeError => cases h

theorem notRolledBack_commitTransaction {transactionId : Nat}
    (committed : Nat) (outcome : DbOutcome) (hkept : s.NotRolledBack transactionId) :
    (s.commitTransaction committed outcome).2.NotRolledBack transactionId := by
  obtain ⟨tx, htx, hstatus⟩ := hkept
  have hupdated : ∃ tx', (s.transactions.update committed (·.setStatus .committed)).row
      transactionId = some tx' ∧ tx'.status ≠ .rolledBack := by
    by_cases hid : transactionId = committed
    · subst hid
      exact ⟨tx.setStatus .committed, by rw [row_update_self, htx]; rfl,
        by simp [Transaction.setStatus]⟩
    · exact ⟨tx, by rw [row_update_of_ne _ _ hid, htx], hstatus⟩
  unfold OperationJournal.commitTransaction
  by_cases hpending : (s.transactions.row committed).any (·.status = .pending) = true
  · simp only [hpending, if_true]
    cases outcome with
    | ok | commitError => exact hupdated
    | executeError => exact ⟨tx, htx, hstatus⟩
  · simp only [hpending]
    cases outcome <;> exact ⟨tx, htx, hstatus⟩

theorem transactions_beginOperation (s : OperationJournal) (agentId : String)
    (operationType : OperationType) (targetPath : String)
    (transactionId snapshotPath : Option Nat) (now : Nat) (outcome : DbOutcome) :
    (s.beginOperation agentId operationType targetPath transactionId snapshotPath now
      outcome).2.transactions = s.transactions := by
  unfold OperationJournal.beginOperation
  cases s.effectiveTransaction transactionId with
  | none => rfl
  | some txId =>
      cases htx : s.transactions.row txId with
      | none => simp only [htx]
      | some tx => cases outcome <;> simp only [htx] <;> rfl

theorem transactions_updateEntry (s : OperationJournal) (entryId : Nat)
    (set : JournalEntry → JournalEntry) (outcome : DbOutcome) :
    (s.updateEntry entryId set outcome).2.transactions = s.transactions := by
  cases outcome <;> rfl

end SkyClaw.Db.Journal
