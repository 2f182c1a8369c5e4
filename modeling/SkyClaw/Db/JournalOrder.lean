import SkyClaw.Db.Journal
import SkyClaw.Lib.OrderBy

/-!
# The order of journal entries

`get_operations_by_transaction` and `get_last_operation` with all that they may answer: both order
by `timestamp`, which is in whole seconds, and by nothing else.

`insertionOrder_iff` says in which runs the answers are in the order of the numbers.
-/

namespace SkyClaw.Db.Journal

section

variable (journal : OperationJournal)

/-- The `timestamp` of a row. -/
def OperationJournal.timestampOf (id : Nat) : Nat :=
  (journal.entries.row id).elim 0 JournalEntry.timestamp

/-- The rows of `WHERE transaction_id = ?`. -/
def OperationJournal.operationsOf (transactionId : Nat) : List Nat :=
  journal.entries.numbersWhere (·.transactionId == transactionId)

/-- An answer of `get_operations_by_transaction`. -/
def OperationJournal.IsOperationsByTransaction (transactionId : Nat) (answer : List Nat) : Prop :=
  OrderBy.IsAnswer journal.timestampOf (journal.operationsOf transactionId) answer

/-- `WHERE agent_id = ? AND status IN (…)` -/
def JournalEntry.isOf (agentId : String) (statuses : List OperationStatus) (entry : JournalEntry) :
    Bool :=
  entry.agentId == agentId && statuses.contains entry.status

def OperationJournal.entriesOf (agentId : String) (statuses : List OperationStatus) : List Nat :=
  journal.entries.numbersWhere (JournalEntry.isOf agentId statuses)

/-- An answer of `get_last_operation`. -/
def OperationJournal.IsLastOperation (agentId : String)
    (statuses : List OperationStatus) (id : Nat) : Prop :=
  OrderBy.IsLast journal.timestampOf (journal.entriesOf agentId statuses) id

/-- The entries of a transaction come in the order of their numbers, and the last operation of an
agent is the one with the greatest number. -/
def InsertionOrder : Prop :=
  (∀ transactionId answer, journal.IsOperationsByTransaction transactionId answer →
    answer = journal.operationsOf transactionId) ∧
    ∀ agentId statuses id, journal.IsLastOperation agentId statuses id →
      ∀ other ∈ journal.entriesOf agentId statuses, other ≤ id

/-- An entry is begun in a later second than every entry of its transaction or its agent. -/
def BeginsLater (s : OperationJournal) (act : Action) (_ : OperationJournal) : Prop :=
  match act with
  | .beginOperation agentId _ _ transactionId _ now outcome =>
      outcome ≠ .executeError → ∀ txId ∈ s.effectiveTransaction transactionId,
        (s.transactions.row txId).isSome → ∀ id entry, s.entries.row id = some entry →
          entry.transactionId = txId ∨ entry.agentId = agentId → entry.timestamp < now
  | _ => True

/-- Entries that a query may compare. -/
def Related (entry other : JournalEntry) : Prop :=
  entry.transactionId = other.transactionId ∨ entry.agentId = other.agentId

/-- The seconds of related entries rise with their numbers. -/
def Clocked : Prop :=
  ∀ id other entry otherEntry, journal.entries.row id = some entry →
    journal.entries.row other = some otherEntry → id < other → Related entry otherEntry →
      entry.timestamp < otherEntry.timestamp

end

variable {journal : OperationJournal} {id : Nat}

/-! ## The queries on a journal whose seconds rise -/

variable {entry : JournalEntry}

theorem timestampOf_eq
    (h : journal.entries.row id = some entry) : journal.timestampOf id = entry.timestamp := by
  simp [OperationJournal.timestampOf, h]

open AutoTable

theorem mem_operationsOf_iff {transactionId : Nat} :
    id ∈ journal.operationsOf transactionId ↔
      ∃ entry, journal.entries.row id = some entry ∧ entry.transactionId = transactionId := by
  simp [OperationJournal.operationsOf, mem_numbersWhere]

theorem mem_entriesOf_iff {agentId : String}
    {statuses : List OperationStatus} :
    id ∈ journal.entriesOf agentId statuses ↔
      ∃ entry, journal.entries.row id = some entry ∧ entry.agentId = agentId ∧
        entry.status ∈ statuses := by
  simp [OperationJournal.entriesOf, mem_numbersWhere, JournalEntry.isOf]

theorem insertionOrder_of_clocked (h : Clocked journal) :
    InsertionOrder journal := by
  constructor
  · intro transactionId
    refine (OrderBy.forall_isAnswer_iff (pairwise_numbersWhere _ _)).mpr ?_
    intro id hid other hother hlt
    obtain ⟨entry, hrow, htx⟩ := mem_operationsOf_iff.mp hid
    obtain ⟨otherEntry, hotherRow, hotherTx⟩ := mem_operationsOf_iff.mp hother
    rw [timestampOf_eq hrow, timestampOf_eq hotherRow]
    exact h id other entry otherEntry hrow hotherRow hlt (.inl (htx.trans hotherTx.symm))
  · intro agentId statuses last hlast
    refine hlast.greatest fun id hid other hother hlt => ?_
    obtain ⟨entry, hrow, hagent, -⟩ := mem_entriesOf_iff.mp hid
    obtain ⟨otherEntry, hotherRow, hotherAgent, -⟩ := mem_entriesOf_iff.mp hother
    rw [timestampOf_eq hrow, timestampOf_eq hotherRow]
    exact h id other entry otherEntry hrow hotherRow hlt (.inr (hagent.trans hotherAgent.symm))

/-! ## Steps -/

/-- What the queries look at is the same. -/
def SameOrigin (entry entry' : JournalEntry) : Prop :=
  entry'.transactionId = entry.transactionId ∧ entry'.timestamp = entry.timestamp ∧
    entry'.agentId = entry.agentId

/-- Every entry was there before, with the same transaction, second and agent. -/
def KeepsEntries (s t : OperationJournal) : Prop :=
  ∀ id entry', t.entries.row id = some entry' →
    ∃ entry, s.entries.row id = some entry ∧ SameOrigin entry entry'

variable {s t : OperationJournal}

theorem KeepsEntries.of_eq (h : t.entries = s.entries) :
    KeepsEntries s t := by
  intro id entry' hrow
  rw [h] at hrow
  exact ⟨entry', hrow, rfl, rfl, rfl⟩

theorem KeepsEntries.updateEntry (s : OperationJournal) (entryId : Nat)
    (set : JournalEntry → JournalEntry) (hset : ∀ entry, SameOrigin entry (set entry))
    (outcome : DbOutcome) : KeepsEntries s (s.updateEntry entryId set outcome).2 := by
  by_cases hran : outcome = .executeError
  · rw [hran]
    exact .of_eq rfl
  · intro id entry' hrow
    simp only [OperationJournal.updateEntry, DbOutcome.leaves_of_ran _ _ hran] at hrow
    by_cases hid : id = entryId
    · subst hid
      rw [row_update_self, Option.map_eq_some_iff] at hrow
      obtain ⟨entry, hentry, rfl⟩ := hrow
      exact ⟨entry, hentry, hset entry⟩
    · rw [row_update_of_ne _ _ hid] at hrow
      exact ⟨entry', hrow, rfl, rfl, rfl⟩

theorem Clocked.of_keepsEntries (h : Clocked s)
    (hkeeps : KeepsEntries s t) : Clocked t := by
  intro id other entry' otherEntry' hrow hotherRow hlt hrelated
  obtain ⟨entry, hentry, htx, htime, hagent⟩ := hkeeps id entry' hrow
  obtain ⟨otherEntry, hotherEntry, hotherTx, hotherTime, hotherAgent⟩ :=
    hkeeps other otherEntry' hotherRow
  rw [htime, hotherTime]
  refine h id other entry otherEntry hentry hotherEntry hlt ?_
  unfold Related at hrelated ⊢
  rwa [htx, hotherTx, hagent, hotherAgent] at hrelated

/-- A journal that got one new entry. -/
def Inserted (s t : OperationJournal) (entry : JournalEntry) : Prop :=
  t.entries = s.entries.insert entry

/-- The new entry is later than those that it is compared with. -/
def LaterThanRelated (s : OperationJournal) (entry : JournalEntry) : Prop :=
  ∀ id old, s.entries.row id = some old → Related old entry → old.timestamp < entry.timestamp

/-- **What a call does to the entries.** -/
theorem after_entries (s : OperationJournal) (act : Action) :
    (KeepsEntries s (s.after act) ∧ BeginsLater s act (s.after act)) ∨
      ∃ entry, Inserted s (s.after act) entry ∧
        (BeginsLater s act (s.after act) ↔ LaterThanRelated s entry) := by
  cases act with
  | beginTransaction _ _ outcome | markTransactionRolledBack _ outcome =>
      left
      refine ⟨.of_eq ?_, trivial⟩
      cases outcome <;> rfl
  | commitTransaction transactionId outcome =>
      left
      refine ⟨.of_eq ?_, trivial⟩
      simp only [OperationJournal.after, OperationJournal.commitTransaction]
      cases outcome <;> cases (s.transactions.row transactionId).any (·.status = .pending) <;> rfl
  | beginOperation agentId operationType targetPath transactionId snapshotPath now outcome =>
      simp only [OperationJournal.after, OperationJournal.beginOperation, BeginsLater]
      cases heffective : s.effectiveTransaction transactionId with
      | none => exact .inl ⟨.of_eq rfl, by simp⟩
      | some txId =>
          cases hrow : s.transactions.row txId with
          | none => exact .inl ⟨.of_eq (by simp only [hrow]), by simp [hrow]⟩
          | some tx =>
              -- Of what can go wrong here, only an INSERT that did not run adds no entry.
              by_cases hran : outcome = .executeError
              · subst hran
                exact .inl ⟨.of_eq (by simp only [hrow, DbOutcome.leaves_executeError]),
                  fun h => absurd rfl h⟩
              · right
                let entry : JournalEntry :=
                  { transactionId := txId
                    timestamp := now
                    agentId := agentId
                    operationType := operationType
                    targetPath := targetPath
                    status := .started
                    snapshotPath := snapshotPath
                    rolledBack := false }
                refine ⟨entry, ?_, ?_⟩
                · simp only [hrow, Inserted]
                  cases outcome with
                  | executeError => exact absurd rfl hran
                  | ok | commitError => rfl
                · simp only [hran, ne_eq, not_false_eq_true, forall_const, Option.mem_some_iff,
                    forall_eq', hrow, Option.isSome_some, LaterThanRelated, Related]
                  exact Iff.rfl
  | completeOperation entryId outcome =>
      exact .inl ⟨.updateEntry s entryId (·.setStatus .completed) (fun _ => ⟨rfl, rfl, rfl⟩) outcome, trivial⟩
  | failOperation entryId outcome =>
      exact .inl ⟨.updateEntry s entryId (·.setStatus .failed) (fun _ => ⟨rfl, rfl, rfl⟩) outcome, trivial⟩
  | markRolledBack entryId outcome =>
      exact .inl ⟨.updateEntry s entryId JournalEntry.setRolledBack (fun _ => ⟨rfl, rfl, rfl⟩) outcome, trivial⟩

theorem Clocked.insert (h : Clocked s)
    (hinserted : Inserted s t entry) (hlater : LaterThanRelated s entry) : Clocked t := by
  intro id other first second hrow hotherRow hlt hrelated
  rw [hinserted] at hrow hotherRow
  rcases row_insert_eq_some hotherRow with hold | ⟨hother, rfl⟩
  · rcases row_insert_eq_some hrow with hfirst | ⟨hid, rfl⟩
    · exact h id other first second hfirst hold hlt hrelated
    · -- the new entry has the greatest number
      have := lt_next hold
      omega
  · rcases row_insert_eq_some hrow with hfirst | ⟨hid, rfl⟩
    · exact hlater id first hfirst hrelated
    · omega

/-- After an insert, the order is that of the numbers only if the new entry is later. -/
theorem laterThanRelated_of_insertionOrder
    (hinserted : Inserted s t entry) (h : InsertionOrder t) : LaterThanRelated s entry := by
  intro id old hold hrelated
  have hlt : id < s.entries.next := lt_next hold
  have holdRow : t.entries.row id = some old := by
    rw [hinserted]
    exact row_insert_of_some s.entries entry hold
  have hnewRow : t.entries.row s.entries.next = some entry := by
    rw [hinserted]
    exact row_insert_self s.entries entry
  rcases hrelated with htx | hagent
  · have hmem : id ∈ t.operationsOf entry.transactionId :=
      mem_operationsOf_iff.mpr ⟨old, holdRow, htx⟩
    have hnewMem : s.entries.next ∈ t.operationsOf entry.transactionId :=
      mem_operationsOf_iff.mpr ⟨entry, hnewRow, rfl⟩
    have hkey := (OrderBy.forall_isAnswer_iff (pairwise_numbersWhere _ _)).mp
      (h.1 entry.transactionId) id hmem _ hnewMem hlt
    rwa [timestampOf_eq holdRow, timestampOf_eq hnewRow] at hkey
  · -- Asked for both statuses, the agent's query sees both entries.
    have hmem : id ∈ t.entriesOf entry.agentId [old.status, entry.status] :=
      mem_entriesOf_iff.mpr ⟨old, holdRow, hagent, by simp⟩
    have hnewMem : s.entries.next ∈ t.entriesOf entry.agentId [old.status, entry.status] :=
      mem_entriesOf_iff.mpr ⟨entry, hnewRow, rfl, by simp⟩
    have hgreatest : ∀ other ∈ t.entriesOf entry.agentId [old.status, entry.status],
        other ≤ s.entries.next := by
      intro other hother
      obtain ⟨otherEntry, hrow, -⟩ := mem_entriesOf_iff.mp hother
      have := lt_next hrow
      rw [hinserted, next_insert] at this
      omega
    have hkey : t.timestampOf id < t.timestampOf s.entries.next :=
      OrderBy.key_lt_of_forall_isLast hgreatest hmem hlt fun row hrow =>
        h.2 entry.agentId [old.status, entry.status] row hrow _ hnewMem
    rwa [timestampOf_eq holdRow, timestampOf_eq hnewRow] at hkey

/-- **In which runs the answers are in insertion order.** -/
theorem insertionOrder_iff (calls : List Action) :
    Runs.Throughout step InsertionOrder .empty calls ↔
      Runs.Always step BeginsLater .empty calls := by
  have hempty : Clocked .empty := by
    intro id other entry otherEntry hrow
    cases hrow
  have hiff : Runs.Always step (fun _ _ t => InsertionOrder t) .empty calls ↔
      Runs.Always step BeginsLater .empty calls := by
    refine Runs.always_iff_of_guarded (I := Clocked) ?_ ?_ hempty calls
    · rintro s act t hclocked ⟨⟩ hlater
      rcases after_entries s act with ⟨hkeeps, -⟩ | ⟨entry, hinserted, hiff⟩
      · exact hclocked.of_keepsEntries hkeeps
      · exact hclocked.insert hinserted (hiff.mp hlater)
    · rintro s act t hclocked ⟨⟩
      rcases after_entries s act with ⟨hkeeps, hlater⟩ | ⟨entry, hinserted, hiff⟩
      · exact iff_of_true (insertionOrder_of_clocked (hclocked.of_keepsEntries hkeeps)) hlater
      · rw [hiff]
        exact ⟨laterThanRelated_of_insertionOrder hinserted, fun hlater =>
          insertionOrder_of_clocked (hclocked.insert hinserted hlater)⟩
  rw [← hiff]
  exact and_iff_right (insertionOrder_of_clocked hempty)

/-- Two entries of one second: the transaction may be answered backwards. -/
theorem insertionOrder_same_second :
    ¬ Runs.Throughout step InsertionOrder .empty
      [.beginTransaction "sync" none .ok,
        .beginOperation "sync_engine" .fileModify "Synthesis.esp" (some 1) none 0 .ok,
        .beginOperation "sync_engine" .fileModify "Bashed Patch.esp" (some 1) none 0 .ok] := by
  intro h
  have hlast := h.exec rfl
  have hbackwards := hlast.1 1 [2, 1] ⟨by decide, by decide⟩
  exact absurd hbackwards (by decide)

end SkyClaw.Db.Journal
