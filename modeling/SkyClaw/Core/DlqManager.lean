import Mathlib.Algebra.Ring.Int.Defs
import Mathlib.Data.List.Sort
import SkyClaw.Lib.AutoTable
import SkyClaw.Lib.Runs

/-!
# The dead letter queue

The table `dead_letter_events` and the retry workers of any number of `DLQManager`
instances on it.  Every statement of a worker runs on a connection of its own and is
committed at once, so one step of the model is one statement, one reading of the
clock, or one answer of the environment (the resolver, the handler).

* `fetchDueBatch`, `claimRow`, `Settlement.run`, `recoverStaleRows` are the statements;
* `workerStep` is `_retry_loop` with `_process_row` between two such points;
* `step` interleaves the workers with `enqueue` and the clock.

A worker keeps copies of the rows it fetched; only `status` is read again when it
claims one of them.
-/

namespace SkyClaw.Core.Dlq

/-! ## The table -/

inductive RowStatus
  | pending
  | inProgress
  | dead
deriving DecidableEq

structure Event (Payload : Type) where
  topic : String
  payload : Payload
  timestampMs : Int
  source : String
deriving DecidableEq

/-- The columns of `dead_letter_events` other than `id`. -/
structure DLQRecord (Payload : Type) where
  topic : String
  payload : Payload
  source : String
  eventTsMs : Int
  handlerName : String
  errorType : String
  errorMessage : String
  attempts : Nat
  nextRetryAt : Int
  status : RowStatus
  enqueuedAt : Int
  updatedAt : Int
deriving DecidableEq

/-- A fetched copy of a row. -/
structure DLQRow (Payload : Type) extends DLQRecord Payload where
  id : Nat
deriving DecidableEq

abbrev DLQTable (Payload : Type) := AutoTable (DLQRecord Payload)

/-- The constructor arguments that may differ between the workers. -/
structure DLQSettings where
  baseBackoffS : Int
  batchSize : Int

variable {Payload : Type}

/-- The event a handler is given. -/
def DLQRow.event (row : DLQRow Payload) : Event Payload :=
  { topic := row.topic, payload := row.payload, timestampMs := row.eventTsMs,
    source := row.source }

def rowFromSqlite (id : Nat) (r : DLQRecord Payload) : DLQRow Payload := { r with id := id }

def computeNextRetryAt (nowMs : Int) (attempt : Nat) (baseBackoffS : Int) : Int :=
  nowMs + baseBackoffS ^ attempt * 1000

/-- The row `enqueue` inserts. -/
def enqueuedRecord (settings : DLQSettings) (now : Int) (event : Event Payload)
    (handlerName errorType errorMessage : String) : DLQRecord Payload :=
  { topic := event.topic
    payload := event.payload
    source := event.source
    eventTsMs := event.timestampMs
    handlerName := handlerName
    errorType := errorType
    errorMessage := errorMessage
    attempts := 0
    nextRetryAt := computeNextRetryAt now 1 settings.baseBackoffS
    status := .pending
    enqueuedAt := now
    updatedAt := now }

/-! ## The statements of a worker -/

/-- How a statement with its commit ends for the worker: an exception may come before
it is durable or after (closing the connection). -/
inductive StatementEnd
  | returned
  | lost
  | raisedAfterCommit
deriving DecidableEq

/-- The table after a statement that turns `before` into `after`. -/
def StatementEnd.leaves {σ : Type} (ended : StatementEnd) (before after : σ) : σ :=
  match ended with
  | .lost => before
  | .returned | .raisedAfterCommit => after

def StatementEnd.raised : StatementEnd → Bool
  | .returned => false
  | .lost | .raisedAfterCommit => true

section

variable (table : DLQTable Payload)

def recoverStaleRows (now : Int) : DLQTable Payload :=
  table.mapRows fun r =>
    if r.status = .inProgress ∧ r.updatedAt + 60000 < now then
      { r with status := .pending, updatedAt := now }
    else r

/-- `LIMIT ?`; a negative number is no limit. -/
def limitTo {α : Type} (limit : Int) (rows : List α) : List α :=
  if limit < 0 then rows else rows.take limit.toNat

/-- `_fetch_due_batch`; rows due at the same time come in the order of their numbers. -/
def fetchDueBatch (now limit : Int) : List (DLQRow Payload) :=
  let due := table.numbersWhere fun r => decide (r.status = .pending ∧ r.nextRetryAt ≤ now)
  let rows := due.filterMap fun id => (table.row id).map (rowFromSqlite id)
  limitTo limit (rows.insertionSort fun r r' => r.nextRetryAt ≤ r'.nextRetryAt)

/-- The `WHERE` of the claim: `id = ? AND status = 'pending'`. -/
def claimable (id : Nat) : Bool :=
  (table.row id).any fun r => r.status = .pending

/-- The claim of `_process_row`. -/
def claimRow (id : Nat) (now : Int) : DLQTable Payload :=
  table.update id fun r =>
    if r.status = .pending then { r with status := .inProgress, updatedAt := now } else r

/-- The statement that ends the processing of a row, with its parameters. -/
inductive Settlement
  /-- The handler is not registered. -/
  | defer (nextRetry now : Int)
  /-- The handler raised and there are attempts left. -/
  | reschedule (attempts : Nat) (nextRetry : Int) (errorType errorMessage : String) (now : Int)
  | markDead (reason : String) (now : Int) (attempts : Nat)
  /-- The handler returned. -/
  | delete

/-- The statement on the row `id`; none of them looks at what is stored. -/
def Settlement.run (id : Nat) : Settlement → DLQTable Payload
  | .defer nextRetry now => table.update id fun r =>
      { r with status := .pending, nextRetryAt := nextRetry, updatedAt := now }
  | .reschedule attempts nextRetry errorType errorMessage now => table.update id fun r =>
      { r with
        status := .pending, attempts := attempts, nextRetryAt := nextRetry,
        errorType := errorType, errorMessage := errorMessage, updatedAt := now }
  | .markDead reason now attempts => table.update id fun r =>
      { r with status := .dead, errorMessage := reason, updatedAt := now, attempts := attempts }
  | .delete => table.delete id

end

/-- What `_process_row` writes when the handler raised; `attempts` is that of its copy. -/
def failureSettlement (maxAttempts : Int) (settings : DLQSettings) (now : Int)
    (row : DLQRow Payload) (errorType errorMessage : String) : Settlement :=
  let newAttempts := row.attempts + 1
  if maxAttempts ≤ newAttempts then
    .markDead errorMessage now newAttempts
  else
    .reschedule newAttempts (computeNextRetryAt now newAttempts settings.baseBackoffS)
      errorType errorMessage now

/-! ## The workers -/

/-- Where `_retry_loop` is; `readAt` is the clock reading of the pending statement and
`rest` what is left of the batch. -/
inductive WorkerPhase (Payload : Type)
  | stopped
  | recovering (readAt : Int)
  | idle
  | fetching (readAt : Int)
  | batch (rows : List (DLQRow Payload))
  | claiming (readAt : Int) (row : DLQRow Payload) (rest : List (DLQRow Payload))
  /-- The row is claimed, the handler not yet looked up. -/
  | resolving (row : DLQRow Payload) (rest : List (DLQRow Payload))
  | handling (row : DLQRow Payload) (rest : List (DLQRow Payload))
  | settling (row : DLQRow Payload) (write : Settlement) (rest : List (DLQRow Payload))

inductive Resolved
  | registered
  | unregistered
  | raises

inductive WorkerEvent
  | start
  | recover (ended : StatementEnd)
  | poll
  | fetch (raised : Bool)
  /-- The loop over the batch goes on. -/
  | next
  | claim (ended : StatementEnd)
  | resolve (answer : Resolved)
  | handlerReturns
  | handlerRaises (errorType errorMessage : String)
  | settle (ended : StatementEnd)
  /-- The process ends or the task is cancelled. -/
  | crash

/-- `await handler(event)` was reached. -/
structure Invocation (Payload : Type) where
  id : Nat
  handlerName : String
  event : Event Payload
  time : Int
deriving DecidableEq

/-- What one event of a worker leaves behind. -/
structure Moved (Payload : Type) where
  phase : WorkerPhase Payload
  table : DLQTable Payload
  invoked : List (Invocation Payload)

/-- `_retry_loop` and `_process_row`, from one point to the next. -/
def workerStep (maxAttempts : Int) (settings : DLQSettings) (now : Int)
    (table : DLQTable Payload) : WorkerPhase Payload → WorkerEvent → Option (Moved Payload)
  | .stopped, .start => some ⟨.recovering now, table, []⟩
  | .recovering readAt, .recover ended =>
      -- The recovery stands before the `try`: an exception ends the task.
      some ⟨if ended.raised then .stopped else .idle,
        ended.leaves table (recoverStaleRows table readAt), []⟩
  | .idle, .poll => some ⟨.fetching now, table, []⟩
  | .fetching readAt, .fetch raised =>
      some ⟨if raised then .idle else .batch (fetchDueBatch table readAt settings.batchSize),
        table, []⟩
  | .batch [], .next => some ⟨.idle, table, []⟩
  | .batch (row :: rest), .next => some ⟨.claiming now row rest, table, []⟩
  | .claiming readAt row rest, .claim ended =>
      -- An exception drops the rest of the batch, here and below.
      some ⟨if ended.raised then .idle
          else if claimable table row.id then .resolving row rest else .batch rest,
        ended.leaves table (claimRow table row.id readAt), []⟩
  | .resolving row rest, .resolve answer =>
      match answer with
      | .registered =>
          some ⟨.handling row rest, table, [⟨row.id, row.handlerName, row.event, now⟩]⟩
      | .unregistered => some ⟨.settling row (.defer (now + 60000) now) rest, table, []⟩
      | .raises => some ⟨.idle, table, []⟩
  | .handling row rest, .handlerReturns => some ⟨.settling row .delete rest, table, []⟩
  | .handling row rest, .handlerRaises errorType errorMessage =>
      some ⟨.settling row
          (failureSettlement maxAttempts settings now row errorType errorMessage) rest, table, []⟩
  | .settling row write rest, .settle ended =>
      some ⟨if ended.raised then .idle else .batch rest,
        ended.leaves table (write.run table row.id), []⟩
  | _, .crash => some ⟨.stopped, table, []⟩
  | _, _ => none

inductive Action (Payload : Type)
  | tick (now : Int)
  /-- `enqueue` of manager `w`, which read the clock at `readAt`. -/
  | enqueue (w : Nat) (readAt : Int) (event : Event Payload)
      (handlerName errorType errorMessage : String) (ended : StatementEnd)
  | worker (w : Nat) (event : WorkerEvent)

/-- The table, the clock and the workers; `invocations` remembers every handler call. -/
structure State (Payload : Type) where
  now : Int
  table : DLQTable Payload
  phase : Nat → WorkerPhase Payload
  invocations : List (Invocation Payload)

/-- No worker has started on this table. -/
def State.initial (now : Int) (table : DLQTable Payload) : State Payload :=
  { now := now, table := table, phase := fun _ => .stopped, invocations := [] }

/-- What worker `w` did becomes part of the state. -/
def State.after (s : State Payload) (w : Nat) (moved : Moved Payload) : State Payload :=
  { s with
    table := moved.table
    phase := Function.update s.phase w moved.phase
    invocations := moved.invoked ++ s.invocations }

/-- One step; all managers have the same `max_attempts`. -/
def step (maxAttempts : Int) (settings : Nat → DLQSettings) (s : State Payload) :
    Action Payload → Option (State Payload)
  | .tick now => if s.now ≤ now then some { s with now := now } else none
  | .enqueue w readAt event handlerName errorType errorMessage ended =>
      if readAt ≤ s.now then
        some { s with
          table := ended.leaves s.table (s.table.insert
            (enqueuedRecord (settings w) readAt event handlerName errorType errorMessage)) }
      else none
  | .worker w event =>
      (workerStep maxAttempts (settings w) s.now s.table (s.phase w) event).map (s.after w)

/-- How often the handler of row `id` was called. -/
def State.invocationsOf (s : State Payload) (id : Nat) : Nat :=
  s.invocations.countP fun i => i.id = id

/-- The row a worker has claimed and not settled. -/
def WorkerPhase.holding : WorkerPhase Payload → Option Nat
  | .resolving row _ | .handling row _ | .settling row _ _ => some row.id
  | .stopped | .recovering _ | .idle | .fetching _ | .batch _ | .claiming _ _ _ => none

/-! ## What an event of a worker does -/

section Statements

variable {table : DLQTable Payload} {id : Nat}

theorem StatementEnd.leaves_cases {σ : Type} (ended : StatementEnd) (before after : σ) :
    ended.leaves before after = before ∨ ended.leaves before after = after := by
  cases ended with
  | returned | raisedAfterCommit => exact .inr rfl
  | lost => exact .inl rfl

theorem StatementEnd.leaves_of_ne_lost {σ : Type} {ended : StatementEnd} (before after : σ)
    (h : ended ≠ .lost) : ended.leaves before after = after := by
  cases ended with
  | returned | raisedAfterCommit => rfl
  | lost => exact absurd rfl h

theorem claimable_iff :
    claimable table id = true ↔ ∃ r, table.row id = some r ∧ r.status = .pending := by
  simp [claimable, Option.any_eq_true]

theorem ids_of_rows (table : DLQTable Payload) (ids : List Nat) :
    ((ids.filterMap fun id => (table.row id).map (rowFromSqlite id)).map (·.id)).Sublist ids := by
  induction ids with
  | nil => exact List.Sublist.refl []
  | cons id ids ih =>
      cases hrow : table.row id with
      | none =>
          rw [List.filterMap_cons_none (by rw [hrow]; rfl)]
          exact ih.cons id
      | some r =>
          rw [List.filterMap_cons_some (by rw [hrow]; rfl)]
          exact ih.cons_cons id

/-- What `_fetch_due_batch` returns: exact copies of different pending rows. -/
theorem fetchDueBatch_spec (table : DLQTable Payload) (now limit : Int) :
    (∀ row ∈ fetchDueBatch table now limit,
        table.row row.id = some row.toDLQRecord ∧ row.status = .pending) ∧
      ((fetchDueBatch table now limit).map (·.id)).Nodup := by
  have hlimit : ∀ rows : List (DLQRow Payload), (limitTo limit rows).Sublist rows := by
    intro rows
    unfold limitTo
    split
    · exact List.Sublist.refl rows
    · exact List.take_sublist _ rows
  constructor
  · intro row hrow
    have hmem := (hlimit _).subset hrow
    rw [List.mem_insertionSort, List.mem_filterMap] at hmem
    obtain ⟨id, hid, hcopy⟩ := hmem
    obtain ⟨r, hr, rfl⟩ := Option.map_eq_some_iff.mp hcopy
    obtain ⟨q, hq, hdue⟩ := AutoTable.mem_numbersWhere.mp hid
    cases hr.symm.trans hq
    exact ⟨hr, (decide_eq_true_eq.mp hdue).1⟩
  · refine List.Nodup.sublist ((hlimit _).map _) ?_
    refine ((List.perm_insertionSort _ _).map _).nodup_iff.mpr ?_
    refine (ids_of_rows table _).nodup ?_
    exact List.nodup_range.filter _

theorem Settlement.run_row_of_ne {write : Settlement} {id' : Nat} (h : id' ≠ id) :
    (write.run table id).row id' = table.row id' := by
  cases write with
  | defer | markDead => exact AutoTable.row_update_of_ne table _ h
  | reschedule attempts nextRetry errorType errorMessage now =>
      exact AutoTable.row_update_of_ne table _ h
  | delete => exact AutoTable.row_delete_of_ne table h

theorem Settlement.next_run (write : Settlement) : (write.run table id).next = table.next := by
  cases write with
  | defer | reschedule | markDead | delete => rfl

/-- The row is still there, or still is not, and a retry would find the same. -/
def SameRetry (before after : Option (DLQRecord Payload)) : Prop :=
  ∃ f : DLQRecord Payload → DLQRecord Payload, after = before.map f ∧ ∀ r,
    (f r).attempts = r.attempts ∧ (f r).nextRetryAt = r.nextRetryAt ∧
      ((f r).status = .dead ↔ r.status = .dead)

theorem SameRetry.refl (before : Option (DLQRecord Payload)) : SameRetry before before :=
  ⟨id, by simp, fun _ => ⟨rfl, rfl, Iff.rfl⟩⟩

theorem SameRetry.of_some {before after : Option (DLQRecord Payload)} {r : DLQRecord Payload}
    (h : SameRetry before after) (hafter : after = some r) :
    ∃ q, before = some q ∧ r.attempts = q.attempts ∧ r.nextRetryAt = q.nextRetryAt ∧
      (r.status = .dead ↔ q.status = .dead) := by
  obtain ⟨f, rfl, hf⟩ := h
  obtain ⟨q, hq, rfl⟩ := Option.map_eq_some_iff.mp hafter
  exact ⟨q, hq, hf q⟩

theorem recoverStaleRows_row (table : DLQTable Payload) (now : Int) (id : Nat) :
    SameRetry (table.row id) ((recoverStaleRows table now).row id) := by
  refine ⟨_, AutoTable.row_mapRows table _ id, fun r => ?_⟩
  by_cases hstale : r.status = .inProgress ∧ r.updatedAt + 60000 < now
  · rw [if_pos hstale]
    exact ⟨rfl, rfl, by simp [hstale.1]⟩
  · rw [if_neg hstale]
    exact ⟨rfl, rfl, Iff.rfl⟩

theorem claimRow_row (table : DLQTable Payload) (id' : Nat) (now : Int) (id : Nat) :
    SameRetry (table.row id) ((claimRow table id' now).row id) := by
  by_cases hid : id = id'
  · subst hid
    refine ⟨_, AutoTable.row_update_self table id _, fun r => ?_⟩
    by_cases hpending : r.status = .pending
    · rw [if_pos hpending]
      exact ⟨rfl, rfl, by simp [hpending]⟩
    · rw [if_neg hpending]
      exact ⟨rfl, rfl, Iff.rfl⟩
  · rw [claimRow, AutoTable.row_update_of_ne table _ hid]
    exact SameRetry.refl _

theorem SameRetry.leaves {before after : DLQTable Payload} (ended : StatementEnd)
    (h : SameRetry (before.row id) (after.row id)) :
    SameRetry (before.row id) ((ended.leaves before after).row id) := by
  rcases ended.leaves_cases before after with hends | hends
  · rw [hends]
    exact SameRetry.refl _
  · rw [hends]
    exact h

end Statements

section Workers

variable {maxAttempts now : Int} {settings : DLQSettings} {table : DLQTable Payload}
  {phase : WorkerPhase Payload} {event : WorkerEvent} {moved : Moved Payload} {id : Nat}

/-- The ways a worker can go on. -/
inductive WorkerMoves (maxAttempts : Int) (settings : DLQSettings) (now : Int)
    (table : DLQTable Payload) : WorkerPhase Payload → WorkerEvent → Moved Payload → Prop
  | starts : WorkerMoves maxAttempts settings now table .stopped .start
      ⟨.recovering now, table, []⟩
  | recovers {readAt : Int} :
      WorkerMoves maxAttempts settings now table (.recovering readAt) (.recover .returned)
        ⟨.idle, recoverStaleRows table readAt, []⟩
  | recoveryRaises {readAt : Int} {ended : StatementEnd} (hraised : ended ≠ .returned) :
      WorkerMoves maxAttempts settings now table (.recovering readAt) (.recover ended)
        ⟨.stopped, ended.leaves table (recoverStaleRows table readAt), []⟩
  | polls : WorkerMoves maxAttempts settings now table .idle .poll ⟨.fetching now, table, []⟩
  | fetches {readAt : Int} :
      WorkerMoves maxAttempts settings now table (.fetching readAt) (.fetch false)
        ⟨.batch (fetchDueBatch table readAt settings.batchSize), table, []⟩
  | fetchRaises {readAt : Int} :
      WorkerMoves maxAttempts settings now table (.fetching readAt) (.fetch true) ⟨.idle, table, []⟩
  | batchEnds : WorkerMoves maxAttempts settings now table (.batch []) .next ⟨.idle, table, []⟩
  | takes {row : DLQRow Payload} {rest : List (DLQRow Payload)} :
      WorkerMoves maxAttempts settings now table (.batch (row :: rest)) .next
        ⟨.claiming now row rest, table, []⟩
  | claims {readAt : Int} {row : DLQRow Payload} {rest : List (DLQRow Payload)}
      (hclaimable : claimable table row.id = true) :
      WorkerMoves maxAttempts settings now table (.claiming readAt row rest) (.claim .returned)
        ⟨.resolving row rest, claimRow table row.id readAt, []⟩
  | claimMisses {readAt : Int} {row : DLQRow Payload} {rest : List (DLQRow Payload)}
      (hclaimable : claimable table row.id = false) :
      WorkerMoves maxAttempts settings now table (.claiming readAt row rest) (.claim .returned)
        ⟨.batch rest, claimRow table row.id readAt, []⟩
  | claimRaises {readAt : Int} {row : DLQRow Payload} {rest : List (DLQRow Payload)}
      {ended : StatementEnd} (hraised : ended ≠ .returned) :
      WorkerMoves maxAttempts settings now table (.claiming readAt row rest) (.claim ended)
        ⟨.idle, ended.leaves table (claimRow table row.id readAt), []⟩
  | invokes {row : DLQRow Payload} {rest : List (DLQRow Payload)} :
      WorkerMoves maxAttempts settings now table (.resolving row rest) (.resolve .registered)
        ⟨.handling row rest, table, [⟨row.id, row.handlerName, row.event, now⟩]⟩
  | defers {row : DLQRow Payload} {rest : List (DLQRow Payload)} :
      WorkerMoves maxAttempts settings now table (.resolving row rest) (.resolve .unregistered)
        ⟨.settling row (.defer (now + 60000) now) rest, table, []⟩
  | resolverRaises {row : DLQRow Payload} {rest : List (DLQRow Payload)} :
      WorkerMoves maxAttempts settings now table (.resolving row rest) (.resolve .raises)
        ⟨.idle, table, []⟩
  | handlerReturns {row : DLQRow Payload} {rest : List (DLQRow Payload)} :
      WorkerMoves maxAttempts settings now table (.handling row rest) .handlerReturns
        ⟨.settling row .delete rest, table, []⟩
  | handlerRaises {row : DLQRow Payload} {rest : List (DLQRow Payload)}
      {errorType errorMessage : String} :
      WorkerMoves maxAttempts settings now table (.handling row rest)
        (.handlerRaises errorType errorMessage)
        ⟨.settling row (failureSettlement maxAttempts settings now row errorType errorMessage) rest,
          table, []⟩
  | settles {row : DLQRow Payload} {write : Settlement} {rest : List (DLQRow Payload)} :
      WorkerMoves maxAttempts settings now table (.settling row write rest) (.settle .returned)
        ⟨.batch rest, write.run table row.id, []⟩
  | settlementRaises {row : DLQRow Payload} {write : Settlement} {rest : List (DLQRow Payload)}
      {ended : StatementEnd} (hraised : ended ≠ .returned) :
      WorkerMoves maxAttempts settings now table (.settling row write rest) (.settle ended)
        ⟨.idle, ended.leaves table (write.run table row.id), []⟩
  | crashes {phase : WorkerPhase Payload} :
      WorkerMoves maxAttempts settings now table phase .crash ⟨.stopped, table, []⟩

/-- **Inversion of a worker's step.** -/
theorem moves_of_workerStep
    (h : workerStep maxAttempts settings now table phase event = some moved) :
    WorkerMoves maxAttempts settings now table phase event moved := by
  unfold workerStep at h
  split at h
  · cases h
    exact .starts
  · rename_i readAt ended
    cases h
    cases ended with
    | returned => exact .recovers
    | lost | raisedAfterCommit => exact .recoveryRaises (by simp)
  · cases h
    exact .polls
  · rename_i readAt raised
    cases h
    cases raised with
    | true => exact .fetchRaises
    | false => exact .fetches
  · cases h
    exact .batchEnds
  · cases h
    exact .takes
  · rename_i readAt row rest ended
    cases h
    cases ended with
    | returned =>
        cases hclaimable : claimable table row.id with
        | true => exact .claims hclaimable
        | false => exact .claimMisses hclaimable
    | lost | raisedAfterCommit => exact .claimRaises (by simp)
  · rename_i row rest answer
    cases answer with
    | registered =>
        cases h
        exact .invokes
    | unregistered =>
        cases h
        exact .defers
    | raises =>
        cases h
        exact .resolverRaises
  · cases h
    exact .handlerReturns
  · cases h
    exact .handlerRaises
  · rename_i row write rest ended
    cases h
    cases ended with
    | returned => exact .settles
    | lost | raisedAfterCommit => exact .settlementRaises (by simp)
  · cases h
    exact .crashes
  · cases h

theorem workerStep_next (h : workerStep maxAttempts settings now table phase event = some moved) :
    moved.table.next = table.next := by
  have hleaves : ∀ (ended : StatementEnd) (after : DLQTable Payload), after.next = table.next →
      (ended.leaves table after).next = table.next := by
    intro ended after hafter
    rcases ended.leaves_cases table after with hends | hends <;> rw [hends]
    exact hafter
  cases moves_of_workerStep h with
  | recoveryRaises | claimRaises => exact hleaves _ _ rfl
  | settles => exact Settlement.next_run _
  | settlementRaises => exact hleaves _ _ (Settlement.next_run _)
  | _ => rfl

/-- **A worker that does not hold a row** leaves its retry data alone and does not
call its handler; it holds the row afterwards only if it has claimed it. -/
theorem workerStep_of_not_holding
    (h : workerStep maxAttempts settings now table phase event = some moved)
    (hnot : phase.holding ≠ some id) :
    SameRetry (table.row id) (moved.table.row id) ∧
      (moved.invoked.countP fun i => i.id = id) = 0 ∧
      (moved.phase.holding = some id → ∃ readAt row rest,
        phase = .claiming readAt row rest ∧ event = .claim .returned ∧ row.id = id ∧
          claimable table id = true ∧ moved.phase = .resolving row rest) := by
  cases moves_of_workerStep h with
  | starts | polls | fetches | fetchRaises | batchEnds | takes | resolverRaises | crashes
      => exact ⟨SameRetry.refl _, rfl, nofun⟩
  | @recovers readAt => exact ⟨recoverStaleRows_row table readAt id, rfl, nofun⟩
  | @recoveryRaises readAt ended =>
      exact ⟨(recoverStaleRows_row table readAt id).leaves ended, rfl, nofun⟩
  | @claims readAt row rest hclaimable =>
      refine ⟨claimRow_row table row.id readAt id, rfl, fun hholds => ?_⟩
      cases hholds
      exact ⟨readAt, row, rest, rfl, rfl, rfl, hclaimable, rfl⟩
  | @claimMisses readAt row => exact ⟨claimRow_row table row.id readAt id, rfl, nofun⟩
  | @claimRaises readAt row _ ended =>
      exact ⟨(claimRow_row table row.id readAt id).leaves ended, rfl, nofun⟩
  | @invokes row =>
      -- Only its own row's handler is called.
      have hne : row.id ≠ id := fun heq => hnot (congrArg some heq)
      exact ⟨SameRetry.refl _, by simp [hne], fun hholds => absurd hholds hnot⟩
  | defers | handlerReturns | handlerRaises
      => exact ⟨SameRetry.refl _, rfl, fun hholds => absurd hholds hnot⟩
  | @settles row write =>
      have hne : id ≠ row.id := fun heq => hnot (congrArg some heq.symm)
      refine ⟨?_, rfl, nofun⟩
      rw [Settlement.run_row_of_ne hne]
      exact SameRetry.refl _
  | @settlementRaises row write _ ended =>
      have hne : id ≠ row.id := fun heq => hnot (congrArg some heq.symm)
      refine ⟨SameRetry.leaves ended ?_, rfl, nofun⟩
      rw [Settlement.run_row_of_ne hne]
      exact SameRetry.refl _

end Workers

end SkyClaw.Core.Dlq
