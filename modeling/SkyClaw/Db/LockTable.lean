import SkyClaw.Db.Statement
import SkyClaw.Lib.KeyedTable
import Mathlib.Order.Lattice

/-!
# The `resource_locks` table

Rows, configuration and the three SQL statements of `db/locks.py`.  The table
has one row per resource (`resource_id TEXT PRIMARY KEY`); a row is exactly the
`LockInfo` that `acquire_lock` hands out.  Times are elements of any linear
order with an addition, so nothing here depends on how the clock is represented.

Each statement returns the new table together with `cursor.rowcount`.
-/

namespace SkyClaw.Db.Locks

/-- Metadata about a held lock, and a row of `resource_locks`. -/
structure LockInfo (Time : Type) where
  resourceId : String
  agentId : String
  acquiredAt : Time
  expiresAt : Time
deriving DecidableEq

/-- `resource_locks`, keyed by `resource_id`. -/
abbrev LockTable (Time : Type) := KeyedTable fun row : LockInfo Time => row.resourceId

/-- The arguments of one `acquire_lock` call. -/
structure LockRequest (Time : Type) where
  resourceId : String
  agentId : String
  ttl : Option Time

/-- The constructor arguments of `DistributedLockManager`. -/
structure LockManager (Time : Type) where
  defaultTtl : Time
  maxRetries : Nat
  backoffBase : Time
  backoffMax : Time

/-- The class defaults: ten minutes, five attempts, 0.1 s doubling up to 5 s,
in milliseconds. -/
def defaultLockManager : LockManager Nat :=
  { defaultTtl := 600000, maxRetries := 5, backoffBase := 100, backoffMax := 5000 }

variable {Time : Type}

/-- `LockInfo.is_expired`: the clock has reached `expires_at`. -/
def LockInfo.IsExpired [LE Time] (info : LockInfo Time) (now : Time) : Prop := info.expiresAt ≤ now

instance [LinearOrder Time] (info : LockInfo Time) (now : Time) : Decidable (info.IsExpired now) :=
  inferInstanceAs (Decidable (info.expiresAt ≤ now))

/-- `ttl if ttl is not None else self._default_ttl`. -/
def LockManager.ttlSeconds (m : LockManager Time) (req : LockRequest Time) : Time :=
  req.ttl.getD m.defaultTtl

/-- `base * 2 ** attempt`. -/
def doubled [Add Time] (base : Time) : Nat → Time
  | 0 => base
  | attempt + 1 => doubled base attempt + doubled base attempt

/-- The capped exponential backoff before the next attempt. -/
def LockManager.backoffDelay [LinearOrder Time] [Add Time] (m : LockManager Time)
    (attempt : Nat) : Time :=
  min (doubled m.backoffBase attempt) m.backoffMax

/-- The row an attempt that read the clock at `now` writes. -/
def LockManager.leaseFor [Add Time] (m : LockManager Time) (req : LockRequest Time)
    (now : Time) : LockInfo Time :=
  { resourceId := req.resourceId
    agentId := req.agentId
    acquiredAt := now
    expiresAt := now + m.ttlSeconds req }

/-- `_ACQUIRE_SQL`: insert the row, or take over the row in the way when its
lease ran out before `excluded.acquired_at`. -/
def acquireSql [LinearOrder Time] (table : LockTable Time) (row : LockInfo Time) :
    LockTable Time × Nat :=
  match table.lookup row.resourceId with
  | none => (table.upsert row, 1)
  | some held =>
      if held.expiresAt < row.acquiredAt then (table.upsert row, 1) else (table, 0)

/-- The `WHERE` clause of `_RELEASE_SQL`: resource and agent, nothing else. -/
def releaseMatches (resourceId agentId : String) (row : LockInfo Time) : Bool :=
  row.resourceId == resourceId && row.agentId == agentId

def releaseSql (table : LockTable Time) (resourceId agentId : String) : LockTable Time × Nat :=
  (table.deleteWhere (releaseMatches resourceId agentId),
    table.countWhere (releaseMatches resourceId agentId))

/-- The statement of `cleanup_expired`. -/
def cleanupSql [LinearOrder Time] (table : LockTable Time) (now : Time) :
    LockTable Time × Nat :=
  (table.deleteWhere fun row => decide (row.expiresAt < now),
    table.countWhere fun row => decide (row.expiresAt < now))

theorem lookup_releaseSql_of_ne {table : LockTable Time} {held : LockInfo Time}
    {resourceId agentId : String} (hheld : table.lookup held.resourceId = some held)
    (hne : ¬(held.resourceId = resourceId ∧ held.agentId = agentId)) :
    (releaseSql table resourceId agentId).1.lookup held.resourceId = some held := by
  refine KeyedTable.lookup_deleteWhere_of_not hheld ?_
  simpa [releaseMatches] using hne

theorem lookup_releaseSql_of_match {table : LockTable Time} {held : LockInfo Time}
    (hheld : table.lookup held.resourceId = some held) :
    (releaseSql table held.resourceId held.agentId).1.lookup held.resourceId = none := by
  simp [releaseSql, KeyedTable.lookup_deleteWhere, hheld, releaseMatches, Option.filter]

section Expiry

variable [LinearOrder Time]

/-- What the acquire statement does: nothing while an unexpired row (as of the
clock the attempt read) is in the way, else it files the new row. -/
theorem acquireSql_cases (table : LockTable Time) (row : LockInfo Time) :
    ((acquireSql table row) = (table.upsert row, 1) ∧
        ∀ held, table.lookup row.resourceId = some held → held.expiresAt < row.acquiredAt) ∨
      ((acquireSql table row) = (table, 0) ∧
        ∃ held, table.lookup row.resourceId = some held ∧ row.acquiredAt ≤ held.expiresAt) := by
  unfold acquireSql
  cases hlookup : table.lookup row.resourceId with
  | none => exact .inl ⟨rfl, fun held h => by cases h⟩
  | some held =>
      by_cases hexpired : held.expiresAt < row.acquiredAt
      · refine .inl ⟨by simp [hexpired], ?_⟩
        rintro _ ⟨⟩
        exact hexpired
      · exact .inr ⟨by simp [hexpired], held, rfl, not_lt.mp hexpired⟩

/-- A row that is unexpired at or after the clock an attempt read survives the
attempt. -/
theorem lookup_acquireSql_of_unexpired {table : LockTable Time} {row held : LockInfo Time}
    {resourceId : String} (hheld : table.lookup resourceId = some held)
    (hunexpired : row.acquiredAt ≤ held.expiresAt) :
    (acquireSql table row).1.lookup resourceId = some held := by
  rcases acquireSql_cases table row with ⟨heq, hfree⟩ | ⟨heq, _⟩
  · rw [heq]
    by_cases hres : row.resourceId = resourceId
    · subst hres
      exact absurd (hfree held hheld) (not_lt.mpr hunexpired)
    · exact (table.lookup_upsert_of_ne hres).trans hheld
  · rw [heq]
    exact hheld

theorem lookup_cleanupSql_of_unexpired {table : LockTable Time} {held : LockInfo Time}
    {resourceId : String} {now : Time} (hheld : table.lookup resourceId = some held)
    (hunexpired : now ≤ held.expiresAt) :
    (cleanupSql table now).1.lookup resourceId = some held := by
  refine KeyedTable.lookup_deleteWhere_of_not hheld ?_
  simpa using hunexpired

end Expiry

end SkyClaw.Db.Locks
