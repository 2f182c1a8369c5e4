import SkyClaw.Lib.Runs
import SkyClaw.Db.LockTable

/-!
# `DistributedLockManager` under interleaving

Any number of acquisitions, numbered by `Nat`, run `acquire_lock` and then
`release_lock` against one table; several of them may carry the same
`agent_id`.  A step is what happens between two suspension points: reading the
clock, one statement with its commit, the end of a backoff sleep.  The clock an
attempt read may be stale when its statement runs, and it only moves forward.

`step_effect` says once what a step can do to a lease; the invariant
`LeasesKept` and everything after it is derived from that.
-/

namespace SkyClaw.Db.Locks

/-- Where one acquisition stands in `acquire_lock … release_lock`. -/
inductive Acquisition (Time : Type)
  | idle
  /-- Top of the `for attempt` loop. -/
  | readClock (req : LockRequest Time) (attempt : Nat)
  /-- The clock was read; the acquire statement is next. -/
  | execute (req : LockRequest Time) (attempt : Nat) (now : Time)
  /-- `asyncio.sleep(delay)`. -/
  | sleeping (req : LockRequest Time) (attempt : Nat) (wakeAt : Time)
  /-- `acquire_lock` returned this `LockInfo`. -/
  | holding (info : LockInfo Time)
  /-- `release_lock` returned `deleted`. -/
  | released (info : LockInfo Time) (deleted : Bool)
  /-- `release_lock` raised `LockReleaseError`. -/
  | releaseFailed (info : LockInfo Time)
  /-- `acquire_lock` raised `LockAcquisitionError`. -/
  | refused (req : LockRequest Time)

/-- The table, the clock and all acquisitions. -/
structure State (Time : Type) where
  now : Time
  table : LockTable Time
  acquisitions : Nat → Acquisition Time

/-- One step of one party. -/
inductive Action (Time : Type)
  | tick (now : Time)
  | call (a : Nat) (req : LockRequest Time)
  | readClock (a : Nat)
  | execute (a : Nat) (outcome : DbOutcome)
  | wake (a : Nat)
  | release (a : Nat) (outcome : DbOutcome)
  /-- `cleanup_expired`, which read the clock at `readAt`. -/
  | cleanup (readAt : Time)

/-- The acquisition that takes the step, if one does. -/
def Action.actor {Time : Type} : Action Time → Option Nat
  | .call a _ | .readClock a | .execute a _ | .wake a | .release a _ => some a
  | .tick _ | .cleanup _ => none

variable {Time : Type}

/-- The resource an acquisition is about, once it was called. -/
def Acquisition.resourceId : Acquisition Time → Option String
  | .idle => none
  | .readClock req _ | .execute req _ _ | .sleeping req _ _ | .refused req => some req.resourceId
  | .holding info | .released info _ | .releaseFailed info => some info.resourceId

/-- No call has been made yet; the table may hold rows of earlier processes. -/
def State.initial (now : Time) (table : LockTable Time) : State Time :=
  { now := now, table := table, acquisitions := fun _ => .idle }

/-- Move acquisition `a` on. -/
def State.advance (s : State Time) (a : Nat) (phase : Acquisition Time) : State Time :=
  { s with acquisitions := Function.update s.acquisitions a phase }

/-- Acquisition `a` was granted this lease and has not released it. -/
def State.Holds (s : State Time) (a : Nat) (info : LockInfo Time) : Prop :=
  s.acquisitions a = .holding info

/-- Enter the loop `for attempt in range(max_retries)`. -/
def LockManager.enterLoop (m : LockManager Time) (req : LockRequest Time) : Acquisition Time :=
  if 0 < m.maxRetries then .readClock req 0 else .refused req

variable [LinearOrder Time] [Add Time]

/-- The end of an attempt that did not get the lock: sleep, or raise after the
last one. -/
def LockManager.afterBusy (m : LockManager Time) (now : Time) (req : LockRequest Time)
    (attempt : Nat) : Acquisition Time :=
  if attempt + 1 < m.maxRetries then .sleeping req attempt (now + m.backoffDelay attempt)
  else .refused req

def step (m : LockManager Time) (s : State Time) : Action Time → Option (State Time)
  | .tick now => if s.now ≤ now then some { s with now := now } else none
  | .call a req =>
      match s.acquisitions a with
      | .idle => some (s.advance a (m.enterLoop req))
      | _ => none
  | .readClock a =>
      match s.acquisitions a with
      | .readClock req attempt => some (s.advance a (.execute req attempt s.now))
      | _ => none
  | .execute a outcome =>
      match s.acquisitions a with
      | .execute req attempt now =>
          let row := m.leaseFor req now
          let busy := m.afterBusy s.now req attempt
          match outcome with
          | .ok =>
              -- `rowcount > 0`: inserted, or an expired row was taken over.
              some { s.advance a (if 0 < (acquireSql s.table row).2 then .holding row else busy)
                with table := (acquireSql s.table row).1 }
          | .commitError =>
              some { s.advance a busy with table := (acquireSql s.table row).1 }
          | .executeError => some (s.advance a busy)
      | _ => none
  | .wake a =>
      match s.acquisitions a with
      | .sleeping req attempt wakeAt =>
          if wakeAt ≤ s.now then some (s.advance a (.readClock req (attempt + 1))) else none
      | _ => none
  | .release a outcome =>
      match s.acquisitions a with
      | .holding info =>
          let result := releaseSql s.table info.resourceId info.agentId
          match outcome with
          | .ok =>
              some { s.advance a (.released info (decide (0 < result.2))) with table := result.1 }
          | .commitError => some { s.advance a (.releaseFailed info) with table := result.1 }
          | .executeError => some (s.advance a (.releaseFailed info))
      | _ => none
  | .cleanup readAt =>
      if readAt ≤ s.now then some { s with table := (cleanupSql s.table readAt).1 } else none

/-! ## What one step can do -/

section Phases

omit [LinearOrder Time] [Add Time]

@[simp] theorem advance_self (s : State Time) (a : Nat) (phase : Acquisition Time) :
    (s.advance a phase).acquisitions a = phase := by
  simp [State.advance]

theorem advance_of_ne (s : State Time) {a b : Nat} (phase : Acquisition Time) (h : b ≠ a) :
    (s.advance a phase).acquisitions b = s.acquisitions b := by
  simp [State.advance, h]

theorem holds_of_advance {s : State Time} {a b : Nat} {phase : Acquisition Time}
    {info : LockInfo Time} (hphase : ∀ info, phase ≠ .holding info)
    (h : (s.advance a phase).Holds b info) : s.Holds b info := by
  by_cases hb : b = a
  · subst hb
    exact absurd (advance_self s b phase ▸ h) (hphase info)
  · rwa [State.Holds, advance_of_ne s phase hb] at h

theorem holds_unique {s : State Time} {a : Nat} {info info' : LockInfo Time}
    (h : s.Holds a info) (h' : s.Holds a info') : info = info' := by
  have heq : Acquisition.holding info = .holding info' := h.symm.trans h'
  cases heq
  rfl

theorem enterLoop_ne_holding (m : LockManager Time) (req : LockRequest Time)
    (info : LockInfo Time) : m.enterLoop req ≠ .holding info := by
  unfold LockManager.enterLoop
  split <;> simp

theorem enterLoop_ne_execute (m : LockManager Time) (req req' : LockRequest Time)
    (attempt : Nat) (now : Time) : m.enterLoop req ≠ .execute req' attempt now := by
  unfold LockManager.enterLoop
  split <;> simp

@[simp] theorem resourceId_enterLoop (m : LockManager Time) (req : LockRequest Time) :
    (m.enterLoop req).resourceId = some req.resourceId := by
  unfold LockManager.enterLoop
  split <;> rfl

theorem ne_holding_of_over {info : LockInfo Time} {phase : Acquisition Time}
    (hover : phase = .releaseFailed info ∨ ∃ deleted, phase = .released info deleted)
    (info' : LockInfo Time) : phase ≠ .holding info' := by
  rcases hover with rfl | ⟨deleted, rfl⟩ <;> simp

end Phases

theorem afterBusy_ne_holding (m : LockManager Time) (now : Time) (req : LockRequest Time)
    (attempt : Nat) (info : LockInfo Time) : m.afterBusy now req attempt ≠ .holding info := by
  unfold LockManager.afterBusy
  split <;> simp

theorem afterBusy_ne_execute (m : LockManager Time) (now : Time) (req req' : LockRequest Time)
    (attempt attempt' : Nat) (now' : Time) :
    m.afterBusy now req attempt ≠ .execute req' attempt' now' := by
  unfold LockManager.afterBusy
  split <;> simp

@[simp] theorem resourceId_afterBusy (m : LockManager Time) (now : Time)
    (req : LockRequest Time) (attempt : Nat) :
    (m.afterBusy now req attempt).resourceId = some req.resourceId := by
  unfold LockManager.afterBusy
  split <;> rfl

/-- The ways a step can go. -/
inductive Moves (m : LockManager Time) (s : State Time) : Action Time → State Time → Prop
  | ticks {now : Time} (hlater : s.now ≤ now) : Moves m s (.tick now) { s with now := now }
  | calls {a : Nat} {req : LockRequest Time} (hphase : s.acquisitions a = .idle) :
      Moves m s (.call a req) (s.advance a (m.enterLoop req))
  | reads {a : Nat} {req : LockRequest Time} {attempt : Nat}
      (hphase : s.acquisitions a = .readClock req attempt) :
      Moves m s (.readClock a) (s.advance a (.execute req attempt s.now))
  | grants {a : Nat} {req : LockRequest Time} {attempt : Nat} {now : Time}
      (hphase : s.acquisitions a = .execute req attempt now)
      (hfree : ∀ held, s.table.lookup req.resourceId = some held → held.expiresAt < now) :
      Moves m s (.execute a .ok)
        { s.advance a (.holding (m.leaseFor req now)) with
          table := s.table.upsert (m.leaseFor req now) }
  /-- The attempt fails; its statement may have run before the commit raised. -/
  | busy {a : Nat} {outcome : DbOutcome} {req : LockRequest Time} {attempt : Nat} {now : Time}
      {table : LockTable Time} (hphase : s.acquisitions a = .execute req attempt now)
      (htable : table = s.table ∨ table = (acquireSql s.table (m.leaseFor req now)).1) :
      Moves m s (.execute a outcome)
        { s.advance a (m.afterBusy s.now req attempt) with table := table }
  | wakes {a : Nat} {req : LockRequest Time} {attempt : Nat} {wakeAt : Time}
      (hphase : s.acquisitions a = .sleeping req attempt wakeAt) :
      Moves m s (.wake a) (s.advance a (.readClock req (attempt + 1)))
  | releases {a : Nat} {outcome : DbOutcome} {info : LockInfo Time} {phase : Acquisition Time}
      (hheld : s.Holds a info) (hran : outcome ≠ .executeError)
      (hover : phase = .releaseFailed info ∨ ∃ deleted, phase = .released info deleted) :
      Moves m s (.release a outcome)
        { s.advance a phase with table := (releaseSql s.table info.resourceId info.agentId).1 }
  | releaseRaises {a : Nat} {info : LockInfo Time} (hheld : s.Holds a info) :
      Moves m s (.release a .executeError) (s.advance a (.releaseFailed info))
  | cleans {readAt : Time} (hread : readAt ≤ s.now) :
      Moves m s (.cleanup readAt) { s with table := (cleanupSql s.table readAt).1 }

variable {m : LockManager Time} {s t : State Time}

/-- **Inversion of `step`.** -/
theorem moves_of_step {act : Action Time}
    (hstep : step m s act = some t) : Moves m s act t := by
  cases act with
  | tick | call | readClock | cleanup =>
      simp only [step] at hstep
      split at hstep
      · cases hstep
        constructor
        assumption
      · cases hstep
  | execute a outcome =>
      simp only [step] at hstep
      split at hstep
      · rename_i req attempt now hphase
        cases outcome with
        | ok =>
            cases hstep
            rcases acquireSql_cases s.table (m.leaseFor req now) with ⟨heq, hfree⟩ | ⟨heq, -⟩
            · rw [heq]
              exact .grants hphase hfree
            · rw [heq]
              exact .busy hphase (.inl rfl)
        | executeError =>
            cases hstep
            exact .busy hphase (.inl rfl)
        | commitError =>
            cases hstep
            exact .busy hphase (.inr rfl)
      · cases hstep
  | wake a =>
      simp only [step] at hstep
      split at hstep
      · rename_i hphase
        split at hstep
        · cases hstep
          exact .wakes hphase
        · cases hstep
      · cases hstep
  | release a outcome =>
      simp only [step] at hstep
      split at hstep
      · rename_i info hheld
        cases outcome with
        | ok =>
            cases hstep
            exact .releases hheld (by simp) (.inr ⟨_, rfl⟩)
        | executeError =>
            cases hstep
            exact .releaseRaises hheld
        | commitError =>
            cases hstep
            exact .releases hheld (by simp) (.inl rfl)
      · cases hstep

/-- **Frame lemma.**  A step moves no acquisition but its actor. -/
theorem step_acquisitions_of_ne {act : Action Time}
    {b : Nat} (hstep : step m s act = some t) (hactor : act.actor ≠ some b) :
    t.acquisitions b = s.acquisitions b := by
  have hmove : ∀ a phase, some a ≠ some b →
      (s.advance a phase).acquisitions b = s.acquisitions b := by
    intro a phase hab
    exact advance_of_ne s phase fun h => hab (congrArg some h.symm)
  cases moves_of_step hstep with
  | ticks | cleans => rfl
  | calls | reads | grants | busy | wakes | releases | releaseRaises => exact hmove _ _ hactor

/-- Only `call` binds an acquisition to a resource, and nothing rebinds it. -/
theorem resourceId_step {act : Action Time} {a : Nat}
    (hstep : step m s act = some t) (hactor : act.actor = some a) :
    (t.acquisitions a).resourceId = (s.acquisitions a).resourceId ∨
      ∃ req, act = .call a req ∧ (t.acquisitions a).resourceId = some req.resourceId := by
  have hself : ∀ phase, ((s.advance a phase).acquisitions a).resourceId = phase.resourceId :=
    fun phase => congrArg Acquisition.resourceId (advance_self s a phase)
  cases moves_of_step hstep with
  | ticks | cleans => cases hactor
  | @calls _ req hphase =>
      cases hactor
      exact .inr ⟨req, rfl, (hself _).trans (resourceId_enterLoop m req)⟩
  | reads hphase =>
      cases hactor
      rw [hphase]
      exact .inl (hself _)
  | grants hphase =>
      cases hactor
      rw [hphase]
      exact .inl (hself _)
  | busy hphase =>
      cases hactor
      rw [hphase]
      exact .inl ((hself _).trans (resourceId_afterBusy ..))
  | wakes hphase =>
      cases hactor
      rw [hphase]
      exact .inl (hself _)
  | releases hheld hran hover =>
      cases hactor
      rw [show s.acquisitions a = _ from hheld]
      rcases hover with rfl | ⟨deleted, rfl⟩
      · exact .inl (hself _)
      · exact .inl (hself _)
  | releaseRaises hheld =>
      cases hactor
      rw [show s.acquisitions a = _ from hheld]
      exact .inl (hself _)

theorem holds_step {act : Action Time} {a : Nat}
    {info : LockInfo Time} (hstep : step m s act = some t) (hheld : s.Holds a info)
    (hrelease : ∀ outcome, act ≠ .release a outcome) : t.Holds a info := by
  by_cases hactor : act.actor = some a
  · have hbusy : ∀ phase, s.acquisitions a = phase → phase = .holding info :=
      fun phase hphase => hphase.symm.trans hheld
    cases moves_of_step hstep with
    | ticks | cleans => cases hactor
    | calls hphase => cases hactor; cases hbusy _ hphase
    | reads hphase => cases hactor; cases hbusy _ hphase
    | grants hphase => cases hactor; cases hbusy _ hphase
    | busy hphase => cases hactor; cases hbusy _ hphase
    | wakes hphase => cases hactor; cases hbusy _ hphase
    | releases | releaseRaises => cases hactor; exact absurd rfl (hrelease _)
  · exact (step_acquisitions_of_ne hstep hactor).trans hheld

theorem holds_of_step {act : Action Time} {a : Nat}
    {info : LockInfo Time} (hstep : step m s act = some t)
    (hexecute : ∀ outcome, act ≠ .execute a outcome) (hheld : t.Holds a info) :
    s.Holds a info := by
  by_cases hactor : act.actor = some a
  · cases moves_of_step hstep with
    | ticks | cleans => cases hactor
    | calls => exact holds_of_advance (enterLoop_ne_holding m _) hheld
    | reads | wakes | releaseRaises => exact holds_of_advance (by simp) hheld
    | grants | busy => cases hactor; exact absurd rfl (hexecute _)
    | releases _ _ hover => exact holds_of_advance (ne_holding_of_over hover) hheld
  · exact (step_acquisitions_of_ne hstep hactor).symm.trans hheld

theorem granted_of_execute {a : Nat}
    {outcome : DbOutcome} {req : LockRequest Time} {attempt : Nat} {now : Time}
    {info : LockInfo Time} (hphase : s.acquisitions a = .execute req attempt now)
    (hstep : step m s (.execute a outcome) = some t) (hheld : t.Holds a info) :
    outcome = .ok ∧ ∀ held, s.table.lookup req.resourceId = some held → held.expiresAt < now := by
  cases moves_of_step hstep with
  | grants hphase' hfree =>
      cases hphase.symm.trans hphase'
      exact ⟨rfl, hfree⟩
  | @busy _ _ req' attempt' _ _ _ _ =>
      have hafter := (advance_self s a _).symm.trans hheld
      exact absurd hafter (afterBusy_ne_holding m s.now req' attempt' info)

section Effects

omit [Add Time]

/-- Every clock reading an attempt still carries lies in the past. -/
def ClockReadsPast (s : State Time) : Prop :=
  ∀ a req attempt now, s.acquisitions a = .execute req attempt now → now ≤ s.now

/-- The effect of one step on the leases.  `quiet` steps create no holder and
keep every unexpired row; the only other steps are a grant and a release whose
`DELETE` ran. -/
inductive LeaseEffect (s t : State Time) : Action Time → Prop
  | quiet {act : Action Time} (hnow : s.now ≤ t.now)
      (hholders : ∀ b info, t.Holds b info → s.Holds b info)
      (htable : ∀ resourceId held, s.table.lookup resourceId = some held →
        s.now < held.expiresAt → t.table.lookup resourceId = some held)
      (hrelease : ∀ a outcome, act = .release a outcome → outcome = .executeError) :
      LeaseEffect s t act
  | grant {a : Nat} {row : LockInfo Time}
      (hfree : ∀ held, s.table.lookup row.resourceId = some held →
        held.expiresAt < row.acquiredAt)
      (hread : row.acquiredAt ≤ s.now)
      (ht : t = { s.advance a (.holding row) with table := s.table.upsert row }) :
      LeaseEffect s t (.execute a .ok)
  | release {a : Nat} {outcome : DbOutcome} {info : LockInfo Time} {phase : Acquisition Time}
      (hheld : s.Holds a info) (hran : outcome ≠ .executeError)
      (hphase : ∀ info', phase ≠ .holding info')
      (ht : t = { s.advance a phase with
        table := (releaseSql s.table info.resourceId info.agentId).1 }) :
      LeaseEffect s t (.release a outcome)

/-- A step that moves one acquisition to a phase holding nothing and leaves the
table to `table'` is quiet when `table'` keeps the unexpired rows. -/
theorem LeaseEffect.of_advance {s : State Time} {a : Nat} {phase : Acquisition Time}
    {table' : LockTable Time} {act : Action Time}
    (hphase : ∀ info, phase ≠ .holding info)
    (htable : ∀ resourceId held, s.table.lookup resourceId = some held →
      s.now < held.expiresAt → table'.lookup resourceId = some held)
    (hrelease : ∀ a outcome, act = .release a outcome → outcome = .executeError) :
    LeaseEffect s { s.advance a phase with table := table' } act :=
  .quiet le_rfl (fun _ _ h => holds_of_advance hphase h) htable hrelease

end Effects

/-- **The effect of a step on the leases.** -/
theorem step_effect {act : Action Time}
    (hclock : ClockReadsPast s) (hstep : step m s act = some t) : LeaseEffect s t act := by
  cases moves_of_step hstep with
  | ticks hlater => exact .quiet hlater (fun _ _ h => h) (fun _ _ h _ => h) (by simp)
  | calls => exact .of_advance (enterLoop_ne_holding m _) (fun _ _ h _ => h) (by simp)
  | reads | wakes => exact .of_advance (by simp) (fun _ _ h _ => h) (by simp)
  | grants hphase hfree => exact .grant hfree (hclock _ _ _ _ hphase) rfl
  | busy hphase htable =>
      refine .of_advance (afterBusy_ne_holding m s.now _ _) ?_ (by simp)
      -- An attempt that is not granted never displaces a row that is unexpired now.
      intro resourceId held hheld hlive
      rcases htable with rfl | rfl
      · exact hheld
      · exact lookup_acquireSql_of_unexpired hheld ((hclock _ _ _ _ hphase).trans hlive.le)
  | releases hheld hran hover => exact .release hheld hran (ne_holding_of_over hover) rfl
  | releaseRaises =>
      refine .of_advance (by simp) (fun _ _ h _ => h) ?_
      rintro _ _ ⟨⟩
      rfl
  | cleans hread =>
      refine .quiet le_rfl (fun _ _ h => h) (fun resourceId held hheld hlive => ?_) (by simp)
      exact lookup_cleanupSql_of_unexpired hheld (hread.trans hlive.le)

end SkyClaw.Db.Locks
