import SkyClaw.Db.LockExclusion
import SkyClaw.Db.SnapshotManager

/-!
# Interleaved `SnapshotTransactionLock` blocks

Any number of `async with SnapshotTransactionLock(...)` blocks on one resource
share the lease table and the files.  Block `a` runs acquisition `a` of the lock
manager, snapshots its targets, runs its body (any changes to any files), and on
an exception restores the snapshots in reverse before it releases.

`__aexit__` never looks at `lock_info`, so a block whose lease ran out restores
all the same.  The state carries three history variables the code does not
have: how many grants there were and which one each block got, which block
changed which path, and which blocks are *contested*: another acquire statement
ran when the block's lease had lapsed.  `rollbackRespectsLease_of_uncontested`:
where only uncontested blocks roll back, no rollback follows a later grant or
overwrites a later holder's change.
-/

namespace SkyClaw.Db.LockedBlocks

open Locks (LockManager LockInfo defaultLockManager)
open Snapshots Function

/-- Where a block stands between `__aenter__` and the end of `__aexit__`. -/
inductive BlockPhase
  /-- `__aenter__`: the acquisition, then the loop over the target files. -/
  | entering (remaining : List String) (snapshots : List SnapshotInfo)
  | body (snapshots : List SnapshotInfo)
  /-- `for snap in reversed(self.snapshots)`. -/
  | rollingBack (remaining : List SnapshotInfo)
  /-- The `finally` clause, or the `except` clause of `__aenter__`. -/
  | releasing
  | exited
deriving DecidableEq

/-- The blocks, the lock manager they share and the disk. -/
structure State (Time Content : Type) where
  locks : Locks.State Time
  disk : Disk Content
  blocks : Nat → BlockPhase
  /-- History: grants so far, and the number of each block's own grant. -/
  grantCount : Nat
  grantNo : Nat → Nat
  /-- History: which block's body changed which path. -/
  changes : List (Nat × String)
  /-- History: another acquire statement ran after this block's lease lapsed. -/
  contested : Nat → Bool

/-- One step of one block, of the clock or of `cleanup_expired`. -/
inductive Action (Time Content : Type)
  /-- A step of the lock manager other than a release. -/
  | lock (act : Locks.Action Time)
  | takeSnapshot (a : Nat) (removed : Nat → Bool)
  | skipTarget (a : Nat)
  /-- `create_snapshot` raised an `Exception`. -/
  | enterFails (a : Nat)
  /-- The task was cancelled inside `__aenter__`: no clause applies. -/
  | enterCancelled (a : Nat)
  | beginBody (a : Nat)
  | change (a : Nat) (path : String) (content : Option Content)
  | bodyReturns (a : Nat)
  | bodyRaises (a : Nat)
  | restore (a : Nat) (fault : Option (RestoreFault Content))
  | rolledBack (a : Nat)
  | release (a : Nat) (outcome : DbOutcome)

variable {Time Content : Type} [LinearOrder Time]

/-- Nothing has been acquired; block `a` will protect `targetFiles a`. -/
def State.initial (now : Time) (table : Locks.LockTable Time) (disk : Disk Content)
    (targetFiles : Nat → List String) : State Time Content :=
  { locks := Locks.State.initial now table
    disk := disk
    blocks := fun a => .entering (targetFiles a) []
    grantCount := 0
    grantNo := fun _ => 0
    changes := []
    contested := fun _ => false }

/-- Move block `a` on. -/
def State.moveTo (s : State Time Content) (a : Nat) (phase : BlockPhase) : State Time Content :=
  { s with blocks := update s.blocks a phase }

/-- `acquire_lock` of block `a` has returned and the lock is not yet released. -/
def isHolding (locks : Locks.State Time) (a : Nat) : Bool :=
  match locks.acquisitions a with
  | .holding _ => true
  | _ => false

/-- Block `b` holds a lease whose row is gone, or has expired by this clock. -/
def lapsed (locks : Locks.State Time) (b : Nat) (readAt : Time) : Bool :=
  match locks.acquisitions b with
  | .holding info =>
      !(decide (locks.table.lookup info.resourceId = some info) &&
        decide (readAt ≤ info.expiresAt))
  | _ => false

/-- Number block `a`'s grant. -/
def State.recordGrant (s : State Time Content) (a : Nat) : State Time Content :=
  { s with
    grantCount := s.grantCount + 1
    grantNo := update s.grantNo a (s.grantCount + 1) }

/-- An acquire statement of `a` ran: every other block whose lease has lapsed is
contested from now on. -/
def State.recordAttempt (s : State Time Content) (a : Nat) (readAt : Time) :
    State Time Content :=
  { s with contested := fun b => s.contested b || (b != a && lapsed s.locks b readAt) }

variable [Add Time]

/-- One step of the blocks, all on the same `resource`. -/
def step (hash : Content → String) (m : LockManager Time) (resource : String)
    (s : State Time Content) : Action Time Content → Option (State Time Content)
  | .lock act =>
      match act with
      | .release _ _ => none
      | .call a req =>
          if req.resourceId = resource then
            (Locks.step m s.locks (.call a req)).map fun locks => { s with locks := locks }
          else none
      | .execute a outcome =>
          match s.locks.acquisitions a with
          | .execute _ _ readAt =>
              (Locks.step m s.locks (.execute a outcome)).map fun locks =>
                let recorded := if outcome = .ok then s.recordAttempt a readAt else s
                if isHolding locks a then { recorded.recordGrant a with locks := locks }
                else { recorded with locks := locks }
          | _ => none
      | act => (Locks.step m s.locks act).map fun locks => { s with locks := locks }
  | .takeSnapshot a removed =>
      match s.blocks a with
      | .entering (path :: rest) snapshots =>
          if isHolding s.locks a then
            (createSnapshot hash removed s.disk path).map fun result =>
              { s.moveTo a (.entering rest (snapshots ++ [result.1])) with disk := result.2 }
          else none
      | _ => none
  | .skipTarget a =>
      match s.blocks a with
      | .entering (path :: rest) snapshots =>
          if isHolding s.locks a && (s.disk.files path).isNone then
            some (s.moveTo a (.entering rest snapshots))
          else none
      | _ => none
  | .enterFails a =>
      match s.blocks a with
      | .entering (_ :: _) _ => if isHolding s.locks a then some (s.moveTo a .releasing) else none
      | _ => none
  | .enterCancelled a =>
      match s.blocks a with
      | .entering (_ :: _) _ => if isHolding s.locks a then some (s.moveTo a .exited) else none
      | _ => none
  | .beginBody a =>
      match s.blocks a with
      | .entering [] snapshots =>
          if isHolding s.locks a then some (s.moveTo a (.body snapshots)) else none
      | _ => none
  | .change a path content =>
      match s.blocks a with
      | .body _ =>
          some { s with
            disk := { s.disk with files := update s.disk.files path content }
            changes := (a, path) :: s.changes }
      | _ => none
  | .bodyReturns a =>
      match s.blocks a with
      | .body _ => some (s.moveTo a .releasing)
      | _ => none
  | .bodyRaises a =>
      match s.blocks a with
      | .body snapshots => some (s.moveTo a (.rollingBack snapshots.reverse))
      | _ => none
  | .restore a fault =>
      match s.blocks a with
      | .rollingBack (snap :: rest) =>
          -- A restore that raises is logged and the loop goes on.
          let result := restoreSnapshot hash false fault (s.disk.snapshots snap.snapshotPath)
            s.disk.files snap.originalPath
          some { s.moveTo a (.rollingBack rest) with disk := { s.disk with files := result.2 } }
      | _ => none
  | .rolledBack a =>
      match s.blocks a with
      | .rollingBack [] => some (s.moveTo a .releasing)
      | _ => none
  | .release a outcome =>
      match s.blocks a with
      | .releasing =>
          (Locks.step m s.locks (.release a outcome)).map fun locks =>
            { s.moveTo a .exited with locks := locks }
      | _ => none

/-! ## The invariant -/

/-- The phases between the grant and the release. -/
def BlockPhase.NeedsLock : BlockPhase → Prop
  | .body _ | .rollingBack _ | .releasing => True
  | .entering .. | .exited => False

/-- The blocks past `__aenter__` hold their lease, all on one resource, and an
uncontested holder has the newest grant. -/
structure BlocksKept (resource : String) (s : State Time Content) : Prop where
  resource_eq : ∀ a r, (s.locks.acquisitions a).resourceId = some r → r = resource
  holding : ∀ a, (s.blocks a).NeedsLock → isHolding s.locks a = true
  counted : ∀ a, s.grantNo a ≤ s.grantCount
  latest : ∀ a, isHolding s.locks a = true → s.contested a = false →
    s.grantNo a = s.grantCount

variable {locks : Locks.State Time} {a : Nat}

omit [LinearOrder Time] [Add Time] in
theorem isHolding_iff :
    isHolding locks a = true ↔ ∃ info, locks.Holds a info := by
  unfold isHolding Locks.State.Holds
  split
  · rename_i info hphase
    exact iff_of_true rfl ⟨info, hphase⟩
  · rename_i hphase
    refine iff_of_false (by simp) ?_
    rintro ⟨info, hheld⟩
    exact hphase info hheld

variable {readAt : Time}

omit [Add Time] in
theorem lapsed_eq_false {b : Nat} {info : LockInfo Time} (hheld : locks.Holds b info) (h : lapsed locks b readAt = false) :
    locks.table.lookup info.resourceId = some info ∧ readAt ≤ info.expiresAt := by
  have hphase : locks.acquisitions b = .holding info := hheld
  simpa [lapsed, hphase] using h

omit [LinearOrder Time] [Add Time] in
theorem blocksKept_initial (resource : String) (now : Time) (table : Locks.LockTable Time)
    (disk : Disk Content) (targetFiles : Nat → List String) :
    BlocksKept resource (State.initial now table disk targetFiles) where
  resource_eq := by
    intro a r h
    cases h
  holding := by
    intro a h
    cases h
  counted := fun _ => le_rfl
  latest := by
    intro a h
    cases h

variable {resource : String} {s : State Time Content}

omit [LinearOrder Time] [Add Time] in
/-- A step of block `a` that leaves locks and grants alone keeps the invariant
when the phase it moves to may be entered. -/
theorem BlocksKept.moveTo (h : BlocksKept resource s)
    (a : Nat) {phase : BlockPhase} (hphase : phase.NeedsLock → isHolding s.locks a = true)
    (disk : Disk Content) :
    BlocksKept resource { s.moveTo a phase with disk := disk } where
  resource_eq := h.resource_eq
  holding := by
    intro b hb
    by_cases hba : b = a
    · subst hba
      have hneeds : phase.NeedsLock := by simpa [State.moveTo] using hb
      exact hphase hneeds
    · have hold : (s.blocks b).NeedsLock := by
        simpa [State.moveTo, update_of_ne hba] using hb
      exact h.holding b hold
  counted := h.counted
  latest := h.latest

variable {m : LockManager Time}

/-- A lock manager step that binds nobody to another resource keeps the
resource. -/
theorem BlocksKept.resource_step
    (h : BlocksKept resource s) {act : Locks.Action Time}
    (hstep : Locks.step m s.locks act = some locks)
    (hcall : ∀ a req, act = .call a req → req.resourceId = resource) :
    ∀ a r, (locks.acquisitions a).resourceId = some r → r = resource := by
  intro a r hr
  by_cases hactor : act.actor = some a
  · rcases Locks.resourceId_step hstep hactor with heq | ⟨req, hact, heq⟩
    · exact h.resource_eq a r (heq ▸ hr)
    · rw [heq] at hr
      cases hr
      exact hcall a req hact
  · rw [Locks.step_acquisitions_of_ne hstep hactor] at hr
    exact h.resource_eq a r hr

theorem isHolding_step {s : Locks.State Time} {act : Locks.Action Time}
    (hstep : Locks.step m s act = some locks)
    (hrelease : ∀ outcome, act ≠ .release a outcome) (h : isHolding s a = true) :
    isHolding locks a = true := by
  obtain ⟨info, hheld⟩ := isHolding_iff.mp h
  exact isHolding_iff.mpr ⟨info, Locks.holds_step hstep hheld hrelease⟩

theorem isHolding_of_step {s : Locks.State Time} {act : Locks.Action Time}
    (hstep : Locks.step m s act = some locks) (hexecute : ∀ outcome, act ≠ .execute a outcome)
    (h : isHolding locks a = true) : isHolding s a = true := by
  obtain ⟨info, hheld⟩ := isHolding_iff.mp h
  exact isHolding_iff.mpr ⟨info, Locks.holds_of_step hstep hexecute hheld⟩

/-- A lock manager step other than an acquire statement or a release moves no
grant and takes the lock from nobody. -/
theorem BlocksKept.lock_step
    (h : BlocksKept resource s) {act : Locks.Action Time}
    (hstep : Locks.step m s.locks act = some locks)
    (hcall : ∀ a req, act = .call a req → req.resourceId = resource)
    (hexecute : ∀ a outcome, act ≠ .execute a outcome)
    (hrelease : ∀ a outcome, act ≠ .release a outcome) :
    BlocksKept resource { s with locks := locks } where
  resource_eq := h.resource_step hstep hcall
  holding := fun a ha => isHolding_step hstep (hrelease a) (h.holding a ha)
  counted := h.counted
  latest := fun a ha hfree => h.latest a (isHolding_of_step hstep (hexecute a) ha) hfree

theorem BlocksKept.release_step
    (h : BlocksKept resource s) {outcome : DbOutcome}
    (hstep : Locks.step m s.locks (.release a outcome) = some locks) :
    BlocksKept resource { s.moveTo a .exited with locks := locks } where
  resource_eq := h.resource_step hstep (by simp)
  holding := by
    intro b hb
    have hba : b ≠ a := by
      rintro rfl
      simp [State.moveTo, BlockPhase.NeedsLock] at hb
    have hold : (s.blocks b).NeedsLock := by
      simpa [State.moveTo, update_of_ne hba] using hb
    refine isHolding_step hstep ?_ (h.holding b hold)
    rintro _ ⟨⟩
    exact hba rfl
  counted := h.counted
  latest := fun b hb hfree => h.latest b (isHolding_of_step hstep (by simp) hb) hfree

/-- The acquire statement: who is still uncontested afterwards has the newest
grant, whether this attempt was granted or not. -/
theorem BlocksKept.execute_step
    (h : BlocksKept resource s) {outcome : DbOutcome}
    {req : Locks.LockRequest Time} {attempt : Nat}
    (hphase : s.locks.acquisitions a = .execute req attempt readAt)
    (hstep : Locks.step m s.locks (.execute a outcome) = some locks)
    {recorded : State Time Content}
    (hrecorded : recorded = if outcome = .ok then s.recordAttempt a readAt else s) :
    BlocksKept resource (if isHolding locks a then { recorded.recordGrant a with locks := locks }
      else { recorded with locks := locks }) := by
  have hresource := h.resource_step hstep (by simp)
  have hkeep : ∀ b, isHolding s.locks b = true → isHolding locks b = true :=
    fun b hb => isHolding_step hstep (by simp) hb
  have hother : ∀ b, b ≠ a → isHolding locks b = true → isHolding s.locks b = true := by
    intro b hba hb
    refine isHolding_of_step hstep ?_ hb
    rintro _ ⟨⟩
    exact hba rfl
  have hsame : recorded.grantCount = s.grantCount ∧ recorded.grantNo = s.grantNo ∧
      recorded.blocks = s.blocks := by
    subst hrecorded
    split <;> exact ⟨rfl, rfl, rfl⟩
  have hcontested : ∀ b, recorded.contested b = false → s.contested b = false := by
    intro b hb
    subst hrecorded
    split at hb
    · simp only [State.recordAttempt, Bool.or_eq_false_iff] at hb
      exact hb.1
    · exact hb
  by_cases hgranted : isHolding locks a = true
  · rw [if_pos hgranted]
    obtain ⟨info, hheld⟩ := isHolding_iff.mp hgranted
    obtain ⟨hok, hfree⟩ := Locks.granted_of_execute hphase hstep hheld
    rw [if_pos hok] at hrecorded
    subst hrecorded
    refine ⟨hresource, fun b hb => hkeep b (h.holding b hb), fun b => ?_, fun b hb hfreeB => ?_⟩
    · by_cases hba : b = a
      · subst hba
        simp [State.recordGrant]
      · have hcount := h.counted b
        simp [State.recordGrant, update_of_ne hba, State.recordAttempt]
        omega
    · by_cases hba : b = a
      · subst hba
        simp [State.recordGrant]
      · -- A second holder that is still uncontested would have been in the way.
        exfalso
        obtain ⟨other, hotherHeld⟩ := isHolding_iff.mp (hother b hba hb)
        have hlapsed : lapsed s.locks b readAt = false := by
          simp only [State.recordGrant, State.recordAttempt, Bool.or_eq_false_iff] at hfreeB
          simpa [hba] using hfreeB.2
        obtain ⟨hrow, hlive⟩ := lapsed_eq_false hotherHeld hlapsed
        have hresB : other.resourceId = resource := by
          refine h.resource_eq b _ ?_
          rw [show s.locks.acquisitions b = .holding other from hotherHeld]
          rfl
        have hresA : req.resourceId = resource := by
          refine h.resource_eq a _ ?_
          rw [hphase]
          rfl
        rw [hresB, ← hresA] at hrow
        exact absurd (hfree other hrow) (not_lt.mpr hlive)
  · rw [if_neg hgranted]
    obtain ⟨hcount, hno, hblocks⟩ := hsame
    refine ⟨hresource, fun b hb => ?_, fun b => ?_, fun b hb hfreeB => ?_⟩
    · exact hkeep b (h.holding b (hblocks ▸ hb))
    · simpa only [hcount, hno] using h.counted b
    · have hba : b ≠ a := by
        rintro rfl
        exact hgranted hb
      simpa only [hcount, hno] using h.latest b (hother b hba hb) (hcontested b hfreeB)

variable {hash : Content → String} {t : State Time Content}

/-- **Step lemma.**  Every step keeps the invariant. -/
theorem blocksKept_step {act : Action Time Content} (h : BlocksKept resource s)
    (hstep : step hash m resource s act = some t) : BlocksKept resource t := by
  cases act with
  | lock act =>
      cases act with
      | tick | readClock | wake | cleanup =>
          simp only [step, Option.map_eq_some_iff] at hstep
          obtain ⟨locks, hlocks, rfl⟩ := hstep
          exact h.lock_step hlocks (by simp) (by simp) (by simp)
      | call a req =>
          simp only [step] at hstep
          split at hstep
          · rename_i hresource
            simp only [Option.map_eq_some_iff] at hstep
            obtain ⟨locks, hlocks, rfl⟩ := hstep
            refine h.lock_step hlocks ?_ (by simp) (by simp)
            rintro _ _ ⟨⟩
            exact hresource
          · cases hstep
      | execute a outcome =>
          simp only [step] at hstep
          split at hstep
          · rename_i req attempt readAt hphase
            simp only [Option.map_eq_some_iff] at hstep
            obtain ⟨locks, hlocks, rfl⟩ := hstep
            exact h.execute_step hphase hlocks rfl
          · cases hstep
      | release a outcome => simp [step] at hstep
  | takeSnapshot a removed =>
      simp only [step] at hstep
      split at hstep
      · split at hstep
        · simp only [Option.map_eq_some_iff] at hstep
          obtain ⟨result, _, rfl⟩ := hstep
          exact h.moveTo a False.elim result.2
        · cases hstep
      · cases hstep
  | skipTarget a | enterCancelled a =>
      simp only [step] at hstep
      split at hstep
      · split at hstep
        · cases hstep
          exact h.moveTo a False.elim s.disk
        · cases hstep
      · cases hstep
  | enterFails a | beginBody a =>
      simp only [step] at hstep
      split at hstep
      · split at hstep
        · rename_i hholding
          cases hstep
          exact h.moveTo a (fun _ => hholding) s.disk
        · cases hstep
      · cases hstep
  | change a path content =>
      simp only [step] at hstep
      split at hstep
      · cases hstep
        exact ⟨h.resource_eq, h.holding, h.counted, h.latest⟩
      · cases hstep
  | bodyReturns a | bodyRaises a | rolledBack a | restore a fault =>
      simp only [step] at hstep
      split at hstep
      · rename_i hphase
        cases hstep
        exact h.moveTo a (fun _ => h.holding a (by rw [hphase]; trivial)) _
      · cases hstep
  | release a outcome =>
      simp only [step] at hstep
      split at hstep
      · simp only [Option.map_eq_some_iff] at hstep
        obtain ⟨locks, hlocks, rfl⟩ := hstep
        exact h.release_step hlocks
      · cases hstep

/-! ## Rollbacks and later holders -/

/-- The block whose snapshot this action restores. -/
def Action.restoring : Action Time Content → Option Nat
  | .restore a _ => some a
  | _ => none

/-- When block `a` restores a snapshot, no acquisition was granted the lock after
`a` was, and no path that the restore changes was changed by a later holder. -/
def RollbackRespectsLease (s : State Time Content) (act : Action Time Content)
    (t : State Time Content) : Prop :=
  ∀ a ∈ act.restoring,
    (∀ b, s.grantNo b ≤ s.grantNo a) ∧
      ∀ b path, (b, path) ∈ s.changes → t.disk.files path ≠ s.disk.files path →
        s.grantNo b ≤ s.grantNo a

/-- A block that restores a snapshot is not contested: no other acquire statement
ran after its lease expired or lost its row. -/
def UncontestedRollback (s : State Time Content) (act : Action Time Content)
    (_ : State Time Content) : Prop :=
  ∀ a ∈ act.restoring, s.contested a = false

instance (s : State Time Content) (act : Action Time Content) (t : State Time Content) :
    Decidable (UncontestedRollback s act t) :=
  inferInstanceAs (Decidable (∀ a ∈ act.restoring, s.contested a = false))

theorem needsLock_of_restoring {act : Action Time Content}
    (hstep : step hash m resource s act = some t) (ha : a ∈ act.restoring) :
    (s.blocks a).NeedsLock := by
  cases act with
  | restore a' fault =>
      cases ha
      simp only [step] at hstep
      split at hstep
      · rename_i hphase
        rw [hphase]
        trivial
      · cases hstep
  | _ => cases ha

theorem rollbackRespectsLease_of_uncontested {act : Action Time Content} (h : BlocksKept resource s)
    (hstep : step hash m resource s act = some t) (hguard : UncontestedRollback s act t) :
    RollbackRespectsLease s act t := by
  intro a ha
  have hholding : isHolding s.locks a = true :=
    h.holding a (needsLock_of_restoring hstep ha)
  have hlatest : s.grantNo a = s.grantCount := h.latest a hholding (hguard a ha)
  have hall : ∀ b, s.grantNo b ≤ s.grantNo a := by
    intro b
    rw [hlatest]
    exact h.counted b
  exact ⟨hall, fun b _ _ _ => hall b⟩

/-- **Rollback respects the lease** in every run in which only uncontested blocks
restore snapshots. -/
theorem rollback_respects_lease (hash : Content → String) (m : LockManager Time)
    (resource : String) (now : Time) (table : Locks.LockTable Time) (disk : Disk Content)
    (targetFiles : Nat → List String) (schedule : List (Action Time Content))
    (hguard : Runs.Always (step hash m resource) UncontestedRollback
      (State.initial now table disk targetFiles) schedule) :
    Runs.Always (step hash m resource) RollbackRespectsLease
      (State.initial now table disk targetFiles) schedule := by
  have hkept : Runs.Throughout (step hash m resource) (BlocksKept resource)
      (State.initial now table disk targetFiles) schedule :=
    Runs.throughout_of_step (fun _ _ _ h hstep => blocksKept_step h hstep)
      (blocksKept_initial resource now table disk targetFiles) schedule
  refine Runs.Always.of_throughout ?_ hkept hguard
  intro s act t h hstep hfree
  exact rollbackRespectsLease_of_uncontested h hstep hfree

/-- One plugin file that every block protects; contents are version numbers. -/
def onePlugin : State Nat Nat :=
  State.initial 0 (KeyedTable.empty _)
    { files := fun path => if path = "Synthesis.esp" then some 1 else none
      snapshots := fun _ => none
      nextSnapshot := 0 }
    fun _ => ["Synthesis.esp"]

/-- Block `a` gets the lock and enters its body. -/
def enterSchedule (a : Nat) (agentId : String) : List (Action Nat Nat) :=
  [.lock (.call a ⟨"Synthesis.esp", agentId, none⟩), .lock (.readClock a), .lock (.execute a .ok),
    .takeSnapshot a fun _ => false, .beginBody a]

/-- Block 0 outlives its lease; block 1 takes the lock over, writes version 2 and
leaves normally. -/
def lateRollbackSchedule : List (Action Nat Nat) :=
  enterSchedule 0 "a" ++ .lock (.tick 600001) :: enterSchedule 1 "b" ++
    [.change 1 "Synthesis.esp" (some 2), .bodyReturns 1, .release 1 .ok, .bodyRaises 0]

/-- A block whose body raises within its lease. -/
def inTimeRollbackSchedule : List (Action Nat Nat) :=
  enterSchedule 0 "a" ++
    [.change 0 "Synthesis.esp" (some 2), .bodyRaises 0, .restore 0 none, .rolledBack 0,
      .release 0 .ok]

theorem rollback_respects_lease_inTime :
    Runs.Always (step toString defaultLockManager "Synthesis.esp") UncontestedRollback onePlugin
        inTimeRollbackSchedule ∧
      Runs.Always (step toString defaultLockManager "Synthesis.esp") RollbackRespectsLease
        onePlugin inTimeRollbackSchedule :=
  ⟨by decide, rollback_respects_lease toString defaultLockManager "Synthesis.esp" _ _ _ _ _
    (by decide)⟩

/-- Block 0 then restores version 1 over the version 2 of block 1. -/
theorem lateRollback_counterexample :
    ¬Runs.Always (step toString defaultLockManager "Synthesis.esp") RollbackRespectsLease onePlugin
      (lateRollbackSchedule ++ [.restore 0 none]) := by
  intro h
  have hlate := h.at_prefix rfl rfl 0 rfl
  have hchange := hlate.2 1 "Synthesis.esp" (by decide) (by decide)
  exact absurd hchange (by decide)

end SkyClaw.Db.LockedBlocks
