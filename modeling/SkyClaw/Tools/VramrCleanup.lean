import SkyClaw.Db.LockedBlocks
import SkyClaw.Lib.FileTree

/-!
# The cleanup of the VRAMr service

Any number of VRAMr runs on one output directory.  A run lists the top level of the
directory, waits for the lock, runs its tool, and if anything raises removes the
top-level entries that its list does not have.  The list is made before the lock is
held, and a cancelled run removes nothing.

Every entry remembers who created it and when.  `cleansExactly_iff`: the runs of a
schedule remove exactly what their own tools created if and only if every cleanup
finds the entries of the others under listed names and its own under new ones, and
neither a cancelled run nor a tool that outlives its run leaves anything behind.
-/

namespace SkyClaw.Tools.Vramr

open Function
open Db (DbOutcome)
open Db.LockedBlocks (isHolding)

/-- A path below the output directory; `[]` is the directory itself. -/
abbrev Path := List String

/-- Who created an entry, `none` if it was there before all runs, and its number in
the order of creation. -/
structure Entry where
  creator : Option Nat
  stamp : Nat
deriving DecidableEq

/-- `_snapshot_existing`: the names at the top level. -/
def snapshotExisting (tree : FileTree Entry) : String → Bool := fun name =>
  (tree.entry [name]).isSome

/-- The path is that of, or below, a top-level entry that was not listed. -/
def underNewName (existedBefore : String → Bool) : Path → Bool
  | [] => false
  | name :: _ => !existedBefore name

/-- Something at or below the path could not be removed. -/
def isStuck (stuck : List Path) (path : Path) : Bool := stuck.any fun q => path.isPrefixOf q

/-- The entries that `_cleanup_output_dir` leaves. -/
def cleanupKeeps (existedBefore : String → Bool) (stuck : List Path) (path : Path) : Bool :=
  !underNewName existedBefore path || isStuck stuck path

theorem cleanupKeeps_parent (existedBefore : String → Bool) (stuck : List Path) (path : Path)
    (name : String) (h : cleanupKeeps existedBefore stuck (path ++ [name]) = true) :
    cleanupKeeps existedBefore stuck path = true := by
  cases path with
  | nil => rfl
  | cons top rest =>
      simp only [cleanupKeeps, underNewName, List.cons_append, Bool.not_not, Bool.or_eq_true,
        isStuck, List.any_eq_true, List.isPrefixOf_iff_prefix] at h ⊢
      rcases h with hlisted | ⟨q, hq, hbelow⟩
      · exact .inl hlisted
      · exact .inr ⟨q, hq, (List.prefix_append (top :: rest) [name]).trans hbelow⟩

/-- `_cleanup_output_dir`, where `stuck` could not be removed. -/
def cleanupOutputDir (tree : FileTree Entry) (existedBefore : String → Bool)
    (stuck : List Path) : FileTree Entry :=
  tree.retain (cleanupKeeps existedBefore stuck) (cleanupKeeps_parent existedBefore stuck)

/-! ## Runs on one output directory -/

/-- Where a run of `execute_pipeline` is.  `listedAt` is the number of the next
entry when the list was made. -/
inductive RunPhase
  | notStarted
  | waiting (existedBefore : String → Bool) (listedAt : Nat)
  | inLock (existedBefore : String → Bool) (listedAt : Nat)
  | toolRunning (existedBefore : String → Bool) (listedAt : Nat)
  | committing (existedBefore : String → Bool) (listedAt : Nat)
  /-- In an `except` clause. -/
  | cleaning (existedBefore : String → Bool) (listedAt : Nat)
  | leaving (success : Bool)
  | exited (success : Bool)

/-- What happens to a run between its listing and the release. -/
inductive RunEvent
  /-- The started event or the lock raised, or the run was cancelled there. -/
  | giveUp
  | enterLock
  /-- `begin_transaction` returned and the process was started. -/
  | startTool
  | startFails
  | toolReturns (exitCode : Int)
  /-- A timeout, after which the process was killed, or another `Exception`. -/
  | toolRaises (processEnded : Bool)
  | commitReturns
  | commitFails
  | cancel

inductive Action (Time : Type)
  /-- A step of the lock manager other than a release. -/
  | lock (act : Db.Locks.Action Time)
  | list (r : Nat)
  | run (r : Nat) (event : RunEvent)
  | cleanup (r : Nat) (stuck : List Path)
  | release (r : Nat) (outcome : DbOutcome)
  /-- What the tool process of a run does to the directory. -/
  | create (r : Nat) (path : Path)
  | delete (r : Nat) (path : Path)
  | processEnds (r : Nat)

/-- The lock manager, the output directory and the runs; `alive` are the tool
processes. -/
structure State (Time : Type) where
  locks : Db.Locks.State Time
  tree : FileTree Entry
  next : Nat
  phase : Nat → RunPhase
  alive : Nat → Bool

variable {Time : Type}

/-- No run has started; the directory has this content. -/
def State.initial (now : Time) (table : Db.Locks.LockTable Time) (content : FileTree Unit) :
    State Time :=
  { locks := Db.Locks.State.initial now table
    tree := content.map fun _ => { creator := none, stamp := 0 }
    next := 1
    phase := fun _ => .notStarted
    alive := fun _ => false }

def State.moveTo (s : State Time) (r : Nat) (phase : RunPhase) : State Time :=
  { s with phase := update s.phase r phase }

/-- The next phase; the three `except` clauses are `cleaning`. -/
def RunPhase.after : RunPhase → RunEvent → Option RunPhase
  | .waiting _ _, .giveUp => some (.exited false)
  | .waiting existedBefore listedAt, .enterLock => some (.inLock existedBefore listedAt)
  | .inLock existedBefore listedAt, .startTool => some (.toolRunning existedBefore listedAt)
  | .inLock existedBefore listedAt, .startFails => some (.cleaning existedBefore listedAt)
  | .toolRunning existedBefore listedAt, .toolReturns exitCode =>
      if exitCode = 0 then some (.committing existedBefore listedAt)
      else some (.cleaning existedBefore listedAt)
  | .toolRunning existedBefore listedAt, .toolRaises _ => some (.cleaning existedBefore listedAt)
  | .committing _ _, .commitReturns => some (.leaving true)
  | .committing existedBefore listedAt, .commitFails => some (.cleaning existedBefore listedAt)
  | .inLock _ _, .cancel | .toolRunning _ _, .cancel | .committing _ _, .cancel =>
      some (.leaving false)
  | _, _ => none

/-- Whether the tool process lives after the event. -/
def RunEvent.aliveAfter (event : RunEvent) (alive : Bool) : Bool :=
  match event with
  | .startTool => true
  | .toolReturns _ => false
  | .toolRaises processEnded => alive && !processEnded
  -- A cancelled run does not kill its tool.
  | .giveUp | .enterLock | .startFails | .commitReturns | .commitFails | .cancel => alive

variable [LinearOrder Time] [Add Time]

def step (m : Db.Locks.LockManager Time) (resource : String) (s : State Time) :
    Action Time → Option (State Time)
  | .lock act =>
      match act with
      | .release _ _ => none
      | .call r req =>
          if req.resourceId = resource then
            (Db.Locks.step m s.locks (.call r req)).map fun locks => { s with locks := locks }
          else none
      | act => (Db.Locks.step m s.locks act).map fun locks => { s with locks := locks }
  | .list r =>
      match s.phase r with
      | .notStarted => some (s.moveTo r (.waiting (snapshotExisting s.tree) s.next))
      | _ => none
  | .run r event =>
      match event, isHolding s.locks r with
      | .enterLock, false => none
      | event, _ =>
          ((s.phase r).after event).map fun phase =>
            { s.moveTo r phase with
              alive := update s.alive r (event.aliveAfter (s.alive r)) }
  | .cleanup r stuck =>
      match s.phase r with
      | .cleaning existedBefore _ =>
          some { s.moveTo r (.leaving false) with
            tree := cleanupOutputDir s.tree existedBefore stuck }
      | _ => none
  | .release r outcome =>
      match s.phase r with
      | .leaving success =>
          (Db.Locks.step m s.locks (.release r outcome)).map fun locks =>
            { s.moveTo r (.exited success) with locks := locks }
      | _ => none
  | .create r path =>
      if h : s.alive r = true ∧ s.tree.entry path = none ∧ s.tree.hasParent path = true then
        some { s with
          tree := s.tree.create path { creator := some r, stamp := s.next } h.2.2
          next := s.next + 1 }
      else none
  | .delete r path =>
      if s.alive r then some { s with tree := s.tree.remove path } else none
  | .processEnds r => some { s with alive := update s.alive r false }

/-- The run failed, and its cleanup, if it has one, is done. -/
def RunPhase.failed : RunPhase → Bool
  | .leaving success | .exited success => !success
  | .notStarted | .waiting _ _ | .inLock _ _ | .toolRunning _ _ | .committing _ _
  | .cleaning _ _ => false

/-- Run `r` has created nothing that is still there. -/
def State.Nothing (s : State Time) (r : Nat) : Prop :=
  ∀ path e, s.tree.entry path = some e → e.creator ≠ some r

/-- A cleanup removes exactly what the run's own tool created, and of a run that
failed nothing is ever left. -/
structure CleansExactly (s : State Time) (act : Action Time) (t : State Time) : Prop where
  exact : ∀ r stuck, act = .cleanup r stuck → ∀ path e, s.tree.entry path = some e →
    (t.tree.entry path = none ↔ e.creator = some r)
  gone : ∀ r, (t.phase r).failed = true → t.Nothing r

/-- The condition on a step.  When a run cleans up, what its tool created lies under
new names and can be removed, and what others created since its listing lies under
listed names or cannot be removed; a run that is cancelled has created nothing that
is there; and a tool creates nothing once its run has failed. -/
def LeavesOthersAlone (s : State Time) (act : Action Time) (_t : State Time) : Prop :=
  match act with
  | .cleanup r stuck => ∀ existedBefore listedAt, s.phase r = .cleaning existedBefore listedAt →
      ∀ path e, s.tree.entry path = some e →
        (e.creator = some r →
          underNewName existedBefore path = true ∧ isStuck stuck path = false) ∧
        (e.creator ≠ some r → listedAt ≤ e.stamp →
          underNewName existedBefore path = false ∨ isStuck stuck path = true)
  | .run r .cancel => s.Nothing r
  | .create r _ => (s.phase r).failed = false
  | _ => True

/-! ## The invariant -/

section Phases

omit [LinearOrder Time] [Add Time]

variable {existedBefore : String → Bool} {stuck : List Path}

theorem cleanupKeeps_eq_false {path : Path} :
    cleanupKeeps existedBefore stuck path = false ↔
      underNewName existedBefore path = true ∧ isStuck stuck path = false := by
  simp [cleanupKeeps]

variable {e : Entry}

variable {tree : FileTree Entry}

theorem cleanupOutputDir_eq_some {path : Path} :
    (cleanupOutputDir tree existedBefore stuck).entry path = some e ↔
      cleanupKeeps existedBefore stuck path = true ∧ tree.entry path = some e :=
  FileTree.retain_eq_some

theorem cleanupOutputDir_eq_none {path : Path} (h : tree.entry path = some e) :
    (cleanupOutputDir tree existedBefore stuck).entry path = none ↔
      cleanupKeeps existedBefore stuck path = false :=
  FileTree.retain_eq_none h

/-- The listing of a run that may still clean up. -/
def RunPhase.listing : RunPhase → Option ((String → Bool) × Nat)
  | .waiting existedBefore listedAt | .inLock existedBefore listedAt
  | .toolRunning existedBefore listedAt | .committing existedBefore listedAt
  | .cleaning existedBefore listedAt => some (existedBefore, listedAt)
  | .notStarted | .leaving _ | .exited _ => none

/-- The tool of the run has not been started. -/
def RunPhase.beforeTool : RunPhase → Bool
  | .notStarted | .waiting _ _ | .inLock _ _ => true
  | .toolRunning _ _ | .committing _ _ | .cleaning _ _ | .leaving _ | .exited _ => false

/-- What was there when a run made its listing lies under listed names; a run that
failed has left nothing; one whose tool was not started has created nothing. -/
structure TreeKept (s : State Time) : Prop where
  stamps : ∀ path e, s.tree.entry path = some e → e.stamp < s.next
  listed : ∀ r existedBefore listedAt, (s.phase r).listing = some (existedBefore, listedAt) →
    listedAt ≤ s.next ∧ ∀ path e, s.tree.entry path = some e → e.stamp < listedAt →
      underNewName existedBefore path = false
  gone : ∀ r, (s.phase r).failed = true → s.Nothing r
  unborn : ∀ r, (s.phase r).beforeTool = true → s.alive r = false ∧ s.Nothing r

variable {phase phase' : RunPhase} {event : RunEvent} {r : Nat}

/-- **What an event can do to a phase.** -/
theorem after_cases (h : phase.after event = some phase') :
    (phase'.listing = none ∨ phase'.listing = phase.listing) ∧
      (phase'.failed = true → event = .cancel ∨ phase.beforeTool = true) ∧
      (phase'.beforeTool = true → phase.beforeTool = true ∧ event = .enterLock) := by
  unfold RunPhase.after at h
  split at h
  · cases h
    exact ⟨.inl rfl, fun _ => .inr rfl, nofun⟩
  · cases h
    exact ⟨.inr rfl, nofun, fun _ => ⟨rfl, rfl⟩⟩
  · cases h
    exact ⟨.inr rfl, nofun, nofun⟩
  · cases h
    exact ⟨.inr rfl, nofun, nofun⟩
  · split at h
    · cases h
      exact ⟨.inr rfl, nofun, nofun⟩
    · cases h
      exact ⟨.inr rfl, nofun, nofun⟩
  · cases h
    exact ⟨.inr rfl, nofun, nofun⟩
  · cases h
    exact ⟨.inl rfl, nofun, nofun⟩
  · cases h
    exact ⟨.inr rfl, nofun, nofun⟩
  · cases h
    exact ⟨.inl rfl, fun _ => .inl rfl, nofun⟩
  · cases h
    exact ⟨.inl rfl, fun _ => .inl rfl, nofun⟩
  · cases h
    exact ⟨.inl rfl, fun _ => .inl rfl, nofun⟩
  · cases h

variable {s t : State Time}

@[simp] theorem moveTo_self (s : State Time) (r : Nat) (phase : RunPhase) :
    (s.moveTo r phase).phase r = phase := by
  simp [State.moveTo]

theorem moveTo_of_ne (s : State Time) {r other : Nat} (phase : RunPhase) (h : other ≠ r) :
    (s.moveTo r phase).phase other = s.phase other := by
  simp [State.moveTo, h]

theorem treeKept_initial (now : Time) (table : Db.Locks.LockTable Time) (content : FileTree Unit) :
    TreeKept (State.initial now table content) := by
  have hentry : ∀ path e, (State.initial now table content).tree.entry path = some e →
      e = { creator := none, stamp := 0 } := by
    intro path e h
    obtain ⟨_, _, rfl⟩ := Option.map_eq_some_iff.mp h
    rfl
  refine ⟨fun path e h => ?_, nofun, nofun, fun r _ => ⟨rfl, fun path e h => ?_⟩⟩
  · rw [hentry path e h]
    exact Nat.one_pos
  · rw [hentry path e h]
    simp

theorem TreeKept.of_same {locks : Db.Locks.State Time} (h : TreeKept s) :
    TreeKept { s with locks := locks } := ⟨h.stamps, h.listed, h.gone, h.unborn⟩

/-- A run that moves on while the directory stays as it is. -/
theorem TreeKept.moveTo (h : TreeKept s) (r : Nat) (phase : RunPhase)
    (locks : Db.Locks.State Time) (alive : Bool)
    (hlisting : ∀ existedBefore listedAt, phase.listing = some (existedBefore, listedAt) →
      listedAt ≤ s.next ∧ ∀ path e, s.tree.entry path = some e → e.stamp < listedAt →
        underNewName existedBefore path = false)
    (hgone : phase.failed = true → s.Nothing r)
    (hunborn : phase.beforeTool = true → alive = false ∧ s.Nothing r) :
    TreeKept { s.moveTo r phase with locks := locks, alive := update s.alive r alive } := by
  have hother : ∀ other, other ≠ r → (s.moveTo r phase).phase other = s.phase other :=
    fun other hne => moveTo_of_ne s phase hne
  refine ⟨h.stamps, fun q existedBefore listedAt hq => ?_, fun q hq => ?_, fun q hq => ?_⟩
  · replace hq : ((s.moveTo r phase).phase q).listing = some (existedBefore, listedAt) := hq
    by_cases heq : q = r
    · subst heq
      rw [moveTo_self] at hq
      exact hlisting existedBefore listedAt hq
    · rw [hother q heq] at hq
      exact h.listed q existedBefore listedAt hq
  · replace hq : ((s.moveTo r phase).phase q).failed = true := hq
    by_cases heq : q = r
    · subst heq
      rw [moveTo_self] at hq
      exact hgone hq
    · rw [hother q heq] at hq
      exact h.gone q hq
  · replace hq : ((s.moveTo r phase).phase q).beforeTool = true := hq
    by_cases heq : q = r
    · subst heq
      rw [moveTo_self] at hq
      obtain ⟨hdead, hnothing⟩ := hunborn hq
      refine ⟨?_, hnothing⟩
      show update s.alive q alive q = false
      rw [update_self, hdead]
    · rw [hother q heq] at hq
      obtain ⟨hdead, hnothing⟩ := h.unborn q hq
      refine ⟨?_, hnothing⟩
      show update s.alive r alive q = false
      rw [update_of_ne heq, hdead]

theorem TreeKept.of_fewer (h : TreeKept s) (tree : FileTree Entry)
    (hfewer : ∀ path e, tree.entry path = some e → s.tree.entry path = some e) :
    TreeKept { s with tree := tree } where
  stamps path e hpath := h.stamps path e (hfewer path e hpath)
  listed r existedBefore listedAt hr :=
    ⟨(h.listed r existedBefore listedAt hr).1, fun path e hpath hold =>
      (h.listed r existedBefore listedAt hr).2 path e (hfewer path e hpath) hold⟩
  gone r hr path e hpath := h.gone r hr path e (hfewer path e hpath)
  unborn r hr :=
    ⟨(h.unborn r hr).1, fun path e hpath => (h.unborn r hr).2 path e (hfewer path e hpath)⟩

/-- The tool of a run that has not failed creates an entry. -/
theorem TreeKept.create {path : Path} (h : TreeKept s) (halive : s.alive r = true)
    (hrunning : (s.phase r).failed = false) (hparent : s.tree.hasParent path = true) :
    TreeKept { s with
      tree := s.tree.create path { creator := some r, stamp := s.next } hparent
      next := s.next + 1 } := by
  have hentry : ∀ q e, (s.tree.create path { creator := some r, stamp := s.next } hparent).entry q =
      some e → e = { creator := some r, stamp := s.next } ∨ s.tree.entry q = some e := by
    intro q e hq
    by_cases hself : q = path
    · subst hself
      rw [FileTree.create_self] at hq
      exact .inl (Option.some.inj hq).symm
    · rw [FileTree.create_of_ne _ _ hparent hself] at hq
      exact .inr hq
  refine ⟨fun q e hq => ?_, fun other existedBefore listedAt hlisting => ?_, fun other hfailed => ?_,
    fun other hbefore => ?_⟩
  · show e.stamp < s.next + 1
    rcases hentry q e hq with rfl | hold
    · exact Nat.lt_succ_self _
    · have hlt := h.stamps q e hold
      omega
  · obtain ⟨hle, hlisted⟩ := h.listed other existedBefore listedAt hlisting
    refine ⟨Nat.le_succ_of_le hle, fun q e hq hearlier => ?_⟩
    rcases hentry q e hq with rfl | hold
    · -- The new entry is later than every listing.
      have hlt : s.next < listedAt := hearlier
      omega
    · exact hlisted q e hold hearlier
  · intro q e hq
    rcases hentry q e hq with rfl | hold
    · intro hown
      cases hown
      rw [hrunning] at hfailed
      cases hfailed
    · exact h.gone other hfailed q e hold
  · obtain ⟨hdead, hnothing⟩ := h.unborn other hbefore
    refine ⟨hdead, fun q e hq => ?_⟩
    rcases hentry q e hq with rfl | hold
    · intro hown
      cases hown
      rw [halive] at hdead
      cases hdead
    · exact hnothing q e hold

theorem underNewName_snapshotExisting (tree : FileTree Entry) {path : Path}
    (h : tree.entry path = some e) : underNewName (snapshotExisting tree) path = false := by
  cases path with
  | nil => rfl
  | cons name rest =>
      have hhead : (tree.entry [name]).isSome = true := by
        apply tree.isSome_head
        rw [h]
        rfl
      simp [underNewName, snapshotExisting, hhead]

end Phases

/-! ## One step -/

variable {m : Db.Locks.LockManager Time} {resource : String} {s t : State Time}
  {act : Action Time}

theorem step_lock {act : Db.Locks.Action Time} (h : step m resource s (.lock act) = some t) :
    ∃ locks, t = { s with locks := locks } := by
  cases act with
  | release r outcome => cases h
  | call r req =>
      simp only [step] at h
      split at h
      · obtain ⟨locks, _, rfl⟩ := Option.map_eq_some_iff.mp h
        exact ⟨locks, rfl⟩
      · cases h
  | tick | readClock | execute | wake | cleanup =>
      obtain ⟨locks, _, rfl⟩ := Option.map_eq_some_iff.mp h
      exact ⟨locks, rfl⟩

theorem step_run {r : Nat} {event : RunEvent} (h : step m resource s (.run r event) = some t) :
    ∃ phase, (s.phase r).after event = some phase ∧
      t = { s.moveTo r phase with
        alive := update s.alive r (event.aliveAfter (s.alive r)) } := by
  simp only [step] at h
  split at h
  · cases h
  · obtain ⟨phase, hphase, rfl⟩ := Option.map_eq_some_iff.mp h
    exact ⟨phase, hphase, rfl⟩

theorem step_cleanup {r : Nat} {stuck : List Path}
    (h : step m resource s (.cleanup r stuck) = some t) :
    ∃ existedBefore listedAt, s.phase r = .cleaning existedBefore listedAt ∧
      t = { s.moveTo r (.leaving false) with
        tree := cleanupOutputDir s.tree existedBefore stuck } := by
  simp only [step] at h
  split at h
  · rename_i existedBefore listedAt hphase
    exact ⟨existedBefore, listedAt, hphase, (Option.some.inj h).symm⟩
  · cases h

/-- **Step lemma.** -/
theorem treeKept_step (h : TreeKept s) (hstep : step m resource s act = some t)
    (hcond : LeavesOthersAlone s act t) : TreeKept t := by
  cases act with
  | lock act =>
      obtain ⟨locks, rfl⟩ := step_lock hstep
      exact h.of_same
  | list r =>
      simp only [step] at hstep
      split at hstep
      · rename_i hphase
        cases hstep
        obtain ⟨hdead, hnothing⟩ := h.unborn r (by rw [hphase]; rfl)
        have hkept := h.moveTo r (.waiting (snapshotExisting s.tree) s.next) s.locks (s.alive r)
          (fun existedBefore listedAt hlisting => by
            cases hlisting
            exact ⟨le_rfl, fun path e hpath _ => underNewName_snapshotExisting s.tree hpath⟩)
          nofun (fun _ => ⟨hdead, hnothing⟩)
        rw [update_eq_self] at hkept
        exact hkept
      · cases hstep
  | run r event =>
      obtain ⟨phase, hphase, rfl⟩ := step_run hstep
      obtain ⟨hlisting, hfailed, hbefore⟩ := after_cases hphase
      refine h.moveTo r phase s.locks _ (fun existedBefore listedAt hnew => ?_)
        (fun hfails => ?_) fun hstill => ?_
      · rcases hlisting with hnone | hsame
        · rw [hnone] at hnew
          cases hnew
        · exact h.listed r existedBefore listedAt (hsame ▸ hnew)
      · rcases hfailed hfails with rfl | hunborn
        · exact hcond
        · exact (h.unborn r hunborn).2
      · obtain ⟨hunborn, rfl⟩ := hbefore hstill
        exact h.unborn r hunborn
  | cleanup r stuck =>
      obtain ⟨existedBefore, listedAt, hphase, rfl⟩ := step_cleanup hstep
      have hcleaned := hcond existedBefore listedAt hphase
      have hfewer := h.of_fewer (cleanupOutputDir s.tree existedBefore stuck)
        fun path e hpath => (cleanupOutputDir_eq_some.mp hpath).2
      have hnothing : State.Nothing
          { s with tree := cleanupOutputDir s.tree existedBefore stuck } r := by
        intro path e hpath hown
        obtain ⟨hkeep, hold⟩ := cleanupOutputDir_eq_some.mp hpath
        rw [cleanupKeeps_eq_false.mpr ((hcleaned path e hold).1 hown)] at hkeep
        cases hkeep
      have hkept := hfewer.moveTo r (.leaving false) s.locks (s.alive r) nofun
        (fun _ => hnothing) nofun
      rw [update_eq_self] at hkept
      exact hkept
  | release r outcome =>
      simp only [step] at hstep
      split at hstep
      · rename_i success hphase
        obtain ⟨locks, _, rfl⟩ := Option.map_eq_some_iff.mp hstep
        have hkept := h.moveTo r (.exited success) locks (s.alive r) nofun
          (fun hfails => h.gone r (by rw [hphase]; exact hfails)) nofun
        rw [update_eq_self] at hkept
        exact hkept
      · cases hstep
  | create r path =>
      simp only [step] at hstep
      split at hstep
      · rename_i hcreate
        cases hstep
        exact h.create hcreate.1 hcond hcreate.2.2
      · cases hstep
  | delete r path =>
      simp only [step] at hstep
      split at hstep
      · cases hstep
        exact h.of_fewer (s.tree.remove path) fun q e hq => FileTree.entry_of_remove hq
      · cases hstep
  | processEnds r =>
      cases hstep
      refine ⟨h.stamps, h.listed, h.gone, fun q hq => ?_⟩
      obtain ⟨hdead, hnothing⟩ := h.unborn q hq
      refine ⟨?_, hnothing⟩
      show update s.alive r false q = false
      by_cases heq : q = r
      · subst heq
        exact update_self _ _ _
      · rw [update_of_ne heq, hdead]

/-- **A step keeps the promise exactly when** it meets the condition. -/
theorem cleansExactly_step_iff (h : TreeKept s) (hstep : step m resource s act = some t) :
    CleansExactly s act t ↔ LeavesOthersAlone s act t := by
  constructor
  · intro hclean
    cases act with
    | lock | list | release | delete | processEnds => trivial
    | run r event =>
        cases event with
        | cancel =>
            obtain ⟨phase, hphase, rfl⟩ := step_run hstep
            have hfailed : phase.failed = true := by
              cases hold : s.phase r <;> rw [hold] at hphase <;> cases hphase <;> rfl
            exact hclean.gone r ((congrArg RunPhase.failed (moveTo_self s r phase)).trans hfailed)
        | giveUp | enterLock | startTool | startFails | toolReturns | toolRaises | commitReturns
        | commitFails => trivial
    | create r path =>
        simp only [step] at hstep
        split at hstep
        · rename_i hcreate
          cases hstep
          show (s.phase r).failed = false
          by_contra hfailed
          have hnothing := hclean.gone r (by simpa using hfailed)
          exact hnothing path { creator := some r, stamp := s.next }
            (FileTree.create_self _ _ _ hcreate.2.2) rfl
        · cases hstep
    | cleanup r stuck =>
        intro existedBefore listedAt hphase path e hpath
        obtain ⟨existedBefore', listedAt', hphase', rfl⟩ := step_cleanup hstep
        rw [hphase] at hphase'
        cases hphase'
        have hexact := hclean.exact r stuck rfl path e hpath
        replace hexact : (cleanupOutputDir s.tree existedBefore stuck).entry path = none ↔
          e.creator = some r := hexact
        rw [cleanupOutputDir_eq_none hpath, cleanupKeeps_eq_false] at hexact
        refine ⟨hexact.mpr, fun hother _ => ?_⟩
        by_contra hremoved
        rw [not_or, Bool.not_eq_false, Bool.not_eq_true] at hremoved
        exact hother (hexact.mp hremoved)
  · intro hcond
    refine ⟨?_, (treeKept_step h hstep hcond).gone⟩
    rintro r stuck rfl path e hpath
    obtain ⟨existedBefore, listedAt, hphase, rfl⟩ := step_cleanup hstep
    obtain ⟨hown, hothers⟩ := hcond existedBefore listedAt hphase path e hpath
    show (cleanupOutputDir s.tree existedBefore stuck).entry path = none ↔ e.creator = some r
    rw [cleanupOutputDir_eq_none hpath, cleanupKeeps_eq_false]
    refine ⟨fun hremoved => ?_, hown⟩
    by_contra hother
    by_cases hearlier : e.stamp < listedAt
    · -- It was there when the list was made.
      have hlisted := (h.listed r existedBefore listedAt (by rw [hphase]; rfl)).2 path e hpath
        hearlier
      rw [hlisted] at hremoved
      cases hremoved.1
    · rcases hothers hother (by omega) with hlisted | hstuck
      · rw [hlisted] at hremoved
        cases hremoved.1
      · rw [hstuck] at hremoved
        cases hremoved.2

/-! ## Runs -/

/-- **The cleanup of VRAMr.**  For any content of the output directory, any number
of runs and any interleaving with their tools, the runs remove exactly what their
own tools created if and only if every step meets `LeavesOthersAlone`. -/
theorem cleansExactly_iff (m : Db.Locks.LockManager Time) (resource : String) (now : Time)
    (table : Db.Locks.LockTable Time) (content : FileTree Unit) (schedule : List (Action Time)) :
    Runs.Always (step m resource) CleansExactly (State.initial now table content) schedule ↔
      Runs.Always (step m resource) LeavesOthersAlone (State.initial now table content) schedule :=
  Runs.always_iff_of_guarded (I := TreeKept) (P := CleansExactly) (C := LeavesOthersAlone)
    (fun _ _ _ h hstep hcond => treeKept_step h hstep hcond)
    (fun _ _ _ h hstep => cleansExactly_step_iff h hstep) (treeKept_initial now table content)
    schedule

/-- An existing output directory, empty or with one sub-directory. -/
def emptyOutput : FileTree Unit where
  entry path := if path = [] then some () else none
  closed path name h := by simp at h

def outputWithTextures : FileTree Unit :=
  emptyOutput.create ["textures"] () rfl

/-- Run `r` gets the lock and starts its tool. -/
def startRun (r : Nat) : List (Action Nat) :=
  [.lock (.call r ⟨"output", "vramr-service", none⟩), .lock (.readClock r),
    .lock (.execute r .ok), .run r .enterLock, .run r .startTool]

/-- Both runs list the empty directory, the first produces its textures and exits,
the tool of the second fails. -/
def listedBeforeLock : List (Action Nat) :=
  [.list 0, .list 1] ++ startRun 0 ++
    [.create 0 ["textures"], .run 0 (.toolReturns 0), .run 0 .commitReturns, .release 0 .ok] ++
    startRun 1 ++ [.run 1 (.toolReturns 1)]

/-- A run adds a file to a sub-directory that exists, and fails. -/
def nestedArtefact : List (Action Nat) :=
  [.list 0] ++ startRun 0 ++ [.create 0 ["textures", "a.dds"], .run 0 (.toolReturns 1)]

/-- A run is cancelled in its tool. -/
def cancelledInTool : List (Action Nat) :=
  [.list 0] ++ startRun 0 ++ [.create 0 ["textures"]]

/-- The failing run removes the textures of the other run; a file in an existing
sub-directory stays; and so does all that a cancelled run has created. -/
theorem cleansExactly_counterexample :
    ¬Runs.Always (step Db.Locks.defaultLockManager "output") CleansExactly
        (State.initial 0 (KeyedTable.empty _) emptyOutput)
        (listedBeforeLock ++ [.cleanup 1 []]) ∧
      ¬Runs.Always (step Db.Locks.defaultLockManager "output") CleansExactly
        (State.initial 0 (KeyedTable.empty _) outputWithTextures)
        (nestedArtefact ++ [.cleanup 0 []]) ∧
      ¬Runs.Always (step Db.Locks.defaultLockManager "output") CleansExactly
        (State.initial 0 (KeyedTable.empty _) emptyOutput)
        (cancelledInTool ++ [.run 0 .cancel]) := by
  refine ⟨fun h => ?_, fun h => ?_, fun h => ?_⟩
  · have hlast := h.at_prefix rfl rfl
    have hexact := hlast.exact 1 [] rfl ["textures"] { creator := some 0, stamp := 1 } (by decide)
    exact absurd (hexact.mp (by decide)) (by decide)
  · have hlast := h.at_prefix rfl rfl
    have hexact := hlast.exact 0 [] rfl ["textures", "a.dds"] { creator := some 0, stamp := 1 }
      (by decide)
    exact absurd (hexact.mpr rfl) (by decide)
  · have hlast := h.at_prefix rfl rfl
    exact hlast.gone 0 rfl ["textures"] { creator := some 0, stamp := 1 } (by decide) rfl

end SkyClaw.Tools.Vramr
