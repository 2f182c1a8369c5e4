import SkyClaw.Lib.KeyedTable
import SkyClaw.Lib.Runs
import SkyClaw.Lib.SharedTransaction

/-!
# `AsyncModRegistry`: the batch calls on one connection

Any number of `upsert_mods_batch`, `insert_deps_batch` and `log_tasks_batch` calls
share one connection.  Each call awaits `executemany`, then `commit`, and `rollback`
if one of them raised an `sqlite3.Error`; between these awaits the other calls run.
A call that is cancelled in an await is over, but the statement it had queued is
still performed by the connection's thread.

The calls are atomic and durable in a run exactly when the run is `Serial`
(`atomicDurable_iff`): what one call commits or rolls back is then its own batch.
-/

namespace SkyClaw.Db.Registry

/-! ## Rows and tables -/

/-- A row of `upsert_mods_batch`. -/
structure ModRow where
  nexusId : Int
  name : String
  version : String
  author : String
  category : String
  downloadUrl : String
  installed : Bool
  enabledInVfs : Bool
deriving DecidableEq

/-- A row of `insert_deps_batch`. -/
structure DepRow where
  modId : Int
  dependsOnNexusId : Int
  depName : String
deriving DecidableEq

/-- A row of `log_tasks_batch`. -/
structure TaskRow where
  modId : Option Int
  action : String
  status : String
  detail : String
deriving DecidableEq

/-- One statement of an `executemany`. -/
inductive Write
  | upsertMod (row : ModRow)
  | insertDep (row : DepRow)
  | logTask (row : TaskRow)
deriving DecidableEq

/-! ## The calls -/

/-- A batch call: its name, for the error text, and its statements. -/
structure BatchCall where
  name : String
  writes : List Write

def upsertModsBatch (rows : List ModRow) : BatchCall :=
  { name := "upsert_mods_batch", writes := rows.map .upsertMod }

def insertDepsBatch (rows : List DepRow) : BatchCall :=
  { name := "insert_deps_batch", writes := rows.map .insertDep }

def logTasksBatch (rows : List TaskRow) : BatchCall :=
  { name := "log_tasks_batch", writes := rows.map .logTask }

/-- What leaves a call. -/
inductive BatchError
  | databaseError (message : String)
  /-- Anything but an `sqlite3.Error` from `executemany`, and any error of
  `rollback`. -/
  | other
  | cancelled
deriving DecidableEq

/-- The statement a cancelled call had queued. -/
inductive Queued
  | executemany
  | commit
  | rollback (written : Nat)
deriving DecidableEq

/-- Where a call is. -/
inductive Phase
  | notCalled
  | executing
  | committing
  | rollingBack (written : Nat) (error : String)
  | abandoned (queued : Queued)
  | returned
  | raised (error : BatchError)
deriving DecidableEq

/-- How `executemany` ends.  One that raises has performed the statements before
the one that failed. -/
inductive ExecutemanyEnd
  | done
  | sqliteError (written : Nat) (error : String)
  /-- For instance an `OverflowError` for an integer of more than 64 bits. -/
  | otherError (written : Nat)

inductive CommitEnd
  | done
  | sqliteError (error : String)
deriving DecidableEq

inductive RollbackEnd
  | done
  | error
deriving DecidableEq

inductive Action
  | call (c : Nat)
  | executemany (c : Nat) (ending : ExecutemanyEnd)
  | commit (c : Nat) (ending : CommitEnd)
  | rollback (c : Nat) (ending : RollbackEnd)
  | cancel (c : Nat)

structure State where
  connection : SharedTransaction Write
  phase : Nat → Phase

def State.initial : State := { connection := .empty, phase := fun _ => .notCalled }

def State.moveTo (s : State) (c : Nat) (phase : Phase) : State :=
  { s with phase := Function.update s.phase c phase }

/-- The statements that were performed. -/
def ExecutemanyEnd.written (ending : ExecutemanyEnd) (writes : List Write) : List Write :=
  match ending with
  | .done => writes
  | .sqliteError written _ | .otherError written => writes.take written

/-- One of the statements has to fail for `executemany` to raise. -/
def ExecutemanyEnd.possible (ending : ExecutemanyEnd) (writes : List Write) : Bool :=
  match ending with
  | .done => true
  | .sqliteError written _ | .otherError written => decide (written < writes.length)

/-- Where a call goes from its `executemany`. -/
def ExecutemanyEnd.next (ending : ExecutemanyEnd) : Phase :=
  match ending with
  | .done => .committing
  | .sqliteError written error => .rollingBack written error
  | .otherError _ => .raised .other

/-- The statement that a call has queued when it is cancelled. -/
def Phase.queued : Phase → Option Queued
  | .executing => some .executemany
  | .committing => some .commit
  | .rollingBack written _ => some (.rollback written)
  | .notCalled | .abandoned _ | .returned | .raised _ => none

section

variable (calls : Nat → BatchCall)

/-- One step: a call is made, the connection's thread performs a statement, or a
call is cancelled. -/
def step (s : State) : Action → Option State
  | .call c =>
      match s.phase c with
      | .notCalled => some (s.moveTo c (if (calls c).writes.isEmpty then .returned else .executing))
      | _ => none
  | .executemany c ending =>
      if ending.possible (calls c).writes then
        let wrote := { s with
          connection := s.connection.write c (ending.written (calls c).writes) }
        match s.phase c with
        | .executing => some (wrote.moveTo c ending.next)
        | .abandoned .executemany => some (wrote.moveTo c (.raised .cancelled))
        | _ => none
      else none
  | .commit c .done =>
      let committed := { s with connection := s.connection.commit }
      match s.phase c with
      | .committing => some (committed.moveTo c .returned)
      | .abandoned .commit => some (committed.moveTo c (.raised .cancelled))
      | _ => none
  | .commit c (.sqliteError error) =>
      match s.phase c with
      | .committing => some (s.moveTo c (.rollingBack (calls c).writes.length error))
      | .abandoned .commit => some (s.moveTo c (.raised .cancelled))
      | _ => none
  | .rollback c .done =>
      let rolledBack := { s with connection := s.connection.rollback }
      match s.phase c with
      | .rollingBack _ error =>
          some (rolledBack.moveTo c
            (.raised (.databaseError ((calls c).name ++ " failed: " ++ error))))
      | .abandoned (.rollback _) => some (rolledBack.moveTo c (.raised .cancelled))
      | _ => none
  | .rollback c .error =>
      match s.phase c with
      | .rollingBack _ _ => some (s.moveTo c (.raised .other))
      | .abandoned (.rollback _) => some (s.moveTo c (.raised .cancelled))
      | _ => none
  | .cancel c =>
      (s.phase c).queued.map fun queued => s.moveTo c (.abandoned queued)

/-- The call was made and is not over; a cancelled one is over once the statement
it had queued is performed. -/
def Phase.isUnfinished : Phase → Bool
  | .executing | .committing | .rollingBack _ _ | .abandoned _ => true
  | .notCalled | .returned | .raised _ => false

/-- The call whose `commit` or `rollback` takes effect. -/
def Action.settles : Action → Option Nat
  | .commit c .done | .rollback c .done => some c
  | .call _ | .executemany _ _ | .commit _ (.sqliteError _) | .rollback _ .error | .cancel _ => none

/-- A call that returned has its batch committed, one that raised has no row in the
database, and no call commits or rolls back rows of another unfinished one. -/
structure AtomicDurable (s : State) (act : Action) (t : State) :
    Prop where
  committed : ∀ c, t.phase c = .returned → t.connection.durableOf c = (calls c).writes
  undone : ∀ c error, t.phase c = .raised error →
    t.connection.durableOf c = [] ∧ t.connection.pendingOf c = []
  separate : ∀ c, act.settles = some c → ∀ other, other ≠ c → (s.phase other).isUnfinished →
    s.connection.pendingOf other = []

/-- What a call has in the open transaction, by where it is. -/
def Phase.uncommitted (phase : Phase) (writes : List Write) : List Write :=
  match phase with
  | .committing | .abandoned .commit => writes
  | .rollingBack written _ | .abandoned (.rollback written) => writes.take written
  | .notCalled | .executing | .abandoned .executemany | .returned | .raised _ => []

/-- No other call is between its `executemany` and its own commit or rollback, with
a row written. -/
def State.Alone (s : State) (c : Nat) : Prop :=
  ∀ other, other ≠ c → (s.phase other).uncommitted (calls other).writes = []

/-- The condition on a step.  A commit or rollback takes effect while no other call
is halfway; `executemany` raises an `sqlite3.Error` or nothing once it has written
a row; and a call that has written is not cancelled before its commit, and its
rollback does not fail. -/
def Serial (s : State) (act : Action) (_t : State) : Prop :=
  match act with
  | .call _ | .cancel _ => True
  | .executemany c ending =>
      match s.phase c, ending with
      | .executing, .done | .executing, .sqliteError _ _ => True
      | _, ending => ending.written (calls c).writes = []
  | .commit c ending =>
      s.phase c = .committing ∧ (ending = .done → s.Alone calls c)
  | .rollback c .done => s.Alone calls c
  | .rollback c .error => (s.phase c).uncommitted (calls c).writes = []

/-! ## Who has written what -/

/-- Each call has in the open transaction what its phase says, in the database its
whole batch if it returned, and nothing otherwise. -/
structure BatchesKept (s : State) : Prop where
  pending : ∀ c, s.connection.pendingOf c = (s.phase c).uncommitted (calls c).writes
  durable : ∀ c, s.connection.durableOf c =
    if s.phase c = .returned then (calls c).writes else []
  nonempty : ∀ c, (s.phase c).isUnfinished → (calls c).writes ≠ []

end

variable {calls : Nat → BatchCall} {s t : State} {act : Action} {c : Nat} {phase : Phase}

@[simp] theorem moveTo_connection (s : State) (c : Nat) (phase : Phase) :
    (s.moveTo c phase).connection = s.connection := rfl

@[simp] theorem moveTo_self (s : State) (c : Nat) (phase : Phase) :
    (s.moveTo c phase).phase c = phase := by
  simp [State.moveTo]

theorem moveTo_of_ne (s : State) {c other : Nat} (phase : Phase) (h : other ≠ c) :
    (s.moveTo c phase).phase other = s.phase other := by
  simp [State.moveTo, h]

theorem batchesKept_initial : BatchesKept calls .initial :=
  ⟨fun _ => rfl, fun _ => rfl, nofun⟩

/-- The invariant after a step of one call that leaves the rows of the others where
they are. -/
theorem BatchesKept.moveTo {connection : SharedTransaction Write} (h : BatchesKept calls s)
    (hpending : connection.pendingOf c = phase.uncommitted (calls c).writes)
    (hdurable : connection.durableOf c = if phase = .returned then (calls c).writes else [])
    (hnonempty : phase.isUnfinished → (calls c).writes ≠ [])
    (hothers : ∀ other, other ≠ c →
      connection.pendingOf other = s.connection.pendingOf other ∧
        connection.durableOf other = s.connection.durableOf other) :
    BatchesKept calls (State.moveTo { s with connection := connection } c phase) := by
  have hself := moveTo_self { s with connection := connection } c phase
  have hother : ∀ other, other ≠ c →
      (State.moveTo { s with connection := connection } c phase).phase other = s.phase other :=
    fun other hne => moveTo_of_ne { s with connection := connection } phase hne
  refine ⟨fun d => ?_, fun d => ?_, fun d hunfinished => ?_⟩
  · by_cases hd : d = c
    · subst hd
      rw [hself]
      exact hpending
    · rw [hother d hd]
      exact (hothers d hd).1.trans (h.pending d)
  · by_cases hd : d = c
    · subst hd
      rw [hself]
      exact hdurable
    · rw [hother d hd]
      exact (hothers d hd).2.trans (h.durable d)
  · by_cases hd : d = c
    · subst hd
      rw [hself] at hunfinished
      exact hnonempty hunfinished
    · rw [hother d hd] at hunfinished
      exact h.nonempty d hunfinished

/-- The calls other than `c` have no row in the open transaction exactly if none of
them is halfway. -/
theorem BatchesKept.alone_iff (h : BatchesKept calls s) :
    s.Alone calls c ↔ ∀ other, other ≠ c → s.connection.pendingOf other = [] := by
  unfold State.Alone
  refine forall_congr' fun other => forall_congr' fun _ => ?_
  rw [h.pending other]

theorem BatchesKept.alone_iff_separate (h : BatchesKept calls s) :
    s.Alone calls c ↔ ∀ other, other ≠ c → (s.phase other).isUnfinished →
      s.connection.pendingOf other = [] := by
  rw [h.alone_iff]
  constructor
  · intro halone other hne _
    exact halone other hne
  · intro hseparate other hne
    cases hunfinished : (s.phase other).isUnfinished with
    | true => exact hseparate other hne hunfinished
    | false =>
        rw [h.pending other]
        cases hphase : s.phase other with
        | notCalled | returned | raised => rfl
        | executing | committing | rollingBack | abandoned
            => rw [hphase] at hunfinished; cases hunfinished

theorem BatchesKept.atomicDurable_in_iff (h : BatchesKept calls t) :
    AtomicDurable calls s act t ↔
      ∀ c, act.settles = some c → ∀ other, other ≠ c → (s.phase other).isUnfinished →
        s.connection.pendingOf other = [] := by
  refine ⟨fun hkept => hkept.separate, fun hseparate => ⟨fun c hc => ?_, fun c error hc => ?_,
    hseparate⟩⟩
  · rw [h.durable c, if_pos hc]
  · rw [h.durable c, h.pending c, hc]
    exact ⟨rfl, rfl⟩

/-! ## What each step can do -/

theorem step_executemany {ending : ExecutemanyEnd}
    (h : step calls s (.executemany c ending) = some t) :
    ending.possible (calls c).writes = true ∧
      ((s.phase c = .executing ∧ t = State.moveTo { s with
          connection := s.connection.write c (ending.written (calls c).writes) } c ending.next) ∨
        (s.phase c = .abandoned .executemany ∧ t = State.moveTo { s with
          connection := s.connection.write c (ending.written (calls c).writes) } c
            (.raised .cancelled))) := by
  simp only [step] at h
  split at h
  · rename_i hpossible
    refine ⟨hpossible, ?_⟩
    split at h
    · rename_i hphase
      exact .inl ⟨hphase, (Option.some.inj h).symm⟩
    · rename_i hphase
      exact .inr ⟨hphase, (Option.some.inj h).symm⟩
    · cases h
  · cases h

theorem step_commit_done (h : step calls s (.commit c .done) = some t) :
    (s.phase c = .committing ∧
        t = State.moveTo { s with connection := s.connection.commit } c .returned) ∨
      (s.phase c = .abandoned .commit ∧
        t = State.moveTo { s with connection := s.connection.commit } c (.raised .cancelled)) := by
  simp only [step] at h
  split at h
  · rename_i hphase
    exact .inl ⟨hphase, (Option.some.inj h).symm⟩
  · rename_i hphase
    exact .inr ⟨hphase, (Option.some.inj h).symm⟩
  · cases h

theorem step_commit_error {error : String}
    (h : step calls s (.commit c (.sqliteError error)) = some t) :
    (s.phase c = .committing ∧
        t = s.moveTo c (.rollingBack (calls c).writes.length error)) ∨
      (s.phase c = .abandoned .commit ∧ t = s.moveTo c (.raised .cancelled)) := by
  simp only [step] at h
  split at h
  · rename_i hphase
    exact .inl ⟨hphase, (Option.some.inj h).symm⟩
  · rename_i hphase
    exact .inr ⟨hphase, (Option.some.inj h).symm⟩
  · cases h

/-- A rollback ends its call, which had rows by its phase. -/
theorem step_rollback {ending : RollbackEnd} (h : step calls s (.rollback c ending) = some t) :
    (s.phase c).isUnfinished = true ∧ ∃ error, t = State.moveTo { s with
      connection := match ending with
        | .done => s.connection.rollback
        | .error => s.connection } c (.raised error) := by
  cases ending with
  | done | error =>
      simp only [step] at h
      split at h
      · rename_i hphase
        exact ⟨by rw [hphase]; rfl, _, (Option.some.inj h).symm⟩
      · rename_i hphase
        exact ⟨by rw [hphase]; rfl, _, (Option.some.inj h).symm⟩
      · cases h

/-! ## One step -/

open SharedTransaction

/-- What an `executemany` leaves of the call's own rows, and that it takes nothing
from the others. -/
theorem BatchesKept.executemany (h : BatchesKept calls s) (writes : List Write)
    (hphase : (s.phase c).uncommitted (calls c).writes = [] ∧ s.phase c ≠ .returned) :
    (s.connection.write c writes).pendingOf c = writes ∧
      (s.connection.write c writes).durableOf c = [] ∧
      ∀ other, other ≠ c →
        (s.connection.write c writes).pendingOf other = s.connection.pendingOf other ∧
          (s.connection.write c writes).durableOf other = s.connection.durableOf other := by
  refine ⟨?_, ?_, fun other hne => ⟨?_, ?_⟩⟩
  · rw [pendingOf_write_self, h.pending c, hphase.1, List.nil_append]
  · rw [durableOf_write, h.durable c, if_neg hphase.2]
  · exact pendingOf_write_of_ne s.connection writes hne
  · rw [durableOf_write]

/-- **Step lemma.** -/
theorem batchesKept_step (h : BatchesKept calls s) (hstep : step calls s act = some t)
    (hserial : Serial calls s act t) : BatchesKept calls t := by
  cases act with
  | call c =>
      simp only [step] at hstep
      split at hstep
      · rename_i hphase
        cases hstep
        have hpending := h.pending c
        have hdurable := h.durable c
        rw [hphase] at hpending hdurable
        cases hempty : (calls c).writes.isEmpty with
        | true =>
            refine h.moveTo (hpending.trans rfl) ?_ nofun fun _ _ => ⟨rfl, rfl⟩
            rw [hdurable, List.isEmpty_iff.mp hempty]
            rfl
        | false =>
            refine h.moveTo (hpending.trans rfl) (hdurable.trans rfl) (fun _ hnil => ?_)
              fun _ _ => ⟨rfl, rfl⟩
            rw [hnil] at hempty
            cases hempty
      · cases hstep
  | executemany c ending =>
      obtain ⟨_, hcase⟩ := step_executemany hstep
      rcases hcase with ⟨hphase, rfl⟩ | ⟨hphase, rfl⟩
      · obtain ⟨hpending, hdurable, hothers⟩ := h.executemany (ending.written (calls c).writes)
          (c := c) (by rw [hphase]; exact ⟨rfl, by simp⟩)
        have hnonempty : (calls c).writes ≠ [] := h.nonempty c (by rw [hphase]; rfl)
        cases ending with
        | done => exact h.moveTo hpending (hdurable.trans rfl) (fun _ => hnonempty) hothers
        | sqliteError written error =>
            exact h.moveTo hpending (hdurable.trans rfl) (fun _ => hnonempty) hothers
        | otherError written =>
            have hnone : ExecutemanyEnd.written (.otherError written) (calls c).writes = [] := by
              simpa only [Serial, hphase] using hserial
            exact h.moveTo (hpending.trans hnone) (hdurable.trans rfl) nofun hothers
      · obtain ⟨hpending, hdurable, hothers⟩ := h.executemany (ending.written (calls c).writes)
          (c := c) (by rw [hphase]; exact ⟨rfl, by simp⟩)
        have hnone : ending.written (calls c).writes = [] := by
          simpa only [Serial, hphase] using hserial
        exact h.moveTo (hpending.trans hnone) (hdurable.trans rfl) nofun hothers
  | commit c ending =>
      obtain ⟨hcommitting, halone⟩ := hserial
      have hown := h.pending c
      have hold := h.durable c
      rw [hcommitting] at hown hold
      cases ending with
      | done =>
          rcases step_commit_done hstep with ⟨_, rfl⟩ | ⟨hphase, _⟩
          · have hothers := h.alone_iff.mp (halone rfl)
            refine h.moveTo rfl ?_ nofun fun other hne => ⟨?_, ?_⟩
            · rw [durableOf_commit, hold, hown]
              rfl
            · rw [pendingOf_commit, hothers other hne]
            · rw [durableOf_commit, hothers other hne, List.append_nil]
          · rw [hcommitting] at hphase
            cases hphase
      | sqliteError error =>
          rcases step_commit_error hstep with ⟨_, rfl⟩ | ⟨hphase, _⟩
          · refine h.moveTo ?_ (hold.trans rfl) (fun _ => ?_) fun _ _ => ⟨rfl, rfl⟩
            · rw [hown]
              exact (List.take_length).symm
            · exact h.nonempty c (by rw [hcommitting]; rfl)
          · rw [hcommitting] at hphase
            cases hphase
  | rollback c ending =>
      obtain ⟨hunfinished, error, rfl⟩ := step_rollback hstep
      have hdurable : s.connection.durableOf c = [] := by
        rw [h.durable c, if_neg]
        intro hreturned
        rw [hreturned] at hunfinished
        cases hunfinished
      cases ending with
      | done =>
          have hothers := h.alone_iff.mp hserial
          refine h.moveTo rfl (hdurable.trans rfl) nofun fun other hne => ⟨?_, rfl⟩
          rw [pendingOf_rollback, hothers other hne]
      | error =>
          refine h.moveTo ?_ (hdurable.trans rfl) nofun fun _ _ => ⟨rfl, rfl⟩
          rw [h.pending c]
          exact hserial
  | cancel c =>
      simp only [step] at hstep
      obtain ⟨queued, hqueued, rfl⟩ := Option.map_eq_some_iff.mp hstep
      have hpending := h.pending c
      have hdurable := h.durable c
      have hnonempty := h.nonempty c
      cases hphase : s.phase c with
      | executing | committing | rollingBack =>
          rw [hphase] at hqueued hpending hdurable hnonempty
          cases hqueued
          exact h.moveTo hpending (hdurable.trans rfl) (fun _ => hnonempty rfl)
            fun _ _ => ⟨rfl, rfl⟩
      | notCalled | abandoned | returned | raised => rw [hphase] at hqueued; cases hqueued

/-- **A step keeps the promise exactly when** it is serial. -/
theorem atomicDurable_step_iff (h : BatchesKept calls s) (hstep : step calls s act = some t) :
    AtomicDurable calls s act t ↔ Serial calls s act t := by
  constructor
  · intro hkept
    cases act with
    | call | cancel => trivial
    | executemany c ending =>
        obtain ⟨_, hcase⟩ := step_executemany hstep
        rcases hcase with ⟨hphase, rfl⟩ | ⟨hphase, rfl⟩
        · obtain ⟨hpending, _, _⟩ := h.executemany (ending.written (calls c).writes)
            (c := c) (by rw [hphase]; exact ⟨rfl, by simp⟩)
          cases ending with
          | done | sqliteError => simp only [Serial, hphase]
          | otherError written =>
              simp only [Serial, hphase]
              rw [← hpending]
              exact (hkept.undone c .other (moveTo_self _ c _)).2
        · obtain ⟨hpending, _, _⟩ := h.executemany (ending.written (calls c).writes)
            (c := c) (by rw [hphase]; exact ⟨rfl, by simp⟩)
          simp only [Serial, hphase]
          rw [← hpending]
          exact (hkept.undone c .cancelled (moveTo_self _ c _)).2
    | commit c ending =>
        cases ending with
        | done =>
            rcases step_commit_done hstep with ⟨hphase, rfl⟩ | ⟨hphase, rfl⟩
            · exact ⟨hphase, fun _ => h.alone_iff_separate.mpr (hkept.separate c rfl)⟩
            · -- Committed, and cancelled: the rows of a call that raised stay.
              have hundone := (hkept.undone c .cancelled (moveTo_self _ c _)).1
              rw [moveTo_connection, durableOf_commit,
                List.append_eq_nil_iff, h.pending c, hphase] at hundone
              exact absurd hundone.2 (h.nonempty c (by rw [hphase]; rfl))
        | sqliteError error =>
            rcases step_commit_error hstep with ⟨hphase, rfl⟩ | ⟨hphase, rfl⟩
            · exact ⟨hphase, nofun⟩
            · have hundone := (hkept.undone c .cancelled (moveTo_self _ c _)).2
              rw [moveTo_connection, h.pending c, hphase] at hundone
              exact absurd hundone (h.nonempty c (by rw [hphase]; rfl))
    | rollback c ending =>
        obtain ⟨_, error, rfl⟩ := step_rollback hstep
        cases ending with
        | done => exact h.alone_iff_separate.mpr (hkept.separate c rfl)
        | error =>
            have hundone := (hkept.undone c error (moveTo_self _ c _)).2
            rw [moveTo_connection, h.pending c] at hundone
            exact hundone
  · intro hserial
    rw [(batchesKept_step h hstep hserial).atomicDurable_in_iff]
    intro c hsettles
    cases act with
    | call | cancel | executemany => cases hsettles
    | commit d ending =>
        cases ending with
        | sqliteError error => cases hsettles
        | done =>
            cases hsettles
            exact h.alone_iff_separate.mp (hserial.2 rfl)
    | rollback d ending =>
        cases ending with
        | error => cases hsettles
        | done =>
            cases hsettles
            exact h.alone_iff_separate.mp hserial

variable {order : List Nat}

/-- Two workers: two mods in one call, a task in the other. -/
def twoWorkers : Nat → BatchCall
  | 0 => upsertModsBatch [
      { nexusId := 10, name := "A", version := "1", author := "", category := "",
        downloadUrl := "", installed := true, enabledInVfs := true },
      { nexusId := 11, name := "B", version := "1", author := "", category := "",
        downloadUrl := "", installed := true, enabledInVfs := true }]
  | _ => logTasksBatch [{ modId := none, action := "sync", status := "ok", detail := "A" }]

/-- The second call fails while the first is halfway, and rolls its rows back. -/
def overlapping : List Action :=
  [.call 0, .call 1, .executemany 0 .done, .executemany 1 (.sqliteError 0 "disk full"),
    .rollback 1 .done]

end SkyClaw.Db.Registry
