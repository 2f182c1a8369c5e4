import SkyClaw.Core.RetryAccounting

/-!
# At-least-once delivery of the dead letter queue

One worker, which may crash and start again at any step, on a table that starts
empty.  A row leaves the table only after its handler returned, and is dead only
after exactly `max_attempts` recorded failures.  What fails is the recovery: it runs
once, at the start, and skips every row claimed less than a minute before; and a
statement or resolver that raises after the claim leaves its row behind while the
worker goes on.  `delivered_iff` says that nothing else goes wrong.
-/

namespace SkyClaw.Core.Dlq

open Function

variable {Payload : Type}

/-! ## One worker and its history -/

inductive SoloAction (Payload : Type)
  | tick (now : Int)
  | enqueue (readAt : Int) (event : Event Payload) (handlerName errorType errorMessage : String)
      (ended : StatementEnd)
  | worker (event : WorkerEvent)

/-- The only worker has number 0. -/
def SoloAction.toAction : SoloAction Payload → Action Payload
  | .tick now => .tick now
  | .enqueue readAt event handlerName errorType errorMessage ended =>
      .enqueue 0 readAt event handlerName errorType errorMessage ended
  | .worker event => .worker 0 event

/-- The state, and what has happened to each row: whether its handler has returned,
and how many of its failures were written. -/
structure Tracked (Payload : Type) where
  state : State Payload
  returned : Nat → Bool
  failures : Nat → Nat

def Tracked.table (s : Tracked Payload) : DLQTable Payload := s.state.table

def Tracked.phase (s : Tracked Payload) : WorkerPhase Payload := s.state.phase 0

open AutoTable

/-- Nothing was enqueued yet. -/
def Tracked.initial (now : Int) : Tracked Payload :=
  { state := State.initial now empty
    returned := fun _ => false
    failures := fun _ => 0 }

def returnedAfter (returned : Nat → Bool) : WorkerPhase Payload → WorkerEvent → Nat → Bool
  | .handling row _, .handlerReturns => update returned row.id true
  | _, _ => returned

def failuresAfter (failures : Nat → Nat) : WorkerPhase Payload → WorkerEvent → Nat → Nat
  | .settling row write _, .settle ended =>
      if ended ≠ .lost ∧ write.records = true then
        update failures row.id (failures row.id + 1)
      else failures
  | _, _ => failures

/-- One step, with the history it makes. -/
def soloStep (maxAttempts : Int) (settings : DLQSettings) (s : Tracked Payload)
    (act : SoloAction Payload) : Option (Tracked Payload) :=
  (step maxAttempts (fun _ => settings) s.state act.toAction).map fun t =>
    match act with
    | .worker event =>
        { state := t
          returned := returnedAfter s.returned s.phase event
          failures := failuresAfter s.failures s.phase event }
    | .tick _ | .enqueue _ _ _ _ _ _ => { s with state := t }

/-- The worker has started and its recovery is done. -/
def WorkerPhase.recovered : WorkerPhase Payload → Bool
  | .stopped | .recovering _ => false
  | .idle | .fetching _ | .batch _ | .claiming _ _ _ | .resolving _ _ | .handling _ _
  | .settling _ _ _ => true

/-- At-least-once: a row that is gone was handled, a dead row has exactly
`max_attempts` recorded failures, and after the recovery a row is in progress only in
the hands of the worker. -/
structure Delivered (maxAttempts : Int) (s : Tracked Payload) : Prop where
  kept : ∀ id, 0 < id → id < s.table.next → s.table.row id = none → s.returned id = true
  dead : ∀ id r, s.table.row id = some r → r.status = .dead →
    (r.attempts : Int) = maxAttempts ∧ s.failures id = r.attempts
  held : s.phase.recovered = true → ∀ id r, s.table.row id = some r → r.status = .inProgress →
    s.phase.holding = some id

/-- The condition on an event.  The recovery finds no row in progress that was claimed
within the last minute; nothing raises between a claim and the end of the statement
that settles the row, unless that statement is durable; and a row is marked dead only
where `max_attempts` allows one attempt. -/
def WorkerEvent.LeavesNothing (maxAttempts : Int) (table : DLQTable Payload)
    (phase : WorkerPhase Payload) (event : WorkerEvent) : Prop :=
  match event, phase with
  | .recover .returned, .recovering readAt =>
      ∀ id r, table.row id = some r → r.status = .inProgress → r.updatedAt + 60000 < readAt
  | .claim .raisedAfterCommit, .claiming _ row _ => claimable table row.id = false
  | .resolve .raises, .resolving _ _ => False
  | .settle .lost, .settling _ _ _ => False
  | .settle _, .settling _ (.markDead _ _ _) _ => 1 ≤ maxAttempts
  | _, _ => True

/-- The condition on a step of the run. -/
def LeavesNothingBehind (maxAttempts : Int) (s : Tracked Payload) (act : SoloAction Payload)
    (_t : Tracked Payload) : Prop :=
  match act with
  | .worker event => event.LeavesNothing maxAttempts s.table s.phase
  | .tick _ | .enqueue _ _ _ _ _ _ => True

/-! ## The invariant -/

/-- The copies the worker still has to come to. -/
def WorkerPhase.upcoming : WorkerPhase Payload → List (DLQRow Payload)
  | .batch rows => rows
  | .claiming _ row rest => row :: rest
  | .resolving _ rest | .handling _ rest | .settling _ _ rest => rest
  | .stopped | .recovering _ | .idle | .fetching _ => []

/-- What the statement about to run was computed from. -/
def Settlement.Follows (maxAttempts : Int) (returned : Bool) (attempts : Nat) : Settlement → Prop
  | .defer _ _ => True
  | .reschedule newAttempts _ _ _ _ =>
      newAttempts = attempts + 1 ∧ (newAttempts : Int) < maxAttempts
  | .markDead _ _ newAttempts =>
      newAttempts = attempts + 1 ∧ maxAttempts ≤ (newAttempts : Int)
  | .delete => returned = true

/-- The stored row the worker has claimed: its counter is that of the copy. -/
def Claims (table : DLQTable Payload) (row : DLQRow Payload) : Prop :=
  ∃ r, table.row row.id = some r ∧ r.status = .inProgress ∧ r.attempts = row.attempts

def WorkerPhase.Claimed (maxAttempts : Int) (table : DLQTable Payload) (returned : Nat → Bool) :
    WorkerPhase Payload → Prop
  | .resolving row _ | .handling row _ => Claims table row
  | .settling row write _ =>
      Claims table row ∧ write.Follows maxAttempts (returned row.id) row.attempts
  | .stopped | .recovering _ | .idle | .fetching _ | .batch _ | .claiming _ _ _ => True

/-- The promise, with what keeps it: the counters are exact, a row that is not dead has
an attempt left, and the copies still to come are as stored. -/
structure SoloKept (maxAttempts : Int) (table : DLQTable Payload) (phase : WorkerPhase Payload)
    (returned : Nat → Bool) (failures : Nat → Nat) : Prop where
  kept : ∀ id, 0 < id → id < table.next → table.row id = none → returned id = true
  dead : ∀ id r, table.row id = some r → r.status = .dead → (r.attempts : Int) = maxAttempts
  held : phase.recovered = true → ∀ id r, table.row id = some r → r.status = .inProgress →
    phase.holding = some id
  counted : ∀ id r, table.row id = some r → failures id = r.attempts
  unborn : ∀ id, table.next ≤ id → failures id = 0
  alive : ∀ id r, table.row id = some r → r.status ≠ .dead →
    (r.attempts : Int) < maxAttempts ∨ r.attempts = 0
  copies : ∀ row ∈ phase.upcoming, table.row row.id = some row.toDLQRecord ∧ row.status = .pending
  nodup : (phase.upcoming.map (·.id)).Nodup
  claimed : phase.Claimed maxAttempts table returned

def Tracked.Kept (maxAttempts : Int) (s : Tracked Payload) : Prop :=
  SoloKept maxAttempts s.table s.phase s.returned s.failures

section Keeping

variable {maxAttempts : Int} {table : DLQTable Payload} {phase : WorkerPhase Payload}
  {returned : Nat → Bool} {failures : Nat → Nat}

theorem Tracked.Kept.delivered {s : Tracked Payload} (h : s.Kept maxAttempts) :
    Delivered maxAttempts s where
  kept := h.kept
  dead id r hr hdead := ⟨h.dead id r hr hdead, h.counted id r hr⟩
  held := h.held

theorem kept_initial (maxAttempts now : Int) :
    (Tracked.initial now : Tracked Payload).Kept maxAttempts where
  kept id hpos hnext _ := by
    have hlt : id < 1 := hnext
    omega
  dead _ _ hr _ := nomatch hr
  held hrecovered := nomatch hrecovered
  counted _ _ hr := nomatch hr
  unborn _ _ := rfl
  alive _ _ hr _ := nomatch hr
  copies _ hrow := nomatch hrow
  nodup := List.nodup_nil
  claimed := trivial

variable {phase' : WorkerPhase Payload}

theorem SoloKept.toPhase (h : SoloKept maxAttempts table phase returned failures)
    (hheld : phase'.recovered = true → ∀ id r, table.row id = some r → r.status = .inProgress →
      phase'.holding = some id)
    (hcopies : ∀ row ∈ phase'.upcoming,
      table.row row.id = some row.toDLQRecord ∧ row.status = .pending)
    (hnodup : (phase'.upcoming.map (·.id)).Nodup)
    (hclaimed : phase'.Claimed maxAttempts table returned) :
    SoloKept maxAttempts table phase' returned failures :=
  { h with held := hheld, copies := hcopies, nodup := hnodup, claimed := hclaimed }

theorem SoloKept.toIdle (h : SoloKept maxAttempts table phase returned failures) (hupcoming : phase'.upcoming = [])
    (hheld : phase'.recovered = true → phase.recovered = true ∧ phase.holding = none)
    (hclaimed : phase'.Claimed maxAttempts table returned) :
    SoloKept maxAttempts table phase' returned failures := by
  refine h.toPhase (fun hrecovered id r hr hstatus => ?_) ?_ ?_ hclaimed
  · obtain ⟨hbefore, hnone⟩ := hheld hrecovered
    have hholds := h.held hbefore id r hr hstatus
    rw [hnone] at hholds
    cases hholds
  · rw [hupcoming]
    nofun
  · rw [hupcoming]
    exact List.nodup_nil

theorem SoloKept.toUnrecovered (h : SoloKept maxAttempts table phase returned failures) (hupcoming : phase'.upcoming = [])
    (hrecovered : phase'.recovered = false) (hclaimed : phase'.Claimed maxAttempts table returned) :
    SoloKept maxAttempts table phase' returned failures := by
  refine h.toIdle hupcoming ?_ hclaimed
  intro hafter
  rw [hrecovered] at hafter
  cases hafter

variable {r : DLQRecord Payload}

/-- A new row is pending and was never tried. -/
theorem SoloKept.enqueue (h : SoloKept maxAttempts table phase returned failures) (hpending : r.status = .pending) (hattempts : r.attempts = 0) :
    SoloKept maxAttempts (table.insert r) phase returned failures := by
  have hold : ∀ {id q}, (table.insert r).row id = some q →
      table.row id = some q ∨ (id = table.next ∧ q = r) := row_insert_eq_some
  have hclaims : ∀ {row : DLQRow Payload}, Claims table row → Claims (table.insert r) row := by
    rintro row ⟨q, hq, hclaimed⟩
    exact ⟨q, row_insert_of_some table r hq, hclaimed⟩
  refine ⟨fun id hpos hnext hnone => ?_, fun id q hq hdead => ?_, fun hrecovered id q hq hstatus => ?_,
    fun id q hq => ?_, fun id hid => ?_, fun id q hq halive => ?_, fun row hrow => ?_, h.nodup, ?_⟩
  · have hne : id ≠ table.next := by
      rintro rfl
      rw [row_insert_self] at hnone
      cases hnone
    have hlt : id < table.next + 1 := hnext
    rw [row_insert_of_ne table r hne] at hnone
    exact h.kept id hpos (by omega) hnone
  · rcases hold hq with hq | ⟨-, rfl⟩
    · exact h.dead id q hq hdead
    · rw [hpending] at hdead
      cases hdead
  · rcases hold hq with hq | ⟨-, rfl⟩
    · exact h.held hrecovered id q hq hstatus
    · rw [hpending] at hstatus
      cases hstatus
  · rcases hold hq with hq | ⟨rfl, rfl⟩
    · exact h.counted id q hq
    · rw [h.unborn _ (Nat.le_refl _), hattempts]
  · have hle : table.next + 1 ≤ id := hid
    exact h.unborn id (by omega)
  · rcases hold hq with hq | ⟨-, rfl⟩
    · exact h.alive id q hq halive
    · exact .inr hattempts
  · obtain ⟨hcopy, hstatus⟩ := h.copies row hrow
    exact ⟨row_insert_of_some table r hcopy, hstatus⟩
  · have hclaimed := h.claimed
    cases phase with
    | resolving | handling => exact hclaims hclaimed
    | settling row write rest => exact ⟨hclaims hclaimed.1, hclaimed.2⟩
    | stopped | recovering | idle | fetching | batch | claiming => trivial

variable {readAt : Int}

/-- The recovery ran.  The worker goes on only if it found nothing fresh in progress. -/
theorem SoloKept.recover
    (h : SoloKept maxAttempts table (.recovering readAt) returned failures)
    (hphase : phase' = .stopped ∨ phase' = .idle ∧ ∀ id r, table.row id = some r →
      r.status = .inProgress → r.updatedAt + 60000 < readAt) :
    SoloKept maxAttempts (recoverStaleRows table readAt) phase' returned failures := by
  have hrow : ∀ {id q}, (recoverStaleRows table readAt).row id = some q →
      ∃ r, table.row id = some r ∧ q.attempts = r.attempts ∧
        (q.status = .dead ↔ r.status = .dead) := by
    intro id q hq
    obtain ⟨r, hr, hattempts, -, hdead⟩ := (recoverStaleRows_row table readAt id).of_some hq
    exact ⟨r, hr, hattempts, hdead⟩
  have hfresh : phase'.recovered = true → ∀ id q,
      (recoverStaleRows table readAt).row id = some q → q.status ≠ .inProgress := by
    rintro hrecovered id q hq hstatus
    rcases hphase with rfl | ⟨rfl, hstale⟩
    · cases hrecovered
    · rw [recoverStaleRows, row_mapRows, Option.map_eq_some_iff] at hq
      obtain ⟨r, hr, hq⟩ := hq
      by_cases hinProgress : r.status = .inProgress
      · rw [if_pos ⟨hinProgress, hstale id r hr hinProgress⟩] at hq
        subst hq
        cases hstatus
      · rw [if_neg fun hboth => hinProgress hboth.1] at hq
        exact hinProgress (hq ▸ hstatus)
  have hupcoming : phase'.upcoming = [] := by
    rcases hphase with rfl | ⟨rfl, -⟩ <;> rfl
  refine ⟨fun id hpos hnext hnone => ?_, fun id q hq hdead => ?_,
    fun hrecovered id q hq hstatus => absurd hstatus (hfresh hrecovered id q hq),
    fun id q hq => ?_, h.unborn, fun id q hq halive => ?_, ?_, ?_, ?_⟩
  · rw [recoverStaleRows, row_mapRows, Option.map_eq_none_iff] at hnone
    exact h.kept id hpos hnext hnone
  · obtain ⟨r, hr, hattempts, hiff⟩ := hrow hq
    rw [hattempts]
    exact h.dead id r hr (hiff.mp hdead)
  · obtain ⟨r, hr, hattempts, -⟩ := hrow hq
    rw [hattempts]
    exact h.counted id r hr
  · obtain ⟨r, hr, hattempts, hiff⟩ := hrow hq
    rw [hattempts]
    exact h.alive id r hr fun hdead => halive (hiff.mpr hdead)
  · rw [hupcoming]
    nofun
  · rw [hupcoming]
    exact List.nodup_nil
  · rcases hphase with rfl | ⟨rfl, -⟩ <;> trivial

theorem SoloKept.claimable {row : DLQRow Payload} {rest : List (DLQRow Payload)}
    (h : SoloKept maxAttempts table (.claiming readAt row rest) returned failures) :
    claimable table row.id = true := by
  obtain ⟨hcopy, hpending⟩ := h.copies row List.mem_cons_self
  exact claimable_iff.mpr ⟨row.toDLQRecord, hcopy, hpending⟩

/-- The claim ran. -/
theorem SoloKept.claim {row : DLQRow Payload} {rest : List (DLQRow Payload)}
    (h : SoloKept maxAttempts table (.claiming readAt row rest) returned failures) :
    SoloKept maxAttempts (claimRow table row.id readAt) (.resolving row rest) returned failures := by
  obtain ⟨hcopy, hpending⟩ := h.copies row List.mem_cons_self
  have hown : (claimRow table row.id readAt).row row.id =
      some { row.toDLQRecord with status := .inProgress, updatedAt := readAt } := by
    rw [claimRow, row_update_self, hcopy, Option.map_some, if_pos hpending]
  have hother : ∀ id, id ≠ row.id → (claimRow table row.id readAt).row id = table.row id :=
    fun id hid => row_update_of_ne table _ hid
  have hrow : ∀ {id q}, (claimRow table row.id readAt).row id = some q →
      ∃ r, table.row id = some r ∧ q.attempts = r.attempts ∧
        (q.status = .dead ↔ r.status = .dead) := by
    intro id q hq
    obtain ⟨r, hr, hattempts, -, hdead⟩ := (claimRow_row table row.id readAt id).of_some hq
    exact ⟨r, hr, hattempts, hdead⟩
  have hnodup := h.nodup
  rw [WorkerPhase.upcoming, List.map_cons, List.nodup_cons] at hnodup
  refine ⟨fun id hpos hnext hnone => ?_, fun id q hq hdead => ?_,
    fun _ id q hq hstatus => ?_, fun id q hq => ?_, h.unborn, fun id q hq halive => ?_,
    fun copy hmem => ?_, hnodup.2, ⟨_, hown, rfl, rfl⟩⟩
  · by_cases hid : id = row.id
    · subst hid
      rw [hown] at hnone
      cases hnone
    · rw [hother id hid] at hnone
      exact h.kept id hpos hnext hnone
  · obtain ⟨r, hr, hattempts, hiff⟩ := hrow hq
    rw [hattempts]
    exact h.dead id r hr (hiff.mp hdead)
  · by_cases hid : id = row.id
    · exact congrArg some hid.symm
    · rw [hother id hid] at hq
      have hholds := h.held rfl id q hq hstatus
      cases hholds
  · obtain ⟨r, hr, hattempts, -⟩ := hrow hq
    rw [hattempts]
    exact h.counted id r hr
  · obtain ⟨r, hr, hattempts, hiff⟩ := hrow hq
    rw [hattempts]
    exact h.alive id r hr fun hdead => halive (hiff.mpr hdead)
  · have hid : copy.id ≠ row.id := by
      intro heq
      exact hnodup.1 (heq ▸ List.mem_map_of_mem hmem)
    rw [hother copy.id hid]
    exact h.copies copy (List.mem_cons_of_mem row hmem)

/-- What the settling statement makes of the row, if the row stays. -/
def Settlement.settled (r : DLQRecord Payload) : Settlement → Option (DLQRecord Payload)
  | .defer nextRetry now =>
      some { r with status := .pending, nextRetryAt := nextRetry, updatedAt := now }
  | .reschedule attempts nextRetry errorType errorMessage now =>
      some { r with
        status := .pending, attempts := attempts, nextRetryAt := nextRetry,
        errorType := errorType, errorMessage := errorMessage, updatedAt := now }
  | .markDead reason now attempts =>
      some { r with
        status := .dead, errorMessage := reason, updatedAt := now, attempts := attempts }
  | .delete => none

variable {id : Nat}

theorem Settlement.run_row_self {write : Settlement}
    (hr : table.row id = some r) : (write.run table id).row id = write.settled r := by
  cases write with
  | defer nextRetry now => exact (row_update_self table id _).trans (by rw [hr]; rfl)
  | reschedule | markDead =>
      exact (row_update_self table id _).trans (by rw [hr]; rfl)
  | delete => exact row_delete_self table id

variable {q : DLQRecord Payload}

theorem Settlement.run_row_cases {write : Settlement} {settledId : Nat} (hr : table.row settledId = some r)
    (hq : (write.run table settledId).row id = some q) :
    id = settledId ∧ write.settled r = some q ∨ id ≠ settledId ∧ table.row id = some q := by
  by_cases hid : id = settledId
  · subst hid
    rw [Settlement.run_row_self hr] at hq
    exact .inl ⟨rfl, hq⟩
  · rw [Settlement.run_row_of_ne hid] at hq
    exact .inr ⟨hid, hq⟩

/-- **Spec of the settling statements.** -/
theorem Settlement.Follows.settled {write : Settlement} {handled : Bool}
    (h : write.Follows maxAttempts handled r.attempts)
    (halive : (r.attempts : Int) < maxAttempts ∨ r.attempts = 0)
    (hpositive : ∀ reason now attempts, write = .markDead reason now attempts → 1 ≤ maxAttempts)
    (hq : write.settled r = some q) :
    q.status ≠ .inProgress ∧ (q.status = .dead → (q.attempts : Int) = maxAttempts) ∧
      (q.status ≠ .dead → (q.attempts : Int) < maxAttempts ∨ q.attempts = 0) ∧
      q.attempts = r.attempts + (if write.records = true then 1 else 0) := by
  cases write with
  | defer nextRetry now =>
      cases hq
      exact ⟨nofun, nofun, fun _ => halive, rfl⟩
  | reschedule attempts nextRetry errorType errorMessage now =>
      obtain ⟨hattempts, hless⟩ := h
      cases hq
      exact ⟨nofun, nofun, fun _ => .inl hless, hattempts⟩
  | markDead reason now attempts =>
      obtain ⟨hattempts, hreached⟩ := h
      have hpos := hpositive reason now attempts rfl
      cases hq
      refine ⟨nofun, fun _ => ?_, fun hne => absurd rfl hne, hattempts⟩
      show (attempts : Int) = maxAttempts
      omega
  | delete => cases hq

/-- The settling statement ran. -/
theorem SoloKept.settle {row : DLQRow Payload} {write : Settlement}
    {rest : List (DLQRow Payload)}
    (h : SoloKept maxAttempts table (.settling row write rest) returned failures)
    (hpositive : ∀ reason now attempts, write = .markDead reason now attempts → 1 ≤ maxAttempts)
    (hphase : phase' = .idle ∨ phase' = .batch rest) :
    SoloKept maxAttempts (write.run table row.id) phase' returned
      (if write.records = true then
        update failures row.id (failures row.id + 1) else failures) := by
  obtain ⟨⟨r, hr, hinProgress, hattempts⟩, hfollows⟩ := h.claimed
  rw [← hattempts] at hfollows
  have hother : ∀ id, id ≠ row.id → (write.run table row.id).row id = table.row id :=
    fun id hid => Settlement.run_row_of_ne hid
  have hsettled : ∀ {q}, write.settled r = some q → _ := fun hq =>
    hfollows.settled (h.alive row.id r hr (by rw [hinProgress]; nofun)) hpositive hq
  have hfailures : ∀ id, id ≠ row.id → (if write.records = true then
      update failures row.id (failures row.id + 1) else failures) id = failures id := by
    intro id hid
    split
    · exact update_of_ne hid _ _
    · rfl
  have hrest : ∀ copy ∈ rest, copy.id ≠ row.id := by
    intro copy hmem heq
    obtain ⟨hcopy, hpending⟩ := h.copies copy hmem
    rw [heq, hr] at hcopy
    cases hcopy
    rw [hpending] at hinProgress
    cases hinProgress
  have hupcoming : phase'.upcoming = [] ∨ phase'.upcoming = rest := by
    rcases hphase with rfl | rfl
    · exact .inl rfl
    · exact .inr rfl
  refine ⟨fun id hpos hnext hnone => ?_, fun id q hq hdead => ?_,
    fun _ id q hq hstatus => ?_, fun id q hq => ?_, fun id hid => ?_, fun id q hq halive => ?_,
    fun copy hmem => ?_, ?_, ?_⟩
  · by_cases hid : id = row.id
    · subst hid
      rw [Settlement.run_row_self hr] at hnone
      cases write with
      | delete => exact hfollows
      | defer | reschedule | markDead => cases hnone
    · rw [hother id hid] at hnone
      rw [Settlement.next_run] at hnext
      exact h.kept id hpos hnext hnone
  · rcases Settlement.run_row_cases hr hq with ⟨rfl, hset⟩ | ⟨hid, hold⟩
    · exact (hsettled hset).2.1 hdead
    · exact h.dead id q hold hdead
  · rcases Settlement.run_row_cases hr hq with ⟨rfl, hset⟩ | ⟨hid, hold⟩
    · exact absurd hstatus (hsettled hset).1
    · have hholds : some row.id = some id := h.held rfl id q hold hstatus
      exact absurd (Option.some.inj hholds).symm hid
  · rcases Settlement.run_row_cases hr hq with ⟨rfl, hset⟩ | ⟨hid, hold⟩
    · rw [(hsettled hset).2.2.2, ← h.counted row.id r hr]
      split
      · exact update_self _ _ _
      · rfl
    · rw [hfailures id hid]
      exact h.counted id q hold
  · rw [Settlement.next_run] at hid
    have hne : id ≠ row.id := by
      have hlt := lt_next hr
      omega
    rw [hfailures id hne]
    exact h.unborn id hid
  · rcases Settlement.run_row_cases hr hq with ⟨rfl, hset⟩ | ⟨hid, hold⟩
    · exact (hsettled hset).2.2.1 halive
    · exact h.alive id q hold halive
  · rcases hupcoming with hnil | hsame
    · rw [hnil] at hmem
      cases hmem
    · rw [hsame] at hmem
      rw [hother copy.id (hrest copy hmem)]
      exact h.copies copy hmem
  · rcases hupcoming with hnil | hsame
    · rw [hnil]
      exact List.nodup_nil
    · rw [hsame]
      exact h.nodup
  · rcases hphase with rfl | rfl <;> trivial

theorem returnedAfter_crash : returnedAfter returned phase .crash = returned := by
  cases phase with
  | handling | stopped | recovering | idle | fetching | batch | claiming | resolving | settling
      => rfl

theorem failuresAfter_crash : failuresAfter failures phase .crash = failures := by
  cases phase with
  | settling | stopped | recovering | idle | fetching | batch | claiming | resolving | handling
      => rfl

variable {now : Int} {moved : Moved Payload}

/-- **The events of the worker** keep the invariant under the condition. -/
theorem SoloKept.worker {settings : DLQSettings} {event : WorkerEvent} (h : SoloKept maxAttempts table phase returned failures)
    (hstep : workerStep maxAttempts settings now table phase event = some moved)
    (hcond : event.LeavesNothing maxAttempts table phase) :
    SoloKept maxAttempts moved.table moved.phase (returnedAfter returned phase event)
      (failuresAfter failures phase event) := by
  cases moves_of_workerStep hstep with
  | starts => exact h.toUnrecovered rfl rfl trivial
  | recovers => exact h.recover (.inr ⟨rfl, hcond⟩)
  | @recoveryRaises readAt ended hraised =>
      cases ended with
      | returned => exact absurd rfl hraised
      | lost => exact h.toUnrecovered rfl rfl trivial
      | raisedAfterCommit => exact h.recover (.inl rfl)
  | polls | fetchRaises | batchEnds => exact h.toIdle rfl (fun _ => ⟨rfl, rfl⟩) trivial
  | @fetches readAt =>
      obtain ⟨hcopies, hnodup⟩ := fetchDueBatch_spec table readAt settings.batchSize
      exact h.toPhase (fun _ => h.held rfl) hcopies hnodup trivial
  | takes => exact h.toPhase (fun _ => h.held rfl) h.copies h.nodup trivial
  | claims => exact h.claim
  | claimMisses hclaimable =>
      -- A copy that is still to come is as stored.
      rw [h.claimable] at hclaimable
      cases hclaimable
  | @claimRaises readAt row rest ended hraised =>
      cases ended with
      | returned => exact absurd rfl hraised
      | lost => exact h.toIdle rfl (fun _ => ⟨rfl, rfl⟩) trivial
      | raisedAfterCommit => exact absurd (h.claimable.symm.trans hcond) (by simp)
  | invokes => exact h.toPhase (fun _ => h.held rfl) h.copies h.nodup h.claimed
  | defers => exact h.toPhase (fun _ => h.held rfl) h.copies h.nodup ⟨h.claimed, trivial⟩
  | resolverRaises => exact hcond.elim
  | @handlerReturns row rest =>
      have hmono : ∀ id, returned id = true → update returned row.id true id = true := by
        intro id hid
        by_cases heq : id = row.id
        · rw [heq, update_self]
        · rw [update_of_ne heq, hid]
      have hhandled : update returned row.id true row.id = true :=
        update_self row.id true returned
      exact { h with
        kept := fun id hpos hnext hnone => hmono id (h.kept id hpos hnext hnone)
        held := fun _ => h.held rfl
        claimed := ⟨h.claimed, hhandled⟩ }
  | handlerRaises =>
      refine h.toPhase (fun _ => h.held rfl) h.copies h.nodup ⟨h.claimed, ?_⟩
      simp only [failureSettlement]
      split
      · rename_i hreached
        exact ⟨rfl, hreached⟩
      · rename_i hleft
        exact ⟨rfl, by omega⟩
  | @settles row write rest =>
      simp only [failuresAfter, ne_eq, reduceCtorEq, not_false_eq_true, true_and]
      exact h.settle (by rintro reason now attempts rfl; exact hcond) (.inr rfl)
  | @settlementRaises row write rest ended hraised =>
      cases ended with
      | returned => exact absurd rfl hraised
      | lost => exact hcond.elim
      | raisedAfterCommit =>
          simp only [failuresAfter, ne_eq, reduceCtorEq, not_false_eq_true, true_and]
          exact h.settle (by rintro reason now attempts rfl; exact hcond) (.inl rfl)
  | crashes =>
      rw [returnedAfter_crash, failuresAfter_crash]
      exact h.toUnrecovered rfl rfl trivial

/-- A row that is marked dead as promised had an attempt to fail. -/
theorem SoloKept.leavesNothing_settle {row : DLQRow Payload} {write : Settlement}
    {rest : List (DLQRow Payload)} {ended : StatementEnd}
    (h : SoloKept maxAttempts table (.settling row write rest) returned failures)
    (hended : ended ≠ .lost)
    (hdead : ∀ id r, (write.run table row.id).row id = some r → r.status = .dead →
      (r.attempts : Int) = maxAttempts) :
    (WorkerEvent.settle ended).LeavesNothing maxAttempts table (.settling row write rest) := by
  obtain ⟨⟨r, hr, -, -⟩, hfollows⟩ := h.claimed
  have hpositive : ∀ reason now attempts,
      write = .markDead reason now attempts → 1 ≤ maxAttempts := by
    rintro reason now attempts rfl
    obtain ⟨hattempts, -⟩ := hfollows
    have hrow : ((Settlement.markDead reason now attempts).run table row.id).row row.id =
        (Settlement.markDead reason now attempts).settled r := Settlement.run_row_self hr
    have hexact : (attempts : Int) = maxAttempts := hdead row.id _ hrow rfl
    omega
  cases ended with
  | lost => exact absurd rfl hended
  | returned | raisedAfterCommit =>
      cases write with
      | markDead reason now attempts => exact hpositive reason now attempts rfl
      | defer | reschedule | delete => trivial

/-- **The converse.**  Without the condition the event breaks the promise. -/
theorem SoloKept.leavesNothing {settings : DLQSettings} {event : WorkerEvent} (h : SoloKept maxAttempts table phase returned failures)
    (hstep : workerStep maxAttempts settings now table phase event = some moved)
    (hdead : ∀ id r, moved.table.row id = some r → r.status = .dead →
      (r.attempts : Int) = maxAttempts)
    (hheld : moved.phase.recovered = true → ∀ id r, moved.table.row id = some r →
      r.status = .inProgress → moved.phase.holding = some id) :
    event.LeavesNothing maxAttempts table phase := by
  -- A worker that is idle holds no row, so none may be left in progress.
  have hidle : moved.phase = .idle → ∀ id r, moved.table.row id = some r →
      r.status ≠ .inProgress := by
    intro hphase id r hr hinProgress
    have hholds := hheld (by rw [hphase]; rfl) id r hr hinProgress
    rw [hphase] at hholds
    cases hholds
  cases moves_of_workerStep hstep with
  | starts | polls | fetches | fetchRaises | batchEnds | takes | claims | claimMisses | invokes
  | defers | handlerReturns | handlerRaises => trivial
  | @recovers readAt =>
      intro id r hr hinProgress
      by_contra hfresh
      have hkept : (recoverStaleRows table readAt).row id = some r := by
        rw [recoverStaleRows, row_mapRows, hr, Option.map_some,
          if_neg fun hboth => hfresh hboth.2]
      exact hidle rfl id r hkept hinProgress
  | @recoveryRaises readAt ended hraised =>
      cases ended with
      | returned => exact absurd rfl hraised
      | lost | raisedAfterCommit => trivial
  | @claimRaises readAt row rest ended hraised =>
      cases ended with
      | returned => exact absurd rfl hraised
      | lost => trivial
      | raisedAfterCommit =>
          obtain ⟨r, hr, hinProgress, -⟩ := h.claim.claimed
          exact absurd hinProgress (hidle rfl row.id r hr)
  | @resolverRaises row =>
      obtain ⟨r, hr, hinProgress, -⟩ := h.claimed
      exact hidle rfl row.id r hr hinProgress
  | settles => exact h.leavesNothing_settle (by simp) hdead
  | @settlementRaises row write rest ended hraised =>
      cases ended with
      | returned => exact absurd rfl hraised
      | lost =>
          obtain ⟨⟨r, hr, hinProgress, -⟩, -⟩ := h.claimed
          exact hidle rfl row.id r hr hinProgress
      | raisedAfterCommit => exact h.leavesNothing_settle (by simp) hdead
  | crashes => cases phase <;> trivial

end Keeping

/-! ## Runs -/

section Running

variable {maxAttempts : Int} {settings : DLQSettings} {s t : Tracked Payload}

theorem soloStep_worker {event : WorkerEvent}
    (hstep : soloStep maxAttempts settings s (.worker event) = some t) :
    ∃ moved, workerStep maxAttempts settings s.state.now s.table s.phase event = some moved ∧
      t.table = moved.table ∧ t.phase = moved.phase ∧
      t.returned = returnedAfter s.returned s.phase event ∧
      t.failures = failuresAfter s.failures s.phase event := by
  obtain ⟨u, hu, rfl⟩ := Option.map_eq_some_iff.mp hstep
  obtain ⟨moved, hmoved, rfl⟩ := Option.map_eq_some_iff.mp hu
  exact ⟨moved, hmoved, rfl, phase_after_self s.state 0 moved, rfl, rfl⟩

theorem kept_step {act : SoloAction Payload} (h : s.Kept maxAttempts)
    (hstep : soloStep maxAttempts settings s act = some t)
    (hcond : LeavesNothingBehind maxAttempts s act t) : t.Kept maxAttempts := by
  cases act with
  | tick now =>
      simp only [soloStep, SoloAction.toAction, step, Option.map_eq_some_iff] at hstep
      obtain ⟨u, hu, rfl⟩ := hstep
      split at hu <;> cases hu
      exact h
  | enqueue readAt event handlerName errorType errorMessage ended =>
      simp only [soloStep, SoloAction.toAction, step, Option.map_eq_some_iff] at hstep
      obtain ⟨u, hu, rfl⟩ := hstep
      split at hu <;> cases hu
      rcases ended.leaves_cases s.state.table (s.state.table.insert
        (enqueuedRecord settings readAt event handlerName errorType errorMessage)) with hends | hends
      · rw [Tracked.Kept, Tracked.table]
        simp only [hends]
        exact h
      · rw [Tracked.Kept, Tracked.table]
        simp only [hends]
        exact SoloKept.enqueue h rfl rfl
  | worker event =>
      obtain ⟨moved, hmoved, htable, hphase, hreturned, hfailures⟩ := soloStep_worker hstep
      rw [Tracked.Kept, htable, hphase, hreturned, hfailures]
      exact SoloKept.worker h hmoved hcond

theorem delivered_step_iff {act : SoloAction Payload} (h : s.Kept maxAttempts)
    (hstep : soloStep maxAttempts settings s act = some t) :
    Delivered maxAttempts t ↔ LeavesNothingBehind maxAttempts s act t := by
  constructor
  · intro hdelivered
    cases act with
    | tick | enqueue => trivial
    | worker event =>
        obtain ⟨moved, hmoved, htable, hphase, -, -⟩ := soloStep_worker hstep
        refine SoloKept.leavesNothing h hmoved ?_ ?_
        · rw [← htable]
          exact fun id r hr hdead => (hdelivered.dead id r hr hdead).1
        · rw [← htable, ← hphase]
          exact hdelivered.held
  · intro hcond
    exact (kept_step h hstep hcond).delivered

/-- **At-least-once delivery, exactly.**  Along every run of one worker, with crashes
and restarts at any step, the promise is kept in every state exactly when no step
leaves a row behind. -/
theorem delivered_iff (maxAttempts : Int) (settings : DLQSettings) (now : Int)
    (schedule : List (SoloAction Payload)) :
    Runs.Always (soloStep maxAttempts settings) (fun _ _ t => Delivered maxAttempts t)
        (Tracked.initial now) schedule ↔
      Runs.Always (soloStep maxAttempts settings) (LeavesNothingBehind maxAttempts)
        (Tracked.initial now) schedule := by
  refine Runs.always_iff_of_guarded (I := Tracked.Kept maxAttempts) ?_ ?_
    (kept_initial maxAttempts now) schedule
  · intro s act t h hstep hcond
    exact kept_step h hstep hcond
  · intro s act t h hstep
    exact delivered_step_iff h hstep

end Running

/-- A row is enqueued; the worker starts and fetches it when it is due. -/
def fetchedRow : List (SoloAction String) :=
  [.enqueue 0 ⟨"topic", "{}", 0, "source"⟩ "handler" "ValueError" "failed" .returned,
    .worker .start, .worker (.recover .returned), .tick 2000, .worker .poll,
    .worker (.fetch false), .worker .next]

/-- It claims the row and crashes, and is started again a second later. -/
def quickRestart : List (SoloAction String) :=
  fetchedRow ++ [.worker (.claim .returned), .worker .crash, .tick 3000, .worker .start]

def resolverRaises : List (SoloAction String) :=
  fetchedRow ++ [.worker (.claim .returned)]

theorem delivered_counterexample :
    ¬Runs.Always (soloStep 5 ⟨2, 50⟩) (fun _ _ t => Delivered 5 t) (Tracked.initial 0)
        (quickRestart ++ [.worker (.recover .returned)]) ∧
      ¬Runs.Always (soloStep 5 ⟨2, 50⟩) (fun _ _ t => Delivered 5 t) (Tracked.initial 0)
        (resolverRaises ++ [.worker (.resolve .raises)]) := by
  refine ⟨fun h => ?_, fun h => ?_⟩
  · have hlast := h.at_prefix rfl rfl
    exact absurd (hlast.held rfl 1 _ rfl rfl) nofun
  · have hlast := h.at_prefix rfl rfl
    exact absurd (hlast.held rfl 1 _ rfl rfl) nofun

end SkyClaw.Core.Dlq
