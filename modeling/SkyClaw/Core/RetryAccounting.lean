import SkyClaw.Core.DlqManager

/-!
# Retry accounting of the dead letter queue

A worker counts attempts on the copy it fetched, while its claim only looks at the
status.  `retriesAccounted` shows what the accounting needs: a claim that goes through
finds the attempts of the copy, a row that is due and that no other worker still
processes, and the outcome of a failed attempt is written.  Then the handler of a row
is called at most `max_attempts` times and never early, and the stored counter never
decreases.
-/

namespace SkyClaw.Core.Dlq

variable {Payload : Type}

/-! ## The promise and the condition -/

/-- What a step may do to the row `id`: a call of its handler is within `max_attempts`
and not before the stored `next_retry_at`, and the stored counter does not decrease. -/
structure RetriesAccounted (maxAttempts : Int) (id : Nat) (s : State Payload)
    (_act : Action Payload) (t : State Payload) : Prop where
  bounded : s.invocationsOf id < t.invocationsOf id → (t.invocationsOf id : Int) ≤ maxAttempts
  notEarly : s.invocationsOf id < t.invocationsOf id →
    ∀ r, s.table.row id = some r → r.nextRetryAt ≤ s.now
  monotone : ∀ r r', s.table.row id = some r → t.table.row id = some r' →
    r.attempts ≤ r'.attempts

/-- The handler of the row does not return. -/
def KeepsFailing (id : Nat) (s : State Payload) (act : Action Payload) (_t : State Payload) :
    Prop :=
  match act with
  | .worker w .handlerReturns => ∀ row rest, s.phase w = .handling row rest → row.id ≠ id
  | _ => True

/-- Whether the statement records an attempt. -/
def Settlement.records : Settlement → Bool
  | .reschedule _ _ _ _ _ | .markDead _ _ _ => true
  | .defer _ _ | .delete => false

/-- The condition on a step.  A claim of the row that goes through finds the attempts
of the copy, a row that is due, and no other worker that has claimed it and not settled
it; the statement that records a failed attempt takes effect; and a handler is only
called where `max_attempts` allows one call. -/
def ClaimsCurrent (maxAttempts : Int) (id : Nat) (s : State Payload) (act : Action Payload)
    (_t : State Payload) : Prop :=
  match act with
  | .worker w (.claim .returned) => ∀ readAt row rest, s.phase w = .claiming readAt row rest →
      row.id = id → ∀ r, s.table.row id = some r → r.status = .pending →
        r.attempts = row.attempts ∧ r.nextRetryAt ≤ s.now ∧
          ∀ w', (s.phase w').holding ≠ some id
  | .worker w (.resolve .registered) => ∀ row rest, s.phase w = .resolving row rest →
      row.id = id → 1 ≤ maxAttempts
  | .worker w (.settle ended) => ∀ row write rest, s.phase w = .settling row write rest →
      row.id = id → write.records = true → ended ≠ .lost
  | _ => True

/-! ## The accounting invariant -/

/-- `n` calls are covered by the stored counter, and another one is allowed. -/
def Recorded (maxAttempts : Int) (n attempts : Nat) : Prop :=
  n ≤ attempts ∧ (n = 0 ∨ (attempts : Int) < maxAttempts)

/-- The statement about to run records all `n` calls; `attempts` is that of the copy. -/
def Settlement.Accounts (maxAttempts : Int) (n attempts : Nat) : Settlement → Prop
  | .defer _ _ => Recorded maxAttempts n attempts
  | .reschedule newAttempts _ _ _ _ =>
      newAttempts = attempts + 1 ∧ Recorded maxAttempts n newAttempts
  | .markDead _ _ newAttempts => newAttempts = attempts + 1
  | .delete => False

/-- What a worker that holds the row knows: the stored counter is that of its copy. -/
def WorkerPhase.Accounts (maxAttempts : Int) (n : Nat) (now : Int)
    (stored : Option (DLQRecord Payload)) (id : Nat) : WorkerPhase Payload → Prop
  | .resolving row _ => row.id = id → Recorded maxAttempts n row.attempts ∧
      ∀ r, stored = some r → r.attempts = row.attempts ∧ r.nextRetryAt ≤ now
  | .handling row _ => row.id = id → n ≤ row.attempts + 1 ∧
      ∀ r, stored = some r → r.attempts = row.attempts
  | .settling row write _ => row.id = id → write.Accounts maxAttempts n row.attempts ∧
      ∀ r, stored = some r → r.attempts = row.attempts
  | .stopped | .recovering _ | .idle | .fetching _ | .batch _ | .claiming _ _ _ => True

/-- One worker at most holds the row, and knows its counter; if none does, the counter
covers all calls unless the row is dead. -/
structure Accounted (maxAttempts : Int) (id : Nat) (s : State Payload) : Prop where
  alone : ∀ w w', (s.phase w).holding = some id → (s.phase w').holding = some id → w = w'
  unborn : s.table.next ≤ id → s.invocationsOf id = 0 ∧ ∀ w, (s.phase w).holding ≠ some id
  free : (∀ w, (s.phase w).holding ≠ some id) → ∀ r, s.table.row id = some r →
    r.status ≠ .dead → Recorded maxAttempts (s.invocationsOf id) r.attempts
  held : ∀ w, (s.phase w).Accounts maxAttempts (s.invocationsOf id) s.now (s.table.row id) id

section Accounting

variable {maxAttempts : Int} {settings : Nat → DLQSettings} {id : Nat} {s t : State Payload}

theorem accounted_initial (maxAttempts now : Int) (table : DLQTable Payload) (id : Nat) :
    Accounted maxAttempts id (State.initial now table) where
  alone _ _ hw _ := nomatch hw
  unborn _ := ⟨rfl, nofun⟩
  free _ _ _ _ := ⟨Nat.zero_le _, .inl rfl⟩
  held _ := trivial

variable {n : Nat} {now : Int}

theorem accounts_of_not_holding {stored : Option (DLQRecord Payload)}
    {phase : WorkerPhase Payload} (h : phase.holding ≠ some id) :
    phase.Accounts maxAttempts n now stored id := by
  cases phase with
  | resolving | handling | settling => exact fun hid => absurd (congrArg some hid) h
  | stopped | recovering | idle | fetching | batch | claiming => trivial

variable {stored' : Option (DLQRecord Payload)}

/-- What a worker knows stays true while the retry data stay and time passes. -/
theorem WorkerPhase.Accounts.mono {now' : Int}
    {stored : Option (DLQRecord Payload)} {phase : WorkerPhase Payload}
    (h : phase.Accounts maxAttempts n now stored id) (hnow : now ≤ now')
    (hsame : SameRetry stored stored') : phase.Accounts maxAttempts n now' stored' id := by
  have hattempts : ∀ {row : DLQRow Payload}, (∀ r, stored = some r → r.attempts = row.attempts) →
      ∀ r, stored' = some r → r.attempts = row.attempts := by
    intro row hstored r hr
    obtain ⟨q, hq, hattempts, -, -⟩ := hsame.of_some hr
    exact hattempts.trans (hstored q hq)
  cases phase with
  | resolving row rest =>
      intro hid
      refine ⟨(h hid).1, fun r hr => ?_⟩
      obtain ⟨q, hq, hattempts, hretry, -⟩ := hsame.of_some hr
      obtain ⟨hcopy, hdue⟩ := (h hid).2 q hq
      exact ⟨hattempts.trans hcopy, by omega⟩
  | handling | settling => exact fun hid => ⟨(h hid).1, hattempts (h hid).2⟩
  | stopped | recovering | idle | fetching | batch | claiming => trivial

/-- The row after the statement of its holder: dead, or with all `n` calls recorded. -/
theorem settle_recorded {table : DLQTable Payload} {row : DLQRow Payload} {write : Settlement}
    {ended : StatementEnd} (haccounts : write.Accounts maxAttempts n row.attempts)
    (hcopy : ∀ r, table.row row.id = some r → r.attempts = row.attempts)
    (hwritten : write.records = true → ended ≠ .lost) {r : DLQRecord Payload}
    (hr : (ended.leaves table (write.run table row.id)).row row.id = some r) :
    row.attempts ≤ r.attempts ∧ (r.status ≠ .dead → Recorded maxAttempts n r.attempts) := by
  cases write with
  | defer nextRetry now =>
      have hattempts : r.attempts = row.attempts := by
        rcases ended.leaves_cases table (Settlement.run table row.id (.defer nextRetry now))
          with hends | hends
        · rw [hends] at hr
          exact hcopy r hr
        · rw [hends, Settlement.run, AutoTable.row_update_self, Option.map_eq_some_iff] at hr
          obtain ⟨q, hq, rfl⟩ := hr
          exact hcopy q hq
      rw [hattempts]
      exact ⟨Nat.le_refl _, fun _ => haccounts⟩
  | reschedule newAttempts nextRetry errorType errorMessage now =>
      obtain ⟨hnew, hrecorded⟩ := haccounts
      rw [StatementEnd.leaves_of_ne_lost _ _ (hwritten rfl), Settlement.run,
        AutoTable.row_update_self, Option.map_eq_some_iff] at hr
      obtain ⟨q, -, rfl⟩ := hr
      show row.attempts ≤ newAttempts ∧ (_ → Recorded maxAttempts n newAttempts)
      exact ⟨by omega, fun _ => hrecorded⟩
  | markDead reason now newAttempts =>
      have hnew : newAttempts = row.attempts + 1 := haccounts
      rw [StatementEnd.leaves_of_ne_lost _ _ (hwritten rfl), Settlement.run,
        AutoTable.row_update_self, Option.map_eq_some_iff] at hr
      obtain ⟨q, -, rfl⟩ := hr
      show row.attempts ≤ newAttempts ∧ _
      exact ⟨by omega, fun halive => absurd rfl halive⟩
  | delete => exact haccounts.elim

/-- What a step of a worker does to the row it holds, `n` being the calls so far and
`n'` those after it. -/
structure HolderKeeps (maxAttempts : Int) (id n n' : Nat) (now : Int) (table : DLQTable Payload)
    (moved : Moved Payload) : Prop where
  free : moved.phase.holding ≠ some id → ∀ r, moved.table.row id = some r → r.status ≠ .dead →
    Recorded maxAttempts n' r.attempts
  held : moved.phase.Accounts maxAttempts n' now (moved.table.row id) id
  called : n < n' → (n' : Int) ≤ maxAttempts ∧ ∀ r, table.row id = some r → r.nextRetryAt ≤ now
  monotone : ∀ r r', table.row id = some r → moved.table.row id = some r' →
    r.attempts ≤ r'.attempts

theorem holderKeeps_settle {table : DLQTable Payload} {row : DLQRow Payload}
    {write : Settlement} {rest : List (DLQRow Payload)} {ended : StatementEnd}
    {phase' : WorkerPhase Payload}
    (haccounts : (WorkerPhase.settling row write rest).Accounts maxAttempts n now
      (table.row row.id) row.id)
    (hwritten : write.records = true → ended ≠ .lost) (hfree : phase'.holding ≠ some row.id) :
    HolderKeeps maxAttempts row.id n n now table
      ⟨phase', ended.leaves table (write.run table row.id), []⟩ := by
  obtain ⟨hwrite, hstored⟩ := haccounts rfl
  have hsettled := @settle_recorded _ maxAttempts n table row write ended hwrite hstored hwritten
  exact {
    free := fun _ r hr => (hsettled hr).2
    held := accounts_of_not_holding hfree
    called := fun hless => absurd hless (Nat.lt_irrefl n)
    monotone := fun r r' hr hr' => by
      rw [hstored r hr]
      exact (hsettled hr').1 }

variable {moved : Moved Payload}

theorem holder_step {table : DLQTable Payload} {phase : WorkerPhase Payload}
    {event : WorkerEvent} {settings : DLQSettings}
    (h : workerStep maxAttempts settings now table phase event = some moved)
    (hholds : phase.holding = some id)
    (haccounts : phase.Accounts maxAttempts n now (table.row id) id)
    (hcrash : event ≠ .crash)
    (hfails : ∀ row rest, phase = .handling row rest → event = .handlerReturns → row.id ≠ id)
    (hallowed : ∀ row rest, phase = .resolving row rest → event = .resolve .registered →
      1 ≤ maxAttempts)
    (hwritten : ∀ row write rest ended, phase = .settling row write rest →
      event = .settle ended → write.records = true → ended ≠ .lost) :
    HolderKeeps maxAttempts id n ((moved.invoked.countP fun i => i.id = id) + n) now table moved := by
  have hsame : ∀ r r' : DLQRecord Payload, table.row id = some r → table.row id = some r' →
      r.attempts ≤ r'.attempts := by
    intro r r' hr hr'
    cases hr.symm.trans hr'
    exact Nat.le_refl _
  have hnone : (([] : List (Invocation Payload)).countP fun i => i.id = id) + n = n := by simp
  cases moves_of_workerStep h with
  | starts | recovers | recoveryRaises | polls | fetches | fetchRaises | batchEnds | takes
  | claims | claimMisses | claimRaises => cases hholds
  | @invokes row rest =>
      cases hholds
      obtain ⟨⟨hcovered, hmore⟩, hstored⟩ := haccounts rfl
      have hcount : ([(⟨row.id, row.handlerName, row.event, now⟩ : Invocation Payload)].countP
          fun i => i.id = row.id) + n = n + 1 := by
        simp [Nat.add_comm]
      rw [hcount]
      have hpositive := hallowed row rest rfl rfl
      exact {
        free := fun hnot => absurd rfl hnot
        held := fun _ => ⟨by omega, fun r hr => (hstored r hr).1⟩
        called := fun _ => ⟨by omega, fun r hr => (hstored r hr).2⟩
        monotone := hsame }
  | @defers row =>
      cases hholds
      obtain ⟨hrecorded, hstored⟩ := haccounts rfl
      rw [hnone]
      exact {
        free := fun hnot => absurd rfl hnot
        held := fun _ => ⟨hrecorded, fun r hr => (hstored r hr).1⟩
        called := fun hless => absurd hless (Nat.lt_irrefl n)
        monotone := hsame }
  | @resolverRaises row =>
      cases hholds
      obtain ⟨hrecorded, hstored⟩ := haccounts rfl
      rw [hnone]
      exact {
        free := fun _ r hr _ => by rw [(hstored r hr).1]; exact hrecorded
        held := trivial
        called := fun hless => absurd hless (Nat.lt_irrefl n)
        monotone := hsame }
  | @handlerReturns row rest => exact absurd (Option.some.inj hholds) (hfails row rest rfl rfl)
  | @handlerRaises row =>
      cases hholds
      obtain ⟨hcovered, hstored⟩ := haccounts rfl
      rw [hnone]
      refine {
        free := ?_
        held := fun _ => ⟨?_, hstored⟩
        called := fun hless => absurd hless (Nat.lt_irrefl n)
        monotone := hsame }
      · exact fun hnot => absurd rfl hnot
      simp only [failureSettlement]
      split
      · rfl
      · exact ⟨rfl, hcovered, .inr (by omega)⟩
  | @settles row write rest =>
      cases hholds
      rw [hnone]
      exact holderKeeps_settle haccounts (hwritten row write rest .returned rfl rfl) nofun
  | @settlementRaises row write rest ended =>
      cases hholds
      rw [hnone]
      exact holderKeeps_settle haccounts (hwritten row write rest ended rfl rfl) nofun
  | crashes => exact absurd rfl hcrash

@[simp] theorem invocationsOf_after (s : State Payload) (w : Nat) (moved : Moved Payload)
    (id : Nat) : (s.after w moved).invocationsOf id =
      (moved.invoked.countP fun i => i.id = id) + s.invocationsOf id := by
  simp [State.after, State.invocationsOf, List.countP_append]

theorem phase_after_self (s : State Payload) (w : Nat) (moved : Moved Payload) :
    (s.after w moved).phase w = moved.phase := by
  simp [State.after]

variable {w : Nat}

theorem phase_after_of_ne (s : State Payload) {w' : Nat} (moved : Moved Payload) (h : w' ≠ w) :
    (s.after w moved).phase w' = s.phase w' := by
  simp [State.after, h]

/-- The holder of a row took a step. -/
theorem Accounted.after_holder (h : Accounted maxAttempts id s)
    (hholds : (s.phase w).holding = some id) (hnext : moved.table.next = s.table.next)
    (hkeeps : HolderKeeps maxAttempts id (s.invocationsOf id)
      ((s.after w moved).invocationsOf id) s.now s.table moved) :
    Accounted maxAttempts id (s.after w moved) := by
  have hothers : ∀ w', w' ≠ w → ((s.after w moved).phase w').holding ≠ some id := by
    intro w' hne hother
    rw [phase_after_of_ne s moved hne] at hother
    exact hne (h.alone w' w hother hholds)
  refine ⟨fun w₁ w₂ h₁ h₂ => ?_, fun hunborn => ?_, fun hnone => ?_, fun w' => ?_⟩
  · have hw₁ : w₁ = w := by
      by_contra hne
      exact hothers w₁ hne h₁
    have hw₂ : w₂ = w := by
      by_contra hne
      exact hothers w₂ hne h₂
    exact hw₁.trans hw₂.symm
  · have hborn : s.table.next ≤ id := hnext ▸ hunborn
    exact absurd hholds ((h.unborn hborn).2 w)
  · have hw := hnone w
    rw [phase_after_self] at hw
    exact hkeeps.free hw
  · by_cases hw' : w' = w
    · subst hw'
      rw [phase_after_self]
      exact hkeeps.held
    · exact accounts_of_not_holding (hothers w' hw')

/-- A worker that does not hold the row took a step. -/
theorem Accounted.after_other (h : Accounted maxAttempts id s)
    (hnot : (s.phase w).holding ≠ some id) (hnext : moved.table.next = s.table.next)
    (hcount : (moved.invoked.countP fun i => i.id = id) = 0)
    (hsame : SameRetry (s.table.row id) (moved.table.row id))
    (hclaims : moved.phase.holding = some id → (∀ w', (s.phase w').holding ≠ some id) ∧
      id < s.table.next ∧
      moved.phase.Accounts maxAttempts (s.invocationsOf id) s.now (moved.table.row id) id) :
    Accounted maxAttempts id (s.after w moved) := by
  have hinvocations : (s.after w moved).invocationsOf id = s.invocationsOf id := by
    rw [invocationsOf_after, hcount, Nat.zero_add]
  by_cases hholds : moved.phase.holding = some id
  · -- It has claimed the row, and is its only holder.
    obtain ⟨hnone, hborn, haccounts⟩ := hclaims hholds
    have honly : ∀ w', ((s.after w moved).phase w').holding = some id → w' = w := by
      intro w' hw'
      by_contra hne
      rw [phase_after_of_ne s moved hne] at hw'
      exact hnone w' hw'
    refine ⟨fun w₁ w₂ h₁ h₂ => (honly w₁ h₁).trans (honly w₂ h₂).symm, fun hunborn => ?_,
      fun hfree => ?_, fun w' => ?_⟩
    · have hunborn' : s.table.next ≤ id := hnext ▸ hunborn
      omega
    · have hw := hfree w
      rw [phase_after_self] at hw
      exact absurd hholds hw
    · by_cases hw' : w' = w
      · subst hw'
        rw [phase_after_self, hinvocations]
        exact haccounts
      · exact accounts_of_not_holding fun hother => hw' (honly w' hother)
  · -- The holders are the same as before.
    have hsameHolder : ∀ w', ((s.after w moved).phase w').holding = some id ↔
        (s.phase w').holding = some id := by
      intro w'
      by_cases hw' : w' = w
      · subst hw'
        rw [phase_after_self]
        exact ⟨fun hother => absurd hother hholds, fun hother => absurd hother hnot⟩
      · rw [phase_after_of_ne s moved hw']
    refine ⟨fun w₁ w₂ h₁ h₂ => ?_, fun hunborn => ?_, fun hfree r hr halive => ?_, fun w' => ?_⟩
    · exact h.alone w₁ w₂ ((hsameHolder w₁).mp h₁) ((hsameHolder w₂).mp h₂)
    · obtain ⟨hzero, hnone⟩ := h.unborn (hnext ▸ hunborn)
      exact ⟨hinvocations.trans hzero, fun w' hw' => hnone w' ((hsameHolder w').mp hw')⟩
    · obtain ⟨q, hq, hattempts, -, hdead⟩ := hsame.of_some hr
      rw [hinvocations, hattempts]
      exact h.free (fun w' hw' => hfree w' ((hsameHolder w').mpr hw')) q hq
        fun hqdead => halive (hdead.mpr hqdead)
    · by_cases hw' : w' = w
      · subst hw'
        rw [phase_after_self]
        exact accounts_of_not_holding hholds
      · rw [phase_after_of_ne s moved hw', hinvocations]
        exact (h.held w').mono (Int.le_refl _) hsame

theorem RetriesAccounted.of_not_called {act : Action Payload}
    (hcount : t.invocationsOf id = s.invocationsOf id)
    (hsame : SameRetry (s.table.row id) (t.table.row id)) :
    RetriesAccounted maxAttempts id s act t := by
  refine ⟨fun hcalled => by omega, fun hcalled => by omega, fun r r' hr hr' => ?_⟩
  obtain ⟨q, hq, hattempts, -, -⟩ := hsame.of_some hr'
  cases hr.symm.trans hq
  exact Nat.le_of_eq hattempts.symm

theorem Accounted.claim {row : DLQRow Payload} {rest : List (DLQRow Payload)}
    (h : Accounted maxAttempts row.id s)
    (hclaimable : claimable s.table row.id = true)
    (hcurrent : ∀ r, s.table.row row.id = some r → r.status = .pending →
      r.attempts = row.attempts ∧ r.nextRetryAt ≤ s.now ∧
        ∀ w', (s.phase w').holding ≠ some row.id)
    (hsame : SameRetry (s.table.row row.id) stored') :
    (∀ w', (s.phase w').holding ≠ some row.id) ∧ row.id < s.table.next ∧
      (WorkerPhase.resolving row rest).Accounts maxAttempts (s.invocationsOf row.id) s.now
        stored' row.id := by
  obtain ⟨r, hr, hpending⟩ := claimable_iff.mp hclaimable
  obtain ⟨hcopy, hdue, hnone⟩ := hcurrent r hr hpending
  refine ⟨hnone, AutoTable.lt_next hr, fun _ => ⟨?_, fun r' hr' => ?_⟩⟩
  · rw [← hcopy]
    exact h.free hnone r hr (by rw [hpending]; nofun)
  · obtain ⟨q, hq, hattempts, hretry, -⟩ := hsame.of_some hr'
    cases hr.symm.trans hq
    exact ⟨hattempts.trans hcopy, by omega⟩

theorem Accounted.insert (h : Accounted maxAttempts id s) (r : DLQRecord Payload) :
    Accounted maxAttempts id { s with table := s.table.insert r } := by
  by_cases hid : id = s.table.next
  · obtain ⟨hzero, hnone⟩ := h.unborn (Nat.le_of_eq hid.symm)
    refine ⟨h.alone, fun _ => ⟨hzero, hnone⟩, fun _ q _ _ => ?_, fun w => ?_⟩
    · exact ⟨Nat.le_trans (Nat.le_of_eq hzero) (Nat.zero_le _), .inl hzero⟩
    · exact accounts_of_not_holding (hnone w)
  · have hrow : (s.table.insert r).row id = s.table.row id :=
      AutoTable.row_insert_of_ne s.table r hid
    refine ⟨h.alone, fun hunborn => ?_, fun hnone q hq => ?_, fun w => ?_⟩
    · have hnext : s.table.next + 1 ≤ id := hunborn
      exact h.unborn (by omega)
    · exact h.free hnone q (hrow.symm.trans hq)
    · show (s.phase w).Accounts maxAttempts (s.invocationsOf id) s.now ((s.table.insert r).row id) id
      rw [hrow]
      exact h.held w

/-- **Step lemma.**  A step of a run without crashes, in which the handler of the row
keeps failing, keeps the accounts and the promise if it meets the condition. -/
theorem accounted_step {act : Action Payload} (h : Accounted maxAttempts id s)
    (hstep : step maxAttempts settings s act = some t) (hcrash : ∀ w, act ≠ .worker w .crash)
    (hfails : KeepsFailing id s act t) (hcurrent : ClaimsCurrent maxAttempts id s act t) :
    Accounted maxAttempts id t ∧ RetriesAccounted maxAttempts id s act t := by
  cases act with
  | tick now =>
      simp only [step] at hstep
      split at hstep
      · rename_i hle
        cases hstep
        refine ⟨⟨h.alone, h.unborn, h.free, fun w => ?_⟩, ?_⟩
        · exact (h.held w).mono hle (SameRetry.refl _)
        · exact RetriesAccounted.of_not_called rfl (SameRetry.refl _)
      · cases hstep
  | enqueue w readAt event handlerName errorType errorMessage ended =>
      simp only [step] at hstep
      split at hstep
      · cases hstep
        rcases ended.leaves_cases s.table (s.table.insert
          (enqueuedRecord (settings w) readAt event handlerName errorType errorMessage))
          with hends | hends
        · rw [hends]
          exact ⟨h, RetriesAccounted.of_not_called rfl (SameRetry.refl _)⟩
        · rw [hends]
          refine ⟨h.insert _, fun hcalled => absurd hcalled (Nat.lt_irrefl _),
            fun hcalled => absurd hcalled (Nat.lt_irrefl _), fun r r' hr hr' => ?_⟩
          have hkept := AutoTable.row_insert_of_some s.table
            (enqueuedRecord (settings w) readAt event handlerName errorType errorMessage) hr
          cases hkept.symm.trans hr'
          exact Nat.le_refl _
      · cases hstep
  | worker w event =>
      obtain ⟨moved, hmoved, rfl⟩ := Option.map_eq_some_iff.mp hstep
      have hnext := workerStep_next hmoved
      by_cases hholds : (s.phase w).holding = some id
      · have hid : ∀ {row : DLQRow Payload}, (s.phase w).holding = some row.id → row.id = id :=
          fun hrow => Option.some.inj (hrow.symm.trans hholds)
        have hkeeps : HolderKeeps maxAttempts id (s.invocationsOf id)
            ((s.after w moved).invocationsOf id) s.now s.table moved := by
          rw [invocationsOf_after]
          refine holder_step hmoved hholds (h.held w) ?_ ?_ ?_ ?_
          · exact fun hevent => hcrash w (congrArg (Action.worker w) hevent)
          · rintro row rest hphase rfl
            exact hfails row rest hphase
          · rintro row rest hphase rfl
            exact hcurrent row rest hphase (hid (congrArg WorkerPhase.holding hphase))
          · rintro row write rest ended hphase rfl hrecords
            exact hcurrent row write rest hphase (hid (congrArg WorkerPhase.holding hphase)) hrecords
        refine ⟨h.after_holder hholds hnext hkeeps, ?_⟩
        exact ⟨fun hcalled => (hkeeps.called hcalled).1, fun hcalled => (hkeeps.called hcalled).2,
          hkeeps.monotone⟩
      · obtain ⟨hsame, hcount, hclaims⟩ := workerStep_of_not_holding hmoved hholds
        refine ⟨h.after_other hholds hnext hcount hsame fun hclaimed => ?_, ?_⟩
        · obtain ⟨readAt, row, rest, hphase, rfl, rfl, hclaimable, hresolving⟩ := hclaims hclaimed
          rw [hresolving]
          exact h.claim hclaimable (hcurrent readAt row rest hphase rfl) hsame
        · refine RetriesAccounted.of_not_called ?_ hsame
          rw [invocationsOf_after, hcount, Nat.zero_add]

end Accounting

/-! ## Runs -/

/-- **Retry accounting.**  In every run without crashes of any number of workers, on
any table, in which the handler of a row keeps failing and all steps meet the
condition, its handler is called at most `max_attempts` times and never before the
stored `next_retry_at`, and the stored counter never decreases. -/
theorem retriesAccounted (maxAttempts : Int) (settings : Nat → DLQSettings) (now : Int)
    (table : DLQTable Payload) (schedule : List (Action Payload)) (id : Nat)
    (hcrash : ∀ w, Action.worker w .crash ∉ schedule)
    (hfails : Runs.Always (step maxAttempts settings) (KeepsFailing id)
      (State.initial now table) schedule)
    (hcurrent : Runs.Always (step maxAttempts settings) (ClaimsCurrent maxAttempts id)
      (State.initial now table) schedule) :
    Runs.Always (step maxAttempts settings) (RetriesAccounted maxAttempts id)
      (State.initial now table) schedule := by
  have hnoCrash : Runs.Always (step maxAttempts settings)
      (fun _ act _ => ∀ w, act ≠ .worker w .crash) (State.initial now table) schedule := by
    refine Runs.always_of_forall_mem ?_ _
    rintro act hact s t - w rfl
    exact hcrash w hact
  have hguard := Runs.always_and.mpr ⟨hfails, Runs.always_and.mpr ⟨hcurrent, hnoCrash⟩⟩
  have hkept := Runs.throughout_of_guarded (I := Accounted maxAttempts id)
    (fun _ _ _ h hstep hc => (accounted_step h hstep hc.2.2 hc.1 hc.2.1).1)
    (accounted_initial maxAttempts now table id) hguard
  exact Runs.Always.of_throughout
    (fun _ _ _ h hstep hc => (accounted_step h hstep hc.2.2 hc.1 hc.2.1).2) hkept hguard

/-- One row, due at 2000. -/
def oneRow : DLQTable String :=
  AutoTable.empty.insert (enqueuedRecord ⟨2, 50⟩ 0 ⟨"topic", "{}", 0, "source"⟩ "handler"
    "ValueError" "failed")

/-- Worker `w` fetches its batch and goes to the first row. -/
def fetchRow (w : Nat) : List (Action String) :=
  [.worker w .poll, .worker w (.fetch false), .worker w .next]

/-- It claims the row, and the handler fails. -/
def failHandler (w : Nat) : List (Action String) :=
  [.worker w (.claim .returned), .worker w (.resolve .registered),
    .worker w (.handlerRaises "ValueError" "failed")]

def failRow (w : Nat) : List (Action String) := failHandler w ++ [.worker w (.settle .returned)]

def startWorker (w : Nat) : List (Action String) :=
  [.worker w .start, .worker w (.recover .returned)]

/-- One worker, one failed attempt. -/
def oneFailure : List (Action String) :=
  startWorker 0 ++ [.tick 2000] ++ fetchRow 0 ++ failRow 0

/-- Its claim finds the row as it was fetched. -/
theorem retriesAccounted_oneFailure :
    Runs.Always (step 3 fun _ => ⟨2, 50⟩) (RetriesAccounted 3 1) (State.initial 0 oneRow)
      oneFailure := by
  refine retriesAccounted 3 _ 0 oneRow oneFailure 1 (fun w hmem => ?_) ?_ ?_
  · simp [oneFailure, startWorker, fetchRow, failRow, failHandler] at hmem
  · refine .cons rfl trivial (.cons rfl trivial (.cons rfl trivial (.cons rfl trivial
      (.cons rfl trivial (.cons rfl trivial (.cons rfl trivial (.cons rfl trivial
        (.cons rfl trivial (.cons rfl trivial trivial)))))))))
  · refine .cons rfl trivial (.cons rfl trivial (.cons rfl trivial (.cons rfl trivial
      (.cons rfl trivial (.cons rfl trivial (.cons rfl ?_ (.cons rfl (fun _ _ _ _ => by decide)
        (.cons rfl trivial (.cons rfl (fun _ _ _ _ _ _ => by nofun) trivial)))))))))
    intro readAt row rest hphase _ r hr _
    cases hphase
    cases hr
    refine ⟨rfl, by decide, fun w' => ?_⟩
    cases w' with
    | zero => nofun
    | succ n => nofun
/-- Both workers fetch the row; worker 1 fails twice, the second time when it is due
again, before worker 0 comes to its copy. -/
def staleCopy : List (Action String) :=
  startWorker 0 ++ startWorker 1 ++ [.tick 2000] ++ fetchRow 0 ++ fetchRow 1 ++ failRow 1 ++
    [.worker 1 .next, .tick 4000] ++ fetchRow 1 ++ failRow 1

/-- Worker 0 is in the handler for more than a minute when worker 1 starts. -/
def recoveredWhileHandled : List (Action String) :=
  startWorker 0 ++ [.tick 2000] ++ fetchRow 0 ++
    [.worker 0 (.claim .returned), .worker 0 (.resolve .registered), .tick 62001] ++
    startWorker 1 ++ fetchRow 1 ++ [.worker 1 (.claim .returned)]

/-- Worker 0 calls the handler before the row is due again, and sets the counter back
from two to one; a handler that takes more than a minute is called twice although
`max_attempts` is one. -/
theorem retriesAccounted_counterexample :
    ¬Runs.Always (step 3 fun _ => ⟨2, 50⟩) (RetriesAccounted 3 1) (State.initial 0 oneRow)
        (staleCopy ++ [.worker 0 (.claim .returned)] ++ [.worker 0 (.resolve .registered)]) ∧
      ¬Runs.Always (step 3 fun _ => ⟨2, 50⟩) (RetriesAccounted 3 1) (State.initial 0 oneRow)
        (staleCopy ++ failHandler 0 ++ [.worker 0 (.settle .returned)]) ∧
      ¬Runs.Always (step 1 fun _ => ⟨2, 50⟩) (RetriesAccounted 1 1) (State.initial 0 oneRow)
        (recoveredWhileHandled ++ [.worker 1 (.resolve .registered)]) := by
  refine ⟨fun h => ?_, fun h => ?_, fun h => ?_⟩
  · have hlast := h.at_prefix rfl rfl
    exact absurd (hlast.notEarly (by decide) _ rfl) (by decide)
  · have hlast := h.at_prefix rfl rfl
    exact absurd (hlast.monotone _ _ rfl rfl) (by decide)
  · have hlast := h.at_prefix rfl rfl
    exact absurd (hlast.bounded (by decide)) (by decide)

end SkyClaw.Core.Dlq
