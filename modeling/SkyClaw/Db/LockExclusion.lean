import SkyClaw.Db.LockManager

/-!
# Mutual exclusion of the lease table

The release statement identifies a lease by `(resource_id, agent_id)` only.
When every acquisition that releases late uses an `agent_id` no unexpired holder
of the resource shares, the lease of an unexpired holder stays in the table and
no second acquisition can be granted beside it (`lateRelease_and_exclusion_iff`).
Without that proviso, as with the constant `AGENT_ID` of the pipeline services,
a late release deletes the lease of the next holder (`lateRelease_counterexample`).
-/

namespace SkyClaw.Db.Locks

variable {Time : Type} [LinearOrder Time]

/-- Acquisition `a` believes that it holds an unexpired lease. -/
def State.Believes (s : State Time) (a : Nat) (info : LockInfo Time) : Prop :=
  s.Holds a info ∧ ¬info.IsExpired s.now

/-- The row of the resource carries this lease's agent, which is all the release
statement compares. -/
def State.InTable (s : State Time) (info : LockInfo Time) : Prop :=
  ∃ row, s.table.lookup info.resourceId = some row ∧ row.agentId = info.agentId

/-- At most one acquisition of a resource believes that it holds a lease that is
unexpired and present in the table. -/
def MutualExclusion (s : State Time) : Prop :=
  ∀ a b infoA infoB, s.Believes a infoA → s.Believes b infoB →
    infoA.resourceId = infoB.resourceId → s.InTable infoA → s.InTable infoB → a = b

/-- A release by an acquisition whose lease has expired leaves the unexpired
lease of every other acquisition in the table. -/
def LateReleaseHarmless (s : State Time) (act : Action Time) (t : State Time) : Prop :=
  ∀ a outcome info, act = .release a outcome → s.Holds a info → info.IsExpired s.now →
    ∀ b other, b ≠ a → s.Believes b other → s.table.lookup other.resourceId = some other →
      t.table.lookup other.resourceId = some other

/-- When the `DELETE` of a late release runs, no other acquisition of the
resource with the same `agent_id` is holding an unexpired lease. -/
def NoAgentClash (s : State Time) (act : Action Time) (_ : State Time) : Prop :=
  ∀ a outcome info, act = .release a outcome → outcome ≠ .executeError → s.Holds a info →
    info.IsExpired s.now →
    ∀ b other, b ≠ a → s.Believes b other → other.resourceId = info.resourceId →
      other.agentId ≠ info.agentId

/-- The lease of an unexpired holder is the row of its resource, and a resource
has at most one unexpired holder. -/
structure LeasesKept (s : State Time) : Prop where
  clock : ClockReadsPast s
  present : ∀ a info, s.Believes a info → s.table.lookup info.resourceId = some info
  unique : ∀ a b infoA infoB, s.Believes a infoA → s.Believes b infoB →
    infoA.resourceId = infoB.resourceId → a = b

theorem LeasesKept.mutualExclusion {s : State Time} (h : LeasesKept s) : MutualExclusion s :=
  fun a b infoA infoB hA hB hres _ _ => h.unique a b infoA infoB hA hB hres

theorem leasesKept_initial (now : Time) (table : LockTable Time) :
    LeasesKept (State.initial now table) where
  clock := by
    intro a req attempt now' h
    cases h
  present := by
    intro a info h
    cases h.1
  unique := by
    intro a b infoA infoB h
    cases h.1

variable {a : Nat} {info : LockInfo Time}

theorem State.Believes.earlier {s t : State Time}
    (hnow : s.now ≤ t.now) (hholds : s.Holds a info) (h : t.Believes a info) :
    s.Believes a info :=
  ⟨hholds, fun hexpired => h.2 (hexpired.trans hnow)⟩

theorem State.Believes.lt {s : State Time}
    (h : s.Believes a info) : s.now < info.expiresAt := not_le.mp h.2

/-- A believer of the next state was one before, unless it was just granted its
lease. -/
theorem leasesKept_of_old_holders {s t : State Time} (h : LeasesKept s)
    (hclock : ClockReadsPast t) (hnow : s.now ≤ t.now)
    (hholders : ∀ b info, t.Holds b info → s.Holds b info)
    (htable : ∀ b info, t.Believes b info → s.table.lookup info.resourceId = some info →
      t.table.lookup info.resourceId = some info) : LeasesKept t where
  clock := hclock
  present := by
    intro a info ha
    exact htable a info ha (h.present a info (ha.earlier hnow (hholders a info ha.1)))
  unique := by
    intro a b infoA infoB hA hB hres
    exact h.unique a b infoA infoB (hA.earlier hnow (hholders a infoA hA.1))
      (hB.earlier hnow (hholders b infoB hB.1)) hres

theorem LeasesKept.resourceId_ne {s : State Time} {row : LockInfo Time} (h : LeasesKept s)
    (hfree : ∀ held, s.table.lookup row.resourceId = some held →
      held.expiresAt < row.acquiredAt)
    (hread : row.acquiredAt ≤ s.now) {b : Nat}
    (hb : s.Believes b info) : info.resourceId ≠ row.resourceId := by
  intro hres
  have hlookup := h.present b info hb
  rw [hres] at hlookup
  have hlate : info.expiresAt < row.acquiredAt := hfree info hlookup
  exact absurd (hlate.trans_le hread) (not_lt.mpr hb.lt.le)

/-- So the lease it adds is the only unexpired one of the resource. -/
theorem leasesKept_grant {s : State Time} {row : LockInfo Time} (h : LeasesKept s)
    (hclock : ClockReadsPast { s.advance a (.holding row) with table := s.table.upsert row })
    (hfree : ∀ held, s.table.lookup row.resourceId = some held →
      held.expiresAt < row.acquiredAt)
    (hread : row.acquiredAt ≤ s.now) :
    LeasesKept { s.advance a (.holding row) with table := s.table.upsert row } := by
  have hother : ∀ b info, s.Believes b info → info.resourceId ≠ row.resourceId :=
    fun _ _ hb => h.resourceId_ne hfree hread hb
  have hold : ∀ b info, b ≠ a →
      State.Believes { s.advance a (.holding row) with table := s.table.upsert row } b info →
      s.Believes b info := by
    intro b info hba hb
    refine ⟨?_, hb.2⟩
    have hholds := hb.1
    rwa [State.Holds, show ({ s.advance a (.holding row) with
      table := s.table.upsert row } : State Time).acquisitions b = s.acquisitions b from
        advance_of_ne s _ hba] at hholds
  have hself : ∀ info,
      State.Believes { s.advance a (.holding row) with table := s.table.upsert row } a info →
      info = row := by
    intro info ha
    have hphase : Acquisition.holding row = .holding info := (advance_self s a _).symm.trans ha.1
    cases hphase
    rfl
  refine ⟨hclock, ?_, ?_⟩
  · intro b info hb
    by_cases hba : b = a
    · subst hba
      rw [hself info hb]
      exact KeyedTable.lookup_upsert_self _ _
    · have hb' := hold b info hba hb
      exact (s.table.lookup_upsert_of_ne (Ne.symm (hother b info hb'))).trans
        (h.present b info hb')
  · intro b c infoB infoC hB hC hres
    by_cases hba : b = a
    · by_cases hca : c = a
      · exact hba.trans hca.symm
      · subst hba
        rw [hself infoB hB] at hres
        exact absurd hres.symm (hother c infoC (hold c infoC hca hC))
    · by_cases hca : c = a
      · subst hca
        rw [hself infoC hC] at hres
        exact absurd hres (hother b infoB (hold b infoB hba hB))
      · exact h.unique b c infoB infoC (hold b infoB hba hB) (hold c infoC hca hC) hres

section Steps

variable [Add Time]

variable {m : LockManager Time} {t : State Time}

/-- Clock readings stay in the past: the clock only moves forward and a reading
is taken from it. -/
theorem clockReadsPast_step {s : State Time} {act : Action Time}
    (hclock : ClockReadsPast s) (hstep : step m s act = some t) : ClockReadsPast t := by
  have hmove : ∀ a phase, (∀ req attempt now, phase = .execute req attempt now → now ≤ s.now) →
      ClockReadsPast (s.advance a phase) := by
    intro a phase hphase b req attempt now hb
    by_cases hba : b = a
    · subst hba
      exact hphase req attempt now (by simpa using hb)
    · rw [advance_of_ne s phase hba] at hb
      exact hclock b req attempt now hb
  cases moves_of_step hstep with
  | ticks hlater => exact fun a req attempt now' h => (hclock a req attempt now' h).trans hlater
  | cleans => exact hclock
  | @calls a req =>
      exact hmove a _ fun req' attempt now h => absurd h (enterLoop_ne_execute m req req' _ _)
  | @reads a =>
      refine hmove a _ ?_
      rintro _ _ _ ⟨⟩
      exact le_rfl
  | @grants a | @wakes a | @releaseRaises a => exact hmove a _ (by simp)
  | @busy a _ req attempt =>
      exact hmove a _ fun req' attempt' now' h =>
        absurd h (afterBusy_ne_execute m s.now req req' attempt attempt' now')
  | @releases a _ _ _ _ _ hover => exact hmove a _ (by rcases hover with rfl | ⟨_, rfl⟩ <;> simp)

/-- **Step lemma.**  Every step that meets `NoAgentClash` keeps the leases. -/
theorem leasesKept_step {s : State Time} {act : Action Time}
    (h : LeasesKept s) (hstep : step m s act = some t) (hguard : NoAgentClash s act t) :
    LeasesKept t := by
  have hclock : ClockReadsPast t := clockReadsPast_step h.clock hstep
  cases step_effect h.clock hstep with
  | quiet hnow hholders htable _ =>
      refine leasesKept_of_old_holders h hclock hnow hholders fun b info hb hlookup => ?_
      exact htable _ info hlookup (hnow.trans_lt hb.lt)
  | grant hfree hread ht =>
      subst ht
      exact leasesKept_grant h hclock hfree hread
  | @release a outcome info phase hheld hran hphase ht =>
      subst ht
      refine leasesKept_of_old_holders h hclock le_rfl
        (fun _ _ hb => holds_of_advance hphase hb) fun b other hb hlookup => ?_
      have hb' : s.Believes b other := ⟨holds_of_advance hphase hb.1, hb.2⟩
      have hba : b ≠ a := by
        rintro rfl
        have hgone : phase = .holding other := (advance_self s b phase).symm.trans hb.1
        exact hphase other hgone
      refine lookup_releaseSql_of_ne hlookup ?_
      rintro ⟨hres, hagent⟩
      by_cases hexpired : info.IsExpired s.now
      · exact hguard a outcome info rfl hran hheld hexpired b other hba hb' hres hagent
      · exact hba (h.unique b a other info hb' ⟨hheld, hexpired⟩ hres)

/-- With the leases kept, a late release is harmless exactly when it meets
`NoAgentClash`. -/
theorem lateReleaseHarmless_iff_noAgentClash {s : State Time}
    {act : Action Time} (h : LeasesKept s) (hstep : step m s act = some t) :
    LateReleaseHarmless s act t ↔ NoAgentClash s act t := by
  cases step_effect h.clock hstep with
  | quiet _ _ htable hrelease =>
      constructor
      · intro _ a outcome info hact hran
        exact absurd (hrelease a outcome hact) hran
      · intro _ a outcome info _ _ _ b other _ hb hlookup
        exact htable _ other hlookup hb.lt
  | grant hfree hread ht =>
      constructor
      · intro _ a outcome info hact
        cases hact
      · intro _ a outcome info hact
        cases hact
  | @release a outcome info phase hheld hran hphase ht =>
      subst ht
      constructor
      · intro hharmless a' outcome' info' hact _ hheld' hexpired b other hba hb hres hagent
        obtain ⟨rfl, rfl⟩ : a = a' ∧ outcome = outcome' := by simpa using hact
        obtain rfl := holds_unique hheld hheld'
        have hlookup := h.present b other hb
        have hkept := hharmless a outcome info rfl hheld hexpired b other hba hb hlookup
        have hdeleted := lookup_releaseSql_of_match hlookup
        rw [hres, hagent] at hdeleted
        rw [hres] at hkept
        exact absurd (hdeleted.symm.trans hkept) (by simp)
      · intro hguard a' outcome' info' hact hheld' hexpired b other hba hb hlookup
        obtain ⟨rfl, rfl⟩ : a = a' ∧ outcome = outcome' := by simpa using hact
        obtain rfl := holds_unique hheld hheld'
        refine lookup_releaseSql_of_ne hlookup ?_
        rintro ⟨hres, hagent⟩
        exact hguard a outcome info rfl hran hheld hexpired b other hba hb hres hagent

/-- **Lock mutual exclusion, and exactly when it holds.**  Over every schedule
from any table and clock: late releases never delete another acquisition's
unexpired lease, and no state has two believers, if and only if no late release
meets an unexpired holder with its own `agent_id`. -/
theorem lateRelease_and_exclusion_iff (m : LockManager Time) (now : Time)
    (table : LockTable Time) (schedule : List (Action Time)) :
    (Runs.Always (step m) LateReleaseHarmless (State.initial now table) schedule ∧
        Runs.Throughout (step m) MutualExclusion (State.initial now table) schedule) ↔
      Runs.Always (step m) NoAgentClash (State.initial now table) schedule := by
  have hinit := leasesKept_initial now table
  have hiff : Runs.Always (step m) LateReleaseHarmless (State.initial now table) schedule ↔
      Runs.Always (step m) NoAgentClash (State.initial now table) schedule :=
    Runs.always_iff_of_guarded
      (fun _ _ _ h hstep hguard => leasesKept_step h hstep hguard)
      (fun _ _ _ h hstep => lateReleaseHarmless_iff_noAgentClash h hstep) hinit schedule
  constructor
  · rintro ⟨hharmless, _⟩
    exact hiff.mp hharmless
  · intro hguard
    refine ⟨hiff.mpr hguard, ?_⟩
    have hkept : Runs.Throughout (step m) LeasesKept (State.initial now table) schedule :=
      Runs.throughout_of_guarded
        (fun _ _ _ h hstep hguard => leasesKept_step h hstep hguard) hinit hguard
    exact ⟨hkept.1.mutualExclusion, hkept.2.mono fun _ _ _ _ h => h.mutualExclusion⟩

end Steps

/-- Three runs of one service on one output directory: the first outlives its
ten-minute lease, the second takes the lease over, the first exits. -/
def lateReleaseSchedule : List (Action Nat) :=
  let request : LockRequest Nat := ⟨"output", "vramr-service", none⟩
  [.call 0 request, .readClock 0, .execute 0 .ok, .tick 600001,
    .call 1 request, .readClock 1, .execute 1 .ok, .tick 600002]

/-- The third run starts once the late release has gone through. -/
def thirdRunSchedule : List (Action Nat) :=
  [.call 2 ⟨"output", "vramr-service", none⟩, .readClock 2, .execute 2 .ok]

/-- The late release deletes the lease of the second run, and the third run is
then granted the lock while the second one still holds it. -/
theorem lateRelease_counterexample :
    ¬Runs.Always (step defaultLockManager) LateReleaseHarmless
        (State.initial 0 (KeyedTable.empty _))
        (lateReleaseSchedule ++ .release 0 .ok :: thirdRunSchedule) ∧
      ¬Runs.Throughout (step defaultLockManager) MutualExclusion
        (State.initial 0 (KeyedTable.empty _))
        (lateReleaseSchedule ++ .release 0 .ok :: thirdRunSchedule) := by
  constructor
  · intro h
    have hlate := h.at_prefix rfl rfl
    have hkept := hlate 0 .ok ⟨"output", "vramr-service", 0, 600000⟩ rfl rfl (by decide)
      1 ⟨"output", "vramr-service", 600001, 1200001⟩ (by decide) ⟨rfl, by decide⟩ rfl
    exact absurd hkept (by decide)
  · intro h
    have hexclusive := h.exec rfl
    have hsame := hexclusive 1 2 ⟨"output", "vramr-service", 600001, 1200001⟩
      ⟨"output", "vramr-service", 600002, 1200002⟩ ⟨rfl, by decide⟩ ⟨rfl, by decide⟩ rfl
      ⟨_, rfl, rfl⟩ ⟨_, rfl, rfl⟩
    exact absurd hsame (by decide)

end SkyClaw.Db.Locks
