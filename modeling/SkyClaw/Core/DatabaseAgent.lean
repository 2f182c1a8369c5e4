import SkyClaw.Lib.KeyedTable
import SkyClaw.Lib.Runs
import SkyClaw.Lib.SharedTransaction

/-!
# `DatabaseAgent`: the writers on one connection

`add_mod`, `log_activity`, `set_memory` and `update_circuit_breaker` share one connection.  Each
awaits `execute`, then `commit`, and `rollback` if one of them raised an `sqlite3.Error`; between
these awaits the other calls run.  `add_mod` reads `last_insert_rowid()` in a statement of its own
when it has committed.  Foreign keys are on, and nothing writes the table of conflicts.

`addMod_upsert_iff` says in which runs `add_mod` is an upsert.
-/

namespace SkyClaw.Core.DatabaseAgent

open Function

/-! ## The tables -/

/-- The columns of a mod that `add_mod` sets beside its name; `F` are the floats. -/
structure ModInfo (F : Type) where
  version : Option String
  sizeMb : F
  source : Option String
  status : String

/-- A row of `mods`. -/
structure Mod (F : Type) where
  id : Nat
  name : String
  info : ModInfo F

/-- A row of `conflicts`, as far as it refers to mods. -/
structure Conflict where
  modId1 : Option Nat
  modId2 : Option Nat
deriving DecidableEq

/-- The foreign keys of a conflict. -/
def Conflict.mods (conflict : Conflict) : List Nat :=
  conflict.modId1.toList ++ conflict.modId2.toList

/-- A row of `activity_log`. -/
structure Activity where
  eventType : String
  message : String
  details : Option String
deriving DecidableEq

/-- A row of `agent_memory`. -/
structure Memory (F : Type) where
  key : String
  value : String
  updatedAt : F

/-- A row of `scraper_state`, as far as the breaker writes it. -/
structure Breaker (F : Type) where
  domain : String
  failures : Int
  lockedUntil : F

/-- The tables, each with the number that its next row gets. -/
structure Database (F : Type) where
  mods : KeyedTable (Mod.name : Mod F → String)
  nextMod : Nat
  conflicts : List Conflict
  activity : List Activity
  nextActivity : Nat
  memory : KeyedTable (Memory.key : Memory F → String)
  nextMemory : Nat
  scraper : KeyedTable (Breaker.domain : Breaker F → String)
  nextScraper : Nat
  fresh : ∀ m ∈ mods.rows, m.id < nextMod
  unique : ∀ m ∈ mods.rows, ∀ m' ∈ mods.rows, m.id = m'.id → m = m'
  refs : ∀ c ∈ conflicts, ∀ id ∈ c.mods, ∃ m ∈ mods.rows, m.id = id

/-- A writing statement. -/
inductive Write (F : Type)
  | addMod (name : String) (info : ModInfo F)
  | logActivity (row : Activity)
  | setMemory (row : Memory F)
  | updateCircuitBreaker (row : Breaker F)

variable {F : Type}

def Database.Referenced (db : Database F) (id : Nat) : Prop := ∃ c ∈ db.conflicts, id ∈ c.mods

instance (db : Database F) (id : Nat) : Decidable (db.Referenced id) :=
  inferInstanceAs (Decidable (∃ c ∈ db.conflicts, _))

theorem mem_upsert_iff {mods : KeyedTable (Mod.name : Mod F → String)} {m row : Mod F} :
    m ∈ (mods.upsert row).rows ↔ (m ∈ mods.rows ∧ m.name ≠ row.name) ∨ m = row := by
  simp [KeyedTable.upsert]

/-- `INSERT OR REPLACE INTO mods`: the row in the way is deleted.  The caller sees to it that no
conflict refers to it. -/
def Database.replaceMod (db : Database F) (name : String) (info : ModInfo F)
    (h : ∀ m ∈ db.mods.rows, m.name = name → ¬ db.Referenced m.id) : Database F :=
  { db with
    mods := db.mods.upsert ⟨db.nextMod, name, info⟩
    nextMod := db.nextMod + 1
    fresh := by
      intro m hm
      rcases mem_upsert_iff.mp hm with ⟨hold, -⟩ | rfl
      · exact Nat.lt_succ_of_lt (db.fresh m hold)
      · exact Nat.lt_succ_self _
    unique := by
      intro m hm m' hm' heq
      rcases mem_upsert_iff.mp hm with ⟨hold, -⟩ | rfl
      · rcases mem_upsert_iff.mp hm' with ⟨hold', -⟩ | rfl
        · exact db.unique m hold m' hold' heq
        · exact absurd heq (Nat.ne_of_lt (db.fresh m hold))
      · rcases mem_upsert_iff.mp hm' with ⟨hold', -⟩ | rfl
        · exact absurd heq.symm (Nat.ne_of_lt (db.fresh m' hold'))
        · rfl
    refs := by
      intro c hc id hid
      obtain ⟨m, hm, hmid⟩ := db.refs c hc id hid
      refine ⟨m, mem_upsert_iff.mpr (.inl ⟨hm, fun hname => ?_⟩), hmid⟩
      exact h m hm hname ⟨c, hc, hmid ▸ hid⟩ }

/-- A statement on the tables: the tables after it and the row it inserted, if it inserted one.
`none` is the `IntegrityError` of a foreign key. -/
def Database.execute (db : Database F) : Write F → Option (Database F × Option Nat)
  | .addMod name info =>
      if h : ∀ m ∈ db.mods.rows, m.name = name → ¬ db.Referenced m.id then
        some (db.replaceMod name info h, some db.nextMod)
      else none
  | .logActivity row =>
      some ({ db with activity := db.activity ++ [row], nextActivity := db.nextActivity + 1 },
        some db.nextActivity)
  -- `ON CONFLICT DO UPDATE` inserts no row where there is one
  | .setMemory row =>
      match db.memory.lookup row.key with
      | some _ => some ({ db with memory := db.memory.setItem row }, none)
      | none =>
          some ({ db with memory := db.memory.setItem row, nextMemory := db.nextMemory + 1 },
            some db.nextMemory)
  | .updateCircuitBreaker row =>
      match db.scraper.lookup row.domain with
      | some _ => some ({ db with scraper := db.scraper.setItem row }, none)
      | none =>
          some ({ db with scraper := db.scraper.setItem row, nextScraper := db.nextScraper + 1 },
            some db.nextScraper)

/-- What a statement of the log did. -/
def Database.apply (db : Database F) (write : Write F) : Database F :=
  (db.execute write).elim db Prod.fst

/-! ## The calls -/

/-- Where a call is; with the number of the row that its statement inserted. -/
inductive Phase
  | idle
  | executed (rowid : Option Nat)
  | failed
  | committed (rowid : Option Nat)
  | returned (value : Option Nat)
  | raised
deriving DecidableEq

/-- What happens to a call next.  `interrupt` is a cancellation, or an error that nothing catches. -/
inductive Action
  | execute (i : Nat)
  | executeError (i : Nat)
  | commit (i : Nat)
  | commitError (i : Nat)
  | rollback (i : Nat)
  | select (i : Nat)
  | interrupt (i : Nat)
deriving DecidableEq

/-- The connection and the calls. -/
structure State (F : Type) where
  conn : SharedTransaction (Write F)
  lastRowid : Nat
  phase : Nat → Phase

/-- Nothing is open. -/
def State.start (lastRowid : Nat) : State F := ⟨.empty, lastRowid, fun _ => .idle⟩

def State.to (s : State F) (i : Nat) (phase : Phase) : State F :=
  { s with phase := update s.phase i phase }

section

variable (base : Database F)

/-- The tables as the connection reads them, and as they are committed. -/
def State.tables (s : State F) : Database F :=
  s.conn.working Database.apply base

def State.committed (base : Database F) (s : State F) : Database F :=
  s.conn.committed Database.apply base

def Write.isAddMod : Write F → Bool
  | .addMod _ _ => true
  | _ => false

/-- One step of one call; `calls` are the statements of the calls. -/
def step (calls : Nat → Write F) (s : State F) : Action → Option (State F)
  | .execute i =>
      if s.phase i = .idle then
        match (s.tables base).execute (calls i) with
        | none => some (s.to i .failed)
        | some (_, rowid) =>
            some { (s.to i (.executed rowid)) with
              conn := s.conn.write i [calls i]
              lastRowid := rowid.getD s.lastRowid }
      else none
  | .executeError i => if s.phase i = .idle then some (s.to i .failed) else none
  | .commit i =>
      match s.phase i with
      | .executed rowid =>
          some { (s.to i (if (calls i).isAddMod then .committed rowid else .returned none)) with
            conn := s.conn.commit }
      | _ => none
  | .commitError i =>
      match s.phase i with
      | .executed _ => some (s.to i .failed)
      | _ => none
  | .rollback i =>
      if s.phase i = .failed then some { (s.to i .raised) with conn := s.conn.rollback } else none
  | .select i =>
      match s.phase i with
      | .committed _ => some (s.to i (.returned (some s.lastRowid)))
      | _ => none
  | .interrupt i =>
      match s.phase i with
      | .executed _ | .failed | .committed _ => some (s.to i .raised)
      | _ => none

/-- The writes of a call that are in the database, committed or not. -/
def State.writesOf (s : State F) (i : Nat) : List (Write F) :=
  s.conn.durableOf i ++ s.conn.pendingOf i

/-- `add_mod` returns the id of the row of its mod. -/
def ReturnsId (calls : Nat → Write F) (s t : State F) : Prop :=
  ∀ i name info value, calls i = .addMod name info → s.phase i ≠ t.phase i →
    t.phase i = .returned (some value) →
      ((t.tables base).mods.lookup name).map Mod.id = some value

/-- A mod keeps its id. -/
def KeepsIds (s t : State F) : Prop :=
  ∀ m ∈ (s.tables base).mods.rows, ∀ m' ∈ (t.tables base).mods.rows, m'.name = m.name → m'.id = m.id

/-- The conflicts are the same, and the ids in them stand for the same mods. -/
def KeepsConflicts (s t : State F) : Prop :=
  (t.tables base).conflicts = (s.tables base).conflicts ∧
    ∀ c ∈ (s.tables base).conflicts, ∀ id ∈ c.mods,
      ∀ m ∈ (s.tables base).mods.rows, ∀ m' ∈ (t.tables base).mods.rows, m.id = id → m'.id = id →
        m'.name = m.name

/-- A call that raises leaves no write, and the writes of the other calls as they were. -/
def RaisesClean (s t : State F) : Prop :=
  ∀ i, s.phase i ≠ t.phase i → t.phase i = .raised →
    t.writesOf i = [] ∧ ∀ other, other ≠ i → t.writesOf other = s.writesOf other

/-- `add_mod` is an upsert, as far as one step shows. -/
def Upsert (calls : Nat → Write F) (s : State F) (_ : Action) (t : State F) :
    Prop :=
  ReturnsId base calls s t ∧ KeepsIds base s t ∧ KeepsConflicts base s t ∧ RaisesClean s t

/-- A mod that is added is not there, or the statement fails since a conflict refers to it; at the
`SELECT` the last row inserted has the number of the call's own one; a `rollback` finds no
write of another call, and the call's own one not committed; what interrupts a call finds no write of it. -/
def Undisturbed (calls : Nat → Write F) (s : State F) (act : Action) (_ : State F) : Prop :=
  match act with
  | .execute i => ∀ name info, calls i = .addMod name info →
      ∀ m ∈ (s.tables base).mods.rows, m.name = name → (s.tables base).Referenced m.id
  | .select i => (calls i).isAddMod = true → ∀ rowid, s.phase i = .committed rowid →
      rowid = some s.lastRowid
  | .rollback i => s.conn.durableOf i = [] ∧ ∀ other, other ≠ i → s.conn.pendingOf other = []
  | .interrupt i => s.writesOf i = []
  | _ => True

end

/-! ## Statements -/

@[simp] theorem replaceMod_conflicts (db : Database F) (name : String) (info : ModInfo F)
    (h : ∀ m ∈ db.mods.rows, m.name = name → ¬ db.Referenced m.id) :
    (db.replaceMod name info h).conflicts = db.conflicts := rfl

variable {db db' : Database F} {rowid : Option Nat}

theorem execute_of_ne {write : Write F}
    (hwrite : write.isAddMod = false) (h : db.execute write = some (db', rowid)) :
    db'.mods = db.mods ∧ db'.conflicts = db.conflicts := by
  cases write with
  | addMod name info => cases hwrite
  | logActivity row =>
      cases h
      exact ⟨rfl, rfl⟩
  | setMemory | updateCircuitBreaker =>
      simp only [Database.execute] at h
      split at h <;> cases h <;> exact ⟨rfl, rfl⟩

/-- Only the insert of a mod meets a foreign key. -/
theorem execute_eq_none_iff {write : Write F} :
    db.execute write = none ↔ ∃ name info, write = .addMod name info ∧
      ∃ m ∈ db.mods.rows, m.name = name ∧ db.Referenced m.id := by
  cases write with
  | addMod name info =>
      simp only [Database.execute]
      split
      · rename_i hfree
        simp only [reduceCtorEq, false_iff]
        rintro ⟨_, _, heq, m, hm, hname, href⟩
        cases heq
        exact hfree m hm hname href
      · rename_i hbound
        simp only [true_iff]
        push Not at hbound
        obtain ⟨m, hm, hname, href⟩ := hbound
        exact ⟨name, info, rfl, m, hm, hname, href⟩
  | logActivity row => simp [Database.execute]
  | setMemory | updateCircuitBreaker =>
      simp only [Database.execute]
      split <;> simp

theorem execute_addMod {name : String} {info : ModInfo F} (h : db.execute (.addMod name info) = some (db', rowid)) :
    rowid = some db.nextMod ∧ db'.conflicts = db.conflicts ∧
      (∀ m ∈ db.mods.rows, m.name = name → ¬ db.Referenced m.id) ∧
      ∀ m, m ∈ db'.mods.rows ↔ (m ∈ db.mods.rows ∧ m.name ≠ name) ∨ m = ⟨db.nextMod, name, info⟩ := by
  simp only [Database.execute] at h
  split at h
  · rename_i hfree
    cases h
    exact ⟨rfl, rfl, hfree, fun m => mem_upsert_iff⟩
  · cases h

/-- No statement changes what a conflict refers to. -/
theorem execute_keeps_refs {write : Write F}
    (h : db.execute write = some (db', rowid)) :
    db'.conflicts = db.conflicts ∧ ∀ c ∈ db.conflicts, ∀ id ∈ c.mods,
      ∀ m ∈ db.mods.rows, ∀ m' ∈ db'.mods.rows, m.id = id → m'.id = id → m'.name = m.name := by
  cases hadd : write.isAddMod with
  | false =>
      obtain ⟨hmods, hconflicts⟩ := execute_of_ne hadd h
      refine ⟨hconflicts, ?_⟩
      rw [hmods]
      intro c _ id _ m hm m' hm' hmid hmid'
      rw [db.unique m' hm' m hm (hmid'.trans hmid.symm)]
  | true =>
      cases write with
      | addMod name info =>
          obtain ⟨-, hconflicts, -, hrows⟩ := execute_addMod h
          refine ⟨hconflicts, ?_⟩
          intro c _ id _ m hm m' hm' hmid hmid'
          rcases (hrows m').mp hm' with ⟨hold, -⟩ | rfl
          · rw [db.unique m' hold m hm (hmid'.trans hmid.symm)]
          · -- the new row has a number that no row had
            exact absurd (hmid.trans hmid'.symm) (Nat.ne_of_lt (db.fresh m hm))
      | logActivity | setMemory | updateCircuitBreaker => cases hadd

theorem eq_of_name {m m' : Mod F} (hm : m ∈ db.mods.rows)
    (hm' : m' ∈ db.mods.rows) (h : m.name = m'.name) : m = m' :=
  List.inj_on_of_nodup_map db.mods.nodup hm hm' h

/-! ## Steps -/

section Steps

variable {base : Database F} {calls : Nat → Write F} {s t : State F} {i : Nat}

variable {p : Phase}

theorem eq_of_phase_ne (hphase : t.phase = update s.phase i p) {j : Nat}
    (hne : s.phase j ≠ t.phase j) : j = i := by
  by_contra hji
  exact hne (by rw [hphase, update_of_ne hji])

theorem returnsId_of_ne (hphase : t.phase = update s.phase i p)
    (hp : ∀ value, p ≠ .returned (some value)) : ReturnsId base calls s t := by
  intro j name info value _ hne hreturned
  obtain rfl := eq_of_phase_ne hphase hne
  rw [hphase, update_self] at hreturned
  exact absurd hreturned (hp value)

theorem raisesClean_of_ne (hphase : t.phase = update s.phase i p)
    (hp : p ≠ .raised) : RaisesClean s t := by
  intro j hne hraised
  obtain rfl := eq_of_phase_ne hphase hne
  rw [hphase, update_self] at hraised
  exact absurd hraised hp

theorem keeps_of_subset
    (hrows : ∀ m ∈ (t.tables base).mods.rows, m ∈ (s.tables base).mods.rows)
    (hconflicts : (t.tables base).conflicts = (s.tables base).conflicts) :
    KeepsIds base s t ∧ KeepsConflicts base s t := by
  refine ⟨?_, hconflicts, ?_⟩
  · intro m hm m' hm' hname
    rw [eq_of_name (hrows m' hm') hm hname]
  · intro c _ id _ m hm m' hm' hmid hmid'
    rw [(s.tables base).unique m' (hrows m' hm') m hm (hmid'.trans hmid.symm)]

theorem upsert_of_quiet (act : Action)
    (hphase : t.phase = update s.phase i p) (htables : t.tables base = s.tables base)
    (hvalue : ∀ value, p ≠ .returned (some value)) (hraised : p ≠ .raised) :
    Upsert base calls s act t := by
  have hkeeps : KeepsIds base s t ∧ KeepsConflicts base s t :=
    keeps_of_subset (by rw [htables]; exact fun m hm => hm) (by rw [htables])
  exact ⟨returnsId_of_ne hphase hvalue, hkeeps.1, hkeeps.2, raisesClean_of_ne hphase hraised⟩

/-- What an insert does. -/
theorem step_execute (h : step base calls s (.execute i) = some t) :
    ((s.tables base).execute (calls i) = none ∧ t = s.to i .failed) ∨
      ∃ db rowid, (s.tables base).execute (calls i) = some (db, rowid) ∧
        t.conn = s.conn.write i [calls i] ∧ t.tables base = db ∧
        t.committed base = s.committed base ∧
        t.phase = update s.phase i (.executed rowid) := by
  simp only [step] at h
  split at h
  · cases hexecute : (s.tables base).execute (calls i) with
    | none =>
        rw [hexecute] at h
        exact .inl ⟨rfl, (Option.some.inj h).symm⟩
    | some result =>
        obtain ⟨db, rowid⟩ := result
        rw [hexecute] at h
        cases h
        refine .inr ⟨db, rowid, rfl, rfl, ?_, rfl, rfl⟩
        have hwritten := s.conn.working_write Database.apply base i [calls i]
        simp only [List.foldl_cons, List.foldl_nil] at hwritten
        unfold State.tables at hexecute ⊢
        rw [hwritten, Database.apply, hexecute]
        rfl
  · cases h

/-- **An insert keeps the ids** unless it replaces a row. -/
theorem keepsIds_execute_iff {db : Database F} {rowid : Option Nat}
    (hexecute : (s.tables base).execute (calls i) = some (db, rowid))
    (htables : t.tables base = db) :
    KeepsIds base s t ↔ Undisturbed base calls s (.execute i) t := by
  unfold KeepsIds Undisturbed
  rw [htables]
  cases hadd : (calls i).isAddMod with
  | false =>
      have hmods := (execute_of_ne hadd hexecute).1
      refine iff_of_true ?_ ?_
      · rw [hmods]
        intro m hm m' hm' hname
        rw [eq_of_name hm' hm hname]
      · intro name info heq
        rw [heq] at hadd
        cases hadd
  | true =>
      cases hcall : calls i with
      | addMod name info =>
          rw [hcall] at hexecute
          obtain ⟨-, -, hfree, hrows⟩ := execute_addMod hexecute
          constructor
          · intro h name' info' heq m hm hname
            rw [hcall] at heq
            cases heq
            have hnew := h m hm ⟨(s.tables base).nextMod, name, info⟩
              ((hrows _).mpr (.inr rfl)) hname.symm
            exact absurd hnew.symm (Nat.ne_of_lt ((s.tables base).fresh m hm))
          · intro h m hm m' hm' hname
            have hother : m.name ≠ name := fun heq => hfree m hm heq (h name info hcall m hm heq)
            rcases (hrows m').mp hm' with ⟨hold, -⟩ | rfl
            · rw [eq_of_name hold hm hname]
            · exact absurd hname.symm hother
      | logActivity | setMemory | updateCircuitBreaker => simp [hcall, Write.isAddMod] at hadd

/-- What the steps other than an insert do. -/
theorem step_cases {act : Action} (h : step base calls s act = some t) :
    match act with
    | .execute _ => True
    | .executeError i | .commitError i => t = s.to i .failed
    | .commit i => ∃ rowid, s.phase i = .executed rowid ∧
        t = { (s.to i (if (calls i).isAddMod then .committed rowid else .returned none)) with
          conn := s.conn.commit }
    | .rollback i => t = { (s.to i .raised) with conn := s.conn.rollback }
    | .select i => ∃ rowid, s.phase i = .committed rowid ∧
        t = s.to i (.returned (some s.lastRowid))
    | .interrupt i => t = s.to i .raised := by
  cases act with
  | execute i => trivial
  | executeError | commitError | rollback =>
      simp only [step] at h
      split at h <;> cases h
      rfl
  | commit | select =>
      simp only [step] at h
      split at h
      · rename_i rowid hphase
        exact ⟨rowid, hphase, (Option.some.inj h).symm⟩
      · cases h
  | interrupt i =>
      simp only [step] at h
      split at h <;> cases h <;> rfl

end Steps

/-! ## The invariant of undisturbed runs -/

/-- What is committed is there, and the row of every `add_mod` under way. -/
structure Inv (base : Database F) (calls : Nat → Write F) (s : State F) : Prop where
  kept : ∀ m ∈ (s.committed base).mods.rows, m ∈ (s.tables base).mods.rows
  conflicts : (s.committed base).conflicts = (s.tables base).conflicts
  added : ∀ i name info rowid, calls i = .addMod name info →
    s.phase i = .executed rowid ∨ s.phase i = .committed rowid →
      ∃ m ∈ (s.tables base).mods.rows, m.name = name ∧ rowid = some m.id ∧
        (s.conn.pendingOf i = [] → m ∈ (s.committed base).mods.rows)

theorem inv_start (base : Database F) (calls : Nat → Write F) (lastRowid : Nat) :
    Inv base calls (.start lastRowid) where
  kept m hm := hm
  conflicts := rfl
  added i name info rowid _ hphase := by
    rcases hphase with h | h <;> cases h

section Invariant

variable {base : Database F} {calls : Nat → Write F} {s t : State F}

/-- The rows of the calls under way are kept by a step that keeps the tables. -/
theorem added_of_phase (hinv : Inv base calls s) {i : Nat} {p : Phase}
    (hphase : t.phase = update s.phase i p)
    (hp : ∀ rowid, p ≠ .executed rowid ∧ p ≠ .committed rowid) (hconn : t.conn = s.conn) :
    Inv base calls t := by
  have htables : t.tables base = s.tables base := by simp only [State.tables, hconn]
  have hcommitted : t.committed base = s.committed base := by simp only [State.committed, hconn]
  refine ⟨?_, ?_, ?_⟩
  · rw [htables, hcommitted]
    exact hinv.kept
  · rw [htables, hcommitted]
    exact hinv.conflicts
  · intro j name info rowid hcall hj
    rw [htables, hcommitted, hconn]
    by_cases hji : j = i
    · subst hji
      rw [hphase, update_self] at hj
      rcases hj with h | h
      · exact absurd h (hp rowid).1
      · exact absurd h (hp rowid).2
    · rw [hphase, update_of_ne hji] at hj
      exact hinv.added j name info rowid hcall hj

theorem rows_kept_of_undisturbed {i : Nat} {db : Database F} {rowid : Option Nat}
    (hexecute : (s.tables base).execute (calls i) = some (db, rowid))
    (hundisturbed : Undisturbed base calls s (.execute i) t) :
    ∀ m ∈ (s.tables base).mods.rows, m ∈ db.mods.rows := by
  intro m hm
  cases hadd : (calls i).isAddMod with
  | false =>
      rw [(execute_of_ne hadd hexecute).1]
      exact hm
  | true =>
      cases hcall : calls i with
      | addMod name info =>
          rw [hcall] at hexecute
          obtain ⟨-, -, hfree, hrows⟩ := execute_addMod hexecute
          refine (hrows m).mpr (.inl ⟨hm, fun heq => ?_⟩)
          exact hfree m hm heq (hundisturbed name info hcall m hm heq)
      | logActivity | setMemory | updateCircuitBreaker => simp [hcall, Write.isAddMod] at hadd

theorem inv_execute {i : Nat} (hinv : Inv base calls s)
    (h : step base calls s (.execute i) = some t)
    (hundisturbed : Undisturbed base calls s (.execute i) t) : Inv base calls t := by
  rcases step_execute h with ⟨-, rfl⟩ | ⟨db, rowid, hexecute, hconn, htables, hcommitted, hphase⟩
  · exact added_of_phase hinv rfl (by simp) rfl
  · have hkept := rows_kept_of_undisturbed (t := t) hexecute hundisturbed
    refine ⟨?_, ?_, ?_⟩
    · rw [htables, hcommitted]
      exact fun m hm => hkept m (hinv.kept m hm)
    · rw [htables, hcommitted, hinv.conflicts, (execute_keeps_refs hexecute).1]
    · intro j name info rowid' hcall hj
      rw [htables, hcommitted, hconn]
      by_cases hji : j = i
      · subst hji
        rw [hphase, update_self] at hj
        obtain rfl : rowid = rowid' := by
          rcases hj with h | h <;> cases h
          rfl
        rw [hcall] at hexecute
        obtain ⟨rfl, -, -, hrows⟩ := execute_addMod hexecute
        refine ⟨_, (hrows _).mpr (.inr rfl), rfl, rfl, fun hnone => ?_⟩
        -- its own write is pending
        rw [SharedTransaction.pendingOf_write_self] at hnone
        exact absurd hnone (by simp)
      · rw [hphase, update_of_ne hji] at hj
        obtain ⟨m, hm, hname, hid, hdone⟩ := hinv.added j name info rowid' hcall hj
        refine ⟨m, hkept m hm, hname, hid, fun hnone => hdone ?_⟩
        rwa [SharedTransaction.pendingOf_write_of_ne _ _ hji] at hnone

theorem inv_commit {i : Nat} (hinv : Inv base calls s)
    (h : step base calls s (.commit i) = some t) : Inv base calls t := by
  obtain ⟨rowid, hexecuted, rfl⟩ := step_cases h
  have hsame := s.conn.working_commit Database.apply base
  have hnow := s.conn.committed_commit Database.apply base
  refine ⟨?_, ?_, ?_⟩
  · intro m hm
    simp only [State.committed, State.tables, hsame, hnow] at hm ⊢
    exact hm
  · simp only [State.committed, State.tables, hsame, hnow]
  · intro j name info rowid' hcall hj
    have hbefore : s.phase j = .executed rowid' ∨ s.phase j = .committed rowid' := by
      by_cases hji : j = i
      · subst hji
        rw [hcall] at hj
        simp only [State.to, Write.isAddMod, if_true, update_self, reduceCtorEq,
          false_or] at hj
        cases hj
        exact .inl hexecuted
      · simpa only [State.to, update_of_ne hji] using hj
    obtain ⟨m, hm, hname, hid, -⟩ := hinv.added j name info rowid' hcall hbefore
    refine ⟨m, ?_, hname, hid, fun _ => ?_⟩
    · simp only [State.tables, hsame]
      exact hm
    · simp only [State.committed, hnow]
      exact hm

theorem inv_rollback {i : Nat} (hinv : Inv base calls s)
    (h : step base calls s (.rollback i) = some t)
    (hundisturbed : Undisturbed base calls s (.rollback i) t) : Inv base calls t := by
  have hstep : t = { (s.to i .raised) with conn := s.conn.rollback } := step_cases h
  subst hstep
  refine ⟨fun m hm => hm, rfl, ?_⟩
  intro j name info rowid hcall hj
  by_cases hji : j = i
  · subst hji
    simp [State.to] at hj
  · simp only [State.to, update_of_ne hji] at hj
    obtain ⟨m, -, hname, hid, hdone⟩ := hinv.added j name info rowid hcall hj
    -- nothing of it was pending, so that its row is committed
    have hm := hdone (hundisturbed.2 j hji)
    exact ⟨m, hm, hname, hid, fun _ => hm⟩

theorem inv_step {act : Action} (hinv : Inv base calls s) (h : step base calls s act = some t)
    (hundisturbed : Undisturbed base calls s act t) : Inv base calls t := by
  cases act with
  | execute i => exact inv_execute hinv h hundisturbed
  | commit i => exact inv_commit hinv h
  | rollback i => exact inv_rollback hinv h hundisturbed
  | executeError i | commitError i =>
      have hstep : t = s.to i .failed := step_cases h
      subst hstep
      exact added_of_phase hinv rfl (by simp) rfl
  | select i =>
      obtain ⟨rowid, -, rfl⟩ := step_cases h
      exact added_of_phase hinv rfl (by simp) rfl
  | interrupt i =>
      have hstep : t = s.to i .raised := step_cases h
      subst hstep
      exact added_of_phase hinv rfl (by simp) rfl

theorem raisesClean_iff {i : Nat} (hphase : t.phase = update s.phase i .raised)
    (hbefore : s.phase i ≠ .raised) :
    RaisesClean s t ↔
      t.writesOf i = [] ∧ ∀ other, other ≠ i → t.writesOf other = s.writesOf other := by
  constructor
  · intro h
    refine h i ?_ (by rw [hphase, update_self])
    rw [hphase, update_self]
    exact hbefore
  · intro h j hne _
    obtain rfl := eq_of_phase_ne hphase hne
    exact h

theorem upsert_execute_iff {i : Nat} (h : step base calls s (.execute i) = some t) :
    Upsert base calls s (.execute i) t ↔ Undisturbed base calls s (.execute i) t := by
  rcases step_execute h with ⟨hnone, rfl⟩ | ⟨db, rowid, hexecute, -, htables, -, hphase⟩
  · refine iff_of_true (upsert_of_quiet _ rfl rfl (by simp) (by simp)) ?_
    -- the foreign key fails: the row that is there is referred to
    intro name info hcall m hm hname
    obtain ⟨name', info', heq, m', hm', hname', href⟩ := execute_eq_none_iff.mp hnone
    rw [hcall] at heq
    cases heq
    rwa [eq_of_name hm hm' (hname.trans hname'.symm)]
  · rw [← keepsIds_execute_iff hexecute htables]
    have hconflicts : KeepsConflicts base s t := by
      unfold KeepsConflicts
      rw [htables]
      exact execute_keeps_refs hexecute
    refine ⟨fun hupsert => hupsert.2.1, fun hids => ⟨?_, hids, hconflicts, ?_⟩⟩
    · exact returnsId_of_ne hphase (by simp)
    · exact raisesClean_of_ne hphase (by simp)

theorem upsert_rollback_iff {i : Nat} (hinv : Inv base calls s)
    (h : step base calls s (.rollback i) = some t) :
    Upsert base calls s (.rollback i) t ↔ Undisturbed base calls s (.rollback i) t := by
  have hfailed : s.phase i ≠ .raised := by
    intro hraised
    simp [step, hraised] at h
  have hstep : t = { (s.to i .raised) with conn := s.conn.rollback } := step_cases h
  subst hstep
  have hkeeps : KeepsIds base s { (s.to i .raised) with conn := s.conn.rollback } ∧
      KeepsConflicts base s { (s.to i .raised) with conn := s.conn.rollback } :=
    keeps_of_subset hinv.kept hinv.conflicts
  have hwrites : ∀ j, State.writesOf { (s.to i .raised) with conn := s.conn.rollback } j =
      s.conn.durableOf j := by
    intro j
    simp [State.writesOf]
  have hclean : RaisesClean s { (s.to i .raised) with conn := s.conn.rollback } ↔
      Undisturbed base calls s (.rollback i) { (s.to i .raised) with conn := s.conn.rollback } := by
    rw [raisesClean_iff (i := i) rfl hfailed, hwrites]
    refine and_congr_right fun _ => forall₂_congr fun other _ => ?_
    rw [hwrites, State.writesOf, eq_comm, List.append_right_eq_self]
  rw [← hclean]
  refine ⟨fun hupsert => hupsert.2.2.2, fun hraises => ⟨?_, hkeeps.1, hkeeps.2, hraises⟩⟩
  exact returnsId_of_ne (i := i) rfl (by simp)

theorem upsert_select_iff {i : Nat} (hinv : Inv base calls s)
    (h : step base calls s (.select i) = some t) :
    Upsert base calls s (.select i) t ↔ Undisturbed base calls s (.select i) t := by
  obtain ⟨rowid, hcommitted, rfl⟩ := step_cases h
  have hkeeps : KeepsIds base s (s.to i (.returned (some s.lastRowid))) ∧
      KeepsConflicts base s (s.to i (.returned (some s.lastRowid))) :=
    keeps_of_subset (fun m hm => hm) rfl
  have hraises : RaisesClean s (s.to i (.returned (some s.lastRowid))) :=
    raisesClean_of_ne (i := i) rfl (by simp)
  -- the row of the mod has the number of the insert
  have hrow : ∀ name info, calls i = .addMod name info →
      ((s.tables base).mods.lookup name).map Mod.id = rowid := by
    intro name info hcall
    obtain ⟨m, hm, hname, hid, -⟩ := hinv.added i name info rowid hcall (.inr hcommitted)
    rw [KeyedTable.lookup_eq_some_iff.mpr ⟨hm, hname⟩, hid]
    rfl
  constructor
  · rintro ⟨hreturns, -⟩ hadd rowid' hrowid'
    rw [hcommitted] at hrowid'
    cases hrowid'
    cases hcall : calls i with
    | addMod name info =>
        have hid := hreturns i name info s.lastRowid hcall (by simp [State.to, hcommitted])
          (by simp [State.to])
        exact (hrow name info hcall).symm.trans hid
    | logActivity | setMemory | updateCircuitBreaker => simp [hcall, Write.isAddMod] at hadd
  · intro hundisturbed
    refine ⟨?_, hkeeps.1, hkeeps.2, hraises⟩
    intro j name info value hcall hne hreturned
    obtain rfl : j = i := eq_of_phase_ne (p := .returned (some s.lastRowid)) rfl hne
    simp only [State.to, update_self, Phase.returned.injEq, Option.some.injEq] at hreturned
    have hown := hundisturbed (by rw [hcall]; rfl) rowid hcommitted
    rw [← hreturned, ← hown]
    exact hrow name info hcall

theorem upsert_interrupt_iff {i : Nat} (h : step base calls s (.interrupt i) = some t) :
    Upsert base calls s (.interrupt i) t ↔ Undisturbed base calls s (.interrupt i) t := by
  have hbefore : s.phase i ≠ .raised := by
    intro hraised
    simp [step, hraised] at h
  have hstep : t = s.to i .raised := step_cases h
  subst hstep
  have hkeeps : KeepsIds base s (s.to i .raised) ∧ KeepsConflicts base s (s.to i .raised) :=
    keeps_of_subset (fun m hm => hm) rfl
  have hclean : RaisesClean s (s.to i .raised) ↔ s.writesOf i = [] := by
    rw [raisesClean_iff (i := i) rfl hbefore]
    exact and_iff_left fun _ _ => rfl
  refine ⟨fun hupsert => hclean.mp hupsert.2.2.2, fun hnone => ?_⟩
  exact ⟨returnsId_of_ne (i := i) rfl (by simp), hkeeps.1, hkeeps.2, hclean.mpr hnone⟩

theorem upsert_iff_undisturbed {act : Action} (hinv : Inv base calls s)
    (h : step base calls s act = some t) :
    Upsert base calls s act t ↔ Undisturbed base calls s act t := by
  cases act with
  | execute i => exact upsert_execute_iff h
  | rollback i => exact upsert_rollback_iff hinv h
  | select i => exact upsert_select_iff hinv h
  | interrupt i => exact upsert_interrupt_iff h
  | executeError i | commitError i =>
      have hstep : t = s.to i .failed := step_cases h
      subst hstep
      exact iff_of_true (upsert_of_quiet _ rfl rfl (by simp) (by simp)) trivial
  | commit i =>
      obtain ⟨rowid, -, rfl⟩ := step_cases h
      refine iff_of_true ?_ trivial
      refine upsert_of_quiet _ rfl (s.conn.working_commit Database.apply base) ?_ ?_
      · intro value
        split <;> simp
      · split <;> simp

end Invariant

/-- A database without rows. -/
def emptyDatabase : Database Nat where
  mods := .empty _
  nextMod := 1
  conflicts := []
  activity := []
  nextActivity := 8
  memory := .empty _
  nextMemory := 1
  scraper := .empty _
  nextScraper := 1
  fresh := by simp [KeyedTable.empty]
  unique := by simp [KeyedTable.empty]
  refs := by simp

def skyuiInfo : ModInfo Nat := ⟨some "5.2", 3, none, "active"⟩

/-- Two calls add a mod, the others log. -/
def skyuiCalls : Nat → Write Nat := fun i =>
  if i < 2 then .addMod "SkyUI" skyuiInfo else .logActivity ⟨"scan", "done", none⟩

end SkyClaw.Core.DatabaseAgent
