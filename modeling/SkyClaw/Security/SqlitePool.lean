import Mathlib.Data.List.Count
import SkyClaw.Lib.BoundedSemaphore
import SkyClaw.Lib.ResourceLedger
import SkyClaw.Lib.Runs

/-!
# The connection pool of the credential vault

`_SQLitePool`: `acquire` and `close` as tasks that give way at their awaits.  The clock is left out: a
time limit may strike at any await that has one.

When the wait for the semaphore is cancelled, `acquire` gives a permit back that the semaphore has
already taken back itself; only a counter at its bound makes that harmless.
`bounded_of_careful`: a run in which this is so at each such cancellation keeps the pool within its
bound.
-/

namespace SkyClaw.Security.SqlitePool

open Function

/-! ## State -/

/-- What ends a wait for the semaphore. -/
inductive Interrupt where
  | timeout
  | cancelled
deriving DecidableEq, Repr

/-- Where a use of `acquire` stands. -/
inductive Phase where
  /-- before the semaphore -/
  | starting
  | waiting
  /-- with a permit, before the second look at `_closed` -/
  | admitted
  | connecting
  /-- the pragmas are applied -/
  | configuring (conn : Nat)
  /-- they have failed, and the connection is closed -/
  | failing (conn : Nat)
  /-- the body runs -/
  | holding (conn : Nat)
  /-- the connection is closed on the way out -/
  | leaving (conn : Nat)
  /-- the wait for the semaphore has ended, and `acquire` has not seen it -/
  | withdrawn (why : Interrupt)
  | ended
deriving DecidableEq, Repr

namespace Phase

/-- The connection of a phase. -/
def conn : Phase → Option Nat
  | configuring conn => some conn
  | failing conn => some conn
  | holding conn => some conn
  | leaving conn => some conn
  | _ => none

def isHolding : Phase → Bool
  | holding _ => true
  | _ => false

/-- The phases behind the second look at `_closed`. -/
def inside : Phase → Bool
  | connecting => true
  | phase => phase.conn.isSome

/-- The phases that own a permit. -/
def permit (phase : Phase) : Bool := phase = admitted || phase.inside

end Phase

/-- How far `close` is. -/
inductive Drain where
  | before
  /-- a connection of the queue is closed -/
  | closing (conn : Nat)
  | returned
deriving DecidableEq, Repr

/-- The connection that `close` has taken out of the queue. -/
def Drain.conn : Drain → Option Nat
  | closing conn => some conn
  | _ => none

/-- The pool: its fields, how far `close` is, the uses of `acquire`, and whether each connection that
was ever opened is open. -/
structure Pool where
  maxSize : Nat
  semaphore : BoundedSemaphore Nat
  /-- the queue `_pool` -/
  idle : List Nat
  closed : Bool
  drain : Drain
  tasks : List Phase
  opened : List Bool
deriving DecidableEq, Repr

namespace Pool

/-- `_SQLitePool(db_path, max_size)`; `none` is the `ValueError`. -/
def new (maxSize : Int) : Option Pool :=
  if maxSize ≤ 0 then none
  else some
    { maxSize := maxSize.toNat
      semaphore := .new maxSize.toNat
      idle := []
      closed := false
      drain := .before
      tasks := []
      opened := [] }

section

variable (s : Pool)

/-- A use of `acquire` goes on. -/
def move (k : Nat) (phase : Phase) : Pool := { s with tasks := s.tasks.set k phase }

/-- A use of `acquire` ends and releases its permit. -/
def finish (k : Nat) : Pool :=
  { s.move k .ended with semaphore := s.semaphore.release }

/-- A connection is opened; it has the next number. -/
def connect : Pool := { s with opened := s.opened ++ [true] }

/-- `await conn.close()` -/
def closeConn (conn : Nat) : Pool := { s with opened := s.opened.set conn false }

/-- `close` takes the next connection out of the queue, or returns. -/
def drainNext : Pool :=
  match s.idle with
  | [] => { s with drain := .returned }
  | conn :: rest => { s with idle := rest, drain := .closing conn }

def holders : Nat := s.tasks.countP Phase.isHolding

def Open (conn : Nat) : Prop := s.opened[conn]? = some true

end

end Pool

/-! ## Steps -/

/-- What happens next. -/
inductive Action where
  /-- `acquire` is entered -/
  | acquire
  /-- it asks the semaphore -/
  | ask (k : Nat)
  /-- it goes on with the permit that was set on its future -/
  | resume (k : Nat)
  /-- the second look at `_closed`, and at the queue -/
  | enter (k : Nat)
  /-- what a use waits for is done -/
  | proceed (k : Nat)
  /-- the connection cannot be made, for an error, the time limit or a cancellation -/
  | fail (k : Nat)
  /-- the body ends -/
  | exit (k : Nat)
  /-- the wait for the semaphore is interrupted -/
  | interrupt (k : Nat) (why : Interrupt)
  /-- `acquire` handles that -/
  | handle (k : Nat)
  | close
  /-- the connection that `close` waits for is closed -/
  | closeNext
deriving DecidableEq, Repr

open Pool

section

variable (s : Pool)

def ask (k : Nat) : Phase → Option Pool
  | .starting =>
      if s.semaphore.locked then
        some { s.move k .waiting with semaphore := s.semaphore.enqueue k }
      else some { s.move k .admitted with semaphore := s.semaphore.take }
  | _ => none

def resume (s : Pool) (k : Nat) : Phase → Option Pool
  | .waiting =>
      if s.semaphore.granted k = some true then
        some { s.move k .admitted with semaphore := s.semaphore.resume k }
      else none
  | _ => none

def enter (k : Nat) : Phase → Option Pool
  | .admitted =>
      if s.closed then some (s.finish k)
      else match s.idle with
        | [] => some (s.move k .connecting)
        | conn :: rest => some { s.move k (.holding conn) with idle := rest }
  | _ => none

def proceed (k : Nat) : Phase → Option Pool
  | .connecting => some (s.connect.move k (.configuring s.opened.length))
  | .configuring conn => some (s.move k (.holding conn))
  | .failing conn => some ((s.closeConn conn).finish k)
  | .leaving conn => some ((s.closeConn conn).finish k)
  | _ => none

def fail (k : Nat) : Phase → Option Pool
  | .connecting => some (s.finish k)
  | .configuring conn => some (s.move k (.failing conn))
  | _ => none

def exit (k : Nat) : Phase → Option Pool
  | .holding conn =>
      if s.closed then some (s.move k (.leaving conn))
      else if s.idle.length < s.maxSize then
        some { s.finish k with idle := s.idle ++ [conn] }
      -- `asyncio.QueueFull`
      else some (s.move k (.leaving conn))
  | _ => none

def interrupt (k : Nat) (why : Interrupt) : Phase → Option Pool
  | .starting => some (s.move k (.withdrawn why))
  | .waiting => some { s.move k (.withdrawn why) with semaphore := s.semaphore.withdraw k }
  | _ => none

def handle (k : Nat) : Phase → Option Pool
  | .withdrawn .timeout => some (s.move k .ended)
  -- `except BaseException`: `_semaphore_acquired` is false
  | .withdrawn .cancelled => some (s.finish k)
  | _ => none

/-- `close` up to its first await. -/
def close : Pool :=
  if s.closed then s
  else drainNext
    { s with
      closed := true
      semaphore := BoundedSemaphore.release^[s.maxSize] s.semaphore }

def step : Action → Option Pool
  | .acquire => if s.closed then some s else some { s with tasks := s.tasks ++ [.starting] }
  | .ask k => s.tasks[k]?.bind (ask s k)
  | .resume k => s.tasks[k]?.bind (resume s k)
  | .enter k => s.tasks[k]?.bind (enter s k)
  | .proceed k => s.tasks[k]?.bind (proceed s k)
  | .fail k => s.tasks[k]?.bind (fail s k)
  | .exit k => s.tasks[k]?.bind (exit s k)
  | .interrupt k why => s.tasks[k]?.bind (interrupt s k why)
  | .handle k => s.tasks[k]?.bind (handle s k)
  | .close => some (close s)
  | .closeNext => s.drain.conn.map fun conn => (s.closeConn conn).drainNext

/-- A use of `acquire` is not between its steps: it has not asked, it waits without a permit, it runs
its body, or it has ended. -/
def atRest (k : Nat) : Phase → Bool
  | .starting => true
  | .waiting => s.semaphore.granted k ≠ some true
  | .holding _ => true
  | .withdrawn _ => true
  | .ended => true
  | _ => false

/-- What the pool promises. -/
structure Bounded : Prop where
  limit : s.holders ≤ s.maxSize
  exclusive : ∀ {j k conn : Nat}, s.tasks[j]? = some (.holding conn) →
    s.tasks[k]? = some (.holding conn) → j = k
  balanced : s.closed = false → (∀ k phase, s.tasks[k]? = some phase → atRest s k phase = true) →
    s.semaphore.value + s.holders = s.maxSize
  /-- `close` has returned and every use has ended -/
  emptied : s.drain = .returned → (∀ phase ∈ s.tasks, phase = .ended) → ∀ conn, ¬ s.Open conn

/-- No use of `acquire` is cancelled in its wait for the semaphore, unless all permits are in the
counter when it handles that, or the pool is closed. -/
def Careful (a : Action) (_ : Pool) : Prop :=
  match a with
  | .handle k => s.closed = false → s.tasks[k]? = some (.withdrawn .cancelled) →
      s.semaphore.value = s.maxSize
  | _ => True

end

instance (s : Pool) (a : Action) (t : Pool) : Decidable (Careful s a t) := by
  unfold Careful
  cases a <;> infer_instance

namespace Pool

/-- The connections as a ledger; `close` is an owner beside the uses of `acquire`. -/
def ledger (s : Pool) : Ledger (Option Nat) where
  idle := s.idle
  opened := s.opened
  held owner := match owner with
    | none => s.drain.conn
    | some k => s.tasks[k]?.bind Phase.conn

def inside (s : Pool) : Nat := s.tasks.countP Phase.inside

def permits (s : Pool) : Nat := s.tasks.countP Phase.permit

end Pool

/-- What careful runs keep. -/
structure Kept (s : Pool) : Prop where
  bound : s.semaphore.bound = s.maxSize
  /-- a permit is free or owned -/
  permits : s.closed = false → s.semaphore.free + s.permits = s.maxSize
  limit : s.inside ≤ s.maxSize
  queueNodup : s.semaphore.queue.Nodup
  queued : ∀ k ∈ s.semaphore.queue, s.tasks[k]? = some .waiting
  ledger : s.ledger.WellFormed
  notYet : s.closed = false → s.drain = .before
  drained : s.drain = .returned → s.idle = []

/-! ### One use of `acquire` goes on -/

variable {old : Phase}

theorem count_set {tasks : List Phase} {k : Nat} (htask : tasks[k]? = some old)
    (p : Phase → Bool) (new : Phase) :
    (tasks.set k new).countP p + (p old).toNat = tasks.countP p + (p new).toNat := by
  obtain ⟨hk, rfl⟩ := List.getElem?_eq_some_iff.mp htask
  rw [List.countP_set hk]
  cases hold : p tasks[k] with
  | false => cases p new <;> simp
  | true =>
      have hpos : 0 < tasks.countP p :=
        List.countP_pos_iff.mpr ⟨tasks[k], List.getElem_mem hk, hold⟩
      cases p new with
      | false =>
          show tasks.countP p - 1 + 0 + 1 = tasks.countP p + 0
          omega
      | true =>
          show tasks.countP p - 1 + 1 + 1 = tasks.countP p + 1
          omega

theorem held_move {s : Pool} {k : Nat} (hk : k < s.tasks.length) (phase : Phase) :
    (s.move k phase).ledger.held = update s.ledger.held (some k) phase.conn := by
  funext owner
  cases owner with
  | none =>
      rw [update_of_ne (by simp)]
      rfl
  | some j =>
      by_cases hj : j = k
      · subst hj
        rw [update_self]
        show (s.tasks.set j phase)[j]?.bind Phase.conn = phase.conn
        rw [List.getElem?_set_self hk]
        rfl
      · rw [update_of_ne (by simpa using hj)]
        show (s.tasks.set k phase)[j]?.bind Phase.conn = s.tasks[j]?.bind Phase.conn
        rw [List.getElem?_set_ne (Ne.symm hj)]

theorem held_of_task {s : Pool} {k : Nat} {phase : Phase} (htask : s.tasks[k]? = some phase) :
    s.ledger.held (some k) = phase.conn := by
  show s.tasks[k]?.bind Phase.conn = phase.conn
  rw [htask]
  rfl

theorem inside_le_permits (tasks : List Phase) :
    tasks.countP Phase.inside ≤ tasks.countP Phase.permit := by
  refine List.countP_mono_left ?_
  intro phase _ hinside
  simp [Phase.permit, hinside]

variable {idle : List Nat}

/-- One use goes on, with what that does to the semaphore and to the connections. -/
theorem Kept.moves {s : Pool} (h : Kept s) {k : Nat} (new : Phase)
    {semaphore : BoundedSemaphore Nat} {opened : List Bool}
    (htask : s.tasks[k]? = some old)
    (hbound : semaphore.bound = s.semaphore.bound)
    (hfree : s.closed = false →
      semaphore.free + new.permit.toNat = s.semaphore.free + old.permit.toNat)
    (hinside : s.closed = true → new.inside.toNat ≤ old.inside.toNat)
    (hnodup : semaphore.queue.Nodup)
    (hqueue : ∀ j ∈ semaphore.queue, j = k ∧ new = .waiting ∨ j ≠ k ∧ j ∈ s.semaphore.queue)
    (hledger : Ledger.WellFormed
      ⟨idle, opened, update s.ledger.held (some k) new.conn⟩)
    (hidle : s.drain = .returned → idle = []) :
    Kept { s with semaphore := semaphore, idle := idle, tasks := s.tasks.set k new,
                  opened := opened } := by
  have hk : k < s.tasks.length := (List.getElem?_eq_some_iff.mp htask).1
  have hpermits : s.closed = false →
      semaphore.free + (s.tasks.set k new).countP Phase.permit = s.maxSize := by
    intro hclosed
    have hcount := count_set htask Phase.permit new
    have hold := h.permits hclosed
    have hmoved := hfree hclosed
    unfold Pool.permits at hold
    omega
  refine ⟨hbound.trans h.bound, hpermits, ?_, hnodup, ?_, ?_, h.notYet, hidle⟩
  · show (s.tasks.set k new).countP Phase.inside ≤ s.maxSize
    cases hclosed : s.closed with
    | false =>
        have hle := inside_le_permits (s.tasks.set k new)
        have heq := hpermits hclosed
        omega
    | true =>
        have hcount := count_set htask Phase.inside new
        have hlimit : s.tasks.countP Phase.inside ≤ s.maxSize := h.limit
        have hmoved := hinside hclosed
        omega
  · intro j hj
    show (s.tasks.set k new)[j]? = some .waiting
    rcases hqueue j hj with ⟨rfl, rfl⟩ | ⟨hne, hmem⟩
    · exact List.getElem?_set_self hk
    · rw [List.getElem?_set_ne (Ne.symm hne)]
      exact h.queued j hmem
  · rw [← held_move hk] at hledger
    exact hledger

theorem Kept.queue_of_ne {s : Pool} (h : Kept s) {k : Nat}
    (htask : s.tasks[k]? = some old) (hold : old ≠ .waiting) :
    ∀ j ∈ s.semaphore.queue, j ≠ k ∧ j ∈ s.semaphore.queue := by
  intro j hj
  refine ⟨?_, hj⟩
  rintro rfl
  exact hold (Option.some.inj (htask.symm.trans (h.queued j hj)))

theorem Kept.ledger_same {s : Pool} (h : Kept s) {k : Nat} (new : Phase)
    (htask : s.tasks[k]? = some old) (hconn : new.conn = old.conn) :
    Ledger.WellFormed
      ⟨s.idle, s.opened, update s.ledger.held (some k) new.conn⟩ := by
  rw [hconn, ← held_of_task htask, update_eq_self]
  exact h.ledger

theorem Kept.move {s : Pool} (h : Kept s) {k : Nat} {new : Phase}
    (htask : s.tasks[k]? = some old) (hold : old ≠ .waiting)
    (hpermit : new.permit = old.permit)
    (hinside : s.closed = true → new.inside.toNat ≤ old.inside.toNat)
    (hconn : new.conn = old.conn) : Kept (s.move k new) :=
  h.moves new htask rfl (fun _ => by rw [hpermit]) hinside h.queueNodup
    (fun j hj => .inr (h.queue_of_ne htask hold j hj)) (h.ledger_same new htask hconn) h.drained

open BoundedSemaphore

/-- One use ends and gives its permit back. -/
theorem Kept.finishes {s : Pool} (h : Kept s) {k : Nat}
    {opened : List Bool} (htask : s.tasks[k]? = some old) (hpermit : old.permit = true)
    (hledger : Ledger.WellFormed ⟨idle, opened, update s.ledger.held (some k) none⟩)
    (hidle : s.drain = .returned → idle = []) :
    Kept { s with semaphore := s.semaphore.release, idle := idle, tasks := s.tasks.set k .ended,
                  opened := opened } := by
  have hold : old ≠ .waiting := by
    rintro rfl
    cases hpermit
  refine h.moves .ended htask (bound_release _) ?_ (fun _ => Nat.zero_le _) ?_ ?_
    hledger hidle
  · intro hclosed
    -- the permit of this use is missing in the semaphore
    have hpos : 0 < s.permits :=
      List.countP_pos_iff.mpr ⟨old, List.mem_of_getElem? htask, hpermit⟩
    have hall := h.permits hclosed
    have hlt : s.semaphore.free < s.semaphore.bound := by
      rw [h.bound]
      omega
    rw [free_release hlt, hpermit]
    rfl
  · rw [queue_release]
    exact h.queueNodup
  · rw [queue_release]
    exact fun j hj => .inr (h.queue_of_ne htask hold j hj)

/-! ### The steps -/

section Steps

variable {s t : Pool} {k : Nat} {phase : Phase}

theorem Kept.ask (h : Kept s) (htask : s.tasks[k]? = some phase)
    (hstep : ask s k phase = some t) : Kept t := by
  cases phase with
  | starting =>
      change (if s.semaphore.locked then _ else _) = _ at hstep
      cases hlocked : s.semaphore.locked with
      | true =>
          rw [hlocked] at hstep
          cases hstep
          have hothers := h.queue_of_ne htask (by simp)
          refine h.moves .waiting htask (bound_enqueue _ _) ?_
            (fun _ => Nat.le_refl _) ?_ ?_ (h.ledger_same _ htask rfl) h.drained
          · intro _
            rw [free_enqueue]
            rfl
          · rw [queue_enqueue, List.nodup_append]
            refine ⟨h.queueNodup, List.nodup_singleton k, ?_⟩
            intro j hj i hi
            rw [List.mem_singleton.mp hi]
            exact (hothers j hj).1
          · intro j hj
            rw [queue_enqueue, List.mem_append, List.mem_singleton] at hj
            rcases hj with hj | rfl
            · exact .inr (hothers j hj)
            · exact .inl ⟨rfl, rfl⟩
      | false =>
          rw [hlocked] at hstep
          cases hstep
          refine h.moves .admitted htask (bound_take _) ?_
            (fun _ => Nat.le_refl _) h.queueNodup
            (fun j hj => .inr (h.queue_of_ne htask (by simp) j hj))
            (h.ledger_same _ htask rfl) h.drained
          intro _
          exact free_take hlocked
  | _ => cases hstep

theorem Kept.queue_erase (h : Kept s) (k : Nat) :
    ∀ j ∈ s.semaphore.queue.erase k, j ≠ k ∧ j ∈ s.semaphore.queue :=
  fun _ hj => (h.queueNodup.mem_erase_iff).mp hj

theorem Kept.resume (h : Kept s) (htask : s.tasks[k]? = some phase)
    (hstep : resume s k phase = some t) : Kept t := by
  cases phase with
  | waiting =>
      change (if s.semaphore.granted k = some true then _ else _) = _ at hstep
      by_cases hgranted : s.semaphore.granted k = some true
      · rw [if_pos hgranted] at hstep
        cases hstep
        refine h.moves .admitted htask (bound_resume _ _) ?_
          (fun _ => Nat.le_refl _) ?_ ?_ (h.ledger_same _ htask rfl) h.drained
        · intro _
          exact free_resume hgranted
        · rw [queue_resume]
          exact h.queueNodup.erase k
        · rw [queue_resume]
          exact fun j hj => .inr (h.queue_erase k j hj)
      · rw [if_neg hgranted] at hstep
        cases hstep
  | _ => cases hstep

theorem Kept.enter (h : Kept s) (htask : s.tasks[k]? = some phase)
    (hstep : enter s k phase = some t) : Kept t := by
  cases phase with
  | admitted =>
      change (if s.closed then _ else _) = _ at hstep
      cases hclosed : s.closed with
      | true =>
          rw [hclosed] at hstep
          cases hstep
          exact h.finishes htask rfl (h.ledger_same .ended htask rfl) h.drained
      | false =>
          rw [hclosed] at hstep
          change (match s.idle with
            | [] => some (s.move k .connecting)
            | conn :: rest => some { s.move k (.holding conn) with idle := rest }) = _ at hstep
          have hopen : s.closed = true → False := by
            rw [hclosed]
            exact Bool.false_ne_true
          cases hidle : s.idle with
          | nil =>
              rw [hidle] at hstep
              cases hstep
              exact h.move htask (by simp) rfl (fun hc => (hopen hc).elim) rfl
          | cons conn rest =>
              rw [hidle] at hstep
              cases hstep
              refine h.moves (.holding conn) htask rfl (fun _ => rfl)
                (fun hc => (hopen hc).elim) h.queueNodup
                (fun j hj => .inr (h.queue_of_ne htask (by simp) j hj)) ?_ ?_
              · exact h.ledger.take (held_of_task htask) hidle
              · intro hreturned
                rw [h.notYet hclosed] at hreturned
                cases hreturned
  | _ => cases hstep

theorem Kept.closes (h : Kept s) {conn : Nat} (htask : s.tasks[k]? = some phase)
    (hpermit : phase.permit = true) (hconn : phase.conn = some conn) :
    Kept ((s.closeConn conn).finish k) :=
  h.finishes htask hpermit (h.ledger.close ((held_of_task htask).trans hconn)) h.drained

theorem Kept.proceed (h : Kept s) (htask : s.tasks[k]? = some phase)
    (hstep : proceed s k phase = some t) : Kept t := by
  cases phase with
  | connecting =>
      cases hstep
      refine h.moves (.configuring s.opened.length) htask rfl (fun _ => rfl)
        (fun _ => Nat.le_refl _) h.queueNodup
        (fun j hj => .inr (h.queue_of_ne htask (by simp) j hj)) ?_ h.drained
      exact h.ledger.acquire (held_of_task htask)
  | configuring conn =>
      cases hstep
      exact h.move htask (by simp) rfl (fun _ => Nat.le_refl _) rfl
  | failing | leaving =>
      cases hstep
      exact h.closes htask rfl rfl
  | _ => cases hstep

theorem Kept.fail (h : Kept s) (htask : s.tasks[k]? = some phase)
    (hstep : fail s k phase = some t) : Kept t := by
  cases phase with
  | connecting =>
      cases hstep
      exact h.finishes htask rfl (h.ledger_same .ended htask rfl) h.drained
  | configuring conn =>
      cases hstep
      exact h.move htask (by simp) rfl (fun _ => Nat.le_refl _) rfl
  | _ => cases hstep

theorem Kept.exit (h : Kept s) (htask : s.tasks[k]? = some phase)
    (hstep : exit s k phase = some t) : Kept t := by
  cases phase with
  | holding conn =>
      have hleaving : Kept (s.move k (.leaving conn)) :=
        h.move htask (by simp) rfl (fun _ => Nat.le_refl _) rfl
      change (if s.closed then _ else _) = _ at hstep
      cases hclosed : s.closed with
      | true =>
          rw [hclosed] at hstep
          cases hstep
          exact hleaving
      | false =>
          rw [hclosed] at hstep
          change (if s.idle.length < s.maxSize then _ else _) = _ at hstep
          by_cases hroom : s.idle.length < s.maxSize
          · rw [if_pos hroom] at hstep
            cases hstep
            refine h.finishes htask rfl (h.ledger.put (held_of_task htask)) ?_
            intro hreturned
            rw [h.notYet hclosed] at hreturned
            cases hreturned
          · rw [if_neg hroom] at hstep
            cases hstep
            exact hleaving
  | _ => cases hstep

theorem Kept.interrupt (h : Kept s) {why : Interrupt} (htask : s.tasks[k]? = some phase)
    (hstep : interrupt s k why phase = some t) : Kept t := by
  cases phase with
  | starting =>
      cases hstep
      exact h.move htask (by simp) rfl (fun _ => Nat.le_refl _) rfl
  | waiting =>
      cases hstep
      refine h.moves (.withdrawn why) htask (bound_withdraw _ _) ?_
        (fun _ => Nat.le_refl _) ?_ ?_ (h.ledger_same _ htask rfl) h.drained
      · intro _
        rw [free_withdraw]
        rfl
      · rw [queue_withdraw]
        exact h.queueNodup.erase k
      · rw [queue_withdraw]
        exact fun j hj => .inr (h.queue_erase k j hj)
  | _ => cases hstep

/-- The permit that a cancelled use gives back is none when the counter is at its bound, and it does
not count when the pool is closed. -/
theorem Kept.handle (h : Kept s) (htask : s.tasks[k]? = some phase)
    (hcareful : s.closed = false → phase = .withdrawn .cancelled →
      s.semaphore.value = s.maxSize)
    (hstep : handle s k phase = some t) : Kept t := by
  cases phase with
  | withdrawn why =>
      have hended : Kept (s.move k .ended) :=
        h.move htask (by simp) rfl (fun _ => Nat.le_refl _) rfl
      cases why with
      | timeout =>
          cases hstep
          exact hended
      | cancelled =>
          cases hstep
          cases hclosed : s.closed with
          | false =>
              have hfull : s.semaphore.bound ≤ s.semaphore.value := by
                rw [h.bound]
                exact Nat.le_of_eq (hcareful hclosed rfl).symm
              unfold Pool.finish
              rw [release_of_full hfull]
              exact hended
          | true =>
              refine h.moves .ended htask (bound_release _) ?_
                (fun _ => Nat.le_refl _) ?_ ?_ (h.ledger_same _ htask rfl) h.drained
              · intro hopen
                rw [hclosed] at hopen
                cases hopen
              · rw [queue_release]
                exact h.queueNodup
              · rw [queue_release]
                exact fun j hj => .inr (h.queue_of_ne htask (by simp) j hj)
  | _ => cases hstep

end Steps

/-- A new use of `acquire`. -/
theorem Kept.acquire {s : Pool} (h : Kept s) :
    Kept { s with tasks := s.tasks ++ [.starting] } := by
  have hcount : ∀ p : Phase → Bool, p .starting = false →
      (s.tasks ++ [Phase.starting]).countP p = s.tasks.countP p := by
    intro p hp
    simp [List.countP_append, hp]
  have hledger : Pool.ledger { s with tasks := s.tasks ++ [.starting] } = s.ledger := by
    unfold Pool.ledger
    congr 1
    funext owner
    cases owner with
    | none => rfl
    | some j =>
        show (s.tasks ++ [Phase.starting])[j]?.bind Phase.conn = s.tasks[j]?.bind Phase.conn
        rcases Nat.lt_trichotomy j s.tasks.length with hlt | rfl | hgt
        · rw [List.getElem?_append_left hlt]
        · rw [List.getElem?_concat_length, List.getElem?_eq_none (Nat.le_refl _)]
          rfl
        · rw [List.getElem?_eq_none (by simp; omega), List.getElem?_eq_none (by omega)]
  refine ⟨h.bound, ?_, ?_, h.queueNodup, ?_, ?_, h.notYet, h.drained⟩
  · intro hclosed
    have hall := h.permits hclosed
    rw [Pool.permits, ← hcount Phase.permit rfl] at hall
    exact hall
  · have hlimit := h.limit
    rw [Pool.inside, ← hcount Phase.inside rfl] at hlimit
    exact hlimit
  · intro j hj
    have htask := h.queued j hj
    show (s.tasks ++ [Phase.starting])[j]? = some .waiting
    rw [List.getElem?_append_left (List.getElem?_eq_some_iff.mp htask).1]
    exact htask
  · rw [hledger]
    exact h.ledger

theorem held_drain (s : Pool) (drain : Drain) :
    Pool.ledger { s with drain := drain } =
      ⟨s.idle, s.opened, update s.ledger.held none drain.conn⟩ := by
  unfold Pool.ledger
  congr 1
  funext owner
  cases owner with
  | none => rw [update_self]
  | some j => rw [update_of_ne (by simp)]

/-- `close` goes on with empty hands. -/
theorem Kept.drainNext {s : Pool} (hclosed : s.closed = true)
    (hbound : s.semaphore.bound = s.maxSize) (hlimit : s.inside ≤ s.maxSize)
    (hnodup : s.semaphore.queue.Nodup)
    (hqueued : ∀ k ∈ s.semaphore.queue, s.tasks[k]? = some .waiting)
    (hledger : Ledger.WellFormed
      ⟨s.idle, s.opened, update s.ledger.held none none⟩) :
    Kept s.drainNext := by
  have hopen : ∀ {p : Prop}, s.closed = false → p := by
    intro p hfalse
    rw [hclosed] at hfalse
    cases hfalse
  cases hidle : s.idle with
  | nil =>
      have hnext : s.drainNext = { s with drain := .returned } := by
        unfold Pool.drainNext
        rw [hidle]
      rw [hnext]
      refine ⟨hbound, hopen, hlimit, hnodup, hqueued, ?_, hopen, fun _ => hidle⟩
      rw [held_drain]
      exact hledger
  | cons conn rest =>
      have hnext : s.drainNext = { s with idle := rest, drain := .closing conn } := by
        unfold Pool.drainNext
        rw [hidle]
      rw [hnext]
      refine ⟨hbound, hopen, hlimit, hnodup, hqueued, ?_, hopen, fun hfalse => by cases hfalse⟩
      rw [held_drain { s with idle := rest } (.closing conn)]
      have hempty : update s.ledger.held none none none = none :=
        update_self none none s.ledger.held
      have htake := @Ledger.WellFormed.take _ _ _ none conn hledger hempty rest hidle
      unfold Ledger.take at htake
      simp only [update_idem] at htake
      exact htake

theorem Kept.close {s : Pool} (h : Kept s) : Kept (close s) := by
  unfold SqlitePool.close
  cases hclosed : s.closed with
  | true => exact h
  | false =>
      obtain ⟨hbound, hqueue⟩ := release_iterate_keeps s.maxSize s.semaphore
      have hhand : s.ledger.held none = none := by
        show s.drain.conn = none
        rw [h.notYet hclosed]
        rfl
      refine Kept.drainNext rfl (hbound.trans h.bound) h.limit ?_ ?_ ?_
      · show (release^[s.maxSize] s.semaphore).queue.Nodup
        rw [hqueue]
        exact h.queueNodup
      · show ∀ k ∈ (release^[s.maxSize] s.semaphore).queue, _
        rw [hqueue]
        exact h.queued
      · show Ledger.WellFormed
          ⟨s.idle, s.opened, update s.ledger.held none none⟩
        rw [update_eq_self_iff.mpr hhand.symm]
        exact h.ledger

theorem Kept.closeNext {s : Pool} (h : Kept s) {conn : Nat} (hconn : s.drain.conn = some conn) :
    Kept (s.closeConn conn).drainNext := by
  have hclosed : s.closed = true := by
    cases hcase : s.closed with
    | true => rfl
    | false =>
        rw [h.notYet hcase] at hconn
        cases hconn
  exact Kept.drainNext (s := s.closeConn conn) hclosed h.bound h.limit h.queueNodup h.queued
    (h.ledger.close (o := none) hconn)

theorem Kept.new {maxSize : Int} {pool : Pool} (hnew : Pool.new maxSize = some pool) :
    Kept pool := by
  unfold Pool.new at hnew
  split at hnew
  · cases hnew
  · cases hnew
    refine ⟨rfl, fun _ => rfl, Nat.zero_le _, List.nodup_nil, by simp, ?_, fun _ => rfl, by simp⟩
    have hheld : ∀ held : Option Nat → Option Nat, (∀ owner, held owner = none) →
        Ledger.WellFormed ⟨[], [], held⟩ := by
      intro held hnone
      obtain rfl : held = fun _ => none := funext hnone
      exact Ledger.WellFormed.empty
    refine hheld _ ?_
    intro owner
    cases owner with
    | none | some => rfl

/-- **Step lemma.** -/
theorem kept_of_step {s t : Pool} {a : Action} (h : Kept s) (hstep : step s a = some t)
    (hcareful : Careful s a t) : Kept t := by
  cases a with
  | acquire =>
      change (if s.closed then _ else _) = _ at hstep
      split at hstep
      · cases hstep
        exact h
      · cases hstep
        exact h.acquire
  | ask | resume | enter | proceed | fail | exit | interrupt =>
      obtain ⟨phase, htask, hstep⟩ := Option.bind_eq_some_iff.mp hstep
      first
        | exact h.ask htask hstep
        | exact h.resume htask hstep
        | exact h.enter htask hstep
        | exact h.proceed htask hstep
        | exact h.fail htask hstep
        | exact h.exit htask hstep
        | exact h.interrupt htask hstep
  | handle k =>
      obtain ⟨phase, htask, hstep⟩ := Option.bind_eq_some_iff.mp hstep
      refine h.handle htask ?_ hstep
      rintro hclosed rfl
      exact hcareful hclosed htask
  | close =>
      cases hstep
      exact h.close
  | closeNext =>
      obtain ⟨conn, hconn, rfl⟩ := Option.map_eq_some_iff.mp hstep
      exact h.closeNext hconn

/-! ## The bound -/

theorem Kept.limits {s : Pool} (h : Kept s) : s.holders ≤ s.maxSize := by
  have hle : s.holders ≤ s.inside := by
    refine List.countP_mono_left ?_
    intro phase _ hholding
    cases phase <;> first | rfl | cases hholding
  exact Nat.le_trans hle h.limit

theorem Kept.exclusive {s : Pool} (h : Kept s) {j k conn : Nat}
    (hj : s.tasks[j]? = some (.holding conn)) (hk : s.tasks[k]? = some (.holding conn)) :
    j = k :=
  Option.some.inj (h.ledger.sole (held_of_task hj) (held_of_task hk))

theorem Kept.balanced {s : Pool} (h : Kept s) (hclosed : s.closed = false)
    (hrest : ∀ k phase, s.tasks[k]? = some phase → atRest s k phase = true) :
    s.semaphore.value + s.holders = s.maxSize := by
  have hfree : s.semaphore.free = s.semaphore.value := by
    refine free_of_unseen h.queueNodup ?_
    intro k hk
    simpa [atRest] using hrest k _ (h.queued k hk)
  have hholders : s.permits = s.holders := by
    refine List.countP_congr ?_
    intro phase hphase
    obtain ⟨k, hk⟩ := List.getElem?_of_mem hphase
    have hcase := hrest k phase hk
    cases phase <;> first | rfl | cases hcase
  rw [← hfree, ← hholders]
  exact h.permits hclosed

theorem Kept.emptied {s : Pool} (h : Kept s) (hreturned : s.drain = .returned)
    (hended : ∀ phase ∈ s.tasks, phase = .ended) (conn : Nat) : ¬ s.Open conn := by
  refine h.ledger.none_open (h.drained hreturned) ?_ conn
  intro owner
  cases owner with
  | none =>
      show s.drain.conn = none
      rw [hreturned]
      rfl
  | some k =>
      show s.tasks[k]?.bind Phase.conn = none
      cases htask : s.tasks[k]? with
      | none => rfl
      | some phase =>
          rw [hended phase (List.mem_of_getElem? htask)]
          rfl

theorem Kept.bounded {s : Pool} (h : Kept s) : Bounded s :=
  ⟨h.limits, h.exclusive, h.balanced, h.emptied⟩

/-- **The pool bound.**  Every pool that a careful run reaches keeps its promise. -/
theorem bounded_of_careful {maxSize : Int} {pool : Pool} (hnew : Pool.new maxSize = some pool)
    {actions : List Action} (hcareful : Runs.Always step Careful pool actions) :
    Runs.Throughout step Bounded pool actions := by
  have hkept : Runs.Throughout step Kept pool actions :=
    Runs.throughout_of_guarded (fun _ _ _ => kept_of_step) (Kept.new hnew) hcareful
  refine ⟨hkept.1.bounded, ?_⟩
  exact Runs.Always.mono (fun _ _ _ _ h => h.bounded) hkept.2

/-- A pool of one permit: the second use waits and goes on with the permit of the first, the third is
timed out, and the pool is closed. -/
def quietRun : List Action :=
  [.acquire, .acquire, .ask 0, .ask 1, .enter 0, .proceed 0, .proceed 0, .exit 0, .resume 1,
    .enter 1, .acquire, .ask 2, .interrupt 2 .timeout, .handle 2, .close, .exit 1, .proceed 1]

theorem bounded_of_careful_quiet :
    ∃ pool, Pool.new 1 = some pool ∧ Runs.Throughout step Bounded pool quietRun :=
  ⟨_, rfl, @bounded_of_careful 1 _ rfl quietRun (by decide)⟩

/-- The second use is cancelled while it waits; the permit that it gives back is that of the first,
and a third use enters. -/
def cancelledRun : List Action :=
  [.acquire, .ask 0, .enter 0, .proceed 0, .proceed 0, .acquire, .ask 1, .interrupt 1 .cancelled,
    .handle 1, .acquire, .ask 2, .enter 2, .proceed 2, .proceed 2]

theorem bounded_counterexample :
    ¬ ∀ (maxSize : Int) (pool : Pool), Pool.new maxSize = some pool →
      ∀ actions, Runs.Throughout step Bounded pool actions := by
  intro h
  have hrun : ∃ pool t, Pool.new 1 = some pool ∧ Runs.exec step pool cancelledRun = some t ∧
      t.maxSize < t.holders := ⟨_, _, rfl, rfl, by decide⟩
  obtain ⟨pool, t, hnew, hexec, hover⟩ := hrun
  have hlast : Bounded t := (h 1 pool hnew cancelledRun).exec hexec
  exact absurd hlast.limit (Nat.not_le.mpr hover)

end SkyClaw.Security.SqlitePool
