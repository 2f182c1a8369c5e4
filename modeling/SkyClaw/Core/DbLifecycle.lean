import Mathlib.Data.List.Nodup
import Mathlib.Order.Nat
import SkyClaw.Lib.Runs

/-!
# The lifecycle of the database connections

`DatabaseLifecycleManager`: `init_all`, `get_connection`, `evict_connection` and `shutdown_all`, as
calls that run at the same time and give way at their awaits.

`init_all` opens connections without the lock of `get_connection` and without a look at the map,
`_init_single` has no way out that closes what it has opened, and `shutdown_all` clears the map after
it has closed what was in it some awaits before.  `oneConnection_of_careful`: a run in which
nothing falls between these steps keeps one connection a path.
-/

namespace SkyClaw.Core.DbLifecycle

open Function

/-! ## State -/

/-- Where `_init_single` waits. -/
inductive Phase where
  /-- the connection of `_recover_orphaned_wal` is being opened -/
  | recovering
  /-- it is used, and closed -/
  | recovered (temp : Nat)
  | connecting
  /-- the pragmas are applied -/
  | configuring (conn : Nat)
deriving DecidableEq, Repr

/-- The connection that an initialisation has open. -/
def Phase.held : Phase → Option Nat
  | recovering => none
  | recovered temp => some temp
  | connecting => none
  | configuring conn => some conn

/-- Who runs `_init_single`. -/
inductive Caller where
  /-- `init_all`, at a position in `_db_paths` -/
  | initAll (next : Nat)
  | getConnection
deriving DecidableEq, Repr

/-- What a call is doing. -/
inductive Call (P : Type) where
  /-- `init_all`, before the path at a position -/
  | initAll (next : Nat)
  | initSingle (caller : Caller) (path : P) (phase : Phase)
  /-- `get_connection`, before the lock -/
  | waiting (path : P)
  /-- `shutdown_all`, before it closes -/
  | checkpoint
  | closing (todo : List Nat)
  | ended
deriving DecidableEq, Repr

namespace Call

variable {P : Type}

/-- The path that a call initialises. -/
def initialises : Call P → Option P
  | initSingle _ path _ => some path
  | _ => none

/-- The connection that a call has open and that is not in the map. -/
def held : Call P → Option Nat
  | initSingle _ _ phase => phase.held
  | _ => none

/-- A `shutdown_all` that closes connections. -/
def isClosing : Call P → Bool
  | closing _ => true
  | _ => false

end Call

/-- The manager: its fields, every connection that it has opened with its path and whether it is
open, and the calls. -/
structure Manager (P : Type) where
  dbPaths : List P
  connections : List (P × Nat)
  initLock : Option Nat
  opened : List (P × Bool)
  calls : List (Call P)
  /-- what `get_connection` has returned, until it is evicted or shut down -/
  got : P → Option Nat
  /-- a `shutdown_all` has returned, and no call has been made since -/
  settled : Bool

variable {P : Type} [DecidableEq P]

/-- `DatabaseLifecycleManager(db_paths)`. -/
def Manager.new (dbPaths : List P) : Manager P := ⟨dbPaths, [], none, [], [], fun _ => none, false⟩

namespace Manager

section

variable (s : Manager P)

/-- A connection is open, and it is one of a path. -/
def Open (conn : Nat) (path : P) : Prop := s.opened[conn]? = some (path, true)

instance (s : Manager P) (conn : Nat) (path : P) : Decidable (s.Open conn path) :=
  inferInstanceAs (Decidable (_ = _))

/-- `self._connections[path]` -/
def lookup (s : Manager P) (path : P) : Option Nat := s.connections.lookup path

/-- `self._connections[path] = conn` -/
def store (path : P) (conn : Nat) : Manager P :=
  { s with
    connections :=
      if s.lookup path = none then s.connections ++ [(path, conn)]
      else s.connections.map fun entry => if entry.1 = path then (path, conn) else entry }

/-- `evict_connection` -/
def evict (path : P) : Manager P :=
  { s with
    connections := s.connections.filter fun entry => entry.1 ≠ path
    got := update s.got path none }

/-- A connection is opened; it has the next number. -/
def connect (path : P) : Manager P := { s with opened := s.opened ++ [(path, true)] }

def close (conn : Nat) : Manager P :=
  { s with opened := s.opened.modify conn fun entry => (entry.1, false) }

/-- A call is made. -/
def callNew (call : Call P) : Manager P :=
  { s with calls := s.calls ++ [call], settled := false }

/-- A call goes on. -/
def setCall (k : Nat) (call : Call P) : Manager P :=
  { s with calls := s.calls.set k call }

/-- A call ends, and gives the lock back if it has it. -/
def finish (k : Nat) : Manager P :=
  { s.setCall k .ended with initLock := if s.initLock = some k then none else s.initLock }

/-- `get_connection` returns. -/
def giveOut (path : P) (conn : Nat) : Manager P :=
  { s with got := update s.got path (some conn) }

/-- A call has the lock, and the path is registered. -/
def acquired (k : Nat) (path : P) : Manager P :=
  { s with
    dbPaths := if path ∈ s.dbPaths then s.dbPaths else s.dbPaths ++ [path]
    initLock := some k }

/-- `shutdown_all` clears the map and returns. -/
def cleared : Manager P :=
  { s with connections := [], got := fun _ => none, settled := true }

/-- The connections that are still to be closed; after the last one the map is cleared. -/
def closeRest (k : Nat) (todo : List Nat) : Manager P :=
  if todo = [] then (s.finish k).cleared else s.setCall k (.closing todo)

/-- `_init_single` has stored the connection and returned. -/
def stored (k : Nat) (caller : Caller) (path : P) (conn : Nat) : Manager P :=
  match caller with
  | .initAll next => (s.store path conn).setCall k (.initAll (next + 1))
  | .getConnection => ((s.store path conn).giveOut path conn).finish k

end

end Manager

/-! ## Steps -/

/-- What happens next. -/
inductive Action (P : Type) where
  | initAll
  | getConnection (path : P)
  | shutdownAll
  | evictConnection (path : P)
  /-- a store closes the connection of a path -/
  | callerCloses (path : P)
  /-- `init_all` comes to its next path -/
  | begin (k : Nat) (orphaned : Bool)
  /-- `get_connection` gets the lock -/
  | acquire (k : Nat) (orphaned : Bool)
  /-- what a call waits for is done -/
  | proceed (k : Nat)
  /-- it raises an exception -/
  | raise (k : Nat)
  | cancel (k : Nat)
deriving DecidableEq, Repr

open Manager

/-- `_init_single` starts: with the recovery of orphaned files, or without. -/
def initSingle (caller : Caller) (path : P) (orphaned : Bool) : Call P :=
  .initSingle caller path (if orphaned then .recovering else .connecting)

section

variable (s : Manager P)

/-- What a call waits for is done. -/
def proceed (k : Nat) : Call P → Option (Manager P)
  | .initSingle caller path .recovering =>
      some ((s.connect path).setCall k (.initSingle caller path (.recovered s.opened.length)))
  | .initSingle caller path (.recovered temp) =>
      some ((s.close temp).setCall k (.initSingle caller path .connecting))
  | .initSingle caller path .connecting =>
      some ((s.connect path).setCall k (.initSingle caller path (.configuring s.opened.length)))
  | .initSingle caller path (.configuring conn) => some (s.stored k caller path conn)
  | .checkpoint => some (s.closeRest k (s.connections.map Prod.snd))
  | .closing (conn :: todo) => some ((s.close conn).closeRest k todo)
  | _ => none

/-- What a call waits for raises: a recovery is given up with its connection as it is, a connection
stays as it is when its close fails, any other call ends. -/
def raised (k : Nat) : Call P → Option (Manager P)
  | .initSingle caller path .recovering => some (s.setCall k (.initSingle caller path .connecting))
  | .initSingle caller path (.recovered _) =>
      some (s.setCall k (.initSingle caller path .connecting))
  | .initSingle _ _ _ => some (s.finish k)
  | .closing (_ :: todo) => some (s.closeRest k todo)
  | _ => none

def step : Action P → Option (Manager P)
  | .initAll => some (s.callNew (.initAll 0))
  | .getConnection path =>
      match s.lookup path with
      | some conn => some (s.giveOut path conn)
      | none => some (s.callNew (.waiting path))
  | .shutdownAll => if s.connections = [] then some s.cleared else some (s.callNew .checkpoint)
  -- the callers have closed the connection
  | .evictConnection path =>
      if ∃ conn ∈ s.lookup path, s.Open conn path then none else some (s.evict path)
  | .callerCloses path => (s.lookup path).map s.close
  | .begin k orphaned =>
      match s.calls[k]? with
      | some (.initAll next) =>
          match s.dbPaths[next]? with
          | none => some (s.finish k)
          | some path => some (s.setCall k (initSingle (.initAll next) path orphaned))
      | _ => none
  | .acquire k orphaned =>
      match s.calls[k]? with
      | some (.waiting path) =>
          if s.initLock = none then
            match s.lookup path with
            | some conn => some ((s.giveOut path conn).finish k)
            | none => some ((s.acquired k path).setCall k (initSingle .getConnection path orphaned))
          else none
      | _ => none
  | .proceed k => s.calls[k]?.bind (proceed s k)
  | .raise k => s.calls[k]?.bind (raised s k)
  | .cancel k => s.calls[k]?.bind fun call => if call = .ended then none else some (s.finish k)

/-! ## One connection a path -/

/-- The promise about one step. -/
structure OneConnection (_ : Action P) (t : Manager P) : Prop where
  /-- at most one connection is open for a path -/
  single : ∀ {path conn other}, t.Open conn path → t.Open other path → conn = other
  /-- `get_connection` returns the connection that it has returned before -/
  same : ∀ {path conn other}, s.got path = some conn → t.got path = some other → conn = other
  /-- after the last `shutdown_all` nothing is open -/
  allClosed : t.settled = true → (∀ call ∈ t.calls, call = .ended) → ∀ conn path, ¬ t.Open conn path

/-- The path whose initialisation an action begins. -/
def starts : Action P → Option P
  | .begin k _ => s.calls[k]?.bind fun call => match call with
      | .initAll next => s.dbPaths[next]?
      | _ => none
  | .acquire k _ => s.calls[k]?.bind fun call => match call with
      | .waiting path => if s.lookup path = none then some path else none
      | _ => none
  | _ => none

/-- The map has no entry for a path, and no call is about to store one. -/
def Free (path : P) : Prop :=
  s.lookup path = none ∧ ∀ call ∈ s.calls, call.initialises ≠ some path

instance (s : Manager P) (path : P) : Decidable (Free s path) :=
  inferInstanceAs (Decidable (_ ∧ _))

/-- A call is about to store its connection. -/
def stores : Call P → Bool
  | .initSingle _ _ (.configuring _) => true
  | _ => false

/-- No step falls between those of another call: an initialisation begins for a free path only, none
stores its connection while a `shutdown_all` closes connections or after the last one, none ends
before it has stored or closed what it has open, and no close of `shutdown_all` fails. -/
def Careful (a : Action P) (_ : Manager P) : Prop :=
  (∀ path ∈ starts s a, Free s path) ∧
    match a with
    | .proceed k => ∀ call ∈ s.calls[k]?, stores call = true →
        s.settled = false ∧ ∀ other ∈ s.calls, other.isClosing = false
    | .raise k => ∀ call ∈ s.calls[k]?, call.held = none ∧ call.isClosing = false
    | .cancel k => ∀ call ∈ s.calls[k]?, call.held = none
    | _ => True

instance (s : Manager P) (a : Action P) (t : Manager P) : Decidable (Careful s a t) := by
  unfold Careful
  cases a <;> infer_instance

/-- What careful runs keep. -/
structure Kept : Prop where
  keys : (s.connections.map Prod.fst).Nodup
  inRange : ∀ entry ∈ s.connections, entry.2 < s.opened.length
  heldInRange : ∀ call ∈ s.calls, ∀ conn, call.held = some conn → conn < s.opened.length
  free : ∀ call ∈ s.calls, ∀ path, call.initialises = some path → s.lookup path = none
  alone : ∀ {j k : Nat} {call other : Call P} {path : P}, s.calls[j]? = some call →
    s.calls[k]? = some other → call.initialises = some path → other.initialises = some path → j = k
  accounted : ∀ {conn path}, s.Open conn path → (path, conn) ∈ s.connections ∨
    ∃ call ∈ s.calls, call.initialises = some path ∧ call.held = some conn
  covered : ∀ {todo}, Call.closing todo ∈ s.calls → ∀ entry ∈ s.connections, ∀ path,
    s.Open entry.2 path → entry.2 ∈ todo
  shut : s.settled = true → ∀ entry ∈ s.connections, ∀ path, ¬ s.Open entry.2 path
  returned : ∀ {path conn}, s.got path = some conn → (path, conn) ∈ s.connections

end

theorem Kept.new (dbPaths : List P) : Kept (Manager.new dbPaths) where
  keys := List.nodup_nil
  inRange := by simp [Manager.new]
  heldInRange := by simp [Manager.new]
  free := by simp [Manager.new]
  alone := by simp [Manager.new]
  accounted := by simp [Manager.new, Manager.Open]
  covered := by simp [Manager.new]
  shut := by simp [Manager.new]
  returned := by simp [Manager.new]

variable {s : Manager P}

theorem lookup_eq_none {path : P} :
    s.lookup path = none ↔ ∀ conn, (path, conn) ∉ s.connections := by
  unfold Manager.lookup
  rw [List.lookup_eq_none_iff]
  constructor
  · intro h conn hmem
    simpa using h _ hmem
  · rintro h ⟨owner, conn⟩ hmem
    rw [bne_iff_ne]
    rintro rfl
    exact h conn hmem

theorem mem_of_lookup {path : P} {conn : Nat} (h : s.lookup path = some conn) :
    (path, conn) ∈ s.connections := by
  obtain ⟨before, after, heq, -⟩ := List.lookup_eq_some_iff.mp h
  rw [heq]
  simp

theorem Kept.lookup_of_mem {path : P} {conn : Nat} (h : Kept s)
    (hmem : (path, conn) ∈ s.connections) : s.lookup path = some conn := by
  cases hlook : s.lookup path with
  | none => exact absurd hmem (lookup_eq_none.mp hlook conn)
  | some other =>
      have hother : (path, other) ∈ s.connections := mem_of_lookup hlook
      have heq := List.inj_on_of_nodup_map h.keys hmem hother rfl
      rw [(Prod.mk.inj heq).2]

theorem Kept.single {path : P} {conn other : Nat} (h : Kept s)
    (hconn : s.Open conn path) (hother : s.Open other path) : conn = other := by
  rcases h.accounted hconn with hmem | ⟨call, hcall, hinit, hheld⟩ <;>
    rcases h.accounted hother with hmem' | ⟨call', hcall', hinit', hheld'⟩
  · have := h.lookup_of_mem hmem
    rw [h.lookup_of_mem hmem'] at this
    exact (Option.some.inj this).symm
  · exact absurd hmem (lookup_eq_none.mp (h.free call' hcall' path hinit') conn)
  · exact absurd hmem' (lookup_eq_none.mp (h.free call hcall path hinit) other)
  · obtain ⟨j, hj⟩ := List.getElem?_of_mem hcall
    obtain ⟨k, hk⟩ := List.getElem?_of_mem hcall'
    obtain rfl : j = k := h.alone hj hk hinit hinit'
    cases hj.symm.trans hk
    exact Option.some.inj (hheld.symm.trans hheld')

theorem Kept.allClosed (h : Kept s) (hsettled : s.settled = true)
    (hended : ∀ call ∈ s.calls, call = .ended) (conn : Nat) (path : P) : ¬ s.Open conn path := by
  intro hopen
  rcases h.accounted hopen with hmem | ⟨call, hcall, hinit, -⟩
  · exact h.shut hsettled _ hmem path hopen
  · rw [hended call hcall] at hinit
    cases hinit

/-! ### What the operations keep -/

omit [DecidableEq P] in
theorem open_connect {owner path : P} {conn : Nat} :
    (s.connect owner).Open conn path ↔
      s.Open conn path ∨ conn = s.opened.length ∧ path = owner := by
  unfold Manager.Open Manager.connect
  rcases Nat.lt_trichotomy conn s.opened.length with hlt | rfl | hgt
  · rw [List.getElem?_append_left hlt]
    constructor
    · exact .inl
    · rintro (h | ⟨rfl, -⟩)
      · exact h
      · exact absurd hlt (Nat.lt_irrefl _)
  · simp [eq_comm]
  · rw [List.getElem?_eq_none (by simp; omega), List.getElem?_eq_none (by omega)]
    simp
    omega

omit [DecidableEq P] in
theorem open_close {path : P} {conn closed : Nat} :
    (s.close closed).Open conn path ↔ s.Open conn path ∧ conn ≠ closed := by
  unfold Manager.Open Manager.close
  by_cases heq : closed = conn
  · subst heq
    simp [Option.map_eq_some_iff]
  · rw [List.getElem?_modify_ne _ _ heq]
    constructor
    · exact fun h => ⟨h, fun hconn => heq hconn.symm⟩
    · exact And.left

variable {k : Nat}

omit [DecidableEq P] in
theorem mem_set_call {call other : Call P}
    (h : other ∈ (s.setCall k call).calls) : other = call ∨ other ∈ s.calls :=
  (List.mem_or_eq_of_mem_set h).symm

variable {old : Call P}

theorem Kept.accounted_setCall {conn : Nat} {path : P} (h : Kept s)
    (hk : s.calls[k]? = some old) (call : Call P) (hopen : s.Open conn path) :
    (path, conn) ∈ s.connections ∨ (old.initialises = some path ∧ old.held = some conn) ∨
      ∃ other ∈ (s.setCall k call).calls,
        other.initialises = some path ∧ other.held = some conn := by
  rcases h.accounted hopen with hin | ⟨other, hmem, hpath, hconn⟩
  · exact .inl hin
  · obtain ⟨j, hj⟩ := List.getElem?_of_mem hmem
    by_cases hjk : j = k
    · subst hjk
      cases hk.symm.trans hj
      exact .inr (.inl ⟨hpath, hconn⟩)
    · refine .inr (.inr ⟨other, List.mem_of_getElem? (i := j) ?_, hpath, hconn⟩)
      rw [Manager.setCall, List.getElem?_set_ne fun heq => hjk heq.symm]
      exact hj

/-- A call that is not an initialisation and closes nothing is made. -/
theorem Kept.callNew {call : Call P} (h : Kept s) (hinit : call.initialises = none)
    (hheld : call.held = none) (hclosing : ∀ todo, call ≠ .closing todo) : Kept (s.callNew call) := by
  have hmem : ∀ {other}, other ∈ (s.callNew call).calls → other ∈ s.calls ∨ other = call := by
    simp [Manager.callNew]
  have hat : ∀ {j : Nat} {other : Call P} {path : P}, (s.callNew call).calls[j]? = some other →
      other.initialises = some path → s.calls[j]? = some other := by
    intro j other path hj hother
    simp only [Manager.callNew, List.getElem?_append] at hj
    split at hj
    · exact hj
    · have : other = call := by simpa using List.mem_of_getElem? hj
      rw [this, hinit] at hother
      cases hother
  refine ⟨h.keys, h.inRange, ?_, ?_, ?_, ?_, ?_, ?_, h.returned⟩
  · intro other hother conn hconn
    rcases hmem hother with hold | rfl
    · exact h.heldInRange other hold conn hconn
    · rw [hheld] at hconn
      cases hconn
  · intro other hother path hpath
    rcases hmem hother with hold | rfl
    · exact h.free other hold path hpath
    · rw [hinit] at hpath
      cases hpath
  · intro j k one other path hj hk hone hother
    exact h.alone (hat hj hone) (hat hk hother) hone hother
  · intro conn path hopen
    rcases h.accounted hopen with hin | ⟨other, hother, hrest⟩
    · exact .inl hin
    · exact .inr ⟨other, List.mem_append_left _ hother, hrest⟩
  · intro todo htodo
    rcases hmem htodo with hold | heq
    · exact h.covered hold
    · exact absurd heq.symm (hclosing todo)
  · intro hsettled
    cases hsettled

/-- A call goes on.  What it had open is in the map by now, it begins an initialisation only for a
free path, and if it closes connections then all that are open. -/
theorem Kept.setCall {call : Call P} (h : Kept s)
    (hk : s.calls[k]? = some old)
    (hstored : ∀ conn path, old.held = some conn → old.initialises = some path →
      s.Open conn path → (path, conn) ∈ s.connections)
    (hheld : call.held = none)
    (hfree : ∀ path, call.initialises = some path → old.initialises = some path ∨ Free s path)
    (hclosing : ∀ todo, call = .closing todo → ∀ entry ∈ s.connections, ∀ path,
      s.Open entry.2 path → entry.2 ∈ todo) : Kept (s.setCall k call) := by
  have hold : old ∈ s.calls := List.mem_of_getElem? hk
  have hother : ∀ {j : Nat} {other : Call P}, (s.setCall k call).calls[j]? = some other → j ≠ k →
      s.calls[j]? = some other := by
    intro j other hj hne
    rwa [Manager.setCall, List.getElem?_set_ne hne.symm] at hj
  have hself : ∀ {other : Call P}, (s.setCall k call).calls[k]? = some other → other = call := by
    intro other hj
    rw [Manager.setCall, List.getElem?_set_self (List.getElem?_eq_some_iff.mp hk).1] at hj
    exact (Option.some.inj hj).symm
  -- another call that initialises the path of this one would have been at work before
  have hfirst : ∀ {j : Nat} {other : Call P} {path : P}, s.calls[j]? = some other →
      other.initialises = some path → call.initialises = some path → j = k := by
    intro j other path hj hpath hcall
    rcases hfree path hcall with hsame | ⟨-, hnone⟩
    · exact h.alone hj hk hpath hsame
    · exact absurd hpath (hnone other (List.mem_of_getElem? hj))
  refine ⟨h.keys, h.inRange, ?_, ?_, ?_, ?_, ?_, h.shut, h.returned⟩
  · intro other hmem conn hconn
    rcases mem_set_call hmem with rfl | hin
    · rw [hheld] at hconn
      cases hconn
    · exact h.heldInRange other hin conn hconn
  · intro other hmem path hpath
    rcases mem_set_call hmem with rfl | hin
    · rcases hfree path hpath with hsame | hfreed
      · exact h.free old hold path hsame
      · exact hfreed.1
    · exact h.free other hin path hpath
  · intro i j one other path hi hj hone hpath
    by_cases hik : i = k <;> by_cases hjk : j = k
    · rw [hik, hjk]
    · subst hik
      rw [hself hi] at hone
      exact (hfirst (hother hj hjk) hpath hone).symm
    · subst hjk
      rw [hself hj] at hpath
      exact hfirst (hother hi hik) hone hpath
    · exact h.alone (hother hi hik) (hother hj hjk) hone hpath
  · intro conn path hopen
    rcases h.accounted_setCall hk call hopen with hin | ⟨hpath, hconn⟩ | hother
    · exact .inl hin
    · exact .inl (hstored conn path hconn hpath hopen)
    · exact .inr hother
  · intro todo htodo
    rcases mem_set_call htodo with heq | hin
    · exact hclosing todo heq.symm
    · exact h.covered hin

theorem Kept.withLock (h : Kept s) (dbPaths : List P) (lock : Option Nat) :
    Kept { s with dbPaths := dbPaths, initLock := lock } :=
  ⟨h.keys, h.inRange, h.heldInRange, h.free, h.alone, h.accounted, h.covered, h.shut, h.returned⟩

theorem Kept.finish (h : Kept s)
    (hk : s.calls[k]? = some old)
    (hstored : ∀ conn path, old.held = some conn → old.initialises = some path →
      s.Open conn path → (path, conn) ∈ s.connections) : Kept (s.finish k) := by
  have hended : Kept (s.setCall k .ended) := by
    refine h.setCall hk hstored rfl (fun path hpath => ?_) fun todo htodo => ?_
    · cases hpath
    · cases htodo
  exact hended.withLock _ _

/-- An initialisation opens a connection. -/
theorem Kept.connected {caller : Caller} {path : P} {old new : Phase}
    (h : Kept s) (hk : s.calls[k]? = some (.initSingle caller path old)) (hold : old.held = none)
    (hnew : new.held = some s.opened.length) :
    Kept ((s.connect path).setCall k (.initSingle caller path new)) := by
  have hwas : Call.initSingle caller path old ∈ s.calls := List.mem_of_getElem? hk
  have hlook : s.lookup path = none := h.free _ hwas path rfl
  have hlen : s.opened.length < (s.connect path).opened.length := by simp [Manager.connect]
  have hmem : ∀ {other}, other ∈ ((s.connect path).setCall k (.initSingle caller path new)).calls →
      other = .initSingle caller path new ∨ other ∈ s.calls := fun h => mem_set_call h
  -- the call initialises the same path as before
  have hat : ∀ {j : Nat} {other : Call P} {owner : P},
      ((s.connect path).setCall k (.initSingle caller path new)).calls[j]? = some other →
      other.initialises = some owner →
      ∃ before, s.calls[j]? = some before ∧ before.initialises = some owner := by
    intro j other owner hj hother
    simp only [Manager.setCall, Manager.connect, List.getElem?_set] at hj
    split at hj
    · rename_i hjk
      subst hjk
      split at hj
      · cases hj
        exact ⟨_, hk, hother⟩
      · cases hj
    · exact ⟨other, hj, hother⟩
  have hopened : ∀ entry ∈ s.connections, ∀ owner, (s.connect path).Open entry.2 owner →
      s.Open entry.2 owner := by
    intro entry hentry owner hopen
    rcases open_connect.mp hopen with hwas | ⟨heq, -⟩
    · exact hwas
    · exact absurd (h.inRange entry hentry) (by omega)
  refine ⟨h.keys, fun entry hentry => Nat.lt_trans (h.inRange entry hentry) hlen, ?_, ?_, ?_, ?_, ?_,
    ?_, h.returned⟩
  · intro other hother conn hconn
    rcases hmem hother with rfl | hin
    · cases hnew.symm.trans hconn
      exact hlen
    · exact Nat.lt_trans (h.heldInRange other hin conn hconn) hlen
  · intro other hother owner howner
    rcases hmem hother with rfl | hin
    · exact h.free _ hwas owner howner
    · exact h.free other hin owner howner
  · intro i j one other owner hi hj hone hother
    obtain ⟨one', hi', hone'⟩ := hat hi hone
    obtain ⟨other', hj', hother'⟩ := hat hj hother
    exact h.alone hi' hj' hone' hother'
  · intro conn owner hopen
    have hlt : k < s.calls.length := (List.getElem?_eq_some_iff.mp hk).1
    rcases open_connect.mp hopen with hwas | ⟨rfl, rfl⟩
    · rcases h.accounted_setCall hk (.initSingle caller path new) hwas with
        hin | ⟨-, hheld⟩ | hother
      · exact .inl hin
      · rw [Call.held, hold] at hheld
        cases hheld
      · exact .inr hother
    · exact .inr ⟨_, List.mem_set hlt _, rfl, hnew⟩
  · intro todo htodo entry hentry owner hopen
    rcases hmem htodo with heq | hin
    · cases heq
    · exact h.covered hin entry hentry owner (hopened entry hentry owner hopen)
  · intro hsettled entry hentry owner hopen
    exact h.shut hsettled entry hentry owner (hopened entry hentry owner hopen)

theorem Kept.close (h : Kept s) (conn : Nat) : Kept (s.close conn) := by
  have hlen : (s.close conn).opened.length = s.opened.length := List.length_modify _ _ _
  refine ⟨h.keys, ?_, ?_, h.free, h.alone, ?_, ?_, ?_, h.returned⟩
  · rw [hlen]
    exact h.inRange
  · rw [hlen]
    exact h.heldInRange
  · intro other path hopen
    exact h.accounted (open_close.mp hopen).1
  · intro todo htodo entry hentry path hopen
    exact h.covered htodo entry hentry path (open_close.mp hopen).1
  · intro hsettled entry hentry path hopen
    exact h.shut hsettled entry hentry path (open_close.mp hopen).1

theorem Kept.giveOut {path : P} {conn : Nat} (h : Kept s)
    (hmem : (path, conn) ∈ s.connections) : Kept (s.giveOut path conn) := by
  refine ⟨h.keys, h.inRange, h.heldInRange, h.free, h.alone, h.accounted, h.covered, h.shut, ?_⟩
  intro owner other hgot
  by_cases heq : owner = path
  · subst heq
    simp only [Manager.giveOut, update_self] at hgot
    rw [← Option.some.inj hgot]
    exact hmem
  · simp only [Manager.giveOut, update_of_ne heq] at hgot
    exact h.returned hgot

theorem Kept.cleared (h : Kept s)
    (hclosed : ∀ entry ∈ s.connections, ∀ path, ¬ s.Open entry.2 path) : Kept s.cleared := by
  refine ⟨List.nodup_nil, ?_, h.heldInRange, fun _ _ _ _ => rfl, h.alone, ?_, ?_, ?_, ?_⟩
  · intro entry hentry
    cases hentry
  · intro conn path hopen
    rcases h.accounted hopen with hin | hheld
    · exact absurd hopen (hclosed _ hin path)
    · exact .inr hheld
  · intro todo _ entry hentry
    cases hentry
  · intro _ entry hentry
    cases hentry
  · intro path conn hgot
    cases hgot

variable {todo : List Nat}

/-- `shutdown_all` goes on to its next connection, or returns. -/
theorem Kept.closeRest (h : Kept s)
    (hk : s.calls[k]? = some old) (hold : old.held = none)
    (hcovered : ∀ entry ∈ s.connections, ∀ path, s.Open entry.2 path → entry.2 ∈ todo) :
    Kept (s.closeRest k todo) := by
  have hnone : ∀ conn path, old.held = some conn → old.initialises = some path →
      s.Open conn path → (path, conn) ∈ s.connections := by
    intro conn path hconn
    rw [hold] at hconn
    cases hconn
  unfold Manager.closeRest
  split
  · rename_i hnil
    refine (h.finish hk hnone).cleared fun entry hentry path hopen => ?_
    have hin := hcovered entry hentry path hopen
    rw [hnil] at hin
    cases hin
  · refine h.setCall hk hnone rfl (fun path hpath => ?_) fun rest hrest => ?_
    · cases hpath
    · cases hrest
      exact hcovered

/-- A connection that is closed is evicted. -/
theorem Kept.evict {path : P} (h : Kept s)
    (hclosed : ¬ ∃ conn ∈ s.lookup path, s.Open conn path) : Kept (s.evict path) := by
  have hsub : ∀ {entry}, entry ∈ (s.evict path).connections ↔
      entry ∈ s.connections ∧ entry.1 ≠ path := by
    simp [Manager.evict]
  have hkeep : ∀ {owner conn}, (owner, conn) ∈ s.connections → owner ≠ path →
      (owner, conn) ∈ (s.evict path).connections := fun hin hne => hsub.mpr ⟨hin, hne⟩
  refine ⟨?_, fun entry hentry => h.inRange entry (hsub.mp hentry).1, h.heldInRange, ?_, h.alone,
    ?_, ?_, ?_, ?_⟩
  · exact (List.filter_sublist.map Prod.fst).nodup h.keys
  · intro call hcall owner hinit
    rw [lookup_eq_none]
    intro conn hin
    exact lookup_eq_none.mp (h.free call hcall owner hinit) conn (hsub.mp hin).1
  · intro conn owner hopen
    rcases h.accounted hopen with hin | hheld
    · refine .inl (hkeep hin ?_)
      rintro rfl
      exact hclosed ⟨conn, h.lookup_of_mem hin, hopen⟩
    · exact .inr hheld
  · intro todo htodo entry hentry
    exact h.covered htodo entry (hsub.mp hentry).1
  · intro hsettled entry hentry
    exact h.shut hsettled entry (hsub.mp hentry).1
  · intro owner conn hgot
    by_cases heq : owner = path
    · subst heq
      simp only [Manager.evict, update_self] at hgot
      cases hgot
    · simp only [Manager.evict, update_of_ne heq] at hgot
      exact hkeep (h.returned hgot) heq

/-- The connection of an initialisation is stored, and the call that has made it goes on. -/
theorem Kept.store {conn : Nat} {caller : Caller} {path : P} {call : Call P}
    (h : Kept s) (hk : s.calls[k]? = some (.initSingle caller path (.configuring conn)))
    (hsettled : s.settled = false) (hopen : ∀ other ∈ s.calls, other.isClosing = false)
    (hinit : call.initialises = none) (hheld : call.held = none) (hclosing : call.isClosing = false) :
    Kept ((s.store path conn).setCall k call) := by
  have hin : Call.initSingle caller path (.configuring conn) ∈ s.calls := List.mem_of_getElem? hk
  have hlook : s.lookup path = none := h.free _ hin path rfl
  have hstore : (s.store path conn).connections = s.connections ++ [(path, conn)] :=
    if_pos hlook
  have hcalls : ∀ {j : Nat} {other : Call P},
      ((s.store path conn).setCall k call).calls[j]? = some other →
      other.initialises ≠ none → j ≠ k ∧ s.calls[j]? = some other := by
    intro j other hj hsome
    simp only [Manager.setCall, List.getElem?_set] at hj
    split at hj
    · split at hj
      · cases hj
        exact absurd hinit hsome
      · cases hj
    · rename_i hne
      exact ⟨fun heq => hne heq.symm, hj⟩
  have hmem : ∀ {other}, other ∈ ((s.store path conn).setCall k call).calls →
      other = call ∨ other ∈ s.calls := fun h => mem_set_call h
  refine ⟨?_, ?_, ?_, ?_, ?_, ?_, ?_, ?_, ?_⟩
  · show ((s.store path conn).connections.map Prod.fst).Nodup
    rw [hstore, List.map_append, List.nodup_append]
    refine ⟨h.keys, List.nodup_singleton _, ?_⟩
    rintro owner howner other hother rfl
    obtain ⟨⟨_, other⟩, hentry, rfl⟩ := List.mem_map.mp howner
    obtain rfl := List.mem_singleton.mp hother
    exact lookup_eq_none.mp hlook other hentry
  · intro entry hentry
    replace hentry : entry ∈ (s.store path conn).connections := hentry
    rw [hstore, List.mem_append, List.mem_singleton] at hentry
    rcases hentry with hold | rfl
    · exact h.inRange entry hold
    · exact h.heldInRange _ hin conn rfl
  · intro other hother c hc
    rcases hmem hother with rfl | hold
    · rw [hheld] at hc
      cases hc
    · exact h.heldInRange other hold c hc
  · intro other hother owner howner
    obtain ⟨j, hj⟩ := List.getElem?_of_mem hother
    obtain ⟨hjk, hwas⟩ := hcalls hj (by rw [howner]; exact Option.some_ne_none owner)
    rw [lookup_eq_none]
    intro c hc
    replace hc : (owner, c) ∈ (s.store path conn).connections := hc
    rw [hstore, List.mem_append, List.mem_singleton] at hc
    rcases hc with hold | heq
    · exact lookup_eq_none.mp (h.free other (List.mem_of_getElem? hwas) owner howner) c hold
    · cases heq
      exact hjk (h.alone hwas hk howner rfl)
  · intro i j one other owner hi hj hone hother
    have hi := (hcalls hi (by rw [hone]; exact Option.some_ne_none owner)).2
    have hj := (hcalls hj (by rw [hother]; exact Option.some_ne_none owner)).2
    exact h.alone hi hj hone hother
  · intro c owner hc
    show (owner, c) ∈ (s.store path conn).connections ∨ _
    rw [hstore, List.mem_append, List.mem_singleton]
    rcases h.accounted_setCall hk call hc with hold | ⟨howner, hholds⟩ | hother
    · exact .inl (.inl hold)
    · cases hholds
      cases howner
      exact .inl (.inr rfl)
    · exact .inr hother
  · intro todo htodo
    rcases hmem htodo with rfl | hold
    · cases hclosing
    · cases hopen _ hold
  · intro hset
    rw [show s.settled = true from hset] at hsettled
    cases hsettled
  · intro owner c hgot
    show (owner, c) ∈ (s.store path conn).connections
    rw [hstore]
    exact List.mem_append_left _ (h.returned hgot)

theorem mem_store {path : P} {conn : Nat} (h : s.lookup path = none) :
    (path, conn) ∈ (s.store path conn).connections := by
  rw [Manager.store, if_pos h]
  exact List.mem_append_right _ (List.mem_singleton_self _)

theorem Kept.stored {conn : Nat} {caller : Caller} {path : P}
    (h : Kept s) (hk : s.calls[k]? = some (.initSingle caller path (.configuring conn)))
    (hsettled : s.settled = false) (hopen : ∀ other ∈ s.calls, other.isClosing = false) :
    Kept (s.stored k caller path conn) := by
  have hlook : s.lookup path = none := h.free _ (List.mem_of_getElem? hk) path rfl
  cases caller with
  | initAll next => exact h.store hk hsettled hopen rfl rfl rfl
  | getConnection =>
      have hstore : Kept ((s.store path conn).setCall k .ended) :=
        h.store hk hsettled hopen rfl rfl rfl
      exact (hstore.giveOut (mem_store hlook)).withLock _ _

/-! ### Steps -/

variable {t : Manager P}

/-- What a careful run keeps when a call goes on. -/
theorem kept_proceed {call : Call P} (h : Kept s)
    (hk : s.calls[k]? = some call) (hproceed : proceed s k call = some t)
    (hcareful : stores call = true →
      s.settled = false ∧ ∀ other ∈ s.calls, other.isClosing = false) : Kept t := by
  have hopenOf : ∀ entry ∈ s.connections, ∀ owner, s.Open entry.2 owner →
      entry.2 ∈ s.connections.map Prod.snd :=
    fun entry hentry _ _ => List.mem_map_of_mem hentry
  cases call with
  | initSingle caller path phase =>
      cases phase with
      | recovering | connecting =>
          cases hproceed
          exact h.connected hk rfl rfl
      | recovered temp =>
          cases hproceed
          refine (h.close temp).setCall hk (fun conn owner hheld _ hopen => ?_) rfl
            (fun owner howner => .inl howner) fun todo htodo => ?_
          · -- the connection that the call had open is the one that is closed
            cases hheld
            exact absurd rfl (open_close.mp hopen).2
          · cases htodo
      | configuring conn =>
          cases hproceed
          obtain ⟨hsettled, hopen⟩ := hcareful rfl
          exact h.stored hk hsettled hopen
  | checkpoint =>
      cases hproceed
      exact h.closeRest hk rfl hopenOf
  | closing todo =>
      cases todo with
      | nil => cases hproceed
      | cons conn rest =>
          cases hproceed
          refine (h.close conn).closeRest hk rfl fun entry hentry owner hopen => ?_
          obtain ⟨hopen, hne⟩ := open_close.mp hopen
          exact (List.mem_cons.mp
            (h.covered (List.mem_of_getElem? hk) entry hentry owner hopen)).resolve_left hne
  | initAll | waiting | ended => cases hproceed

/-- A call that had nothing open fails. -/
theorem kept_raised {call : Call P} (h : Kept s)
    (hk : s.calls[k]? = some call) (hraised : raised s k call = some t)
    (hheld : call.held = none) (hclosing : call.isClosing = false) : Kept t := by
  have hnone : ∀ conn path, call.held = some conn → call.initialises = some path →
      s.Open conn path → (path, conn) ∈ s.connections := by
    intro conn path hconn
    rw [hheld] at hconn
    cases hconn
  cases call with
  | initSingle caller path phase =>
      cases phase with
      | recovering =>
          cases hraised
          refine h.setCall hk hnone rfl (fun owner howner => .inl howner) fun todo htodo => ?_
          cases htodo
      | recovered | configuring => cases hheld
      | connecting =>
          cases hraised
          exact h.finish hk hnone
  | closing todo => cases hclosing
  | checkpoint | initAll | waiting | ended => cases hraised

variable {orphaned : Bool}

theorem Kept.begins {caller : Caller} {path : P} (h : Kept s) (hk : s.calls[k]? = some old) (hold : old.held = none)
    (hfree : Free s path) : Kept (s.setCall k (initSingle caller path orphaned)) := by
  refine h.setCall hk (fun conn owner hheld => ?_) ?_ (fun owner howner => ?_) fun todo htodo => ?_
  · rw [hold] at hheld
    cases hheld
  · cases orphaned <;> rfl
  · cases howner
    exact .inr hfree
  · cases htodo

theorem begin_cases
    (hstep : step s (.begin k orphaned) = some t) :
    ∃ next, s.calls[k]? = some (.initAll next) ∧
      ((s.dbPaths[next]? = none ∧ t = s.finish k) ∨
        ∃ path, s.dbPaths[next]? = some path ∧
          t = s.setCall k (initSingle (.initAll next) path orphaned)) := by
  simp only [step] at hstep
  split at hstep
  · rename_i next hk
    split at hstep
    · rename_i hend
      exact ⟨next, hk, .inl ⟨hend, (Option.some.inj hstep).symm⟩⟩
    · rename_i path hpath
      exact ⟨next, hk, .inr ⟨path, hpath, (Option.some.inj hstep).symm⟩⟩
  · cases hstep

theorem acquire_cases
    (hstep : step s (.acquire k orphaned) = some t) :
    ∃ path, s.calls[k]? = some (.waiting path) ∧
      ((∃ conn, s.lookup path = some conn ∧ t = (s.giveOut path conn).finish k) ∨
        (s.lookup path = none ∧
          t = (s.acquired k path).setCall k (initSingle .getConnection path orphaned))) := by
  simp only [step] at hstep
  split at hstep
  · rename_i path hk
    split at hstep
    · split at hstep
      · rename_i conn hlook
        exact ⟨path, hk, .inl ⟨conn, hlook, (Option.some.inj hstep).symm⟩⟩
      · rename_i hlook
        exact ⟨path, hk, .inr ⟨hlook, (Option.some.inj hstep).symm⟩⟩
    · cases hstep
  · cases hstep

variable {a : Action P}

/-- A careful step keeps the connections apart. -/
theorem kept_of_step (h : Kept s) (hstep : step s a = some t)
    (hcareful : Careful s a t) : Kept t := by
  obtain ⟨hstarts, hrest⟩ := hcareful
  cases a with
  | initAll =>
      cases hstep
      exact h.callNew rfl rfl fun todo htodo => by cases htodo
  | getConnection path =>
      simp only [step] at hstep
      split at hstep
      · rename_i conn hlook
        cases hstep
        exact h.giveOut (mem_of_lookup hlook)
      · cases hstep
        exact h.callNew rfl rfl fun todo htodo => by cases htodo
  | shutdownAll =>
      simp only [step] at hstep
      split at hstep
      · rename_i hnil
        cases hstep
        refine h.cleared fun entry hentry => ?_
        rw [hnil] at hentry
        cases hentry
      · cases hstep
        exact h.callNew rfl rfl fun todo htodo => by cases htodo
  | evictConnection path =>
      simp only [step] at hstep
      split at hstep
      · cases hstep
      · rename_i hclosed
        cases hstep
        exact h.evict hclosed
  | callerCloses path =>
      obtain ⟨conn, -, rfl⟩ := Option.map_eq_some_iff.mp hstep
      exact h.close conn
  | begin k orphaned =>
      obtain ⟨next, hk, ⟨-, rfl⟩ | ⟨path, hpath, rfl⟩⟩ := begin_cases hstep
      · refine h.finish hk fun conn path hheld => ?_
        cases hheld
      · refine h.begins hk rfl (hstarts path ?_)
        simp [starts, hk, hpath]
  | acquire k orphaned =>
      obtain ⟨path, hk, ⟨conn, hlook, rfl⟩ | ⟨hlook, rfl⟩⟩ := acquire_cases hstep
      · refine (h.giveOut (mem_of_lookup hlook)).finish hk fun c owner hheld => ?_
        cases hheld
      · have hbegins : Kept (s.setCall k (initSingle .getConnection path orphaned)) := by
          refine h.begins hk rfl (hstarts path ?_)
          simp [starts, hk, hlook]
        exact hbegins.withLock _ _
  | proceed k =>
      obtain ⟨call, hk, hproceed⟩ := Option.bind_eq_some_iff.mp hstep
      exact kept_proceed h hk hproceed (hrest call hk)
  | raise k =>
      obtain ⟨call, hk, hraised⟩ := Option.bind_eq_some_iff.mp hstep
      obtain ⟨hheld, hclosing⟩ := hrest call hk
      exact kept_raised h hk hraised hheld hclosing
  | cancel k =>
      obtain ⟨call, hk, hcancel⟩ := Option.bind_eq_some_iff.mp hstep
      split at hcancel
      · cases hcancel
      · cases hcancel
        refine h.finish hk fun conn path hheld => ?_
        rw [hrest call hk] at hheld
        cases hheld

/-- What `get_connection` returns next: what it has returned, what is in the map, or a connection
for a path that the map does not have. -/
def Follows (s t : Manager P) : Prop := ∀ path conn, t.got path = some conn →
  s.got path = some conn ∨ s.lookup path = some conn ∨ s.lookup path = none

theorem follows_of_got (hgot : t.got = s.got) : Follows s t := by
  intro path conn hconn
  rw [hgot] at hconn
  exact .inl hconn

theorem follows_giveOut {path : P} (conn : Nat)
    (hgot : t.got = (s.giveOut path conn).got)
    (hlook : s.lookup path = some conn ∨ s.lookup path = none) : Follows s t := by
  intro owner other hother
  rw [hgot] at hother
  by_cases heq : owner = path
  · subst heq
    simp only [Manager.giveOut, update_self] at hother
    rw [← Option.some.inj hother]
    exact .inr hlook
  · simp only [Manager.giveOut, update_of_ne heq] at hother
    exact .inl hother

theorem follows_closeRest (hgot : t.got = s.got) :
    Follows s (t.closeRest k todo) := by
  intro path conn hconn
  unfold Manager.closeRest at hconn
  split at hconn
  · cases hconn
  · rw [← hgot]
    exact .inl hconn

theorem follows_proceed {call : Call P} (h : Kept s)
    (hk : s.calls[k]? = some call) (hproceed : proceed s k call = some t) : Follows s t := by
  cases call with
  | initSingle caller path phase =>
      have hlook : s.lookup path = none := h.free _ (List.mem_of_getElem? hk) path rfl
      cases phase with
      | configuring conn =>
          cases hproceed
          cases caller with
          | initAll next => exact follows_of_got rfl
          | getConnection => exact follows_giveOut conn rfl (.inr hlook)
      | _ =>
          cases hproceed
          exact follows_of_got rfl
  | checkpoint =>
      cases hproceed
      exact follows_closeRest rfl
  | closing todo =>
      cases todo with
      | nil => cases hproceed
      | cons conn rest =>
          cases hproceed
          exact follows_closeRest rfl
  | _ => cases hproceed

theorem follows_raised {call : Call P}
    (hraised : raised s k call = some t) : Follows s t := by
  cases call with
  | initSingle caller path phase =>
      cases phase <;>
      · cases hraised
        exact follows_of_got rfl
  | closing todo =>
      cases todo with
      | nil => cases hraised
      | cons conn rest =>
          cases hraised
          exact follows_closeRest rfl
  | _ => cases hraised

theorem follows_of_step (h : Kept s)
    (hstep : step s a = some t) : Follows s t := by
  cases a with
  | initAll =>
      cases hstep
      exact follows_of_got rfl
  | getConnection path =>
      simp only [step] at hstep
      split at hstep
      · rename_i conn hlook
        cases hstep
        exact follows_giveOut conn rfl (.inl hlook)
      · cases hstep
        exact follows_of_got rfl
  | shutdownAll =>
      simp only [step] at hstep
      split at hstep
      · cases hstep
        intro path conn hgot
        cases hgot
      · cases hstep
        exact follows_of_got rfl
  | evictConnection path =>
      simp only [step] at hstep
      split at hstep
      · cases hstep
      · cases hstep
        intro owner conn hgot
        by_cases heq : owner = path
        · subst heq
          simp only [Manager.evict, update_self] at hgot
          cases hgot
        · simp only [Manager.evict, update_of_ne heq] at hgot
          exact .inl hgot
  | callerCloses path =>
      obtain ⟨conn, -, rfl⟩ := Option.map_eq_some_iff.mp hstep
      exact follows_of_got rfl
  | begin k orphaned =>
      obtain ⟨next, -, ⟨-, rfl⟩ | ⟨path, -, rfl⟩⟩ := begin_cases hstep
      · exact follows_of_got rfl
      · exact follows_of_got rfl
  | acquire k orphaned =>
      obtain ⟨path, -, ⟨conn, hlook, rfl⟩ | ⟨-, rfl⟩⟩ := acquire_cases hstep
      · exact follows_giveOut conn rfl (.inl hlook)
      · exact follows_of_got rfl
  | proceed k =>
      obtain ⟨call, hk, hproceed⟩ := Option.bind_eq_some_iff.mp hstep
      exact follows_proceed h hk hproceed
  | raise k =>
      obtain ⟨call, hk, hraised⟩ := Option.bind_eq_some_iff.mp hstep
      exact follows_raised hraised
  | cancel k =>
      obtain ⟨call, hk, hcancel⟩ := Option.bind_eq_some_iff.mp hstep
      split at hcancel
      · cases hcancel
      · cases hcancel
        exact follows_of_got rfl

theorem Kept.same {path : P} {conn other : Nat} (h : Kept s)
    (hfollows : Follows s t) (hconn : s.got path = some conn) (hother : t.got path = some other) :
    conn = other := by
  have hlook : s.lookup path = some conn := h.lookup_of_mem (h.returned hconn)
  rcases hfollows path other hother with hgot | hsame | hnone
  · exact Option.some.inj (hconn.symm.trans hgot)
  · exact Option.some.inj (hlook.symm.trans hsame)
  · rw [hnone] at hlook
    cases hlook

/-- **One connection a path.**  A careful run of a new manager has one open connection for a path
at most, `get_connection` returns it until it is evicted or shut down, and after the last
`shutdown_all` every connection is closed. -/
theorem oneConnection_of_careful (dbPaths : List P) (actions : List (Action P))
    (h : Runs.Always step Careful (Manager.new dbPaths) actions) :
    Runs.Always step OneConnection (Manager.new dbPaths) actions := by
  have hkept : Runs.Throughout step Kept (Manager.new dbPaths) actions :=
    Runs.throughout_of_guarded (fun _ _ _ => kept_of_step) (Kept.new dbPaths) h
  refine Runs.Always.of_throughout (fun s a t hs hstep hcareful => ?_) hkept h
  have ht : Kept t := kept_of_step hs hstep hcareful
  exact ⟨ht.single, hs.same (follows_of_step hs hstep), ht.allClosed⟩

/-- `init_all` opens two databases one of which has orphaned files, a store asks for one of them
and for a third one, its connection is closed and evicted, and all is shut down. -/
def quietRun : List (Action Nat) :=
  [.initAll, .begin 0 true, .proceed 0, .proceed 0, .proceed 0, .proceed 0, .begin 0 false,
    .proceed 0, .proceed 0, .begin 0 false, .getConnection 1, .getConnection 2, .acquire 1 false,
    .proceed 1, .proceed 1, .getConnection 2, .callerCloses 2, .evictConnection 2, .shutdownAll,
    .proceed 2, .proceed 2, .proceed 2]

theorem oneConnection_of_careful_quiet :
    Runs.Always step OneConnection (Manager.new [0, 1]) quietRun :=
  oneConnection_of_careful [0, 1] quietRun (by decide)

/-- `get_connection` has opened a connection when `init_all` opens its own. -/
def overlapping : List (Action Nat) :=
  [.getConnection 0, .acquire 0 false, .proceed 0, .proceed 0, .initAll, .begin 1 false]

/-- The connection that `get_connection` has returned is still open when `init_all` replaces it. -/
theorem oneConnection_counterexample :
    ¬ ∀ actions : List (Action Nat), Runs.Always step OneConnection (Manager.new [0]) actions := by
  intro h
  have hat : ∃ s t, Runs.exec step (Manager.new [0]) overlapping = some s ∧
      step s (.proceed 1) = some t ∧ t.Open 0 0 ∧ t.Open 1 0 :=
    ⟨_, _, rfl, rfl, by decide, by decide⟩
  obtain ⟨s, t, hrun, hstep, hfirst, hsecond⟩ := hat
  have hone : OneConnection s (.proceed 1) t :=
    Runs.Always.at_prefix (h (overlapping ++ [.proceed 1])) hrun hstep
  cases hone.single hfirst hsecond

end SkyClaw.Core.DbLifecycle
