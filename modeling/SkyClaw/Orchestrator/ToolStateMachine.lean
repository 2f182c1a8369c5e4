import SkyClaw.Lib.Json
import SkyClaw.Lib.KeyedTable
import SkyClaw.Lib.Runs
import Mathlib.Algebra.Order.Ring.Rat

/-!
# The tool state machine

Tasks move from PENDING to a terminal state, and `IdempotencyGuard` lets one task at a time
hold the key of its tool and payload.  `ownership_iff` says in which runs a task that
acquired its key keeps it until it is done, and a call that raises changes nothing.
-/

namespace SkyClaw.Orchestrator.Tasks

/-! ## Records and errors -/

inductive TaskState
  | pending
  | running
  | completed
  | failed
  | awaitingApproval
deriving DecidableEq

def TaskState.value : TaskState → String
  | .pending => "PENDING"
  | .running => "RUNNING"
  | .completed => "COMPLETED"
  | .failed => "FAILED"
  | .awaitingApproval => "AWAITING_APPROVAL"

def validTransitions : TaskState → List TaskState
  | .pending => [.running, .awaitingApproval]
  | .awaitingApproval => [.running, .failed]
  | .running => [.completed, .failed]
  | .completed => []
  | .failed => []

def TaskState.terminal : TaskState → Bool
  | .completed | .failed => true
  | _ => false

/-- The state of this name, if the transition to it is allowed. -/
def allowed (current : TaskState) (newState : String) : Option TaskState :=
  (validTransitions current).find? fun state => state.value = newState

inductive ToolError
  | keyError (message : String)
  | invalidTransition (message : String)
  /-- pydantic's `ValidationError`. -/
  | validation
deriving DecidableEq

structure TaskRecord where
  taskId : String
  toolName : String
  state : TaskState
  idempotencyKey : String
  createdAt : ℚ
  updatedAt : ℚ
  errorMessage : Json
  result : Json

/-- The strict model takes a text or None, and a dict or None. -/
def validRecord : Json → Json → Bool
  | .null, .null | .null, .obj _ | .str _, .null | .str _, .obj _ => true
  | _, _ => false

/-! ## The machine -/

structure ToolStateMachine where
  tasks : KeyedTable TaskRecord.taskId
  /-- `_active` of the guard: the key and the task that holds it. -/
  active : KeyedTable (Prod.fst : String × String → String)
  taskCounter : Nat

def ToolStateMachine.new : ToolStateMachine := ⟨.empty _, .empty _, 0⟩

/-- `f"task_{n}"`. -/
def taskIdOf (n : Nat) : String := "task_" ++ toString n

/-- `acquire` of the guard. -/
def ToolStateMachine.acquire (m : ToolStateMachine) (key taskId : String) :
    ToolStateMachine × Bool :=
  match m.active.lookup key with
  | some _ => (m, false)
  | none => ({ m with active := m.active.upsert (key, taskId) }, true)

/-- `release` of the guard. -/
def ToolStateMachine.release (m : ToolStateMachine) (key : String) : ToolStateMachine :=
  { m with active := m.active.deleteWhere fun row => row.1 = key }

/-- What a call returns. -/
inductive Returned
  | record (task : TaskRecord)
  | acquired (success : Bool)
  | cleaned (count : Nat)

section Calls

-- `make_key`: the hash of the tool and the sorted payload.
variable (makeKey : String → Json → String)

def createTask (toolName : String) (payload : Json) (initialState : String) (now : ℚ)
    (m : ToolStateMachine) : ToolStateMachine × Except ToolError Returned :=
  match [TaskState.pending, .awaitingApproval].find? fun state => state.value = initialState with
  -- The set is printed in either order.
  | none =>
      (m, .error (.invalidTransition ("Invalid initial state: " ++ initialState ++
        ". Allowed: \x7b'PENDING', 'AWAITING_APPROVAL'\x7d")))
  | some state =>
      let record : TaskRecord :=
        { taskId := taskIdOf (m.taskCounter + 1), toolName := toolName, state := state,
          idempotencyKey := makeKey toolName payload, createdAt := now, updatedAt := now,
          errorMessage := .null, result := .null }
      ({ m with tasks := m.tasks.upsert record, taskCounter := m.taskCounter + 1 },
        .ok (.record record))

def acquireIdempotency (taskId : String) (m : ToolStateMachine) :
    ToolStateMachine × Except ToolError Returned :=
  match m.tasks.lookup taskId with
  | none => (m, .error (.keyError ("Task not found: " ++ taskId)))
  | some task =>
      let (m, success) := m.acquire task.idempotencyKey taskId
      (m, .ok (.acquired success))

/-- `transition`: the key is released before the new record is built. -/
def transition (taskId newState : String) (result errorMessage : Json) (now : ℚ)
    (m : ToolStateMachine) : ToolStateMachine × Except ToolError Returned :=
  match m.tasks.lookup taskId with
  | none => (m, .error (.keyError ("Task not found: " ++ taskId)))
  | some current =>
      match allowed current.state newState with
      | none =>
          (m, .error (.invalidTransition ("Invalid transition: " ++ current.state.value ++ " → " ++
            newState ++ " (task=" ++ taskId ++ ", tool=" ++ current.toolName ++ ")")))
      | some state =>
          -- `_active.pop(key, None)` asks neither who holds the key nor whether it is held.
          let m := if state.terminal then m.release current.idempotencyKey else m
          if validRecord errorMessage result then
            let updated : TaskRecord :=
              { taskId := taskId, toolName := current.toolName, state := state,
                idempotencyKey := current.idempotencyKey, createdAt := current.createdAt,
                updatedAt := now, errorMessage := errorMessage, result := result }
            ({ m with tasks := m.tasks.upsert updated }, .ok (.record updated))
          else (m, .error .validation)

/-- A task that `cleanup_terminal` removes. -/
def isStale (maxAge now : ℚ) (task : TaskRecord) : Bool :=
  task.state.terminal && decide (maxAge ≤ now - task.updatedAt)

def cleanupTerminal (maxAge now : ℚ) (m : ToolStateMachine) :
    ToolStateMachine × Except ToolError Returned :=
  ({ m with tasks := m.tasks.deleteWhere (isStale maxAge now) },
    .ok (.cleaned (m.tasks.countWhere (isStale maxAge now))))

inductive ToolCall
  | createTask (toolName : String) (payload : Json) (initialState : String) (now : ℚ)
  | acquireIdempotency (taskId : String)
  | transition (taskId newState : String) (result errorMessage : Json) (now : ℚ)
  | cleanupTerminal (maxAge now : ℚ)

def perform (m : ToolStateMachine) : ToolCall → ToolStateMachine × Except ToolError Returned
  | .createTask toolName payload initialState now =>
      Tasks.createTask makeKey toolName payload initialState now m
  | .acquireIdempotency taskId => Tasks.acquireIdempotency taskId m
  | .transition taskId newState result errorMessage now =>
      Tasks.transition taskId newState result errorMessage now m
  | .cleanupTerminal maxAge now => Tasks.cleanupTerminal maxAge now m

/-- The machine, and the keys that were acquired, each with the task. -/
structure Usage where
  machine : ToolStateMachine
  acquired : List (String × String)

def Usage.new : Usage := ⟨.new, []⟩

/-- The key that a call has acquired. -/
def acquiredBy (m : ToolStateMachine) (call : ToolCall) : List (String × String) :=
  match call, (perform makeKey m call).2 with
  | .acquireIdempotency taskId, .ok (.acquired true) =>
      ((m.tasks.lookup taskId).map fun task => (task.idempotencyKey, taskId)).toList
  | _, _ => []

def usageStep (s : Usage) (call : ToolCall) : Option Usage :=
  some ⟨(perform makeKey s.machine call).1, s.acquired ++ acquiredBy makeKey s.machine call⟩

end Calls

/-- A task that acquired a key and is not done holds it. -/
def KeysOwned (s : Usage) : Prop :=
  ∀ key taskId, (key, taskId) ∈ s.acquired →
    ∀ task, s.machine.tasks.lookup taskId = some task → task.state.terminal = false →
      s.machine.active.lookup key = some (key, taskId)

/-- A call that raises has changed neither the tasks nor the keys. -/
def RaisesCleanly (makeKey : String → Json → String) (s : Usage) (call : ToolCall) (t : Usage) :
    Prop :=
  ∀ error, (perform makeKey s.machine call).2 = .error error →
    t.machine.tasks = s.machine.tasks ∧ t.machine.active = s.machine.active

/-- **The promise of a call.** -/
def OwnershipKept (makeKey : String → Json → String) (s : Usage) (call : ToolCall) (t : Usage) :
    Prop :=
  KeysOwned t ∧ RaisesCleanly makeKey s call t

/-- A transition to a terminal state: whoever else holds the key is done, and nobody holds
it if the record is not built. -/
def ReleasesOwnKey (s : Usage) : ToolCall → Prop
  | .transition taskId newState result errorMessage _ =>
      ∀ current state, s.machine.tasks.lookup taskId = some current →
        allowed current.state newState = some state → state.terminal = true →
          if validRecord errorMessage result then
            ∀ holder, s.machine.active.lookup current.idempotencyKey =
                some (current.idempotencyKey, holder) → holder ≠ taskId →
              ∀ task, s.machine.tasks.lookup holder = some task → task.state.terminal = true
          else s.machine.active.lookup current.idempotencyKey = none
  | _ => True

/-! ## What every call keeps -/

theorem taskIdOf_injective {n k : Nat} (h : taskIdOf n = taskIdOf k) : n = k := by
  have hdigits : Nat.toDigits 10 n = Nat.toDigits 10 k := by
    have hlists := congrArg String.toList h
    unfold taskIdOf at hlists
    rw [String.toList_append, String.toList_append] at hlists
    have hrest := List.append_cancel_left hlists
    rwa [Nat.toString_eq_repr, Nat.toString_eq_repr, Nat.toList_repr, Nat.toList_repr] at hrest
  have hback := congrArg (fun digits => Nat.ofDigitChars 10 digits 0) hdigits
  simpa only [Nat.ofDigitChars_ten_toDigits] using hback

/-- The ids and the keys of a usage fit together. -/
structure Coherent (s : Usage) : Prop where
  numbered : ∀ taskId task, s.machine.tasks.lookup taskId = some task →
    ∃ n, n ≤ s.machine.taskCounter ∧ taskId = taskIdOf n
  acquiredNumbered : ∀ key taskId, (key, taskId) ∈ s.acquired →
    ∃ n, n ≤ s.machine.taskCounter ∧ taskId = taskIdOf n
  acquiredKey : ∀ key taskId, (key, taskId) ∈ s.acquired →
    ∀ task, s.machine.tasks.lookup taskId = some task → task.idempotencyKey = key
  activeAcquired : ∀ key taskId, s.machine.active.lookup key = some (key, taskId) →
    (key, taskId) ∈ s.acquired

section Ownership

variable {makeKey : String → Json → String} {s t : Usage} {m : ToolStateMachine}

variable {taskId newState : String} {errorMessage : Json} {now : ℚ}

theorem transition_refused {result : Json}
    (h : ∀ current, m.tasks.lookup taskId = some current → allowed current.state newState = none) :
    ∃ error, transition taskId newState result errorMessage now m = (m, .error error) := by
  unfold transition
  cases hfound : m.tasks.lookup taskId with
  | none => exact ⟨_, rfl⟩
  | some current =>
      simp only [h current hfound]
      exact ⟨_, rfl⟩

/-- The machine with the key of a task released, if the task is done. -/
def released (m : ToolStateMachine) (current : TaskRecord) (state : TaskState) :
    ToolStateMachine :=
  if state.terminal then m.release current.idempotencyKey else m

@[simp] theorem released_tasks (current : TaskRecord) (state : TaskState) :
    (released m current state).tasks = m.tasks := by
  unfold released
  split <;> rfl

@[simp] theorem released_taskCounter (current : TaskRecord) (state : TaskState) :
    (released m current state).taskCounter = m.taskCounter := by
  unfold released
  split <;> rfl

/-- The record of a task in its new state. -/
def updatedRecord (taskId : String) (current : TaskRecord) (state : TaskState)
    (result errorMessage : Json) (now : ℚ) : TaskRecord :=
  { taskId := taskId, toolName := current.toolName, state := state,
    idempotencyKey := current.idempotencyKey, createdAt := current.createdAt,
    updatedAt := now, errorMessage := errorMessage, result := result }

variable {current : TaskRecord} {state : TaskState}

/-- **Spec of `transition`**, of an allowed one. -/
theorem transition_allowed {result : Json} (hfound : m.tasks.lookup taskId = some current)
    (hallowed : allowed current.state newState = some state) :
    transition taskId newState result errorMessage now m =
      if validRecord errorMessage result then
        ({ released m current state with
            tasks := m.tasks.upsert (updatedRecord taskId current state result errorMessage now) },
          .ok (.record (updatedRecord taskId current state result errorMessage now)))
      else (released m current state, .error .validation) := by
  unfold transition
  simp only [hfound, hallowed]
  split
  · rw [← @released_tasks m current state]
    rfl
  · rfl

theorem allowed_running {current : TaskState}
    (h : allowed current newState = some state) : current.terminal = false := by
  cases current with
  | completed | failed => cases h
  | _ => rfl

/-- What a call does to the machine. -/
inductive CallEffect (s : Usage) : ToolCall → Usage → Prop
  | notCreated {toolName initialState : String} {payload : Json} {now : ℚ} :
      CallEffect s (.createTask toolName payload initialState now) s
  /-- The task is missing, or its key is taken. -/
  | notAcquired {taskId : String} : CallEffect s (.acquireIdempotency taskId) s
  | refused {taskId newState : String} {result errorMessage : Json} {now : ℚ}
      (hrefused : ∀ current, s.machine.tasks.lookup taskId = some current →
        allowed current.state newState = none) :
      CallEffect s (.transition taskId newState result errorMessage now) s
  | created {toolName initialState : String} {payload : Json} {now : ℚ} {record : TaskRecord}
      (hid : record.taskId = taskIdOf (s.machine.taskCounter + 1)) :
      CallEffect s (.createTask toolName payload initialState now)
        ⟨{ s.machine with
            tasks := s.machine.tasks.upsert record
            taskCounter := s.machine.taskCounter + 1 }, s.acquired⟩
  | acquired {taskId : String} {task : TaskRecord}
      (hfound : s.machine.tasks.lookup taskId = some task)
      (hfree : s.machine.active.lookup task.idempotencyKey = none) :
      CallEffect s (.acquireIdempotency taskId)
        ⟨{ s.machine with active := s.machine.active.upsert (task.idempotencyKey, taskId) },
          s.acquired ++ [(task.idempotencyKey, taskId)]⟩
  | moved {taskId newState : String} {result errorMessage : Json} {now : ℚ}
      {current : TaskRecord} {state : TaskState}
      (hfound : s.machine.tasks.lookup taskId = some current)
      (hallowed : allowed current.state newState = some state)
      (hvalid : validRecord errorMessage result = true) :
      CallEffect s (.transition taskId newState result errorMessage now)
        ⟨{ released s.machine current state with
            tasks := s.machine.tasks.upsert
              (updatedRecord taskId current state result errorMessage now) }, s.acquired⟩
  /-- The key is released, and the record is not built. -/
  | stuck {taskId newState : String} {result errorMessage : Json} {now : ℚ}
      {current : TaskRecord} {state : TaskState}
      (hfound : s.machine.tasks.lookup taskId = some current)
      (hallowed : allowed current.state newState = some state)
      (hinvalid : validRecord errorMessage result = false) :
      CallEffect s (.transition taskId newState result errorMessage now)
        ⟨released s.machine current state, s.acquired⟩
  | cleaned {maxAge now : ℚ} :
      CallEffect s (.cleanupTerminal maxAge now)
        ⟨{ s.machine with tasks := s.machine.tasks.deleteWhere (isStale maxAge now) }, s.acquired⟩

/-- **Inversion of a call.** -/
theorem callEffect_of_step {call : ToolCall} (hstep : usageStep makeKey s call = some t) :
    CallEffect s call t := by
  cases hstep
  cases call with
  | createTask toolName payload initialState now =>
      show CallEffect s _ ⟨(createTask makeKey toolName payload initialState now s.machine).1,
        s.acquired ++ []⟩
      rw [List.append_nil]
      unfold createTask
      split
      · exact .notCreated
      · exact .created rfl
  | acquireIdempotency taskId =>
      cases hfound : s.machine.tasks.lookup taskId with
      | none =>
          have hperform : perform makeKey s.machine (.acquireIdempotency taskId) =
              (s.machine, .error (.keyError ("Task not found: " ++ taskId))) := by
            simp only [perform, Tasks.acquireIdempotency, hfound]
          unfold acquiredBy
          rw [hperform, List.append_nil]
          exact .notAcquired
      | some task =>
          cases hactive : s.machine.active.lookup task.idempotencyKey with
          | some row =>
              have hperform : perform makeKey s.machine (.acquireIdempotency taskId) =
                  (s.machine, .ok (.acquired false)) := by
                simp only [perform, Tasks.acquireIdempotency, hfound, ToolStateMachine.acquire,
                  hactive]
              unfold acquiredBy
              rw [hperform, List.append_nil]
              exact .notAcquired
          | none =>
              have hperform : perform makeKey s.machine (.acquireIdempotency taskId) =
                  ({ s.machine with
                      active := s.machine.active.upsert (task.idempotencyKey, taskId) },
                    .ok (.acquired true)) := by
                simp only [perform, Tasks.acquireIdempotency, hfound, ToolStateMachine.acquire,
                  hactive]
              unfold acquiredBy
              rw [hperform]
              simp only [hfound, Option.map_some, Option.toList_some]
              exact .acquired hfound hactive
  | transition taskId newState result errorMessage now =>
      show CallEffect s _ ⟨(transition taskId newState result errorMessage now s.machine).1,
        s.acquired ++ []⟩
      rw [List.append_nil]
      by_cases hgoes : ∃ current state, s.machine.tasks.lookup taskId = some current ∧
          allowed current.state newState = some state
      · obtain ⟨current, state, hfound, hallowed⟩ := hgoes
        rw [transition_allowed hfound hallowed]
        by_cases hvalid : validRecord errorMessage result = true
        · rw [if_pos hvalid]
          exact .moved hfound hallowed hvalid
        · rw [if_neg hvalid]
          exact .stuck hfound hallowed (eq_false_of_ne_true hvalid)
      · have hrefused : ∀ current, s.machine.tasks.lookup taskId = some current →
            allowed current.state newState = none := by
          intro current hfound
          cases hallowed : allowed current.state newState with
          | none => rfl
          | some state => exact absurd ⟨current, state, hfound, hallowed⟩ hgoes
        obtain ⟨error, hnothing⟩ := @transition_refused s.machine taskId newState
          errorMessage now result hrefused
        rw [hnothing]
        exact .refused hrefused
  | cleanupTerminal maxAge now =>
      show CallEffect s _ ⟨(cleanupTerminal maxAge now s.machine).1, s.acquired ++ []⟩
      rw [List.append_nil]
      exact .cleaned

variable {task : TaskRecord}

open KeyedTable

theorem lookup_upsert_task {record : TaskRecord}
    (h : (m.tasks.upsert record).lookup taskId = some task) :
    record.taskId = taskId ∧ record = task ∨
      record.taskId ≠ taskId ∧ m.tasks.lookup taskId = some task := by
  rw [lookup_upsert] at h
  split at h
  · rename_i hid
    exact .inl ⟨hid, Option.some.inj h⟩
  · rename_i hid
    exact .inr ⟨hid, h⟩

theorem lookup_released {key : String}
    {row : String × String} (h : (released m current state).active.lookup key = some row) :
    m.active.lookup key = some row := by
  unfold released at h
  split at h
  · unfold ToolStateMachine.release at h
    rw [lookup_deleteWhere] at h
    exact (Option.filter_eq_some_iff.mp h).1
  · exact h

theorem not_acquired_of_new (hs : Coherent s) {key : String}
    (hid : taskId = taskIdOf (s.machine.taskCounter + 1)) : (key, taskId) ∉ s.acquired := by
  intro hin
  obtain ⟨n, hn, hsame⟩ := hs.acquiredNumbered key taskId hin
  have heq := taskIdOf_injective (hid.symm.trans hsame)
  omega

theorem coherent_created (hs : Coherent s) {record : TaskRecord}
    (hid : record.taskId = taskIdOf (s.machine.taskCounter + 1)) :
    Coherent ⟨{ s.machine with
      tasks := s.machine.tasks.upsert record
      taskCounter := s.machine.taskCounter + 1 }, s.acquired⟩ := by
  refine ⟨?_, ?_, ?_, hs.activeAcquired⟩
  · intro taskId task hfound
    rcases lookup_upsert_task hfound with ⟨rfl, -⟩ | ⟨-, hold⟩
    · exact ⟨_, le_refl _, hid⟩
    · obtain ⟨n, hn, hsame⟩ := hs.numbered taskId task hold
      exact ⟨n, Nat.le_succ_of_le hn, hsame⟩
  · intro key taskId hin
    obtain ⟨n, hn, hsame⟩ := hs.acquiredNumbered key taskId hin
    exact ⟨n, Nat.le_succ_of_le hn, hsame⟩
  · intro key taskId hin task hfound
    rcases lookup_upsert_task hfound with ⟨rfl, -⟩ | ⟨-, hold⟩
    · exact absurd hin (not_acquired_of_new hs hid)
    · exact hs.acquiredKey key taskId hin task hold

theorem coherent_acquired (hs : Coherent s)
    (hfound : s.machine.tasks.lookup taskId = some task) :
    Coherent ⟨{ s.machine with active := s.machine.active.upsert (task.idempotencyKey, taskId) },
      s.acquired ++ [(task.idempotencyKey, taskId)]⟩ := by
  refine ⟨hs.numbered, ?_, ?_, ?_⟩
  · intro key taskId' hin
    rcases List.mem_append.mp hin with hold | hnew
    · exact hs.acquiredNumbered key taskId' hold
    · cases List.mem_singleton.mp hnew
      exact hs.numbered _ _ hfound
  · intro key taskId' hin task' hfound'
    rcases List.mem_append.mp hin with hold | hnew
    · exact hs.acquiredKey key taskId' hold task' hfound'
    · cases List.mem_singleton.mp hnew
      cases hfound.symm.trans hfound'
      rfl
  · intro key taskId' hheld
    rw [lookup_upsert] at hheld
    split at hheld
    · rename_i hkey
      obtain rfl := (Prod.mk.inj (Option.some.inj hheld)).2
      obtain rfl : task.idempotencyKey = key := hkey
      exact List.mem_append_right _ List.mem_cons_self
    · exact List.mem_append_left _ (hs.activeAcquired key taskId' hheld)

theorem coherent_released (hs : Coherent s) (current : TaskRecord) (state : TaskState) :
    Coherent ⟨released s.machine current state, s.acquired⟩ := by
  refine ⟨?_, ?_, ?_, fun key taskId hheld => hs.activeAcquired key taskId (lookup_released hheld)⟩
  · simpa using hs.numbered
  · simpa using hs.acquiredNumbered
  · simpa using hs.acquiredKey

theorem coherent_updated (hs : Coherent s)
    (hfound : s.machine.tasks.lookup taskId = some current) (record : TaskRecord)
    (hid : record.taskId = taskId) (hkey : record.idempotencyKey = current.idempotencyKey) :
    Coherent ⟨{ s.machine with tasks := s.machine.tasks.upsert record }, s.acquired⟩ := by
  refine ⟨?_, hs.acquiredNumbered, ?_, hs.activeAcquired⟩
  · intro taskId' task hfound'
    rcases lookup_upsert_task hfound' with ⟨rfl, -⟩ | ⟨-, hold⟩
    · exact hid ▸ hs.numbered taskId current hfound
    · exact hs.numbered taskId' task hold
  · intro key taskId' hin task hfound'
    rcases lookup_upsert_task hfound' with ⟨rfl, rfl⟩ | ⟨-, hold⟩
    · exact hkey.trans (hs.acquiredKey key taskId (hid ▸ hin) current hfound)
    · exact hs.acquiredKey key taskId' hin task hold

/-- **Every call keeps a usage coherent.** -/
theorem coherent_step {call : ToolCall} (hs : Coherent s) (heffect : CallEffect s call t) :
    Coherent t := by
  cases heffect with
  | notCreated | notAcquired | refused => exact hs
  | created hid => exact coherent_created hs hid
  | acquired hfound => exact coherent_acquired hs hfound
  | @moved taskId newState result errorMessage now current state hfound =>
      have hreleased := coherent_released hs current state
      have hfound' : (released s.machine current state).tasks.lookup taskId = some current := by
        rw [released_tasks]
        exact hfound
      have hupdated := coherent_updated hreleased hfound'
        (updatedRecord taskId current state result errorMessage now) rfl rfl
      dsimp only at hupdated
      rw [released_tasks] at hupdated
      exact hupdated
  | stuck => exact coherent_released hs _ _
  | @cleaned maxAge now =>
      have hold : ∀ taskId task, (s.machine.tasks.deleteWhere (isStale maxAge now)).lookup taskId =
          some task → s.machine.tasks.lookup taskId = some task := by
        intro taskId task hfound
        rw [lookup_deleteWhere] at hfound
        exact (Option.filter_eq_some_iff.mp hfound).1
      exact ⟨fun taskId task hfound => hs.numbered taskId task (hold taskId task hfound),
        hs.acquiredNumbered,
        fun key taskId hin task hfound => hs.acquiredKey key taskId hin task (hold taskId task hfound),
        hs.activeAcquired⟩

/-! ## When keys stay owned -/

theorem raisesCleanly_of_other {call : ToolCall} (hstep : usageStep makeKey s call = some t)
    (hother : ∀ taskId newState result errorMessage now,
      call ≠ .transition taskId newState result errorMessage now) :
    RaisesCleanly makeKey s call t := by
  cases hstep
  intro error herror
  cases call with
  | createTask toolName payload initialState now =>
      simp only [perform, Tasks.createTask] at herror ⊢
      split at herror
      · exact ⟨rfl, rfl⟩
      · cases herror
  | acquireIdempotency taskId =>
      simp only [perform, Tasks.acquireIdempotency] at herror ⊢
      split at herror
      · exact ⟨rfl, rfl⟩
      · cases herror
  | transition taskId newState result errorMessage now =>
      exact absurd rfl (hother taskId newState result errorMessage now)
  | cleanupTerminal maxAge now => cases herror

/-- Nobody has lost a key where each task that is found was there before, with its key and no
less done, and what was held is held. -/
theorem keysOwned_of_le (howned : KeysOwned s)
    (hacquired : ∀ pair ∈ t.acquired, pair ∈ s.acquired)
    (hactive : ∀ key row, s.machine.active.lookup key = some row →
      t.machine.active.lookup key = some row)
    (htasks : ∀ key taskId, (key, taskId) ∈ s.acquired → ∀ task,
      t.machine.tasks.lookup taskId = some task → task.state.terminal = false →
        ∃ before, s.machine.tasks.lookup taskId = some before ∧ before.state.terminal = false) :
    KeysOwned t := by
  intro key taskId hin task hfound hrunning
  have hbefore := hacquired _ hin
  obtain ⟨before, hfoundBefore, hrunningBefore⟩ := htasks key taskId hbefore task hfound hrunning
  exact hactive _ _ (howned key taskId hbefore before hfoundBefore hrunningBefore)

theorem lookup_release {key : String} (m : ToolStateMachine) (current : String) :
    (m.release current).active.lookup key =
      if key = current then none else m.active.lookup key := by
  unfold ToolStateMachine.release
  rw [lookup_deleteWhere]
  cases hheld : m.active.lookup key with
  | none => simp
  | some row =>
      have hkey : row.1 = key := key_of_lookup hheld
      by_cases hsame : key = current
      · simp [Option.filter, hkey, hsame]
      · simp [Option.filter, hkey, hsame]

/-- A task that is done takes its key away from no task that is not. -/
theorem keysOwned_moved_iff {result : Json} (howned : KeysOwned s) (hcoherent : Coherent s)
    (hterminal : state.terminal = true) :
    KeysOwned ⟨{ released s.machine current state with
        tasks := s.machine.tasks.upsert
          (updatedRecord taskId current state result errorMessage now) }, s.acquired⟩ ↔
      ∀ holder, s.machine.active.lookup current.idempotencyKey =
          some (current.idempotencyKey, holder) → holder ≠ taskId →
        ∀ task, s.machine.tasks.lookup holder = some task → task.state.terminal = true := by
  have hreleased : ∀ key, (released s.machine current state).active.lookup key =
      if key = current.idempotencyKey then none else s.machine.active.lookup key := by
    intro key
    unfold released
    rw [if_pos hterminal]
    exact lookup_release s.machine current.idempotencyKey
  constructor
  · intro h holder hheld hother task hfound
    by_contra hrunning
    have hin := hcoherent.activeAcquired _ _ hheld
    have hstays : (s.machine.tasks.upsert
        (updatedRecord taskId current state result errorMessage now)).lookup holder = some task := by
      rw [lookup_upsert_of_ne]
      · exact hfound
      · exact fun hid => hother hid.symm
    -- It still acquired the key, and no longer holds it.
    have hlost := h _ holder hin task hstays (eq_false_of_ne_true hrunning)
    rw [hreleased, if_pos rfl] at hlost
    cases hlost
  · intro h key holder hin task hfound hrunning
    rcases lookup_upsert_task hfound with ⟨-, hupdated⟩ | ⟨hother, hold⟩
    · rw [← hupdated] at hrunning
      exact absurd (hterminal.symm.trans hrunning) (by decide)
    · have hheld := howned key holder hin task hold hrunning
      show (released s.machine current state).active.lookup key = _
      rw [hreleased]
      split
      · rename_i hsame
        rw [hsame] at hheld
        have hdone := h holder hheld (fun hid => hother hid.symm) task hold
        exact absurd (hdone.symm.trans hrunning) (by decide)
      · exact hheld

theorem keysOwned_moved_running {result : Json} (howned : KeysOwned s)
    (hfound : s.machine.tasks.lookup taskId = some current)
    (hcurrent : current.state.terminal = false) (hrunning : state.terminal = false) :
    KeysOwned ⟨{ released s.machine current state with
        tasks := s.machine.tasks.upsert
          (updatedRecord taskId current state result errorMessage now) }, s.acquired⟩ := by
  have hreleased : released s.machine current state = s.machine := by
    unfold released
    rw [if_neg (by rw [hrunning]; decide)]
  rw [hreleased]
  refine keysOwned_of_le howned (fun _ hin => hin) (fun _ _ hheld => hheld) ?_
  intro key holder _ task hfound' hholder
  rcases lookup_upsert_task hfound' with ⟨hid, -⟩ | ⟨-, hold⟩
  · exact ⟨current, hid ▸ hfound, hcurrent⟩
  · exact ⟨task, hold, hholder⟩

theorem release_eq_self_iff {key : String} :
    (m.release key).active = m.active ↔ m.active.lookup key = none := by
  unfold ToolStateMachine.release
  dsimp only
  rw [deleteWhere_eq_self_iff, lookup_eq_none_iff]
  simp only [decide_eq_false_iff_not]

/-- A transition that does not build its record. -/
theorem ownershipKept_stuck_iff {result : Json} (howned : KeysOwned s)
    (hfound : s.machine.tasks.lookup taskId = some current)
    (hallowed : allowed current.state newState = some state)
    (hinvalid : validRecord errorMessage result = false) :
    OwnershipKept makeKey s (.transition taskId newState result errorMessage now)
        ⟨released s.machine current state, s.acquired⟩ ↔
      (state.terminal = true → s.machine.active.lookup current.idempotencyKey = none) := by
  have hraises : (perform makeKey s.machine
      (.transition taskId newState result errorMessage now)).2 = .error .validation := by
    show (transition taskId newState result errorMessage now s.machine).2 = _
    rw [transition_allowed hfound hallowed, if_neg (by rw [hinvalid]; decide)]
  constructor
  · rintro ⟨-, hclean⟩ hterminal
    have hactive := (hclean _ hraises).2
    dsimp only at hactive
    unfold released at hactive
    rw [if_pos hterminal] at hactive
    exact release_eq_self_iff.mp hactive
  · intro h
    have hsame : released s.machine current state = s.machine := by
      unfold released
      split
      · rename_i hterminal
        have hactive := release_eq_self_iff.mpr (h hterminal)
        unfold ToolStateMachine.release at hactive ⊢
        dsimp only at hactive
        rw [hactive]
      · rfl
    rw [hsame]
    exact ⟨howned, fun _ _ => ⟨rfl, rfl⟩⟩

theorem releasesOwnKey_transition_iff {result : Json}
    (hfound : s.machine.tasks.lookup taskId = some current)
    (hallowed : allowed current.state newState = some state) :
    ReleasesOwnKey s (.transition taskId newState result errorMessage now) ↔
      (state.terminal = true →
        if validRecord errorMessage result then
          ∀ holder, s.machine.active.lookup current.idempotencyKey =
              some (current.idempotencyKey, holder) → holder ≠ taskId →
            ∀ task, s.machine.tasks.lookup holder = some task → task.state.terminal = true
        else s.machine.active.lookup current.idempotencyKey = none) := by
  constructor
  · intro h hterminal
    exact h current state hfound hallowed hterminal
  · intro h current' state' hfound' hallowed' hterminal
    cases hfound.symm.trans hfound'
    cases hallowed.symm.trans hallowed'
    exact h hterminal

/-- A transition that builds its record. -/
theorem ownershipKept_moved_iff {result : Json} (howned : KeysOwned s) (hcoherent : Coherent s)
    (hfound : s.machine.tasks.lookup taskId = some current)
    (hallowed : allowed current.state newState = some state)
    (hvalid : validRecord errorMessage result = true) :
    OwnershipKept makeKey s (.transition taskId newState result errorMessage now)
        ⟨{ released s.machine current state with
          tasks := s.machine.tasks.upsert
            (updatedRecord taskId current state result errorMessage now) }, s.acquired⟩ ↔
      (state.terminal = true →
        ∀ holder, s.machine.active.lookup current.idempotencyKey =
            some (current.idempotencyKey, holder) → holder ≠ taskId →
          ∀ task, s.machine.tasks.lookup holder = some task → task.state.terminal = true) := by
  have hreturns : RaisesCleanly makeKey s (.transition taskId newState result errorMessage now)
      ⟨{ released s.machine current state with
        tasks := s.machine.tasks.upsert
          (updatedRecord taskId current state result errorMessage now) }, s.acquired⟩ := by
    intro error herror
    change (transition taskId newState result errorMessage now s.machine).2 = _ at herror
    rw [transition_allowed hfound hallowed, if_pos hvalid] at herror
    cases herror
  refine (and_iff_left hreturns).trans ?_
  by_cases hterminal : state.terminal = true
  · rw [keysOwned_moved_iff howned hcoherent hterminal]
    exact ⟨fun h _ => h, fun h => h hterminal⟩
  · have hkept := @keysOwned_moved_running s taskId errorMessage now current state result howned
      hfound (allowed_running hallowed) (eq_false_of_ne_true hterminal)
    exact ⟨fun _ hdone => absurd hdone hterminal, fun _ => hkept⟩

theorem keysOwned_created (howned : KeysOwned s) (hcoherent : Coherent s) {record : TaskRecord}
    (hid : record.taskId = taskIdOf (s.machine.taskCounter + 1)) :
    KeysOwned ⟨{ s.machine with
      tasks := s.machine.tasks.upsert record
      taskCounter := s.machine.taskCounter + 1 }, s.acquired⟩ := by
  refine keysOwned_of_le howned (fun _ hin => hin) (fun _ _ hheld => hheld) ?_
  intro key taskId hin task hfound hrunning
  rcases lookup_upsert_task hfound with ⟨rfl, -⟩ | ⟨-, hold⟩
  · exact absurd hin (not_acquired_of_new hcoherent hid)
  · exact ⟨task, hold, hrunning⟩

theorem keysOwned_acquired (howned : KeysOwned s)
    (hfree : s.machine.active.lookup task.idempotencyKey = none) :
    KeysOwned ⟨{ s.machine with
      active := s.machine.active.upsert (task.idempotencyKey, taskId) },
      s.acquired ++ [(task.idempotencyKey, taskId)]⟩ := by
  intro key holder hin task' hfound' hrunning
  rw [lookup_upsert]
  dsimp only
  rcases List.mem_append.mp hin with hold | hnew
  · have hheld := howned key holder hold task' hfound' hrunning
    have hne : task.idempotencyKey ≠ key := by
      rintro rfl
      rw [hfree] at hheld
      cases hheld
    rw [if_neg hne]
    exact hheld
  · cases List.mem_singleton.mp hnew
    rw [if_pos rfl]

theorem ownershipKept_iff_step {call : ToolCall} (howned : KeysOwned s) (hcoherent : Coherent s)
    (hstep : usageStep makeKey s call = some t) :
    OwnershipKept makeKey s call t ↔ ReleasesOwnKey s call := by
  have hother : (∀ taskId newState result errorMessage now,
      call ≠ .transition taskId newState result errorMessage now) → KeysOwned t →
        ReleasesOwnKey s call → (OwnershipKept makeKey s call t ↔ ReleasesOwnKey s call) :=
    fun hnot hkept hfree =>
      ⟨fun _ => hfree, fun _ => ⟨hkept, raisesCleanly_of_other hstep hnot⟩⟩
  cases callEffect_of_step hstep with
  | notCreated | notAcquired => exact hother nofun howned trivial
  | created hid =>
      exact hother nofun (keysOwned_created howned hcoherent hid) trivial
  | acquired hfound hfree =>
      exact hother nofun (keysOwned_acquired howned hfree) trivial
  | @cleaned maxAge now =>
      refine hother nofun ?_ trivial
      refine keysOwned_of_le howned (fun _ hin => hin) (fun _ _ hheld => hheld) ?_
      intro key taskId _ task hfound hrunning
      rw [lookup_deleteWhere] at hfound
      exact ⟨task, (Option.filter_eq_some_iff.mp hfound).1, hrunning⟩
  | @refused taskId newState result errorMessage now hrefused =>
      constructor
      · intro _ current state hfound hallowed
        rw [hrefused current hfound] at hallowed
        cases hallowed
      · intro _
        exact ⟨howned, fun _ _ => ⟨rfl, rfl⟩⟩
  | moved hfound hallowed hvalid =>
      rw [ownershipKept_moved_iff howned hcoherent hfound hallowed hvalid,
        releasesOwnKey_transition_iff hfound hallowed, if_pos hvalid]
  | stuck hfound hallowed hinvalid =>
      rw [ownershipKept_stuck_iff howned hfound hallowed hinvalid,
        releasesOwnKey_transition_iff hfound hallowed, if_neg (by rw [hinvalid]; decide)]

end Ownership

theorem coherent_new : Coherent Usage.new where
  numbered _ _ h := by cases h
  acquiredNumbered _ _ h := by cases h
  acquiredKey _ _ h := by cases h
  activeAcquired _ _ h := by cases h

/-- **Idempotency ownership, exactly.**  In a run of calls on a new machine every task keeps
the key it acquired until it is done, and no call that raises changes anything, exactly
when every transition to a terminal state releases no other task's key. -/
theorem ownership_iff (makeKey : String → Json → String) (calls : List ToolCall) :
    Runs.Always (usageStep makeKey) (OwnershipKept makeKey) Usage.new calls ↔
      Runs.Always (usageStep makeKey) (fun s call _ => ReleasesOwnKey s call) Usage.new calls := by
  refine Runs.always_iff_of_guarded (I := fun s => KeysOwned s ∧ Coherent s) ?_ ?_ ?_ calls
  · rintro s call t ⟨howned, hcoherent⟩ hstep hfree
    have hkept := (ownershipKept_iff_step howned hcoherent hstep).mpr hfree
    exact ⟨hkept.1, coherent_step hcoherent (callEffect_of_step hstep)⟩
  · rintro s call t ⟨howned, hcoherent⟩ hstep
    exact ownershipKept_iff_step howned hcoherent hstep
  · exact ⟨fun _ _ h => absurd h List.not_mem_nil, coherent_new⟩

/-- The second task does what the first one is doing, without the key. -/
def duplicateCalls : List ToolCall :=
  [.createTask "list_mods" .null "PENDING" 0, .createTask "list_mods" .null "PENDING" 0,
    .acquireIdempotency (taskIdOf 1), .transition (taskIdOf 1) "RUNNING" .null .null 0,
    .transition (taskIdOf 2) "RUNNING" .null .null 0]

/-- **A running task loses its key.**  The second task completes, and so releases the key of
the first. -/
theorem ownership_counterexample :
    ¬Runs.Always (usageStep fun tool _ => tool) (OwnershipKept fun tool _ => tool) Usage.new
      (duplicateCalls ++ [.transition (taskIdOf 2) "COMPLETED" .null .null 0]) := by
  intro h
  have hstep : ∃ s t task, Runs.exec (usageStep fun tool _ => tool) Usage.new duplicateCalls =
        some s ∧
      usageStep (fun tool _ => tool) s (.transition (taskIdOf 2) "COMPLETED" .null .null 0) =
        some t ∧
      t.acquired = [("list_mods", taskIdOf 1)] ∧
      t.machine.tasks.lookup (taskIdOf 1) = some task ∧ task.state = .running ∧
      t.machine.active.lookup "list_mods" = none :=
    ⟨_, _, _, rfl, rfl, rfl, rfl, rfl, rfl⟩
  obtain ⟨s, t, task, hrun, hvisit, hacquired, hfound, hrunning, hlost⟩ := hstep
  have howned := (Runs.Always.at_prefix h hrun hvisit).1
  have hheld := howned "list_mods" (taskIdOf 1) (by rw [hacquired]; exact List.mem_cons_self) task
    hfound (by rw [hrunning]; rfl)
  rw [hlost] at hheld
  cases hheld

end SkyClaw.Orchestrator.Tasks
