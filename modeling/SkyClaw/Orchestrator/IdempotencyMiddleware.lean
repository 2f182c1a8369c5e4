import SkyClaw.Orchestrator.ToolStateMachine

/-!
# The idempotency middleware

`IdempotencyMiddleware` wraps a tool call: it creates a task, takes the key of the tool and
its payload, awaits the tool and moves the task on.  Any number of calls share one state
machine; the only await is that of the tool, so each side of it is one step.
`cleansUp_iff` says in which runs every call leaves a finished task and a free key behind.
-/

namespace SkyClaw.Orchestrator.Idempotency

open Tasks Function

/-! ## The middleware -/

/-- How `next_call` ends. -/
inductive NextEnd
  | returns (result : Json)
  /-- An `Exception` with its text, unless `str` of it raises itself. -/
  | raises (message : Option String)
  /-- `CancelledError`, or another exception that is no `Exception`. -/
  | cancelled

/-- What leaves a call of the middleware. -/
inductive CallEnd
  | returned (result : Json)
  | toolRaised (message : Option String)
  | machineRaised (error : ToolError)
  | cancelled

/-- The answer to a duplicate. -/
def duplicateExecution (toolName : String) : Json :=
  .obj [("status", .str "error"), ("reason", .str "DuplicateExecution"),
    ("details", .str ("Tool '" ++ toolName ++ "' is already executing with the same " ++
      "arguments. Wait for the current execution to finish."))]

inductive Phase
  | notCalled
  /-- `next_call` is awaited. -/
  | running (toolName : String) (payload : Json) (taskId : String)
  | exited (ending : CallEnd)

variable (makeKey : String → Json → String)

/-- `__call__` up to the await. -/
def enter (toolName : String) (payload : Json) (createdAt runningAt : ℚ) (m : ToolStateMachine) :
    ToolStateMachine × Phase :=
  match m.active.lookup (makeKey toolName payload) with
  | some _ => (m, .exited (.returned (duplicateExecution toolName)))
  | none =>
      match createTask makeKey toolName payload "PENDING" createdAt m with
      | (m, .ok (.record task)) =>
          match acquireIdempotency task.taskId m with
          -- Whether the key was acquired is not looked at.
          | (m, .ok _) =>
              match transition task.taskId "RUNNING" .null .null runningAt m with
              | (m, .ok _) => (m, .running toolName payload task.taskId)
              | (m, .error error) => (m, .exited (.machineRaised error))
          | (m, .error error) => (m, .exited (.machineRaised error))
      -- `create_task` returns nothing but a record.
      | (m, .ok _) => (m, .notCalled)
      | (m, .error error) => (m, .exited (.machineRaised error))

/-- `__call__` from the await on. -/
def leave (taskId : String) (endedAt : ℚ) (m : ToolStateMachine) :
    NextEnd → ToolStateMachine × CallEnd
  | .returns result =>
      match transition taskId "COMPLETED" result .null endedAt m with
      | (m, .ok _) => (m, .returned result)
      | (m, .error error) => (m, .machineRaised error)
  | .raises (some message) =>
      match transition taskId "FAILED" .null (.str message) endedAt m with
      | (m, .ok _) => (m, .toolRaised (some message))
      | (m, .error error) => (m, .machineRaised error)
  -- `str(exc)` raises before the transition is called.
  | .raises none => (m, .toolRaised none)
  -- `except Exception` does not catch it.
  | .cancelled => (m, .cancelled)

/-- The shared state machine and all calls of the middleware. -/
structure State where
  machine : ToolStateMachine
  phases : Nat → Phase

def State.initial : State := ⟨.new, fun _ => .notCalled⟩

inductive Action
  | call (c : Nat) (toolName : String) (payload : Json) (createdAt runningAt : ℚ)
  | nextCallEnds (c : Nat) (ending : NextEnd) (endedAt : ℚ)
  /-- Somebody calls `cleanup_terminal`. -/
  | cleanup (maxAge now : ℚ)

def step (s : State) : Action → Option State
  | .call c toolName payload createdAt runningAt =>
      match s.phases c with
      | .notCalled =>
          let entered := enter makeKey toolName payload createdAt runningAt s.machine
          some ⟨entered.1, update s.phases c entered.2⟩
      | _ => none
  | .nextCallEnds c ending endedAt =>
      match s.phases c with
      | .running _ _ taskId =>
          let left := leave taskId endedAt s.machine ending
          some ⟨left.1, update s.phases c (.exited left.2)⟩
      | _ => none
  | .cleanup maxAge now => some { s with machine := (cleanupTerminal maxAge now s.machine).1 }

/-- The task is done and the key is free. -/
def Released (m : ToolStateMachine) (toolName : String) (payload : Json) (taskId : String) : Prop :=
  (∃ task, m.tasks.lookup taskId = some task ∧ task.state.terminal = true) ∧
    m.active.lookup (makeKey toolName payload) = none

/-- **The promise of a step.**  A call that exits has released its task and its key, so the
same tool call is accepted right away, and two calls that run differ in tool or payload. -/
structure CleansUp (s : State) (_ : Action) (t : State) : Prop where
  releases : ∀ c toolName payload taskId ending,
    s.phases c = .running toolName payload taskId → t.phases c = .exited ending →
      Released makeKey t.machine toolName payload taskId
  retried : ∀ c toolName payload taskId ending,
    s.phases c = .running toolName payload taskId → t.phases c = .exited ending →
      ∀ c' createdAt runningAt u,
        step makeKey t (.call c' toolName payload createdAt runningAt) = some u →
          ∃ taskId', u.phases c' = .running toolName payload taskId'
  exclusive : ∀ c c' toolName payload taskId taskId',
    t.phases c = .running toolName payload taskId →
      t.phases c' = .running toolName payload taskId' → c = c'

/-- The tool returns a dict or None, or raises an `Exception` that has a text. -/
def NextEnd.Proper : NextEnd → Prop
  | .returns (.obj _) | .returns .null => True
  | .raises (some _) => True
  | _ => False

/-- The condition on a step. -/
def EndsProperly : Action → Prop
  | .nextCallEnds _ ending _ => ending.Proper
  | _ => True

/-! ## What a call does to the machine -/

variable {makeKey : String → Json → String} {m : ToolStateMachine} {toolName : String}
  {payload : Json} {taskId : String}

variable {createdAt runningAt : ℚ}

theorem enter_of_active {holder : String × String}
    (hactive : m.active.lookup (makeKey toolName payload) = some holder) :
    enter makeKey toolName payload createdAt runningAt m =
      (m, .exited (.returned (duplicateExecution toolName))) := by
  simp only [enter, hactive]

/-- The record of a new task once it runs. -/
def startedRecord (makeKey : String → Json → String) (m : ToolStateMachine) (toolName : String)
    (payload : Json) (createdAt runningAt : ℚ) : TaskRecord :=
  { taskId := taskIdOf (m.taskCounter + 1), toolName := toolName, state := .running,
    idempotencyKey := makeKey toolName payload, createdAt := createdAt, updatedAt := runningAt,
    errorMessage := .null, result := .null }

theorem createTask_pending (createdAt : ℚ) :
    createTask makeKey toolName payload "PENDING" createdAt m =
      let record : TaskRecord :=
        { taskId := taskIdOf (m.taskCounter + 1), toolName := toolName, state := .pending,
          idempotencyKey := makeKey toolName payload, createdAt := createdAt,
          updatedAt := createdAt, errorMessage := .null, result := .null }
      ({ m with tasks := m.tasks.upsert record, taskCounter := m.taskCounter + 1 },
        .ok (.record record)) := rfl

variable {task : TaskRecord}

theorem acquireIdempotency_of_free {taskId : String}
    (hfound : m.tasks.lookup taskId = some task)
    (hfree : m.active.lookup task.idempotencyKey = none) :
    acquireIdempotency taskId m =
      ({ m with active := m.active.upsert (task.idempotencyKey, taskId) },
        .ok (.acquired true)) := by
  simp only [acquireIdempotency, hfound, ToolStateMachine.acquire, hfree]

/-- **Spec of `enter`**, of a tool call whose key is free. -/
theorem enter_of_free
    (hfree : m.active.lookup (makeKey toolName payload) = none) :
    ∃ m', enter makeKey toolName payload createdAt runningAt m =
        (m', .running toolName payload (taskIdOf (m.taskCounter + 1))) ∧
      m'.taskCounter = m.taskCounter + 1 ∧
      m'.active = m.active.upsert (makeKey toolName payload, taskIdOf (m.taskCounter + 1)) ∧
      ∀ taskId, m'.tasks.lookup taskId =
        if taskIdOf (m.taskCounter + 1) = taskId then
          some (startedRecord makeKey m toolName payload createdAt runningAt)
        else m.tasks.lookup taskId := by
  let task : TaskRecord :=
    { taskId := taskIdOf (m.taskCounter + 1), toolName := toolName, state := .pending,
      idempotencyKey := makeKey toolName payload, createdAt := createdAt,
      updatedAt := createdAt, errorMessage := .null, result := .null }
  let created : ToolStateMachine :=
    { m with tasks := m.tasks.upsert task, taskCounter := m.taskCounter + 1 }
  let acquired : ToolStateMachine :=
    { created with active := m.active.upsert (makeKey toolName payload, task.taskId) }
  have hfound : created.tasks.lookup task.taskId = some task := m.tasks.lookup_upsert_self task
  have hacquire : acquireIdempotency task.taskId created = (acquired, .ok (.acquired true)) :=
    acquireIdempotency_of_free hfound hfree
  have hrunning : transition task.taskId "RUNNING" .null .null runningAt acquired =
      ({ acquired with
          tasks := acquired.tasks.upsert
            (updatedRecord task.taskId task .running .null .null runningAt) },
        .ok (.record (updatedRecord task.taskId task .running .null .null runningAt))) :=
    transition_allowed hfound rfl
  refine ⟨{ acquired with
    tasks := acquired.tasks.upsert (updatedRecord task.taskId task .running .null .null runningAt) },
    ?_, rfl, rfl, fun taskId => ?_⟩
  · unfold enter
    rw [hfree, createTask_pending]
    show (match acquireIdempotency task.taskId created with
      | (m, .ok _) =>
          match transition task.taskId "RUNNING" .null .null runningAt m with
          | (m, .ok _) => (m, Phase.running toolName payload task.taskId)
          | (m, .error error) => (m, .exited (.machineRaised error))
      | (m, .error error) => (m, .exited (.machineRaised error))) = _
    rw [hacquire]
    dsimp only
    rw [hrunning]
  · show (acquired.tasks.upsert
      (updatedRecord task.taskId task .running .null .null runningAt)).lookup taskId = _
    rw [KeyedTable.lookup_upsert]
    show (if taskIdOf (m.taskCounter + 1) = taskId then
        some (startedRecord makeKey m toolName payload createdAt runningAt)
      else created.tasks.lookup taskId) = _
    by_cases hid : taskIdOf (m.taskCounter + 1) = taskId
    · rw [if_pos hid, if_pos hid]
    · rw [if_neg hid, if_neg hid]
      exact m.tasks.lookup_upsert_of_ne hid

/-- What a call that leaves does to the machine. -/
inductive Leaves (m : ToolStateMachine) (taskId key : String) : NextEnd → ToolStateMachine → Prop
  | finished {ending : NextEnd} {task : TaskRecord} (hproper : ending.Proper)
      (hid : task.taskId = taskId) (hterminal : task.state.terminal = true) :
      Leaves m taskId key ending { m.release key with tasks := m.tasks.upsert task }
  /-- The record could not be built. -/
  | stuck {ending : NextEnd} (himproper : ¬ending.Proper) :
      Leaves m taskId key ending (m.release key)
  | abandoned {ending : NextEnd} (himproper : ¬ending.Proper) : Leaves m taskId key ending m

/-- **Inversion of `leave`**, for a task that runs. -/
theorem leaves_leave {taskId : String} {endedAt : ℚ}
    (hfound : m.tasks.lookup taskId = some task) (hrunning : task.state = .running)
    (ending : NextEnd) :
    Leaves m taskId task.idempotencyKey ending (leave taskId endedAt m ending).1 := by
  have hcompleted : allowed task.state "COMPLETED" = some .completed := by rw [hrunning]; rfl
  have hfailed : allowed task.state "FAILED" = some .failed := by rw [hrunning]; rfl
  cases ending with
  | returns result =>
      have htransition := @transition_allowed m taskId "COMPLETED" .null endedAt task
        .completed result hfound hcompleted
      simp only [leave]
      rw [htransition]
      cases result with
      | obj | null => exact .finished trivial rfl rfl
      | _ => exact .stuck id
  | raises message =>
      cases message with
      | none => exact .abandoned id
      | some message =>
          simp only [leave]
          rw [transition_allowed hfound hfailed]
          exact .finished trivial rfl rfl
  | cancelled => exact .abandoned id

/-! ## The invariant -/

/-- The task of a running call runs, and holds the key. -/
structure Holds (makeKey : String → Json → String) (m : ToolStateMachine) (toolName : String)
    (payload : Json) (taskId : String) : Prop where
  task : ∃ task, m.tasks.lookup taskId = some task ∧ task.state = .running ∧
    task.idempotencyKey = makeKey toolName payload
  key : m.active.lookup (makeKey toolName payload) = some (makeKey toolName payload, taskId)

/-- **The invariant.**  It holds in every run, whatever becomes of the calls. -/
structure Sound (makeKey : String → Json → String) (s : State) : Prop where
  holds : ∀ c toolName payload taskId, s.phases c = .running toolName payload taskId →
    Holds makeKey s.machine toolName payload taskId
  unique : ∀ c c' toolName payload toolName' payload' taskId,
    s.phases c = .running toolName payload taskId →
      s.phases c' = .running toolName' payload' taskId → c = c'
  numbered : ∀ taskId task, s.machine.tasks.lookup taskId = some task →
    ∃ n, n ≤ s.machine.taskCounter ∧ taskId = taskIdOf n

theorem sound_initial : Sound makeKey State.initial where
  holds _ _ _ _ h := by cases h
  unique _ _ _ _ _ _ _ h := by cases h
  numbered _ _ h := by cases h

variable {s t : State}

variable {c : Nat}

theorem Sound.exclusive (h : Sound makeKey s) {c' : Nat} {toolName' : String} {payload' : Json}
    {taskId taskId' : String} (hc : s.phases c = .running toolName payload taskId)
    (hc' : s.phases c' = .running toolName' payload' taskId')
    (hkey : makeKey toolName payload = makeKey toolName' payload') : c = c' := by
  have hrow := (h.holds c _ _ _ hc).key
  rw [hkey, (h.holds c' _ _ _ hc').key] at hrow
  obtain ⟨-, hid⟩ := Prod.mk.inj (Option.some.inj hrow)
  exact h.unique c c' _ _ _ _ taskId hc (hid ▸ hc')

theorem Sound.fresh (h : Sound makeKey s) :
    s.machine.tasks.lookup (taskIdOf (s.machine.taskCounter + 1)) = none := by
  cases hfound : s.machine.tasks.lookup (taskIdOf (s.machine.taskCounter + 1)) with
  | none => rfl
  | some task =>
      obtain ⟨n, hle, hid⟩ := h.numbered _ task hfound
      have heq := taskIdOf_injective hid
      omega

/-- A call moves on and the machine changes, for the others not in what they hold. -/
theorem Sound.move (h : Sound makeKey s) {phase : Phase} {m : ToolStateMachine}
    (hnumbered : ∀ taskId task, m.tasks.lookup taskId = some task →
      ∃ n, n ≤ m.taskCounter ∧ taskId = taskIdOf n)
    (hothers : ∀ c', c' ≠ c → ∀ toolName payload taskId,
      s.phases c' = .running toolName payload taskId → Holds makeKey m toolName payload taskId)
    (hown : ∀ toolName payload taskId, phase = .running toolName payload taskId →
      Holds makeKey m toolName payload taskId ∧ s.machine.tasks.lookup taskId = none) :
    Sound makeKey ⟨m, update s.phases c phase⟩ := by
  -- A task that has only now been created is no other call's.
  have hforeign : ∀ c' toolName payload toolName' payload' taskId,
      phase = .running toolName payload taskId →
        s.phases c' ≠ .running toolName' payload' taskId := by
    intro c' _ _ _ _ taskId hphase hc'
    obtain ⟨task, hfound, -⟩ := (h.holds c' _ _ _ hc').task
    rw [(hown _ _ _ hphase).2] at hfound
    cases hfound
  constructor
  · intro c' toolName payload taskId hc'
    change update s.phases c phase c' = _ at hc'
    by_cases hsame : c' = c
    · subst hsame
      rw [update_self] at hc'
      exact (hown _ _ _ hc').1
    · rw [update_of_ne hsame] at hc'
      exact hothers c' hsame _ _ _ hc'
  · intro c₁ c₂ toolName payload toolName' payload' taskId h₁ h₂
    change update s.phases c phase c₁ = _ at h₁
    change update s.phases c phase c₂ = _ at h₂
    by_cases hsame₁ : c₁ = c <;> by_cases hsame₂ : c₂ = c
    · rw [hsame₁, hsame₂]
    · subst hsame₁
      rw [update_self] at h₁
      rw [update_of_ne hsame₂] at h₂
      exact absurd h₂ (hforeign c₂ _ _ _ _ _ h₁)
    · subst hsame₂
      rw [update_self] at h₂
      rw [update_of_ne hsame₁] at h₁
      exact absurd h₁ (hforeign c₁ _ _ _ _ _ h₂)
    · rw [update_of_ne hsame₁] at h₁
      rw [update_of_ne hsame₂] at h₂
      exact h.unique c₁ c₂ _ _ _ _ taskId h₁ h₂
  · exact hnumbered

theorem Holds.release (h : Holds makeKey m toolName payload taskId) {key : String}
    (hkey : makeKey toolName payload ≠ key) :
    Holds makeKey (m.release key) toolName payload taskId where
  task := h.task
  key := by
    rw [lookup_release, if_neg hkey]
    exact h.key

theorem Holds.upsert (h : Holds makeKey m toolName payload taskId)
    (hid : task.taskId ≠ taskId) :
    Holds makeKey { m with tasks := m.tasks.upsert task } toolName payload taskId where
  task := by
    obtain ⟨own, hfound, hown⟩ := h.task
    exact ⟨own, (m.tasks.lookup_upsert_of_ne hid).trans hfound, hown⟩
  key := h.key

theorem Sound.cleanup (h : Sound makeKey s) (maxAge now : ℚ) :
    Sound makeKey { s with machine := (cleanupTerminal maxAge now s.machine).1 } where
  holds c toolName payload taskId hc := by
    obtain ⟨⟨task, hfound, hrunning, hkey⟩, hheld⟩ := h.holds c toolName payload taskId hc
    have hstale : isStale maxAge now task = false := by
      unfold isStale
      rw [hrunning]
      rfl
    exact ⟨⟨task, KeyedTable.lookup_deleteWhere_of_not hfound hstale, hrunning, hkey⟩, hheld⟩
  unique := h.unique
  numbered taskId task hfound := by
    change (s.machine.tasks.deleteWhere _).lookup taskId = some task at hfound
    rw [KeyedTable.lookup_deleteWhere] at hfound
    exact h.numbered taskId task (Option.filter_eq_some_iff.mp hfound).1

theorem Sound.call (h : Sound makeKey s) (c : Nat) (toolName : String) (payload : Json)
    (createdAt runningAt : ℚ) :
    Sound makeKey ⟨(enter makeKey toolName payload createdAt runningAt s.machine).1,
      update s.phases c (enter makeKey toolName payload createdAt runningAt s.machine).2⟩ := by
  cases hactive : s.machine.active.lookup (makeKey toolName payload) with
  | some holder =>
      rw [enter_of_active hactive]
      exact h.move h.numbered (fun c' _ => h.holds c') nofun
  | none =>
      obtain ⟨m, henter, hcounter, hkeys, htasks⟩ :=
        @enter_of_free makeKey s.machine toolName payload createdAt runningAt hactive
      rw [henter]
      have hfresh := h.fresh
      refine h.move ?_ ?_ ?_
      · intro taskId task hfound
        rw [hcounter]
        rw [htasks] at hfound
        split at hfound
        · rename_i hid
          exact ⟨_, Nat.le_refl _, hid.symm⟩
        · obtain ⟨n, hle, hid⟩ := h.numbered taskId task hfound
          exact ⟨n, Nat.le_succ_of_le hle, hid⟩
      · intro c' _ toolName' payload' taskId hc'
        obtain ⟨⟨task, hfound, hrunning⟩, hheld⟩ := h.holds c' _ _ _ hc'
        refine ⟨⟨task, ?_, hrunning⟩, ?_⟩
        · rw [htasks, if_neg]
          · exact hfound
          · rintro rfl
            rw [hfresh] at hfound
            cases hfound
        · rw [hkeys, KeyedTable.lookup_upsert_of_ne]
          · exact hheld
          · intro hkey
            dsimp only at hkey
            rw [← hkey, hactive] at hheld
            cases hheld
      · rintro _ _ _ ⟨⟩
        refine ⟨⟨
          ⟨startedRecord makeKey s.machine toolName payload createdAt runningAt, ?_, rfl, rfl⟩,
          ?_⟩, hfresh⟩
        · rw [htasks, if_pos rfl]
        · rw [hkeys]
          exact s.machine.active.lookup_upsert_self
            (makeKey toolName payload, taskIdOf (s.machine.taskCounter + 1))

theorem Sound.exits (h : Sound makeKey s) {ending : NextEnd} {callEnd : CallEnd}
    (hc : s.phases c = .running toolName payload taskId)
    (hleaves : Leaves s.machine taskId (makeKey toolName payload) ending m) :
    Sound makeKey ⟨m, update s.phases c (.exited callEnd)⟩ := by
  obtain ⟨⟨own, hown, -⟩, -⟩ := h.holds c _ _ _ hc
  -- The others hold other keys, and are other tasks.
  have hkeys : ∀ c', c' ≠ c → ∀ toolName' payload' taskId',
      s.phases c' = .running toolName' payload' taskId' →
        makeKey toolName' payload' ≠ makeKey toolName payload :=
    fun c' hne _ _ _ hc' hkey => hne (h.exclusive hc' hc hkey)
  have hids : ∀ c', c' ≠ c → ∀ toolName' payload' taskId',
      s.phases c' = .running toolName' payload' taskId' → taskId ≠ taskId' := by
    rintro c' hne _ _ _ hc' rfl
    exact hne (h.unique c' c _ _ _ _ taskId hc' hc)
  cases hleaves with
  | finished hproper hid hterminal =>
      refine h.move ?_ ?_ nofun
      · intro taskId' task' hfound
        change (s.machine.tasks.upsert _).lookup taskId' = some task' at hfound
        rw [KeyedTable.lookup_upsert] at hfound
        split at hfound
        · rename_i hsame
          exact h.numbered taskId' own (hsame ▸ hid ▸ hown)
        · exact h.numbered taskId' task' hfound
      · intro c' hne toolName' payload' taskId' hc'
        refine ((h.holds c' _ _ _ hc').release (hkeys c' hne _ _ _ hc')).upsert ?_
        rw [hid]
        exact hids c' hne _ _ _ hc'
  | stuck =>
      refine h.move h.numbered ?_ nofun
      intro c' hne toolName' payload' taskId' hc'
      exact (h.holds c' _ _ _ hc').release (hkeys c' hne _ _ _ hc')
  | abandoned => exact h.move h.numbered (fun c' _ => h.holds c') nofun

/-! ## Steps -/

/-- **Inversion of a step.** -/
inductive Moves (makeKey : String → Json → String) (s : State) : Action → State → Prop
  | called {c : Nat} {toolName : String} {payload : Json} {createdAt runningAt : ℚ}
      (hc : s.phases c = .notCalled) :
      Moves makeKey s (.call c toolName payload createdAt runningAt)
        ⟨(enter makeKey toolName payload createdAt runningAt s.machine).1,
          update s.phases c
            (enter makeKey toolName payload createdAt runningAt s.machine).2⟩
  | left {c : Nat} {ending : NextEnd} {endedAt : ℚ} {toolName : String} {payload : Json}
      {taskId : String} (hc : s.phases c = .running toolName payload taskId) :
      Moves makeKey s (.nextCallEnds c ending endedAt)
        ⟨(leave taskId endedAt s.machine ending).1,
          update s.phases c (.exited (leave taskId endedAt s.machine ending).2)⟩
  | cleaned {maxAge now : ℚ} :
      Moves makeKey s (.cleanup maxAge now)
        { s with machine := (cleanupTerminal maxAge now s.machine).1 }

theorem moves_of_step {act : Action} (hstep : step makeKey s act = some t) :
    Moves makeKey s act t := by
  cases act with
  | call c toolName payload createdAt runningAt =>
      simp only [step] at hstep
      split at hstep
      · rename_i hc
        cases hstep
        exact .called hc
      · cases hstep
  | nextCallEnds c ending endedAt =>
      simp only [step] at hstep
      split at hstep
      · rename_i hc
        cases hstep
        exact .left hc
      · cases hstep
  | cleanup maxAge now =>
      cases hstep
      exact .cleaned

theorem Sound.leaves (h : Sound makeKey s) (endedAt : ℚ) (ending : NextEnd)
    (hc : s.phases c = .running toolName payload taskId) :
    Leaves s.machine taskId (makeKey toolName payload) ending
      (leave taskId endedAt s.machine ending).1 := by
  obtain ⟨⟨task, hfound, hrunning, hkey⟩, -⟩ := h.holds c _ _ _ hc
  rw [← hkey]
  exact leaves_leave hfound hrunning ending

/-- **Step lemma.** -/
theorem sound_step (h : Sound makeKey s) {act : Action} (hstep : step makeKey s act = some t) :
    Sound makeKey t := by
  cases moves_of_step hstep with
  | called => exact h.call ..
  | left hc => exact h.exits hc (h.leaves _ _ hc)
  | cleaned => exact h.cleanup ..

theorem cleansUp_of_no_exit (ht : Sound makeKey t) {act : Action}
    (hstays : ∀ c toolName payload taskId ending, s.phases c = .running toolName payload taskId →
      t.phases c ≠ .exited ending) : CleansUp makeKey s act t where
  releases c _ _ _ ending hc hexit := absurd hexit (hstays c _ _ _ ending hc)
  retried c _ _ _ ending hc hexit := absurd hexit (hstays c _ _ _ ending hc)
  exclusive _ _ _ _ _ _ h₁ h₂ := ht.exclusive h₁ h₂ rfl

theorem accepted_of_free (hfree : t.machine.active.lookup (makeKey toolName payload) = none) {u : State}
    (hstep : step makeKey t (.call c toolName payload createdAt runningAt) = some u) :
    ∃ taskId, u.phases c = .running toolName payload taskId := by
  cases moves_of_step hstep with
  | called hc =>
      obtain ⟨m, henter, -⟩ :=
        @enter_of_free makeKey t.machine toolName payload createdAt runningAt hfree
      rw [henter]
      exact ⟨_, update_self c _ t.phases⟩

/-- **One step.** -/
theorem cleansUp_step_iff (h : Sound makeKey s) {act : Action}
    (hstep : step makeKey s act = some t) : CleansUp makeKey s act t ↔ EndsProperly act := by
  have ht := sound_step h hstep
  cases moves_of_step hstep with
  | @called c _ _ _ _ hnew =>
      refine iff_of_true (cleansUp_of_no_exit ht fun c' _ _ _ ending hc' hexit => ?_) trivial
      by_cases hsame : c' = c
      · rw [hsame, hnew] at hc'
        cases hc'
      · change update s.phases c _ c' = _ at hexit
        rw [update_of_ne hsame, hc'] at hexit
        cases hexit
  | cleaned =>
      refine iff_of_true (cleansUp_of_no_exit ht fun c' _ _ _ ending hc' hexit => ?_) trivial
      change s.phases c' = _ at hexit
      rw [hc'] at hexit
      cases hexit
  | @left c ending endedAt toolName payload taskId hc =>
      have hleaves := h.leaves endedAt ending hc
      obtain ⟨⟨own, hown, hrunning, -⟩, -⟩ := h.holds c _ _ _ hc
      constructor
      · intro hclean
        obtain ⟨⟨task, hfound, hterminal⟩, -⟩ :=
          hclean.releases c _ _ _ _ hc (update_self c _ s.phases)
        -- The task that was not finished still runs.
        have hstill : (leave taskId endedAt s.machine ending).1.tasks = s.machine.tasks →
            ending.Proper := by
          intro hsame
          change (leave taskId endedAt s.machine ending).1.tasks.lookup taskId = _ at hfound
          rw [hsame, hown] at hfound
          cases hfound
          rw [hrunning] at hterminal
          cases hterminal
        generalize (leave taskId endedAt s.machine ending).1 = m at hleaves hstill
        cases hleaves with
        | finished hproper => exact hproper
        | stuck | abandoned => exact hstill rfl
      · intro hproper
        have hreleased : Released makeKey (leave taskId endedAt s.machine ending).1 toolName
            payload taskId := by
          generalize (leave taskId endedAt s.machine ending).1 = m at hleaves
          cases hleaves with
          | @finished task _ hid hterminal =>
              refine ⟨⟨task, ?_, hterminal⟩, ?_⟩
              · rw [← hid]
                exact s.machine.tasks.lookup_upsert_self task
              · exact (lookup_release s.machine _).trans (if_pos rfl)
          | stuck himproper | abandoned himproper => exact absurd hproper himproper
        have honly : ∀ c' toolName' payload' taskId' callEnd,
            s.phases c' = .running toolName' payload' taskId' →
              update s.phases c (.exited (leave taskId endedAt s.machine ending).2) c' =
                .exited callEnd →
                toolName' = toolName ∧ payload' = payload ∧ taskId' = taskId := by
          intro c' _ _ _ _ hc' hexit
          by_cases hsame : c' = c
          · rw [hsame, hc] at hc'
            cases hc'
            exact ⟨rfl, rfl, rfl⟩
          · rw [update_of_ne hsame, hc'] at hexit
            cases hexit
        constructor
        · intro c' _ _ _ _ hc' hexit
          obtain ⟨rfl, rfl, rfl⟩ := honly c' _ _ _ _ hc' hexit
          exact hreleased
        · intro c' _ _ _ _ hc' hexit c'' createdAt runningAt u hretry
          obtain ⟨rfl, rfl, rfl⟩ := honly c' _ _ _ _ hc' hexit
          exact accepted_of_free hreleased.2 hretry
        · intro c₁ c₂ _ _ _ _ h₁ h₂
          exact ht.exclusive h₁ h₂ rfl

/-- **The middleware cleans up, exactly.**  In a run of any calls every call that exits has
finished its task and freed its key, a retry is accepted, and no two calls run with the same
tool and payload, exactly when every tool ends properly. -/
theorem cleansUp_iff (makeKey : String → Json → String) (schedule : List Action) :
    Runs.Always (step makeKey) (CleansUp makeKey) State.initial schedule ↔
      Runs.Always (step makeKey) (fun _ act _ => EndsProperly act) State.initial schedule :=
  Runs.always_iff_of_guarded (I := Sound makeKey)
    (fun _ _ _ hsound hstep _ => sound_step hsound hstep)
    (fun _ _ _ hsound hstep => cleansUp_step_iff hsound hstep) sound_initial schedule

/-- **Duplicates are refused.**  Calls that run have different keys, and a call whose key one
of them holds comes back at once, with the state machine as it was. -/
structure RefusesDuplicates (makeKey : String → Json → String) (s : State) (act : Action)
    (t : State) : Prop where
  exclusive : ∀ c c' toolName payload toolName' payload' taskId taskId',
    t.phases c = .running toolName payload taskId →
      t.phases c' = .running toolName' payload' taskId' →
        makeKey toolName payload = makeKey toolName' payload' → c = c'
  refused : ∀ c toolName payload createdAt runningAt c' toolName' payload' taskId',
    act = .call c toolName payload createdAt runningAt →
      s.phases c' = .running toolName' payload' taskId' →
        makeKey toolName payload = makeKey toolName' payload' →
          t = ⟨s.machine,
            update s.phases c (.exited (.returned (duplicateExecution toolName)))⟩

/-- No run lets a duplicate in, however its calls end. -/
theorem refusesDuplicates (makeKey : String → Json → String) (schedule : List Action) :
    Runs.Always (step makeKey) (RefusesDuplicates makeKey) State.initial schedule := by
  refine Runs.Always.of_throughout (C := fun _ _ _ => True) ?_
    (Runs.throughout_of_step (fun _ _ _ hs hstep => sound_step hs hstep) sound_initial schedule)
    (Runs.always_of_forall_mem (fun _ _ _ _ _ => trivial) _)
  intro s act t hs hstep _
  refine ⟨fun c c' _ _ _ _ _ _ hc hc' => (sound_step hs hstep).exclusive hc hc', ?_⟩
  rintro c toolName payload createdAt runningAt c' _ _ _ rfl hc' hkey
  have hheld := (hs.holds c' _ _ _ hc').key
  rw [← hkey] at hheld
  cases moves_of_step hstep with
  | called =>
      unfold enter
      rw [hheld]

/-- **A cancelled call locks its retries out.** -/
theorem cleansUp_counterexample :
    ¬Runs.Always (step fun tool _ => tool) (CleansUp fun tool _ => tool) State.initial
      [.call 0 "list_mods" .null 0 0, .nextCallEnds 0 .cancelled 1] := by
  intro h
  obtain ⟨-, hrest⟩ := h _ rfl
  have hreleased := (hrest _ rfl).1.releases 0 "list_mods" .null (taskIdOf 1) .cancelled rfl rfl
  cases hreleased.2

end SkyClaw.Orchestrator.Idempotency
