import SkyClaw.Lib.Json
import SkyClaw.Lib.Runs
import Mathlib.Algebra.Order.Ring.Rat

/-!
# The workflow graph

The nodes, the conditional edges and the callbacks of `SupervisorStateGraph`, and its runs
as sequences of node visits.  What the supervisor, the operator and the clock answer is
given per visit.  Two things depend on how the state travels between a node and its
edges, and are switches of the model: whether what a callback stores in the state it was
handed takes effect, and whether what a routing function stores does.
-/

namespace SkyClaw.Orchestrator.StateGraph

open Json (PyError)

/-! ## States and events -/

inductive SupervisorState
  | init
  | idle
  | watching
  | analyzing
  | dispatching
  | hitlWait
  | completed
  | error
  | rollingBack
  | errorFatal
  | patching
  | generatingLods
deriving DecidableEq

inductive WorkflowEventType
  | modlistChanged
  | userCommand
  | toolRequest
  | hitlResponse
  | errorOccurred
  | timeout
  | shutdown
deriving DecidableEq

def WorkflowEventType.value : WorkflowEventType → String
  | .modlistChanged => "modlist_changed"
  | .userCommand => "user_command"
  | .toolRequest => "tool_request"
  | .hitlResponse => "hitl_response"
  | .errorOccurred => "error_occurred"
  | .timeout => "timeout"
  | .shutdown => "shutdown"

def validTransitions : SupervisorState → List SupervisorState
  | .init => [.idle, .error]
  | .idle => [.watching, .analyzing, .dispatching, .error]
  | .watching => [.analyzing, .idle, .error]
  | .analyzing => [.dispatching, .hitlWait, .completed, .idle, .error, .patching]
  | .dispatching => [.completed, .idle, .error, .generatingLods, .hitlWait]
  | .hitlWait => [.dispatching, .completed, .error]
  | .completed => [.idle]
  | .error => [.idle, .init, .rollingBack]
  | .rollingBack => [.idle, .errorFatal]
  | .errorFatal => []
  | .patching => [.completed, .error, .rollingBack]
  | .generatingLods => [.completed, .error, .rollingBack]

/-- The state, as far as a node, an edge or a callback reads it. -/
structure StateGraphState where
  currentState : SupervisorState
  previousState : Option SupervisorState
  pendingEvent : Option String
  eventData : Json
  toolName : Json
  toolPayload : Json
  toolResult : Json
  hitlRequest : Json
  hitlResponse : Json
  lastError : Option String
  errorCount : Int
  rollbackTriggered : Bool
  rollbackResult : Json
  rollbackTransactionId : Option Int
  hitlStartedAt : Option ℚ
  loopDetected : Bool
  loopContext : Json

def getInitialState : StateGraphState where
  currentState := .init
  previousState := none
  pendingEvent := none
  eventData := .obj []
  toolName := .null
  toolPayload := .obj []
  toolResult := .null
  hitlRequest := .null
  hitlResponse := .null
  lastError := none
  errorCount := 0
  rollbackTriggered := false
  rollbackResult := .null
  rollbackTransactionId := none
  hitlStartedAt := none
  loopDetected := false
  loopContext := .null

/-- `state.get("last_error")` is truthy. -/
def StateGraphState.hasError (s : StateGraphState) : Bool := s.lastError.any (· ≠ "")

/-- What ends a run early. -/
inductive GraphError
  | python (error : PyError)
  /-- `ValueError` of `_validate_and_route`. -/
  | invalidTransition (source target : SupervisorState)
  | callback

/-! ## Nodes -/

/-- The dict a node returns. -/
structure NodeUpdates where
  currentState : SupervisorState
  previousState : Option SupervisorState := none
  clearsEvent : Bool := false
  eventData : Option Json := none
  errorCount : Option Int := none
  rollbackTriggered : Option Bool := none
  rollbackResult : Option Json := none
  hitlStartedAt : Option ℚ := none

/-- The dict is merged into the state. -/
def NodeUpdates.merge (updates : NodeUpdates) (s : StateGraphState) : StateGraphState :=
  { s with
    currentState := updates.currentState
    previousState := updates.previousState <|> s.previousState
    pendingEvent := if updates.clearsEvent then none else s.pendingEvent
    eventData := updates.eventData.getD s.eventData
    errorCount := updates.errorCount.getD s.errorCount
    rollbackTriggered := updates.rollbackTriggered.getD s.rollbackTriggered
    rollbackResult := updates.rollbackResult.getD s.rollbackResult
    hitlStartedAt := updates.hitlStartedAt <|> s.hitlStartedAt }

/-- `hitl_wait_node`: the time of the first visit is kept. -/
def hitlWaitNode (now : ℚ) (s : StateGraphState) : NodeUpdates :=
  { currentState := .hitlWait, previousState := some .dispatching,
    hitlStartedAt := if s.hitlStartedAt = none then some now else none }

def completedNode : NodeUpdates :=
  { currentState := .completed, previousState := some .dispatching, clearsEvent := true }

def errorNode (s : StateGraphState) : NodeUpdates :=
  { currentState := .error, errorCount := some (s.errorCount + 1) }

def errorFatalNode : NodeUpdates :=
  { currentState := .errorFatal, previousState := some .rollingBack,
    rollbackTriggered := some false,
    rollbackResult := some (.obj [("success", .bool false),
      ("reason", .str "Rollback failed, fatal error")]) }

def patchingNode (s : StateGraphState) : Except PyError NodeUpdates := do
  let conflictReport ← s.eventData.get "conflict_report" .null
  if conflictReport.truthy = false then
    -- Only the recorded state goes back to IDLE: the edge out of PATCHING is taken all the same.
    pure { currentState := .idle, previousState := some .patching }
  else
    pure { currentState := .patching, previousState := some .analyzing,
           eventData := some s.eventData }

/-- The node functions. -/
def runNode (now : ℚ) (s : StateGraphState) : SupervisorState → Except PyError NodeUpdates
  | .init => .ok { currentState := .idle, previousState := some .init }
  | .idle => .ok { currentState := .idle }
  | .watching => .ok { currentState := .watching }
  | .analyzing => .ok { currentState := .analyzing, previousState := some .watching }
  | .dispatching => .ok { currentState := .dispatching, previousState := some .analyzing }
  | .hitlWait => .ok (hitlWaitNode now s)
  | .completed => .ok completedNode
  | .error => .ok (errorNode s)
  | .rollingBack =>
      .ok { currentState := .rollingBack, previousState := some .error,
            rollbackTriggered := some true }
  | .errorFatal => .ok errorFatalNode
  | .patching => patchingNode s
  | .generatingLods =>
      .ok { currentState := .generatingLods, previousState := some .dispatching }

/-! ## Conditional edges -/

/-- The next node, or `END`. -/
abbrev Target := Option SupervisorState

def validateAndRoute (source target : SupervisorState) : Except GraphError Target :=
  if target ∈ validTransitions source then .ok (some target)
  else .error (.invalidTransition source target)

open WorkflowEventType

section

variable (s : StateGraphState)

def routeFromIdle : Except GraphError Target :=
  if s.pendingEvent = some modlistChanged.value then
    validateAndRoute .idle .watching
  else if s.pendingEvent = some userCommand.value then
    validateAndRoute .idle .analyzing
  else if s.pendingEvent = some toolRequest.value then
    validateAndRoute .idle .dispatching
  else if s.pendingEvent = some shutdown.value then .ok none
  else if s.pendingEvent = some errorOccurred.value then
    validateAndRoute .idle .error
  else .ok (some .idle)

def routeFromWatching : Except GraphError Target :=
  if s.pendingEvent = some modlistChanged.value then
    validateAndRoute .watching .analyzing
  else if s.pendingEvent = some errorOccurred.value then
    validateAndRoute .watching .error
  else validateAndRoute .watching .idle

/-- `event_data.get(key, False)`, and whether it is truthy. -/
def flag (eventData : Json) (key : String) : Except PyError Bool :=
  (eventData.get key (.bool false)).map Json.truthy

def routeFromAnalyzing : Except GraphError Target :=
  match flag s.eventData "requires_hitl", flag s.eventData "requires_patch" with
  | .ok requiresHitl, .ok requiresPatch =>
      if s.hasError then validateAndRoute .analyzing .error
      else if s.toolName.truthy then
        -- A patch goes first, whether or not approval is required.
        if requiresPatch then validateAndRoute .analyzing .patching
        else if requiresHitl then validateAndRoute .analyzing .hitlWait
        else validateAndRoute .analyzing .dispatching
      else validateAndRoute .analyzing .completed
  | .error error, _ => .error (.python error)
  | .ok _, .error error => .error (.python error)

/-- `tool_result` is truthy and its status is one of these. -/
def hasStatus (toolResult : Json) (statuses : List String) : Except PyError Bool :=
  if toolResult.truthy then
    (toolResult.get "status" .null).map fun status =>
      match status with
      | .str text => text ∈ statuses
      | _ => false
  else .ok false

/-- `route_from_patching` and `route_from_generating_lods`: the status is looked at, and
both answers lead to the same node. -/
def routeFromTool (source : SupervisorState) (statuses : List String) (s : StateGraphState) :
    Except GraphError Target :=
  if s.hasError then
    if s.rollbackTriggered = false then validateAndRoute source .rollingBack
    else validateAndRoute source .error
  else
    match hasStatus s.toolResult statuses with
    | .error error => .error (.python error)
    | .ok _ => validateAndRoute source .completed

def routeFromPatching : StateGraphState → Except GraphError Target :=
  routeFromTool .patching ["success", "aborted"]

def routeFromGeneratingLods : StateGraphState → Except GraphError Target :=
  routeFromTool .generatingLods ["success"]

def hitlTimeoutSeconds : ℚ := 300

/-- `route_from_hitl_wait`, with what it stores in `last_error`. -/
def routeFromHitlWait (now : ℚ) (s : StateGraphState) :
    Option String × Except GraphError Target :=
  if s.hitlResponse.isNone = false then
    match s.hitlResponse with
    | .str "approved" => (none, validateAndRoute .hitlWait .dispatching)
    | .str "denied" => (none, validateAndRoute .hitlWait .completed)
    | .str "timeout" => (none, validateAndRoute .hitlWait .error)
    -- An unknown answer counts as a denial.
    | _ => (none, validateAndRoute .hitlWait .completed)
  else
    match s.hitlStartedAt with
    | none =>
        (some "Estado HITL inconsistente: hitl_started_at ausente",
          validateAndRoute .hitlWait .error)
    | some startedAt =>
        if hitlTimeoutSeconds ≤ now - startedAt then
          (some "Timeout esperando aprobación humana después de 300s",
            validateAndRoute .hitlWait .error)
        else (none, .ok (some .hitlWait))

def routeFromDispatching : Except GraphError Target :=
  -- The breaker comes before the errors.
  if s.loopDetected then validateAndRoute .dispatching .hitlWait
  else if s.hasError then validateAndRoute .dispatching .error
  else
    match hasStatus s.toolResult ["success", "aborted"] with
    | .error error => .error (.python error)
    | .ok false => validateAndRoute .dispatching .completed
    | .ok true =>
        match s.toolName with
        | .str "generate_lods" => validateAndRoute .dispatching .generatingLods
        | _ => validateAndRoute .dispatching .completed

def routeFromError : Except GraphError Target :=
  if s.rollbackTransactionId.any (· ≠ 0) = true ∧ s.rollbackTriggered = false then
    validateAndRoute .error .rollingBack
  else if 3 ≤ s.errorCount then .ok none
  else validateAndRoute .error .idle

def routeFromRollingBack : Except GraphError Target :=
  let result := if s.rollbackResult.truthy then s.rollbackResult else .obj []
  match flag result "success" with
  | .error error => .error (.python error)
  | .ok true => validateAndRoute .rollingBack .idle
  | .ok false => validateAndRoute .rollingBack .errorFatal

/-- The edges of `_build_graph`, with what a routing function stores in `last_error`. -/
def route (now : ℚ) (s : StateGraphState) :
    SupervisorState → Option String × Except GraphError Target
  | .init => (none, .ok (some .idle))
  | .idle => (none, routeFromIdle s)
  | .watching => (none, routeFromWatching s)
  | .analyzing => (none, routeFromAnalyzing s)
  | .dispatching => (none, routeFromDispatching s)
  | .hitlWait => routeFromHitlWait now s
  | .completed => (none, .ok (some .idle))
  | .error => (none, routeFromError s)
  | .rollingBack => (none, routeFromRollingBack s)
  | .errorFatal => (none, .ok none)
  | .patching => (none, routeFromPatching s)
  | .generatingLods => (none, routeFromGeneratingLods s)

def maxRepeats : Nat := 3

def windowSize : Nat := 5

/-- The last three actions are the same. -/
def lastRepeated (history : List String) : Bool :=
  maxRepeats ≤ history.length &&
    match (history.drop (history.length - maxRepeats)) with
    | [] => true
    | first :: rest => rest.all (· == first)

/-- `register_and_check`: the history, and whether the breaker trips. -/
def registerAndCheck (action : String) (history : List String) : List String × Bool :=
  let longer := history ++ [action]
  let kept := longer.drop (longer.length - windowSize)
  -- A trip empties the window, so that a resumed tool does not trip at once.
  if lastRepeated kept then ([], true) else (kept, false)

/-- The text of the `CircuitBreakerTrippedError`. -/
def tripReason (toolName : String) : String :=
  "Has entrado en un bucle intentando usar '" ++ toolName ++ "'. " ++
    "DETENTE. Solicita asistencia humana (HITL) inmediatamente."

/-! ## Callbacks -/

/-- What a callback stores in the state. -/
structure CallbackWrites where
  toolResult : Option Json := none
  lastError : Option String := none
  loopDetected : Option Bool := none
  loopContext : Option Json := none
  hitlRequest : Option Json := none
  hitlResponse : Option Json := none

def CallbackWrites.apply (writes : CallbackWrites) (s : StateGraphState) : StateGraphState :=
  { s with
    toolResult := writes.toolResult.getD s.toolResult
    lastError := writes.lastError <|> s.lastError
    loopDetected := writes.loopDetected.getD s.loopDetected
    loopContext := writes.loopContext.getD s.loopContext
    hitlRequest := writes.hitlRequest.getD s.hitlRequest
    hitlResponse := writes.hitlResponse.getD s.hitlResponse }

/-- What a visit is answered; `none` is an exception. -/
structure VisitAnswers where
  /-- `_trigger_proactive_analysis` returns. -/
  analyzes : Bool
  /-- `dispatch_tool`. -/
  dispatch : Option Json
  /-- `request_hitl`, with the request for it. -/
  hitl : Option Json
  nodeClock : ℚ
  routeClock : ℚ

/-- The name and the payload of the tool, if there is one to dispatch. -/
def toolOf : Option (String × Json) :=
  match s.toolName with
  | .str name =>
      if name = "" then none
      else some (name, if s.toolPayload.truthy then s.toolPayload else .obj [])
  | _ => none

/-- Without a tool nothing is dispatched. -/
def missingTool : CallbackWrites where
  lastError := some "tool_name is None or invalid"
  toolResult := some (.obj [("status", .str "error"),
    ("error", .str "Tool dispatch aborted: tool_name is missing or invalid")])

/-- The breaker has tripped. -/
def loopHalt (toolName : String) : CallbackWrites where
  loopDetected := some true
  loopContext := some (.obj [("tool_name", .str toolName), ("occurrences", .int maxRepeats)])
  hitlRequest := some (.obj [("action_type", .str "circuit_breaker_halt"),
    ("reason", .str (tripReason toolName)),
    ("context_data", .obj [("trip_reason", .str "Loop detected"), ("tool_name", .str toolName),
      ("occurrences", .int maxRepeats)])])

structure GraphConfig where
  /-- `connect_supervisor` was called. -/
  connected : Bool
  actionHash : String → Json → String
  /-- What a callback stores takes effect. -/
  callbackWrites : Bool
  /-- What a routing function stores takes effect. -/
  routerWrites : Bool

def onDispatching (actionHash : String → Json → String) (s : StateGraphState)
    (answers : VisitAnswers) (history : List String) :
    List String × Except GraphError CallbackWrites :=
  match toolOf s with
  | none => (history, .ok missingTool)
  | some (name, payload) =>
      let (history, trips) := registerAndCheck (actionHash name payload) history
      if trips then (history, .ok (loopHalt name))
      else
        match answers.dispatch with
        | none => (history, .error .callback)
        | some result => (history, .ok { toolResult := some result })

/-- The operator's answer is an approval. -/
def isApproval : Json → Bool
  | .str text => text = "approved"
  | _ => false

def onHitlWait (answers : VisitAnswers) (history : List String) :
    List String × Except GraphError CallbackWrites :=
  match answers.hitl with
  | none => (history, .error .callback)
  | some response =>
      -- `loop_guardrail.reset()`: the operator lets the halted tool go on.
      if isApproval response && s.loopDetected then
        ([], .ok { hitlResponse := some response, loopDetected := some false,
                   loopContext := some .null })
      else (history, .ok { hitlResponse := some response })

def callback (cfg : GraphConfig) (node : SupervisorState) (s : StateGraphState)
    (answers : VisitAnswers) (history : List String) :
    List String × Except GraphError CallbackWrites :=
  if cfg.connected = false then (history, .ok {})
  else
    match node with
    | .analyzing => (history, if answers.analyzes then .ok {} else .error .callback)
    | .dispatching => onDispatching cfg.actionHash s answers history
    | .hitlWait => onHitlWait s answers history
    | _ => (history, .ok {})

/-- The node to visit next, the state, and the history of the guardrail; there is no next
node once the run is over. -/
structure GraphRun where
  next : Target
  state : StateGraphState
  history : List String

/-- The state after a visit whose callback stored `writes`, before the edges. -/
def merged (cfg : GraphConfig) (s : StateGraphState) (writes : CallbackWrites)
    (updates : NodeUpdates) : StateGraphState :=
  updates.merge (if cfg.callbackWrites then writes.apply s else s)

/-- What a routing function stored. -/
def afterRoute (cfg : GraphConfig) (s : StateGraphState) (stored : Option String) :
    StateGraphState :=
  if cfg.routerWrites then { s with lastError := stored <|> s.lastError } else s

/-- A node is visited: its callback, the node, and the edge to the next one. -/
def visit (cfg : GraphConfig) (run : GraphRun) (answers : VisitAnswers) : Option GraphRun :=
  match run.next with
  | none => none
  | some node =>
      match callback cfg node run.state answers run.history with
      -- An exception ends the run; what the guardrail has registered stays.
      | (history, .error _) => some ⟨none, run.state, history⟩
      | (history, .ok writes) =>
          -- The node is handed the very dict that its callback has written to.
          match runNode answers.nodeClock (writes.apply run.state) node with
          | .error _ => some ⟨none, run.state, history⟩
          | .ok updates =>
              let s := merged cfg run.state writes updates
              match route answers.routeClock s node with
              | (_, .error _) => some ⟨none, s, history⟩
              | (stored, .ok target) => some ⟨target, afterRoute cfg s stored, history⟩

/-- A run of the compiled graph begins at its entry point. -/
def GraphRun.start (history : List String) : GraphRun :=
  ⟨some .init, s, history⟩

end

def executeFallback (start : StateGraphState) : StateGraphState :=
  -- The names of the states are gone through; no node, callback or edge runs.
  let s := { start with currentState := .idle, previousState := some .init }
  if s.pendingEvent = some modlistChanged.value ∨
      s.pendingEvent = some userCommand.value then
    if s.toolName.truthy then
      if s.hasError then { s with currentState := .error, previousState := some .dispatching }
      else { s with currentState := .completed, previousState := some .dispatching }
    else { s with currentState := .completed, previousState := some .analyzing }
  else s

/-! ## What a visit can do -/

/-- The ways a visit can end. -/
inductive Visited (cfg : GraphConfig) (run : GraphRun) (answers : VisitAnswers) : GraphRun → Prop
  | callbackRaises {node : SupervisorState} {history : List String} {error : GraphError}
      (hnode : run.next = some node)
      (hcallback : callback cfg node run.state answers run.history = (history, .error error)) :
      Visited cfg run answers ⟨none, run.state, history⟩
  | nodeRaises {node : SupervisorState} {history : List String} {writes : CallbackWrites}
      {error : PyError} (hnode : run.next = some node)
      (hcallback : callback cfg node run.state answers run.history = (history, .ok writes))
      (hupdates : runNode answers.nodeClock (writes.apply run.state) node = .error error) :
      Visited cfg run answers ⟨none, run.state, history⟩
  | routeRaises {node : SupervisorState} {history : List String} {writes : CallbackWrites}
      {updates : NodeUpdates} {stored : Option String} {error : GraphError}
      (hnode : run.next = some node)
      (hcallback : callback cfg node run.state answers run.history = (history, .ok writes))
      (hupdates : runNode answers.nodeClock (writes.apply run.state) node = .ok updates)
      (hroute : route answers.routeClock (merged cfg run.state writes updates) node =
        (stored, .error error)) :
      Visited cfg run answers ⟨none, merged cfg run.state writes updates, history⟩
  | goes {node : SupervisorState} {history : List String} {writes : CallbackWrites}
      {updates : NodeUpdates} {stored : Option String} {target : Target}
      (hnode : run.next = some node)
      (hcallback : callback cfg node run.state answers run.history = (history, .ok writes))
      (hupdates : runNode answers.nodeClock (writes.apply run.state) node = .ok updates)
      (hroute : route answers.routeClock (merged cfg run.state writes updates) node =
        (stored, .ok target)) :
      Visited cfg run answers
        ⟨target, afterRoute cfg (merged cfg run.state writes updates) stored, history⟩

section Visits

variable {cfg : GraphConfig} {run next : GraphRun} {answers : VisitAnswers}

/-- **Inversion of a visit.** -/
theorem visited_of_visit (hvisit : visit cfg run answers = some next) :
    Visited cfg run answers next := by
  unfold visit at hvisit
  cases hnode : run.next with
  | none =>
      rw [hnode] at hvisit
      cases hvisit
  | some node =>
      rw [hnode] at hvisit
      simp only at hvisit
      split at hvisit
      · rename_i hcallback
        cases hvisit
        exact .callbackRaises hnode hcallback
      · rename_i history writes hcallback
        split at hvisit
        · rename_i hupdates
          cases hvisit
          exact .nodeRaises hnode hcallback hupdates
        · rename_i updates hupdates
          split at hvisit
          · rename_i hroute
            cases hvisit
            exact .routeRaises hnode hcallback hupdates hroute
          · rename_i hroute
            cases hvisit
            exact .goes hnode hcallback hupdates hroute

/-- A visit that leads to a node has gone through its callback, the node function and the
edge. -/
theorem visit_to {target : SupervisorState} (hvisit : visit cfg run answers = some next)
    (htarget : next.next = some target) :
    ∃ node history writes updates, run.next = some node ∧
      callback cfg node run.state answers run.history = (history, .ok writes) ∧
      runNode answers.nodeClock (writes.apply run.state) node = .ok updates ∧
      (route answers.routeClock (merged cfg run.state writes updates) node).2 =
        .ok (some target) ∧
      next.state = afterRoute cfg (merged cfg run.state writes updates)
        (route answers.routeClock (merged cfg run.state writes updates) node).1 := by
  cases visited_of_visit hvisit with
  | goes hnode hcallback hupdates hroute =>
      subst htarget
      refine ⟨_, _, _, _, hnode, hcallback, hupdates, ?_, ?_⟩
      · rw [hroute]
      · rw [hroute]
  | _ => cases htarget

theorem visit_of {node : SupervisorState} {history : List String} {writes : CallbackWrites}
    {updates : NodeUpdates} {stored : Option String} {target : Target}
    (hnode : run.next = some node)
    (hcallback : callback cfg node run.state answers run.history = (history, .ok writes))
    (hupdates : runNode answers.nodeClock (writes.apply run.state) node = .ok updates)
    (hroute : route answers.routeClock (merged cfg run.state writes updates) node =
      (stored, .ok target)) :
    visit cfg run answers =
      some ⟨target, afterRoute cfg (merged cfg run.state writes updates) stored, history⟩ := by
  unfold visit
  simp only [hnode, hcallback, hupdates, hroute]

end Visits

end SkyClaw.Orchestrator.StateGraph
