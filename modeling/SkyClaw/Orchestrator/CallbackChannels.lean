import SkyClaw.Orchestrator.StateGraph

/-!
# What callbacks store, and what edges read

The callbacks are written for one shared dict.  LangGraph hands a node a state rebuilt from
its channels and merges only the dict that the node returns.  `sharedDict_reaches` says that
with a shared dict the edges and the later nodes read what the callbacks stored, and
`callbacksReach_iff` when they do under LangGraph.
-/

namespace SkyClaw.Orchestrator.StateGraph

/-! ## The two ways a state travels -/

section

variable (actionHash : String → Json → String)

/-- What a callback stores takes effect. -/
def sharedDict : GraphConfig :=
  ⟨true, actionHash, true, false⟩

/-- Only the dict that a node returns is merged. -/
def langGraph : GraphConfig :=
  ⟨true, actionHash, false, false⟩

/-- The values that callbacks store and edges read. -/
@[ext]
structure Stored where
  toolResult : Json
  lastError : Option String
  loopDetected : Bool
  hitlRequest : Json
  hitlResponse : Json

def StateGraphState.stored (s : StateGraphState) : Stored :=
  ⟨s.toolResult, s.lastError, s.loopDetected, s.hitlRequest, s.hitlResponse⟩

/-- The values last stored, after a callback. -/
def CallbackWrites.onto (writes : CallbackWrites) (stored : Stored) : Stored where
  toolResult := writes.toolResult.getD stored.toolResult
  lastError := writes.lastError <|> stored.lastError
  loopDetected := writes.loopDetected.getD stored.loopDetected
  hitlRequest := writes.hitlRequest.getD stored.hitlRequest
  hitlResponse := writes.hitlResponse.getD stored.hitlResponse

/-- A run with the values that were stored last. -/
structure TracedRun where
  run : GraphRun
  stored : Stored

def TracedRun.start (s : StateGraphState) (history : List String) : TracedRun :=
  ⟨GraphRun.start s history, s.stored⟩

/-- What the callback of the next visit stores. -/
def writesOf (cfg : GraphConfig) (run : GraphRun) (answers : VisitAnswers) : CallbackWrites :=
  match run.next with
  | none => {}
  | some node =>
      match callback cfg node run.state answers run.history with
      | (_, .ok writes) => writes
      | (_, .error _) => {}

def tracedVisit (cfg : GraphConfig) (t : TracedRun) (answers : VisitAnswers) : Option TracedRun :=
  (visit cfg t.run answers).map fun next => ⟨next, (writesOf cfg t.run answers).onto t.stored⟩

/-- The guardrail trips in the next visit. -/
def Trips (run : GraphRun) : Prop :=
  ∃ name payload, toolOf run.state = some (name, payload) ∧
    (registerAndCheck (actionHash name payload) run.history).2 = true

/-- The edge of the visit is handed what was stored last. -/
def Reads (cfg : GraphConfig) (t : TracedRun) (answers : VisitAnswers) (next : TracedRun) : Prop :=
  ∀ node history writes updates, t.run.next = some node →
    callback cfg node t.run.state answers t.run.history = (history, .ok writes) →
    runNode answers.nodeClock (writes.apply t.run.state) node = .ok updates →
      (merged cfg t.run.state writes updates).stored = next.stored

/-- The edge reads what was stored last, a detected loop leads to HITL_WAIT and an approval
to DISPATCHING. -/
structure Reaches (cfg : GraphConfig) (t : TracedRun) (answers : VisitAnswers) (next : TracedRun) :
    Prop where
  reads : Reads cfg t answers next
  loopLeads : t.run.next = some .dispatching → Trips cfg.actionHash t.run →
    next.run.next = some .hitlWait
  approvalLeads : t.run.next = some .hitlWait → answers.hitl = some (.str "approved") →
    next.run.next = some .dispatching

/-- Dispatching: what is stored is what the state holds. -/
def DispatchStoresNothing (run : GraphRun) (answers : VisitAnswers) : Prop :=
  match toolOf run.state with
  | none => missingTool.onto run.state.stored = run.state.stored
  | some (name, payload) =>
      if (registerAndCheck (actionHash name payload) run.history).2 = true then
        (loopHalt name).onto run.state.stored = run.state.stored
      else ∀ result, answers.dispatch = some result → run.state.toolResult = result

/-- The callback of the visit raises, or stores only what the state holds. -/
def StoresNothingNew (t : TracedRun) (answers : VisitAnswers) : Prop :=
  (t.run.next = some .dispatching → DispatchStoresNothing actionHash t.run answers) ∧
    (t.run.next = some .hitlWait → ∀ response, answers.hitl = some response →
      t.run.state.hitlResponse = response ∧
        ¬(isApproval response = true ∧ t.run.state.loopDetected = true))

end

/-! ## What a visit stores and reads -/

section Channels

variable {cfg : GraphConfig} {t next : TracedRun} {answers : VisitAnswers}
  {actionHash : String → Json → String}

@[simp] theorem stored_merge (updates : NodeUpdates) (s : StateGraphState) :
    (updates.merge s).stored = s.stored := rfl

@[simp] theorem onto_empty (stored : Stored) : CallbackWrites.onto {} stored = stored := by
  ext <;> rfl

theorem stored_merged (s : StateGraphState) (writes : CallbackWrites) (updates : NodeUpdates) :
    (merged cfg s writes updates).stored =
      if cfg.callbackWrites then writes.onto s.stored else s.stored := by
  unfold merged
  rw [stored_merge]
  split <;> rfl

variable {s : StateGraphState}

theorem stored_afterRoute {error : Option String}
    (hrouter : cfg.routerWrites = false) : (afterRoute cfg s error).stored = s.stored := by
  unfold afterRoute
  rw [if_neg (by rw [hrouter]; decide)]

variable {node : SupervisorState}

theorem writesOf_eq {history : List String} {writes : CallbackWrites}
    (hnode : t.run.next = some node)
    (hcallback : callback cfg node t.run.state answers t.run.history = (history, .ok writes)) :
    writesOf cfg t.run answers = writes := by
  unfold writesOf
  simp only [hnode, hcallback]

theorem runNode_fails {now : ℚ}
    {error : Json.PyError} (h : runNode now s node = .error error) : node = .patching := by
  cases node with
  | patching => rfl
  | _ => cases h

theorem writesOf_of_error {history : List String} {error : GraphError}
    (hnode : t.run.next = some node)
    (hcallback : callback cfg node t.run.state answers t.run.history = (history, .error error)) :
    writesOf cfg t.run answers = {} := by
  unfold writesOf
  simp only [hnode, hcallback]

theorem callback_patching {before after : List String}
    {writes : CallbackWrites}
    (h : callback cfg .patching s answers before = (after, .ok writes)) : writes = {} := by
  unfold callback at h
  split at h <;> cases h <;> rfl

/-- **What is last stored stays what the state holds**, where the edges read it. -/
theorem stored_step (hrouter : cfg.routerWrites = false)
    (hheld : t.run.state.stored = t.stored) (hstep : tracedVisit cfg t answers = some next)
    (hreads : Reads cfg t answers next) : next.run.state.stored = next.stored := by
  obtain ⟨run, hvisit, rfl⟩ := Option.map_eq_some_iff.mp hstep
  cases visited_of_visit hvisit with
  | callbackRaises hnode hcallback =>
      dsimp only
      rw [writesOf_of_error hnode hcallback, onto_empty]
      exact hheld
  | nodeRaises hnode hcallback hupdates =>
      obtain rfl := runNode_fails hupdates
      dsimp only
      rw [writesOf_eq hnode hcallback, callback_patching hcallback, onto_empty]
      exact hheld
  | routeRaises hnode hcallback hupdates hroute => exact hreads _ _ _ _ hnode hcallback hupdates
  | goes hnode hcallback hupdates hroute =>
      exact (stored_afterRoute hrouter).trans (hreads _ _ _ _ hnode hcallback hupdates)

/-! ## What follows from reading -/

/-- A visit whose callback returns goes where the edge leads. -/
theorem next_of_route {target : SupervisorState} {history : List String}
    {writes : CallbackWrites} (hstep : tracedVisit cfg t answers = some next)
    (hnode : t.run.next = some node) (hother : node ≠ .patching)
    (hcallback : callback cfg node t.run.state answers t.run.history = (history, .ok writes))
    (hroute : ∀ updates, runNode answers.nodeClock (writes.apply t.run.state) node = .ok updates →
      (route answers.routeClock (merged cfg t.run.state writes updates) node).2 =
        .ok (some target)) :
    next.run.next = some target := by
  obtain ⟨run, hvisit, rfl⟩ := Option.map_eq_some_iff.mp hstep
  cases visited_of_visit hvisit with
  | callbackRaises hnode' hcallback' =>
      cases hnode.symm.trans hnode'
      rw [hcallback] at hcallback'
      cases hcallback'
  | nodeRaises hnode' hcallback' hupdates =>
      cases hnode.symm.trans hnode'
      exact absurd (runNode_fails hupdates) hother
  | routeRaises hnode' hcallback' hupdates hroute' =>
      cases hnode.symm.trans hnode'
      rw [hcallback] at hcallback'
      cases hcallback'
      have hgoes := hroute _ hupdates
      rw [hroute'] at hgoes
      cases hgoes
  | goes hnode' hcallback' hupdates hroute' =>
      cases hnode.symm.trans hnode'
      rw [hcallback] at hcallback'
      cases hcallback'
      have hgoes := hroute _ hupdates
      rw [hroute'] at hgoes
      exact Except.ok.inj hgoes

theorem callback_of_trips {run : GraphRun} (hon : cfg.connected = true)
    (htrips : Trips cfg.actionHash run) : ∃ history name,
      callback cfg .dispatching run.state answers run.history = (history, .ok (loopHalt name)) := by
  obtain ⟨name, payload, htool, htripped⟩ := htrips
  refine ⟨(registerAndCheck (cfg.actionHash name payload) run.history).1, name, ?_⟩
  unfold callback
  rw [if_neg (by rw [hon]; decide)]
  simp only [onDispatching, htool, htripped, if_true]

theorem callback_of_answer {run : GraphRun} {response : Json} (hon : cfg.connected = true)
    (hanswer : answers.hitl = some response) : ∃ history writes,
      callback cfg .hitlWait run.state answers run.history = (history, .ok writes) ∧
        writes.hitlResponse = some response := by
  unfold callback
  rw [if_neg (by rw [hon]; decide)]
  simp only [onHitlWait, hanswer]
  split
  · exact ⟨_, _, rfl, rfl⟩
  · exact ⟨_, _, rfl, rfl⟩

/-- **Reading is enough**: the edges then lead where the callbacks mean to. -/
theorem reaches_of_reads (hon : cfg.connected = true)
    (hstep : tracedVisit cfg t answers = some next) (hreads : Reads cfg t answers next) :
    Reaches cfg t answers next := by
  have hstored : next.stored = (writesOf cfg t.run answers).onto t.stored := by
    obtain ⟨run, -, rfl⟩ := Option.map_eq_some_iff.mp hstep
    rfl
  refine ⟨hreads, ?_, ?_⟩
  · intro hnode htrips
    obtain ⟨history, name, hcallback⟩ := @callback_of_trips cfg answers t.run hon htrips
    apply next_of_route hstep hnode (by decide) hcallback
    intro updates hupdates
    have hread := hreads _ _ _ _ hnode hcallback hupdates
    rw [hstored, writesOf_eq hnode hcallback] at hread
    have hloop : (merged cfg t.run.state (loopHalt name) updates).loopDetected = true :=
      congrArg Stored.loopDetected hread
    simp only [route, routeFromDispatching, hloop, if_true]
    rfl
  · intro hnode happroved
    obtain ⟨history, writes, hcallback, hwritten⟩ := @callback_of_answer cfg answers t.run _ hon happroved
    apply next_of_route hstep hnode (by decide) hcallback
    intro updates hupdates
    have hread := hreads _ _ _ _ hnode hcallback hupdates
    rw [hstored, writesOf_eq hnode hcallback] at hread
    have hresponse : (merged cfg t.run.state writes updates).hitlResponse = .str "approved" := by
      have h := congrArg Stored.hitlResponse hread
      unfold CallbackWrites.onto at h
      simp only [hwritten, Option.getD_some] at h
      exact h
    simp only [route, routeFromHitlWait, hresponse]
    rfl

theorem sharedDict_reads (hheld : t.run.state.stored = t.stored)
    (hstep : tracedVisit (sharedDict actionHash) t answers = some next) :
    Reads (sharedDict actionHash) t answers next := by
  obtain ⟨run, -, rfl⟩ := Option.map_eq_some_iff.mp hstep
  intro node history writes updates hnode hcallback _
  rw [stored_merged]
  dsimp only
  rw [writesOf_eq hnode hcallback, ← hheld]
  rfl

/-- **What the callbacks are written for.**  With a shared dict, in every run, what they store
reaches the edges. -/
theorem sharedDict_reaches (actionHash : String → Json → String) (s : StateGraphState)
    (history : List String) (visits : List VisitAnswers) :
    Runs.Always (tracedVisit (sharedDict actionHash)) (Reaches (sharedDict actionHash))
      (TracedRun.start s history) visits := by
  have hpres : ∀ t answers next, t.run.state.stored = t.stored →
      tracedVisit (sharedDict actionHash) t answers = some next →
        next.run.state.stored = next.stored :=
    fun t answers next hheld hstep => stored_step rfl hheld hstep (sharedDict_reads hheld hstep)
  have hinv := @Runs.throughout_of_step _ _ _ (TracedRun.start s history) _ hpres rfl visits
  refine Runs.Always.of_throughout (C := fun _ _ _ => True) ?_ hinv ?_
  · intro t answers next hheld hstep _
    exact reaches_of_reads rfl hstep (sharedDict_reads hheld hstep)
  · exact Runs.always_of_forall_mem (fun _ _ _ _ _ => trivial) _

/-! ## Channels -/

/-- Under LangGraph the edge reads what was stored exactly when it was there before. -/
theorem langGraph_reads_iff (hheld : t.run.state.stored = t.stored)
    (hstep : tracedVisit (langGraph actionHash) t answers = some next) :
    Reads (langGraph actionHash) t answers next ↔ ∀ node history writes updates,
      t.run.next = some node →
      callback (langGraph actionHash) node t.run.state answers t.run.history =
        (history, .ok writes) →
      runNode answers.nodeClock (writes.apply t.run.state) node = .ok updates →
        writes.onto t.run.state.stored = t.run.state.stored := by
  obtain ⟨run, -, rfl⟩ := Option.map_eq_some_iff.mp hstep
  have hvisit : ∀ node history writes updates, t.run.next = some node →
      callback (langGraph actionHash) node t.run.state answers t.run.history =
        (history, .ok writes) →
      ((merged (langGraph actionHash) t.run.state writes updates).stored =
          (writesOf (langGraph actionHash) t.run answers).onto t.stored ↔
        writes.onto t.run.state.stored = t.run.state.stored) := by
    intro node history writes updates hnode hcallback
    rw [stored_merged, writesOf_eq hnode hcallback, ← hheld]
    exact eq_comm
  constructor
  · intro h node history writes updates hnode hcallback hupdates
    exact (hvisit _ _ _ updates hnode hcallback).mp (h _ _ _ _ hnode hcallback hupdates)
  · intro h node history writes updates hnode hcallback hupdates
    exact (hvisit _ _ _ updates hnode hcallback).mpr (h _ _ _ _ hnode hcallback hupdates)

theorem onto_result_iff {result : Json} {stored : Stored} :
    CallbackWrites.onto { toolResult := some result } stored = stored ↔
      stored.toolResult = result := by
  constructor
  · intro h
    exact (congrArg Stored.toolResult h).symm
  · rintro rfl
    ext <;> rfl

theorem dispatchStoresNothing_iff {run : GraphRun} :
    DispatchStoresNothing actionHash run answers ↔ ∀ history writes,
      onDispatching actionHash run.state answers run.history = (history, .ok writes) →
        writes.onto run.state.stored = run.state.stored := by
  unfold DispatchStoresNothing onDispatching
  cases htool : toolOf run.state with
  | none =>
      constructor
      · intro h history writes hwrites
        cases hwrites
        exact h
      · intro h
        exact h run.history missingTool rfl
  | some tool =>
      obtain ⟨name, payload⟩ := tool
      dsimp only
      by_cases htrips : (registerAndCheck (actionHash name payload) run.history).2 = true
      · simp only [htrips, if_true]
        constructor
        · intro h history writes hwrites
          cases hwrites
          exact h
        · intro h
          exact h _ (loopHalt name) rfl
      · simp only [htrips, Bool.false_eq_true, if_false]
        cases hdispatch : answers.dispatch with
        | none =>
            constructor
            · intro _ history writes hwrites
              cases hwrites
            · intro _ result hresult
              cases hresult
        | some result =>
            constructor
            · intro h history writes hwrites
              cases hwrites
              exact onto_result_iff.mpr (h result rfl)
            · intro h result' hresult
              cases hresult
              exact onto_result_iff.mp (h _ _ rfl)

/-- An approval of a detected loop also takes back that it was detected. -/
theorem hitlStoresNothing_iff {run : GraphRun} :
    (∀ response, answers.hitl = some response → run.state.hitlResponse = response ∧
        ¬(isApproval response = true ∧ run.state.loopDetected = true)) ↔
      ∀ history writes, onHitlWait run.state answers run.history = (history, .ok writes) →
        writes.onto run.state.stored = run.state.stored := by
  unfold onHitlWait
  cases hanswer : answers.hitl with
  | none =>
      constructor
      · intro _ history writes hwrites
        cases hwrites
      · intro _ response hresponse
        cases hresponse
  | some response =>
      dsimp only
      by_cases hresets : (isApproval response && run.state.loopDetected) = true
      · obtain ⟨happroval, hloop⟩ := Bool.and_eq_true_iff.mp hresets
        rw [if_pos hresets]
        constructor
        · intro h
          exact absurd ⟨happroval, hloop⟩ (h response rfl).2
        · intro h
          have hcleared := congrArg Stored.loopDetected (h _ _ rfl)
          have hfalse : false = run.state.loopDetected := hcleared
          rw [hloop] at hfalse
          cases hfalse
      · rw [if_neg hresets]
        constructor
        · intro h history writes hwrites
          cases hwrites
          have hsame : run.state.stored.hitlResponse = response := (h response rfl).1
          rw [← hsame]
          ext <;> rfl
        · intro h response' hresponse
          cases hresponse
          have hsame := congrArg Stored.hitlResponse (h _ _ rfl)
          exact ⟨hsame.symm, fun hboth => hresets (Bool.and_eq_true_iff.mpr hboth)⟩

theorem storesNothingNew_iff :
    StoresNothingNew actionHash t answers ↔ ∀ node history writes updates,
      t.run.next = some node →
      callback (langGraph actionHash) node t.run.state answers t.run.history =
        (history, .ok writes) →
      runNode answers.nodeClock (writes.apply t.run.state) node = .ok updates →
        writes.onto t.run.state.stored = t.run.state.stored := by
  unfold StoresNothingNew
  rw [dispatchStoresNothing_iff, hitlStoresNothing_iff]
  constructor
  · rintro ⟨hdispatch, hhitl⟩ node history writes updates hnode hcallback _
    cases node with
    | dispatching => exact hdispatch hnode history writes hcallback
    | hitlWait => exact hhitl hnode history writes hcallback
    | analyzing =>
        have hempty : writes = {} := by
          cases hanalyzes : answers.analyzes <;>
            simp [callback, langGraph, hanalyzes] at hcallback
          exact hcallback.2.symm
        rw [hempty, onto_empty]
    | _ =>
        cases hcallback
        exact onto_empty _
  · intro h
    constructor
    · intro hnode history writes hwrites
      exact h .dispatching history writes _ hnode hwrites rfl
    · intro hnode history writes hwrites
      exact h .hitlWait history writes _ hnode hwrites rfl

end Channels

/-- **Callback results reach the routing, exactly.**  Under LangGraph they do in a run exactly
when in each of its visits the callback stores nothing new. -/
theorem callbacksReach_iff (actionHash : String → Json → String) (s : StateGraphState)
    (history : List String) (visits : List VisitAnswers) :
    Runs.Always (tracedVisit (langGraph actionHash)) (Reaches (langGraph actionHash))
        (TracedRun.start s history) visits ↔
      Runs.Always (tracedVisit (langGraph actionHash))
        (fun t answers _ => StoresNothingNew actionHash t answers)
        (TracedRun.start s history) visits := by
  have hiff : ∀ t answers next, t.run.state.stored = t.stored →
      tracedVisit (langGraph actionHash) t answers = some next →
        (Reads (langGraph actionHash) t answers next ↔ StoresNothingNew actionHash t answers) :=
    fun t answers next hheld hstep =>
      (langGraph_reads_iff hheld hstep).trans storesNothingNew_iff.symm
  refine Runs.always_iff_of_guarded (I := fun t => t.run.state.stored = t.stored) ?_ ?_ rfl visits
  · intro t answers next hheld hstep hnew
    exact stored_step rfl hheld hstep ((hiff t answers next hheld hstep).mpr hnew)
  · intro t answers next hheld hstep
    constructor
    · intro h
      exact (hiff t answers next hheld hstep).mp h.reads
    · intro h
      exact reaches_of_reads rfl hstep ((hiff t answers next hheld hstep).mpr h)

/-! ## A lost approval -/

/-- The operator approves. -/
def approvingAnswers : VisitAnswers := ⟨true, none, some (.str "approved"), 0, 0⟩

/-- A command whose tool requires approval. -/
def commandState : StateGraphState :=
  { getInitialState with
    pendingEvent := some WorkflowEventType.userCommand.value
    toolName := .str "xedit"
    eventData := .obj [("requires_hitl", .bool true)] }

theorem routeFromHitlWait_waits {s : StateGraphState} {now : ℚ}
    (hresponse : s.hitlResponse = .null) (hstarted : s.hitlStartedAt = some now) :
    routeFromHitlWait now s = (none, .ok (some .hitlWait)) := by
  have hearly : ¬hitlTimeoutSeconds ≤ now - now := by
    rw [sub_self]
    unfold hitlTimeoutSeconds
    decide
  unfold routeFromHitlWait
  rw [hresponse]
  simp only [Json.isNone, hstarted, if_neg hearly, Bool.true_eq_false, if_false]

/-- **An approval is lost.**  The operator approves the command, and HITL_WAIT is visited
again. -/
theorem callbacksReach_counterexample :
    ¬Runs.Always (tracedVisit (langGraph fun name _ => name))
      (Reaches (langGraph fun name _ => name)) (TracedRun.start commandState [])
      ([approvingAnswers, approvingAnswers, approvingAnswers] ++ [approvingAnswers]) := by
  intro h
  have hasked : ∃ s, Runs.exec (tracedVisit (langGraph fun name _ => name))
      (TracedRun.start commandState [])
      [approvingAnswers, approvingAnswers, approvingAnswers] =
        some ⟨⟨some .hitlWait, s, []⟩, s.stored⟩ ∧ s.hitlResponse = .null ∧
          s.hitlStartedAt = none ∧ s.loopDetected = false := ⟨_, rfl, rfl, rfl, rfl⟩
  obtain ⟨s, hrun, hresponse, hstarted, hloop⟩ := hasked
  let cfg := langGraph fun name _ => name
  let writes : CallbackWrites := { hitlResponse := some (.str "approved") }
  let updates : NodeUpdates := hitlWaitNode 0 (writes.apply s)
  have hcallback : callback cfg .hitlWait s approvingAnswers [] = ([], .ok writes) := by
    have hkeeps : (isApproval (.str "approved") && s.loopDetected) = false := by
      rw [hloop, Bool.and_false]
    show onHitlWait s approvingAnswers [] = _
    simp only [onHitlWait, approvingAnswers, hkeeps, Bool.false_eq_true, if_false]
    rfl
  have hroute : route 0 (merged cfg s writes updates) .hitlWait = (none, .ok (some .hitlWait)) := by
    apply routeFromHitlWait_waits
    · exact hresponse
    · show ((if s.hitlStartedAt = none then some 0 else none) <|> s.hitlStartedAt) = _
      rw [if_pos hstarted]
      rfl
  have hvisit := @visit_of cfg ⟨some .hitlWait, s, []⟩ approvingAnswers .hitlWait [] writes updates
    none (some .hitlWait) rfl hcallback rfl hroute
  have hstep := congrArg (Option.map fun next : GraphRun =>
    TracedRun.mk next ((writesOf cfg ⟨some .hitlWait, s, []⟩ approvingAnswers).onto s.stored)) hvisit
  have hreaches := Runs.Always.at_prefix h hrun hstep
  have hdispatching := hreaches.approvalLeads rfl rfl
  cases hdispatching

end SkyClaw.Orchestrator.StateGraph
