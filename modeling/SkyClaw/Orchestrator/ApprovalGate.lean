import SkyClaw.Orchestrator.StateGraph

/-!
# The approval gate of the workflow graph

An event may say `requires_hitl`.  `approvalGate_iff` says for which start states every
entry into a node that works on files comes from an approval given just before, and for
which ones the fallback without LangGraph waits for one.  What callbacks store is taken to
be effective here.
-/

namespace SkyClaw.Orchestrator.StateGraph

/-! ## The promise and the condition -/

/-- The initial state with an event, a tool and the data of the event. -/
def startState (event : Option String) (tool data : Json) : StateGraphState :=
  { getInitialState with pendingEvent := event, toolName := tool, eventData := data }

def RequiresHitl (data : Json) : Prop := flag data "requires_hitl" = .ok true

/-- An entry into DISPATCHING or PATCHING comes from a visit of HITL_WAIT whose own request
was approved. -/
def Gated (cfg : GraphConfig) (run : GraphRun) (answers : VisitAnswers) (next : GraphRun) : Prop :=
  ∀ node, next.next = some node → node = .dispatching ∨ node = .patching →
    run.next = some .hitlWait ∧ cfg.connected = true ∧ answers.hitl = some (.str "approved")

/-- Every run of the graph is gated. -/
def GraphGated (s : StateGraphState) : Prop :=
  RequiresHitl s.eventData → ∀ cfg : GraphConfig, cfg.callbackWrites = true →
    ∀ history visits,
      Runs.Always (visit cfg) (Gated cfg) (GraphRun.start s history) visits

/-- The fallback reports COMPLETED with an approval only. -/
def FallbackGated (s : StateGraphState) : Prop :=
  RequiresHitl s.eventData → (executeFallback s).currentState = .completed →
    isApproval (executeFallback s).hitlResponse = true

open WorkflowEventType

/-- The event is one that leads to the analysis. -/
def Analyzed (event : Option String) : Prop :=
  event = some modlistChanged.value ∨
    event = some userCommand.value

/-- Where approval is required, the event is no tool request, and asks for no patch. -/
def NoUngatedRoute (event : Option String) (tool data : Json) : Prop :=
  RequiresHitl data → event ≠ some toolRequest.value ∧
    ¬(Analyzed event ∧ tool.truthy = true ∧ flag data "requires_patch" = .ok true)

/-! ## The edges -/

theorem validateAndRoute_ok {source target reached : SupervisorState}
    (h : validateAndRoute source target = .ok (some reached)) :
    reached = target ∧ reached ∈ validTransitions source := by
  unfold validateAndRoute at h
  split at h
  · rename_i hvalid
    cases h
    exact ⟨rfl, hvalid⟩
  · cases h

variable {now : ℚ} {s : StateGraphState} {node : SupervisorState}

/-- **Every edge is a valid transition**, or a node waits for itself. -/
theorem route_valid {target : SupervisorState}
    (h : (route now s node).2 = .ok (some target)) :
    target ∈ validTransitions node ∨
      target = node ∧ (node = .idle ∨ node = .hitlWait) := by
  -- Each routing function ends in `validateAndRoute`, at END or in an error; two wait.
  cases node with
  | init | completed =>
      cases h
      exact .inl (by decide)
  | errorFatal => cases h
  | idle =>
      simp only [route, routeFromIdle] at h
      repeat' split at h
      all_goals first
        | exact .inl (validateAndRoute_ok h).2
        | cases h
      exact .inr ⟨rfl, .inl rfl⟩
  | hitlWait =>
      simp only [route, routeFromHitlWait] at h
      repeat' split at h
      all_goals simp only at h
      all_goals first
        | exact .inl (validateAndRoute_ok h).2
        | cases h
      exact .inr ⟨rfl, .inr rfl⟩
  | watching | analyzing | dispatching | error | rollingBack | patching | generatingLods =>
      simp only [route, routeFromWatching, routeFromAnalyzing, routeFromDispatching, routeFromError,
        routeFromRollingBack, routeFromPatching, routeFromGeneratingLods, routeFromTool] at h
      repeat' split at h
      all_goals first
        | exact .inl (validateAndRoute_ok h).2
        | cases h

/-- The edges into DISPATCHING. -/
theorem route_to_dispatching
    (h : (route now s node).2 = .ok (some .dispatching)) :
    node = .idle ∧ s.pendingEvent = some toolRequest.value ∨
      node = .analyzing ∧ flag s.eventData "requires_hitl" = .ok false ∨
      node = .hitlWait ∧ s.hitlResponse = .str "approved" := by
  have hvalid := route_valid h
  cases node with
  | idle =>
      refine .inl ⟨rfl, ?_⟩
      simp only [route, routeFromIdle] at h
      repeat' split at h
      all_goals first
        | assumption
        | cases (validateAndRoute_ok h).1
        | cases h
  | analyzing =>
      refine .inr (.inl ⟨rfl, ?_⟩)
      simp only [route, routeFromAnalyzing] at h
      split at h
      · rename_i requiresHitl requiresPatch hhitl hpatch
        rw [hhitl]
        repeat' split at h
        all_goals first
          | cases (validateAndRoute_ok h).1; done
          | skip
        rename_i hno
        rw [eq_false_of_ne_true hno]
      · cases h
      · cases h
  | hitlWait =>
      refine .inr (.inr ⟨rfl, ?_⟩)
      simp only [route, routeFromHitlWait] at h
      repeat' split at h
      all_goals simp only at h
      all_goals first
        | assumption
        | cases (validateAndRoute_ok h).1
        | cases h
  | _ => simp [validTransitions] at hvalid

/-- The edge into PATCHING. -/
theorem route_to_patching
    (h : (route now s node).2 = .ok (some .patching)) :
    node = .analyzing ∧ s.toolName.truthy = true ∧
      flag s.eventData "requires_patch" = .ok true := by
  have hvalid := route_valid h
  cases node with
  | analyzing =>
      refine ⟨rfl, ?_⟩
      simp only [route, routeFromAnalyzing] at h
      split at h
      · rename_i requiresHitl requiresPatch hhitl hpatch
        rw [hpatch]
        repeat' split at h
        all_goals first
          | cases (validateAndRoute_ok h).1; done
          | skip
        rename_i htool hyes
        exact ⟨htool, by rw [hyes]⟩
      · cases h
      · cases h
  | _ => simp [validTransitions] at hvalid

theorem route_to_analyzing
    (h : (route now s node).2 = .ok (some .analyzing)) : Analyzed s.pendingEvent := by
  have hvalid := route_valid h
  cases node with
  | idle =>
      simp only [route, routeFromIdle] at h
      repeat' split at h
      all_goals first
        | exact .inr ‹_›
        | cases (validateAndRoute_ok h).1
        | cases h
  | watching =>
      simp only [route, routeFromWatching] at h
      repeat' split at h
      all_goals first
        | exact .inl ‹_›
        | cases (validateAndRoute_ok h).1
  | _ => simp [validTransitions] at hvalid

/-! ## What visits keep -/

theorem runNode_eventData
    {updates : NodeUpdates} (h : runNode now s node = .ok updates) :
    updates.eventData.getD s.eventData = s.eventData := by
  cases node with
  | patching =>
      simp only [runNode, patchingNode] at h
      obtain ⟨report, -, h⟩ := Json.bind_ok h
      split at h <;> cases h <;> rfl
  | _ =>
      cases h
      rfl

theorem callback_of_not_connected {cfg : GraphConfig} {answers : VisitAnswers} {before after : List String}
    {writes : CallbackWrites} (hoff : cfg.connected = false)
    (h : callback cfg node s answers before = (after, .ok writes)) : writes = {} := by
  unfold callback at h
  rw [if_pos hoff] at h
  cases h
  rfl

theorem callback_hitlWait {cfg : GraphConfig} {answers : VisitAnswers}
    {before after : List String} {writes : CallbackWrites} (hon : cfg.connected = true)
    (h : callback cfg .hitlWait s answers before = (after, .ok writes)) :
    ∃ response, answers.hitl = some response ∧ writes.hitlResponse = some response := by
  unfold callback at h
  rw [if_neg (by rw [hon]; decide)] at h
  simp only [onHitlWait] at h
  split at h
  · cases h
  · rename_i response hresponse
    split at h <;> cases h <;> exact ⟨response, hresponse, rfl⟩

/-- What the visits of a run from a start state keep. -/
structure KeepsStart (cfg : GraphConfig) (event : Option String) (tool data : Json)
    (run : GraphRun) : Prop where
  keepsEvent : run.state.pendingEvent = event ∨ run.state.pendingEvent = none
  keepsTool : run.state.toolName = tool
  keepsData : run.state.eventData = data
  unanswered : cfg.connected = false → run.state.hitlResponse = .null
  analyzed : run.next = some .analyzing → Analyzed event

section Gate

variable {cfg : GraphConfig} {event : Option String} {tool data : Json}
  {run next : GraphRun} {answers : VisitAnswers}

/-- The fields of the state that edges are chosen by, after the node. -/
theorem merged_keeps {node : SupervisorState} {writes : CallbackWrites} {updates : NodeUpdates}
    {now : ℚ} (hkeeps : KeepsStart cfg event tool data run)
    (hupdates : runNode now (writes.apply run.state) node = .ok updates) :
    ((merged cfg run.state writes updates).pendingEvent = event ∨
      (merged cfg run.state writes updates).pendingEvent = none) ∧
    (merged cfg run.state writes updates).toolName = tool ∧
    (merged cfg run.state writes updates).eventData = data := by
  have hdata : updates.eventData.getD run.state.eventData = run.state.eventData :=
    runNode_eventData hupdates
  have hbase : (if cfg.callbackWrites then writes.apply run.state else run.state).pendingEvent =
        run.state.pendingEvent ∧
      (if cfg.callbackWrites then writes.apply run.state else run.state).toolName =
        run.state.toolName ∧
      (if cfg.callbackWrites then writes.apply run.state else run.state).eventData =
        run.state.eventData := by
    split <;> exact ⟨rfl, rfl, rfl⟩
  obtain ⟨hevent, htool, heventData⟩ := hbase
  unfold merged NodeUpdates.merge
  refine ⟨?_, htool.trans hkeeps.keepsTool, ?_⟩
  · simp only [hevent]
    split
    · exact .inr rfl
    · exact hkeeps.keepsEvent
  · simp only [heventData, hdata]
    exact hkeeps.keepsData

/-- **A visit keeps what the start state fixed.** -/
theorem keepsStart_step {target : SupervisorState} (hkeeps : KeepsStart cfg event tool data run)
    (hvisit : visit cfg run answers = some next) (htarget : next.next = some target) :
    KeepsStart cfg event tool data next := by
  obtain ⟨node, history, writes, updates, hnode, hcallback, hupdates, hroute, hstate⟩ :=
    visit_to hvisit htarget
  obtain ⟨hevent, htool, hdata⟩ := merged_keeps hkeeps hupdates
  have hafter : next.state.pendingEvent = (merged cfg run.state writes updates).pendingEvent ∧
      next.state.toolName = (merged cfg run.state writes updates).toolName ∧
      next.state.eventData = (merged cfg run.state writes updates).eventData ∧
      next.state.hitlResponse = (merged cfg run.state writes updates).hitlResponse := by
    rw [hstate]
    unfold afterRoute
    split <;> exact ⟨rfl, rfl, rfl, rfl⟩
  obtain ⟨hafterEvent, hafterTool, hafterData, hafterResponse⟩ := hafter
  refine ⟨?_, hafterTool.trans htool, hafterData.trans hdata, ?_, ?_⟩
  · rw [hafterEvent]
    exact hevent
  · intro hoff
    rw [hafterResponse]
    have hwrites := callback_of_not_connected hoff hcallback
    have hresponse : (merged cfg run.state writes updates).hitlResponse =
        run.state.hitlResponse := by
      rw [hwrites]
      unfold merged NodeUpdates.merge
      simp only
      split <;> rfl
    rw [hresponse]
    exact hkeeps.unanswered hoff
  · intro hanalyzing
    rw [htarget] at hanalyzing
    cases hanalyzing
    have hled := route_to_analyzing hroute
    rcases hevent with hsame | hcleared
    · rw [hsame] at hled
      exact hled
    · rw [hcleared] at hled
      rcases hled with h | h <;> cases h

/-- **A visit is gated**, where no route avoids the approval. -/
theorem gated_step (hcond : NoUngatedRoute event tool data) (hhitl : RequiresHitl data)
    (hwrites : cfg.callbackWrites = true) (hkeeps : KeepsStart cfg event tool data run)
    (hvisit : visit cfg run answers = some next) : Gated cfg run answers next := by
  intro target htarget hworks
  obtain ⟨node, history, writes, updates, hnode, hcallback, hupdates, hroute, -⟩ :=
    visit_to hvisit htarget
  obtain ⟨hevent, htool, hdata⟩ := merged_keeps hkeeps hupdates
  obtain ⟨hnoRequest, hnoPatch⟩ := hcond hhitl
  rcases hworks with rfl | rfl
  · rcases route_to_dispatching hroute with ⟨-, hrequest⟩ | ⟨-, hfree⟩ | ⟨rfl, happroved⟩
    · -- A tool request goes straight from IDLE.
      rcases hevent with hsame | hcleared
      · rw [hsame] at hrequest
        exact absurd hrequest hnoRequest
      · rw [hcleared] at hrequest
        cases hrequest
    · rw [hdata, show flag data "requires_hitl" = .ok true from hhitl] at hfree
      cases hfree
    · by_cases hon : cfg.connected = true
      · obtain ⟨response, hanswer, hstored⟩ := callback_hitlWait hon hcallback
        have hread : (merged cfg run.state writes updates).hitlResponse = response := by
          unfold merged NodeUpdates.merge CallbackWrites.apply
          simp only [hwrites, hstored, if_true, Option.getD_some]
        rw [hread] at happroved
        exact ⟨hnode, hon, happroved ▸ hanswer⟩
      · have hoff : cfg.connected = false := eq_false_of_ne_true hon
        have hread : (merged cfg run.state writes updates).hitlResponse = .null := by
          rw [callback_of_not_connected hoff hcallback, ← hkeeps.unanswered hoff]
          unfold merged NodeUpdates.merge CallbackWrites.apply
          simp only [hwrites, if_true, Option.getD_none]
        rw [hread] at happroved
        cases happroved
  · obtain ⟨rfl, htruthy, hpatch⟩ := route_to_patching hroute
    rw [htool] at htruthy
    rw [hdata] at hpatch
    exact absurd ⟨hkeeps.analyzed hnode, htruthy, hpatch⟩ hnoPatch

end Gate

/-! ## Runs that avoid the approval -/

/-- A supervisor whose callbacks return. -/
def connectedConfig : GraphConfig := ⟨true, fun name _ => name, true, true⟩

def quietAnswers : VisitAnswers := ⟨true, none, none, 0, 0⟩

/-- The analysis goes on to PATCHING. -/
theorem visit_patch {history : List String}
    (htool : s.toolName.truthy = true) (hpatch : flag s.eventData "requires_patch" = .ok true)
    (hhitl : flag s.eventData "requires_hitl" = .ok true) (herror : s.lastError = none) :
    ∃ next, visit connectedConfig ⟨some .analyzing, s, history⟩ quietAnswers = some next ∧
      next.next = some .patching := by
  have hroute : ∀ s' : StateGraphState, s'.toolName = s.toolName → s'.eventData = s.eventData →
      s'.lastError = s.lastError → routeFromAnalyzing s' = .ok (some .patching) := by
    intro s' htool' hdata' herror'
    have hnoError : s'.hasError = false := by
      unfold StateGraphState.hasError
      rw [herror', herror]
      rfl
    unfold routeFromAnalyzing
    rw [hdata', hhitl, hpatch]
    simp only [hnoError, htool', htool, Bool.false_eq_true, if_false, if_true]
    rfl
  have hmerged := hroute (merged connectedConfig s {}
    { currentState := .analyzing, previousState := some .watching }) rfl rfl rfl
  have hvisit := @visit_of connectedConfig ⟨some .analyzing, s, history⟩ quietAnswers .analyzing
    history {} _ none (some .patching) rfl rfl rfl (congrArg (Prod.mk none) hmerged)
  exact ⟨_, hvisit, rfl⟩

theorem exec_to_analysis {event : Option String} {tool data : Json} (h : Analyzed event) :
    ∃ visits s, Runs.exec (visit connectedConfig) (GraphRun.start (startState event tool data) [])
        visits = some ⟨some .analyzing, s, []⟩ ∧
      s.toolName = tool ∧ s.eventData = data ∧ s.lastError = none := by
  rcases h with rfl | rfl
  · exact ⟨[quietAnswers, quietAnswers, quietAnswers], _, rfl, rfl, rfl, rfl⟩
  · exact ⟨[quietAnswers, quietAnswers], _, rfl, rfl, rfl, rfl⟩

theorem noUngatedRoute_of_graphGated {event : Option String} {tool data : Json}
    (h : GraphGated (startState event tool data)) : NoUngatedRoute event tool data := by
  intro hhitl
  have hruns := h hhitl connectedConfig rfl []
  constructor
  · rintro rfl
    have hstep : ∃ u next, Runs.exec (visit connectedConfig) (GraphRun.start
        (startState (some toolRequest.value) tool data) []) [quietAnswers] =
          some u ∧ visit connectedConfig u quietAnswers = some next ∧
          u.next = some .idle ∧ next.next = some .dispatching := ⟨_, _, rfl, rfl, rfl, rfl⟩
    obtain ⟨u, next, hrun, hvisit, hidle, hdispatching⟩ := hstep
    have hgated := Runs.Always.at_prefix (hruns ([quietAnswers] ++ [quietAnswers])) hrun hvisit
    have hwait := (hgated _ hdispatching (.inl rfl)).1
    rw [hidle] at hwait
    cases hwait
  · rintro ⟨hanalyzed, htool, hpatch⟩
    obtain ⟨visits, s, hrun, hsTool, hsData, hsError⟩ :=
      @exec_to_analysis event tool data hanalyzed
    have hhitl' : flag s.eventData "requires_hitl" = .ok true := by
      rw [hsData]
      exact hhitl
    obtain ⟨next, hvisit, hpatching⟩ := @visit_patch s [] (by rw [hsTool]; exact htool)
      (by rw [hsData]; exact hpatch) hhitl' hsError
    have hgated := Runs.Always.at_prefix (hruns (visits ++ [quietAnswers])) hrun hvisit
    have hwait := (hgated _ hpatching (.inr rfl)).1
    cases hwait

theorem graphGated_of_noUngatedRoute {event : Option String} {tool data : Json}
    (hcond : NoUngatedRoute event tool data) : GraphGated (startState event tool data) := by
  intro hhitl cfg hwrites history visits
  let I : GraphRun → Prop := fun run =>
    ∀ node, run.next = some node → KeepsStart cfg event tool data run
  have hstart : I (GraphRun.start (startState event tool data) history) := by
    intro node hnode
    exact ⟨.inl rfl, rfl, rfl, fun _ => rfl, fun h => by cases h⟩
  have hpres : ∀ run answers next, I run → visit cfg run answers = some next → I next := by
    intro run answers next hrun hvisit target htarget
    obtain ⟨node, -, -, -, hnode, -⟩ := visit_to hvisit htarget
    exact keepsStart_step (hrun node hnode) hvisit htarget
  have hinv := Runs.throughout_of_step hpres hstart visits
  refine Runs.Always.of_throughout (C := fun _ _ _ => True) ?_ hinv ?_
  · intro run answers next hrun hvisit _ target htarget
    obtain ⟨node, -, -, -, hnode, -⟩ := visit_to hvisit htarget
    exact gated_step hcond hhitl hwrites (hrun node hnode) hvisit target htarget
  · exact Runs.always_of_forall_mem (fun _ _ _ _ _ => trivial) _

theorem executeFallback_of_analyzed (hanalyzed : Analyzed s.pendingEvent)
    (herror : s.hasError = false) :
    (executeFallback s).currentState = .completed ∧
      (executeFallback s).hitlResponse = s.hitlResponse := by
  unfold Analyzed at hanalyzed
  unfold executeFallback
  simp only [hanalyzed, if_true]
  split
  · split
    · rename_i hfails
      exact absurd (herror ▸ hfails : false = true) (by decide)
    · exact ⟨rfl, rfl⟩
  · exact ⟨rfl, rfl⟩

theorem executeFallback_of_not_analyzed
    (h : ¬Analyzed s.pendingEvent) : (executeFallback s).currentState = .idle := by
  unfold Analyzed at h
  unfold executeFallback
  simp only [h, if_false]

/-- **The fallback, exactly.** -/
theorem fallbackGated_iff {event : Option String} {tool data : Json} :
    FallbackGated (startState event tool data) ↔ (RequiresHitl data → ¬Analyzed event) := by
  constructor
  · intro h hhitl hanalyzed
    have hcompleted : (executeFallback (startState event tool data)).currentState = .completed ∧
        (executeFallback (startState event tool data)).hitlResponse = .null :=
      executeFallback_of_analyzed hanalyzed rfl
    have happroval := h hhitl hcompleted.1
    rw [hcompleted.2] at happroval
    cases happroval
  · intro h hhitl hcompleted
    have hidle : (executeFallback (startState event tool data)).currentState = .idle :=
      executeFallback_of_not_analyzed (h hhitl)
    rw [hidle] at hcompleted
    cases hcompleted

/-- **The approval gate, exactly.**  The runs of the graph are gated exactly for the start
states without a route that avoids HITL_WAIT, and the fallback exactly for those whose
event leads to no analysis. -/
theorem approvalGate_iff (event : Option String) (tool data : Json) :
    (GraphGated (startState event tool data) ↔ NoUngatedRoute event tool data) ∧
      (FallbackGated (startState event tool data) ↔ (RequiresHitl data → ¬Analyzed event)) :=
  ⟨⟨noUngatedRoute_of_graphGated, graphGated_of_noUngatedRoute⟩, fallbackGated_iff⟩

/-- The event says that approval is required. -/
def askingData : Json := .obj [("requires_hitl", .bool true)]

/-- **The gate is avoided.**  A tool request that requires approval is dispatched at once,
and without LangGraph a command that requires it is COMPLETED. -/
theorem approvalGate_counterexample :
    ¬GraphGated (startState (some toolRequest.value) (.str "xedit") askingData) ∧
      ¬FallbackGated
        (startState (some userCommand.value) (.str "xedit") askingData) := by
  constructor
  · intro h
    exact (noUngatedRoute_of_graphGated h rfl).1 rfl
  · intro h
    exact fallbackGated_iff.mp h rfl (Or.inr rfl)

end SkyClaw.Orchestrator.StateGraph
