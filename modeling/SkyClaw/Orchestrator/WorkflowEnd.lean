import Mathlib.Tactic.Linarith
import SkyClaw.Orchestrator.ErrorBudget

/-!
# Whether a workflow reaches END

A run ends where IDLE reads a shutdown, where ERROR has counted three errors and where a rollback
has failed.  COMPLETED clears the event and goes back to IDLE, and IDLE without an event that it
routes goes to itself.  `reachesEnd_iff_onCourse` says that these two, and an approval that a
callback could not make known, are all that keeps a run from END.
-/

namespace SkyClaw.Orchestrator.StateGraph

/-! ## Runs without end -/

/-- The run after `n` visits; once it is over it stands still. -/
def runAt (cfg : GraphConfig) (answers : Nat → VisitAnswers) (start : GraphRun) : Nat → GraphRun
  | 0 => start
  | n + 1 =>
      (visit cfg (runAt cfg answers start n) (answers n)).getD (runAt cfg answers start n)

/-- A visit none of whose parts raises, with what they return. -/
structure Goes (cfg : GraphConfig) (run : GraphRun) (answers : VisitAnswers)
    (node : SupervisorState) (history : List String) (writes : CallbackWrites)
    (updates : NodeUpdates) (stored : Option String) (target : Target) : Prop where
  visited : run.next = some node
  called : callback cfg node run.state answers run.history = (history, .ok writes)
  ran : runNode answers.nodeClock (writes.apply run.state) node = .ok updates
  routed : route answers.routeClock (merged cfg run.state writes updates) node =
    (stored, .ok target)

/-- The edge of the visit leads to END. -/
def GoesToEnd (cfg : GraphConfig) (run : GraphRun) (answers : VisitAnswers) : Prop :=
  ∃ node history writes updates stored,
    Goes cfg run answers node history writes updates stored none

def ReachesEnd (cfg : GraphConfig) (answers : Nat → VisitAnswers) (start : GraphRun) : Prop :=
  ∃ n, GoesToEnd cfg (runAt cfg answers start n) (answers n)

/-- The analysis, the tool and the operator come back, the tool with a dict. -/
structure VisitAnswers.Finish (answers : VisitAnswers) : Prop where
  analyzes : answers.analyzes = true
  dispatches : ∃ fields, answers.dispatch = some (.obj fields)
  answered : ∃ response, answers.hitl = some response

/-- Tools finish, and the clock of a wait for the operator goes on. -/
structure Finishing (answers : Nat → VisitAnswers) : Prop where
  finish : ∀ n, (answers n).Finish
  clock : ∀ time : ℚ, ∃ n, ∀ m, n ≤ m → time ≤ (answers m).routeClock

/-- A dict, or `None`. -/
def DictOrNone (value : Json) : Prop := value = .null ∨ ∃ fields, value = .obj fields

/-- The fields of a state have the types that `StateGraphState` gives them. -/
structure Typed (s : StateGraphState) : Prop where
  eventData : ∃ fields, s.eventData = .obj fields
  toolResult : DictOrNone s.toolResult
  rollbackResult : DictOrNone s.rollbackResult

open WorkflowEventType

/-- An event that IDLE routes to another node or to END. -/
def Routed (event : Option String) : Prop :=
  event = some modlistChanged.value ∨
    event = some userCommand.value ∨
    event = some toolRequest.value ∨
    event = some shutdown.value ∨
    event = some errorOccurred.value

/-- What a callback stores is read by the edges. -/
def GraphConfig.effective (cfg : GraphConfig) : Bool := cfg.connected && cfg.callbackWrites

/-- In front of a visit: it is not one of COMPLETED, not one of IDLE with an event that is not
routed, and not one of HITL_WAIT where the state has an approval of a detected loop that no
callback can clear. -/
def OnCourse (cfg : GraphConfig) (run : GraphRun) : Prop :=
  match run.next with
  | some .completed => False
  | some .idle => Routed run.state.pendingEvent
  | some .hitlWait => ¬(cfg.effective = false ∧ run.state.loopDetected = true ∧
      run.state.hitlResponse = .str "approved")
  | _ => True

/-! ## No visit raises -/

section Raising

variable {cfg : GraphConfig} {run : GraphRun} {answers : VisitAnswers} {now : ℚ}
  {s : StateGraphState} {node : SupervisorState} {writes : CallbackWrites} {updates : NodeUpdates}
  {history : List String}

theorem dictOrNone_unwritten (result : Json) (h : none = some result) : DictOrNone result := by
  cases h

theorem callback_finishes (cfg : GraphConfig) (node : SupervisorState) (s : StateGraphState)
    (before : List String) (h : answers.Finish) :
    ∃ history writes, callback cfg node s answers before = (history, .ok writes) ∧
      ∀ result, writes.toolResult = some result → DictOrNone result := by
  obtain ⟨fields, hdispatch⟩ := h.dispatches
  obtain ⟨response, hresponse⟩ := h.answered
  unfold callback
  split
  · exact ⟨_, _, rfl, dictOrNone_unwritten⟩
  · cases node with
    | analyzing => exact ⟨before, {}, by rw [if_pos h.analyzes], dictOrNone_unwritten⟩
    | dispatching =>
        simp only [onDispatching]
        split
        · refine ⟨_, _, rfl, fun result hresult => ?_⟩
          cases hresult
          exact .inr ⟨_, rfl⟩
        · split
          · exact ⟨_, _, rfl, dictOrNone_unwritten⟩
          · rw [hdispatch]
            refine ⟨_, _, rfl, fun result hresult => ?_⟩
            cases hresult
            exact .inr ⟨_, rfl⟩
    | hitlWait =>
        simp only [onHitlWait, hresponse]
        split
        · exact ⟨_, _, rfl, dictOrNone_unwritten⟩
        · exact ⟨_, _, rfl, dictOrNone_unwritten⟩
    | _ => exact ⟨_, _, rfl, dictOrNone_unwritten⟩

theorem runNode_finishes (now : ℚ) (node : SupervisorState)
    (h : ∃ fields, s.eventData = .obj fields) : ∃ updates, runNode now s node = .ok updates ∧
      (updates.eventData = none ∨ updates.eventData = some s.eventData) ∧
      ∀ result, updates.rollbackResult = some result → DictOrNone result := by
  obtain ⟨fields, hfields⟩ := h
  cases node with
  | patching =>
      -- PATCHING is the one node that reads the event's data.
      have hget : s.eventData.get "conflict_report" .null =
          .ok ((fields.lookup "conflict_report").getD .null) := by rw [hfields]; rfl
      simp only [runNode, patchingNode, hget, bind, Except.bind]
      split
      · exact ⟨_, rfl, .inl rfl, dictOrNone_unwritten⟩
      · exact ⟨_, rfl, .inr rfl, dictOrNone_unwritten⟩
  | errorFatal =>
      refine ⟨_, rfl, .inl rfl, fun result hresult => ?_⟩
      cases hresult
      exact .inr ⟨_, rfl⟩
  | _ => exact ⟨_, rfl, .inl rfl, dictOrNone_unwritten⟩

theorem flag_finishes (h : ∃ fields, s.eventData = .obj fields) (key : String) :
    ∃ value, flag s.eventData key = .ok value := by
  obtain ⟨fields, hfields⟩ := h
  rw [hfields]
  exact ⟨_, rfl⟩

theorem hasStatus_finishes (h : DictOrNone s.toolResult) (statuses : List String) :
    ∃ value, hasStatus s.toolResult statuses = .ok value := by
  unfold hasStatus
  split
  · rcases h with hnone | ⟨fields, hfields⟩
    · next htruthy => rw [hnone] at htruthy; cases htruthy
    · rw [hfields]
      exact ⟨_, rfl⟩
  · exact ⟨_, rfl⟩

theorem routeFromTool_finishes (h : DictOrNone s.toolResult) {source : SupervisorState}
    (hsource : source = .patching ∨ source = .generatingLods) (statuses : List String) :
    ∃ target, routeFromTool source statuses s = .ok target := by
  obtain ⟨value, hvalue⟩ := hasStatus_finishes h statuses
  unfold routeFromTool
  rw [hvalue]
  rcases hsource with rfl | rfl
  · split_ifs
    · exact ⟨_, rfl⟩
    · exact ⟨_, rfl⟩
    · exact ⟨_, rfl⟩
  · split_ifs
    · exact ⟨_, rfl⟩
    · exact ⟨_, rfl⟩
    · exact ⟨_, rfl⟩

theorem routeFromAnalyzing_finishes (h : ∃ fields, s.eventData = .obj fields) :
    ∃ target, routeFromAnalyzing s = .ok target := by
  obtain ⟨requiresHitl, hhitl⟩ := flag_finishes h "requires_hitl"
  obtain ⟨requiresPatch, hpatch⟩ := flag_finishes h "requires_patch"
  unfold routeFromAnalyzing
  rw [hhitl, hpatch]
  dsimp only
  split_ifs <;> exact ⟨_, rfl⟩

theorem routeFromDispatching_finishes (h : DictOrNone s.toolResult) :
    ∃ target, routeFromDispatching s = .ok target := by
  obtain ⟨value, hvalue⟩ := hasStatus_finishes h ["success", "aborted"]
  unfold routeFromDispatching
  rw [hvalue]
  split_ifs
  · exact ⟨_, rfl⟩
  · exact ⟨_, rfl⟩
  · cases value with
    | false => exact ⟨_, rfl⟩
    | true =>
        dsimp only
        split
        · exact ⟨_, rfl⟩
        · exact ⟨_, rfl⟩

theorem routeFromRollingBack_finishes (h : DictOrNone s.rollbackResult) :
    ∃ target, routeFromRollingBack s = .ok target := by
  have hdict : ∃ fields, (if s.rollbackResult.truthy then s.rollbackResult else .obj []) =
      .obj fields := by
    split
    · rcases h with hnone | hfields
      · next htruthy => rw [hnone] at htruthy; cases htruthy
      · exact hfields
    · exact ⟨[], rfl⟩
  obtain ⟨fields, hfields⟩ := hdict
  unfold routeFromRollingBack
  simp only [hfields, flag, Json.get, Except.map]
  split
  · cases ‹_›
  · exact ⟨_, rfl⟩
  · exact ⟨_, rfl⟩

theorem routeFromHitlWait_finishes (now : ℚ) (s : StateGraphState) :
    ∃ stored target, routeFromHitlWait now s = (stored, .ok target) := by
  unfold routeFromHitlWait
  split
  · split <;> exact ⟨_, _, rfl⟩
  · split
    · exact ⟨_, _, rfl⟩
    · split <;> exact ⟨_, _, rfl⟩

/-- No edge raises. -/
theorem route_finishes (now : ℚ) (node : SupervisorState) (h : Typed s) :
    ∃ stored target, route now s node = (stored, .ok target) := by
  have hplain : ∀ {routed : Except GraphError Target}, (∃ target, routed = .ok target) →
      ∃ stored target, ((none, routed) : Option String × Except GraphError Target) =
        (stored, .ok target) := by
    rintro _ ⟨target, rfl⟩
    exact ⟨none, target, rfl⟩
  cases node with
  | init | completed | errorFatal => exact ⟨_, _, rfl⟩
  | idle =>
      refine hplain ?_
      unfold routeFromIdle
      split_ifs <;> exact ⟨_, rfl⟩
  | watching =>
      refine hplain ?_
      unfold routeFromWatching
      split_ifs <;> exact ⟨_, rfl⟩
  | analyzing => exact hplain (routeFromAnalyzing_finishes h.eventData)
  | dispatching => exact hplain (routeFromDispatching_finishes h.toolResult)
  | hitlWait => exact routeFromHitlWait_finishes now s
  | error =>
      refine hplain ?_
      unfold routeFromError
      split_ifs <;> exact ⟨_, rfl⟩
  | rollingBack => exact hplain (routeFromRollingBack_finishes h.rollbackResult)
  | patching => exact hplain (routeFromTool_finishes h.toolResult (.inl rfl) _)
  | generatingLods => exact hplain (routeFromTool_finishes h.toolResult (.inr rfl) _)

theorem typed_merged (h : Typed s) (hresult : ∀ result, writes.toolResult = some result →
      DictOrNone result)
    (hdata : updates.eventData = none ∨ updates.eventData = some s.eventData)
    (hrollback : ∀ result, updates.rollbackResult = some result → DictOrNone result) :
    Typed (merged cfg s writes updates) := by
  have hgetD : ∀ {written : Option Json} {old : Json},
      (∀ result, written = some result → DictOrNone result) → DictOrNone old →
      DictOrNone (written.getD old) := by
    intro written old hwritten hold
    cases written with
    | none => exact hold
    | some result => exact hwritten result rfl
  have hevent : ∃ fields, updates.eventData.getD s.eventData = .obj fields := by
    rcases hdata with hnone | hsame
    · rw [hnone]
      exact h.eventData
    · rw [hsame]
      exact h.eventData
  unfold merged
  split
  · exact ⟨hevent, hgetD hresult h.toolResult, hgetD hrollback h.rollbackResult⟩
  · exact ⟨hevent, h.toolResult, hgetD hrollback h.rollbackResult⟩

theorem typed_afterRoute (h : Typed s) (stored : Option String) :
    Typed (afterRoute cfg s stored) := by
  unfold afterRoute
  split
  · exact ⟨h.eventData, h.toolResult, h.rollbackResult⟩
  · exact h

/-- **A visit goes somewhere**, and keeps the types. -/
theorem exists_goes (h : Typed run.state) (hfinish : answers.Finish)
    (hnode : run.next = some node) :
    ∃ history writes updates stored target,
      Goes cfg run answers node history writes updates stored target ∧
        Typed (merged cfg run.state writes updates) := by
  obtain ⟨history, writes, hcallback, hresult⟩ :=
    callback_finishes cfg node run.state run.history hfinish
  obtain ⟨updates, hupdates, hdata, hrollback⟩ :=
    runNode_finishes (s := writes.apply run.state) answers.nodeClock node h.eventData
  have htyped : Typed (merged cfg run.state writes updates) :=
    typed_merged h hresult hdata hrollback
  obtain ⟨stored, target, hroute⟩ := route_finishes answers.routeClock node htyped
  exact ⟨history, writes, updates, stored, target, ⟨hnode, hcallback, hupdates, hroute⟩, htyped⟩

end Raising

/-! ## Where the edges lead -/

section Edges

variable {now : ℚ} {s : StateGraphState} {node target : SupervisorState}

/-- The edges into IDLE. -/
theorem route_to_idle (h : (route now s node).2 = .ok (some .idle)) :
    node = .init ∨ node = .completed ∨ node = .rollingBack ∨
      (node = .idle ∧ ¬Routed s.pendingEvent) ∨
      (node = .watching ∧ s.pendingEvent ≠ some modlistChanged.value) ∨
      (node = .error ∧ s.errorCount < 3) := by
  cases node with
  | init => exact .inl rfl
  | completed => exact .inr (.inl rfl)
  | rollingBack => exact .inr (.inr (.inl rfl))
  | idle =>
      refine .inr (.inr (.inr (.inl ⟨rfl, ?_⟩)))
      simp only [route, routeFromIdle] at h
      split_ifs at h with hmodlist huser htool hshutdown herror
      · cases (validateAndRoute_ok h).1
      · cases (validateAndRoute_ok h).1
      · cases (validateAndRoute_ok h).1
      · cases h
      · cases (validateAndRoute_ok h).1
      · rintro (heq | heq | heq | heq | heq)
        · exact hmodlist heq
        · exact huser heq
        · exact htool heq
        · exact hshutdown heq
        · exact herror heq
  | watching =>
      refine .inr (.inr (.inr (.inr (.inl ⟨rfl, ?_⟩))))
      simp only [route, routeFromWatching] at h
      split_ifs at h with hmodlist herror
      · cases (validateAndRoute_ok h).1
      · cases (validateAndRoute_ok h).1
      · exact hmodlist
  | error =>
      refine .inr (.inr (.inr (.inr (.inr ⟨rfl, ?_⟩))))
      rcases route_from_error h with heq | hfew
      · cases heq
      · exact hfew.2
  | analyzing =>
      simp only [route, routeFromAnalyzing] at h
      split at h
      · split_ifs at h <;> cases (validateAndRoute_ok h).1
      · cases h
      · cases h
  | dispatching =>
      simp only [route, routeFromDispatching] at h
      split_ifs at h
      · cases (validateAndRoute_ok h).1
      · cases (validateAndRoute_ok h).1
      · split at h
        · cases h
        · cases (validateAndRoute_ok h).1
        · split at h <;> cases (validateAndRoute_ok h).1
  | _ =>
      have hvalid := route_valid h
      simp [validTransitions] at hvalid

theorem routeFromIdle_unrouted (h : ¬Routed s.pendingEvent) :
    routeFromIdle s = .ok (some .idle) := by
  simp only [Routed, not_or] at h
  obtain ⟨hmodlist, huser, htool, hshutdown, herror⟩ := h
  rw [routeFromIdle, if_neg hmodlist, if_neg huser, if_neg htool, if_neg hshutdown, if_neg herror]

theorem route_to_watching (h : (route now s node).2 = .ok (some .watching)) :
    s.pendingEvent = some modlistChanged.value := by
  have hvalid := route_valid h
  cases node with
  | idle =>
      simp only [route, routeFromIdle] at h
      split_ifs at h with hmodlist
      · exact hmodlist
      · cases (validateAndRoute_ok h).1
      · cases (validateAndRoute_ok h).1
      · cases h
      · cases (validateAndRoute_ok h).1
      · cases h
  | _ => simp [validTransitions] at hvalid

theorem route_dispatching_hitlWait (h : (route now s .dispatching).2 = .ok (some .hitlWait)) :
    s.loopDetected = true := by
  simp only [route, routeFromDispatching] at h
  split_ifs at h with hloop
  · exact hloop
  · cases (validateAndRoute_ok h).1
  · split at h
    · cases h
    · cases (validateAndRoute_ok h).1
    · split at h <;> cases (validateAndRoute_ok h).1

theorem route_waits (h : (route now s .hitlWait).2 = .ok (some .hitlWait)) :
    s.hitlResponse.isNone = true ∧ ∃ startedAt, s.hitlStartedAt = some startedAt ∧
      now - startedAt < hitlTimeoutSeconds := by
  simp only [route, routeFromHitlWait] at h
  split_ifs at h with hresponse
  · split at h <;> (dsimp only at h; cases (validateAndRoute_ok h).1)
  · refine ⟨by simpa using hresponse, ?_⟩
    split at h
    · dsimp only at h
      cases (validateAndRoute_ok h).1
    · next startedAt hstarted =>
        refine ⟨startedAt, hstarted, ?_⟩
        by_contra hlate
        rw [if_pos (not_lt.mp hlate)] at h
        dsimp only at h
        cases (validateAndRoute_ok h).1

end Edges

/-! ## What a visit leaves of the fields that the edges read -/

section Fields

variable {cfg : GraphConfig} {run : GraphRun} {answers : VisitAnswers} {node : SupervisorState}
  {history : List String} {writes : CallbackWrites} {updates : NodeUpdates}
  {stored : Option String} {target : Target}

theorem clearsEvent_of_runNode {now : ℚ} {s : StateGraphState}
    (h : runNode now s node = .ok updates) : updates.clearsEvent = decide (node = .completed) := by
  cases node with
  | patching =>
      simp only [runNode, patchingNode] at h
      obtain ⟨report, -, h⟩ := Json.bind_ok h
      split at h
      · cases h
        rfl
      · cases h
        rfl
  | _ =>
      cases h
      rfl

theorem pendingEvent_merged (h : Goes cfg run answers node history writes updates stored target) :
    (merged cfg run.state writes updates).pendingEvent =
      if node = .completed then none else run.state.pendingEvent := by
  have hclears := clearsEvent_of_runNode h.ran
  have hmerge : (merged cfg run.state writes updates).pendingEvent =
      if updates.clearsEvent then none else run.state.pendingEvent := by
    unfold merged
    split <;> rfl
  rw [hmerge, hclears]
  by_cases hnode : node = .completed
  · simp [hnode]
  · simp [hnode]

theorem unchanged_of_not_effective
    (h : Goes cfg run answers node history writes updates stored target)
    (heffective : cfg.effective = false) :
    (merged cfg run.state writes updates).loopDetected = run.state.loopDetected ∧
      (merged cfg run.state writes updates).hitlResponse = run.state.hitlResponse := by
  unfold merged
  by_cases hwrites : cfg.callbackWrites = true
  · have hconnected : cfg.connected = false := by
      simpa [GraphConfig.effective, hwrites] using heffective
    have hcalled := h.called
    unfold callback at hcalled
    rw [if_pos hconnected] at hcalled
    cases hcalled
    rw [if_pos hwrites]
    exact ⟨rfl, rfl⟩
  · rw [if_neg hwrites]
    exact ⟨rfl, rfl⟩

theorem length_of_trips {action : String} {before : List String}
    (h : (registerAndCheck action before).2 = true) : 2 ≤ before.length := by
  unfold registerAndCheck at h
  dsimp only at h
  split at h
  · next hrepeated =>
      have hlong : maxRepeats ≤
          ((before ++ [action]).drop ((before ++ [action]).length - windowSize)).length := by
        have hand := (Bool.and_eq_true _ _).mp hrepeated
        exact of_decide_eq_true hand.1
      simp only [maxRepeats, List.length_drop, List.length_append, List.length_singleton] at hlong
      omega
  · cases h

/-- A loop that DISPATCHING detects is the third action at the earliest. -/
theorem loopDetected_dispatching
    (h : Goes cfg run answers .dispatching history writes updates stored target)
    (hloop : (merged cfg run.state writes updates).loopDetected = true) :
    run.state.loopDetected = true ∨ 2 ≤ run.history.length := by
  by_contra hneither
  push Not at hneither
  obtain ⟨hclear, hshort⟩ := hneither
  have hwrites : writes.loopDetected = none := by
    have hcalled := h.called
    unfold callback at hcalled
    split at hcalled
    · cases hcalled
      rfl
    · simp only [onDispatching] at hcalled
      split at hcalled
      · cases hcalled
        rfl
      · split at hcalled
        · next htrips =>
            have hlong := length_of_trips htrips
            omega
        · split at hcalled
          · cases hcalled
          · cases hcalled
            rfl
  have hsame : (merged cfg run.state writes updates).loopDetected = run.state.loopDetected := by
    unfold merged
    split
    · show writes.loopDetected.getD run.state.loopDetected = _
      rw [hwrites]
      rfl
    · rfl
  exact hclear (hsame ▸ hloop)

/-- An approval that an edge reads has cleared a detected loop, if callbacks reach the state. -/
theorem cleared_of_approval (heffective : cfg.effective = true)
    (h : Goes cfg run answers .hitlWait history writes updates stored target)
    (happroved : (merged cfg run.state writes updates).hitlResponse = .str "approved")
    (hloop : run.state.loopDetected = true) :
    (merged cfg run.state writes updates).loopDetected = false ∧ history = [] := by
  obtain ⟨hconnected, hreach⟩ := (Bool.and_eq_true _ _).mp heffective
  have hcalled := h.called
  rw [callback, if_neg (by rw [hconnected]; decide)] at hcalled
  unfold merged at happroved ⊢
  rw [if_pos hreach] at happroved ⊢
  simp only [onHitlWait] at hcalled
  split at hcalled
  · cases hcalled
  · next response hresponse =>
      split at hcalled
      · cases hcalled
        exact ⟨rfl, rfl⟩
      · next hno =>
          cases hcalled
          have heq : response = .str "approved" := happroved
          exact absurd (by rw [heq, hloop]; rfl) hno

/-- While the operator has not answered, the loop flag stays. -/
theorem loopDetected_waiting
    (h : Goes cfg run answers .hitlWait history writes updates stored target)
    (hnone : (merged cfg run.state writes updates).hitlResponse.isNone = true) :
    (merged cfg run.state writes updates).loopDetected = run.state.loopDetected := by
  cases heffective : cfg.effective with
  | false => exact (unchanged_of_not_effective h heffective).1
  | true =>
      obtain ⟨hconnected, hreach⟩ := (Bool.and_eq_true _ _).mp heffective
      have hcalled := h.called
      rw [callback, if_neg (by rw [hconnected]; decide)] at hcalled
      unfold merged at hnone ⊢
      rw [if_pos hreach] at hnone ⊢
      simp only [onHitlWait] at hcalled
      split at hcalled
      · cases hcalled
      · next response hresponse =>
          split at hcalled
          · next happroval =>
              cases hcalled
              have hresponse' : response.isNone = true := hnone
              cases response with
              | null => cases happroval
              | _ => cases hresponse'
          · cases hcalled
            rfl

end Fields

/-! ## What is left of a run -/

/-- Errors that lead back to IDLE, and the one rollback. -/
def retriesLeft (s : StateGraphState) : Nat :=
  (3 - s.errorCount).toNat + if s.rollbackTriggered then 0 else 1

/-- How far a node is from the end of its lap.  DISPATCHING may detect a loop and then comes
after HITL_WAIT once more. -/
def rank (node : SupervisorState) (loopDetected : Bool) (actions : Nat) : Nat :=
  match node with
  | .init => 13
  | .idle => 12
  | .watching => 11
  | .analyzing => 10
  | .hitlWait => if loopDetected then 7 else 9
  | .dispatching => if loopDetected = true ∨ 2 ≤ actions then 8 else 6
  | .patching => 5
  | .generatingLods => 5
  | .error => 4
  | .rollingBack => 3
  | .errorFatal => 2
  | .completed => 1

/-- The measure of a run in front of `node`. -/
def visitsLeft (run : GraphRun) (node : SupervisorState) : Nat :=
  14 * retriesLeft run.state + rank node run.state.loopDetected run.history.length

theorem rank_le (node : SupervisorState) (loopDetected : Bool) (actions : Nat) :
    rank node loopDetected actions ≤ 13 := by
  cases node <;> simp only [rank] <;> (try split) <;> omega

/-- What holds in front of every visit. -/
structure Coherent (run : GraphRun) : Prop where
  typed : Typed run.state
  modlist : run.next = some .watching →
    run.state.pendingEvent = some modlistChanged.value
  clear : run.next = some .rollingBack → run.state.rollbackTriggered = false

section Measure

variable {cfg : GraphConfig} {run : GraphRun} {answers : VisitAnswers}
  {node target : SupervisorState} {history : List String} {writes : CallbackWrites} {updates : NodeUpdates}
  {stored : Option String}

/-- The run behind a visit. -/
def afterVisit (cfg : GraphConfig) (run : GraphRun) (history : List String)
    (writes : CallbackWrites) (updates : NodeUpdates) (stored : Option String) (target : Target) :
    GraphRun :=
  ⟨target, afterRoute cfg (merged cfg run.state writes updates) stored, history⟩

theorem visit_of_goes {target : Target}
    (h : Goes cfg run answers node history writes updates stored target) :
    visit cfg run answers = some (afterVisit cfg run history writes updates stored target) :=
  visit_of h.visited h.called h.ran h.routed

theorem edge_of_goes {target : Target}
    (h : Goes cfg run answers node history writes updates stored target) :
    (route answers.routeClock (merged cfg run.state writes updates) node).2 = .ok target := by
  rw [h.routed]

theorem fields_afterRoute (cfg : GraphConfig) (s : StateGraphState) (stored : Option String) :
    (afterRoute cfg s stored).pendingEvent = s.pendingEvent ∧
      (afterRoute cfg s stored).loopDetected = s.loopDetected ∧
      (afterRoute cfg s stored).hitlResponse = s.hitlResponse ∧
      (afterRoute cfg s stored).hitlStartedAt = s.hitlStartedAt ∧
      retriesLeft (afterRoute cfg s stored) = retriesLeft s := by
  unfold afterRoute
  split
  · exact ⟨rfl, rfl, rfl, rfl, rfl⟩
  · exact ⟨rfl, rfl, rfl, rfl, rfl⟩

theorem coherent_goes (h : Goes cfg run answers node history writes updates stored (some target))
    (htyped : Typed (merged cfg run.state writes updates)) :
    Coherent (afterVisit cfg run history writes updates stored (some target)) := by
  have hedge := edge_of_goes h
  obtain ⟨hpending, -⟩ := fields_afterRoute cfg (merged cfg run.state writes updates) stored
  refine ⟨typed_afterRoute htyped stored, fun hnext => ?_, fun hnext => ?_⟩
  · cases hnext
    exact hpending.trans (route_to_watching hedge)
  · cases hnext
    exact (counters_afterRoute cfg _ stored).2.trans (route_to_rollingBack hedge)

theorem init_of_to_idle (hcoherent : Coherent run) (hcourse : OnCourse cfg run)
    (h : Goes cfg run answers node history writes updates stored (some .idle))
    (hnode : node ≠ .error ∧ node ≠ .rollingBack) : node = .init := by
  have hpending := pendingEvent_merged h
  have hvisited := h.visited
  unfold OnCourse at hcourse
  rcases route_to_idle (edge_of_goes h) with
    rfl | rfl | rfl | ⟨rfl, hunrouted⟩ | ⟨rfl, hother⟩ | ⟨rfl, -⟩
  · rfl
  · rw [hvisited] at hcourse
    exact hcourse.elim
  · exact absurd rfl hnode.2
  · rw [hvisited] at hcourse
    rw [hpending] at hunrouted
    exact absurd hcourse hunrouted
  · rw [hpending] at hother
    exact absurd (hcoherent.modlist hvisited) hother
  · exact absurd rfl hnode.1

/-- HITL_WAIT leads to DISPATCHING, and there to the end of the lap. -/
theorem rank_dispatching_lt (hcourse : OnCourse cfg run)
    (h : Goes cfg run answers .hitlWait history writes updates stored (some .dispatching)) :
    rank .dispatching (merged cfg run.state writes updates).loopDetected history.length <
      rank .hitlWait run.state.loopDetected run.history.length := by
  have happroved : (merged cfg run.state writes updates).hitlResponse = .str "approved" := by
    rcases route_to_dispatching (edge_of_goes h) with ⟨hnode, -⟩ | ⟨hnode, -⟩ | ⟨-, happroved⟩
    · cases hnode
    · cases hnode
    · exact happroved
  cases hloop : run.state.loopDetected with
  | false =>
      simp only [rank, Bool.false_eq_true, if_false]
      split <;> omega
  | true =>
      cases heffective : cfg.effective with
      | false =>
          -- The approval stands in the state already, and no callback clears the loop.
          unfold OnCourse at hcourse
          rw [h.visited] at hcourse
          rw [(unchanged_of_not_effective h heffective).2] at happroved
          exact absurd ⟨heffective, hloop, happroved⟩ hcourse
      | true =>
          obtain ⟨hclear, hempty⟩ := cleared_of_approval heffective h happroved hloop
          rw [hclear, hempty]
          simp [rank]

theorem rank_after_dispatching {target : SupervisorState} (hidle : target ≠ .idle)
    (h : Goes cfg run answers .dispatching history writes updates stored (some target)) :
    rank target (merged cfg run.state writes updates).loopDetected history.length <
      rank .dispatching run.state.loopDetected run.history.length := by
  have hlow : 6 ≤ rank .dispatching run.state.loopDetected run.history.length := by
    simp only [rank]
    split <;> omega
  have hvalid := route_valid (edge_of_goes h)
  simp only [validTransitions, List.mem_cons, List.not_mem_nil, or_false, reduceCtorEq, or_self,
    and_false] at hvalid
  rcases hvalid with rfl | rfl | rfl | rfl | rfl
  · exact lt_of_lt_of_le (by simp [rank]) hlow
  · exact absurd rfl hidle
  · exact lt_of_lt_of_le (by simp [rank]) hlow
  · exact lt_of_lt_of_le (by simp [rank]) hlow
  · -- A loop that is detected here counts two actions before this one.
    have hdetected := route_dispatching_hitlWait (edge_of_goes h)
    rw [hdetected]
    simp [rank, loopDetected_dispatching h hdetected]

theorem rank_after_hitlWait {target : SupervisorState} (hcourse : OnCourse cfg run)
    (hwait : target ≠ .hitlWait)
    (h : Goes cfg run answers .hitlWait history writes updates stored (some target)) :
    rank target (merged cfg run.state writes updates).loopDetected history.length <
      rank .hitlWait run.state.loopDetected run.history.length := by
  have hlow : 7 ≤ rank .hitlWait run.state.loopDetected run.history.length := by
    simp only [rank]
    split <;> omega
  have hvalid := route_valid (edge_of_goes h)
  simp only [validTransitions, List.mem_cons, List.not_mem_nil, or_false, reduceCtorEq,
    or_true, and_true] at hvalid
  rcases hvalid with (rfl | rfl | rfl) | rfl
  · exact rank_dispatching_lt hcourse h
  · exact lt_of_lt_of_le (by simp [rank]) hlow
  · exact lt_of_lt_of_le (by simp [rank]) hlow
  · exact absurd rfl hwait

/-- The lap goes on towards its end, but for the nodes that end it and for a wait. -/
theorem rank_lt (hcoherent : Coherent run) (hcourse : OnCourse cfg run)
    (h : Goes cfg run answers node history writes updates stored (some target))
    (hnode : node ≠ .error ∧ node ≠ .rollingBack)
    (hwait : ¬(node = .hitlWait ∧ target = .hitlWait)) :
    rank target (merged cfg run.state writes updates).loopDetected history.length <
      rank node run.state.loopDetected run.history.length := by
  have hvalid := route_valid (edge_of_goes h)
  have hidle : target = .idle → node = .init := by
    rintro rfl
    exact init_of_to_idle hcoherent hcourse h hnode
  cases node with
  | init =>
      simp only [validTransitions, List.mem_cons, List.not_mem_nil, or_false, reduceCtorEq, or_self,
        and_false] at hvalid
      rcases hvalid with rfl | rfl
      · simp [rank]
      · simp [rank]
  | idle =>
      simp only [validTransitions, List.mem_cons, List.not_mem_nil, or_false, reduceCtorEq,
        and_true] at hvalid
      rcases hvalid with (rfl | rfl | rfl | rfl) | rfl
      · simp [rank]
      · simp [rank]
      · simp only [rank]
        split <;> omega
      · simp [rank]
      · cases hidle rfl
  | watching =>
      simp only [validTransitions, List.mem_cons, List.not_mem_nil, or_false, reduceCtorEq, or_self,
        and_false] at hvalid
      rcases hvalid with rfl | rfl | rfl
      · simp [rank]
      · cases hidle rfl
      · simp [rank]
  | analyzing =>
      simp only [validTransitions, List.mem_cons, List.not_mem_nil, or_false, reduceCtorEq, or_self,
        and_false] at hvalid
      rcases hvalid with rfl | rfl | rfl | rfl | rfl | rfl
      · simp only [rank]
        split <;> omega
      · simp only [rank]
        split <;> omega
      · simp [rank]
      · cases hidle rfl
      · simp [rank]
      · simp [rank]
  | dispatching =>
      refine rank_after_dispatching (fun htarget => ?_) h
      cases hidle htarget
  | hitlWait => exact rank_after_hitlWait hcourse (fun htarget => hwait ⟨rfl, htarget⟩) h
  | completed =>
      unfold OnCourse at hcourse
      rw [h.visited] at hcourse
      exact hcourse.elim
  | error => exact absurd rfl hnode.1
  | rollingBack => exact absurd rfl hnode.2
  | errorFatal => simp [validTransitions] at hvalid
  | patching | generatingLods =>
      simp only [validTransitions, List.mem_cons, List.not_mem_nil, or_false, reduceCtorEq, or_self,
        and_false] at hvalid
      rcases hvalid with rfl | rfl | rfl
      · simp [rank]
      · simp [rank]
      · simp [rank]

theorem retriesLeft_merged (cfg : GraphConfig)
    (h : runNode answers.nodeClock (writes.apply run.state) node = .ok updates) :
    retriesLeft (merged cfg run.state writes updates) =
      (3 - errorsAfter node run.state.errorCount).toNat +
        if triggeredAfter node run.state.rollbackTriggered then 0 else 1 := by
  obtain ⟨herrors, htriggered⟩ := counters_merged cfg h
  rw [retriesLeft, herrors, htriggered]

theorem retriesLeft_same (cfg : GraphConfig)
    (h : runNode answers.nodeClock (writes.apply run.state) node = .ok updates)
    (hnode : node ≠ .error ∧ node ≠ .rollingBack ∧ node ≠ .errorFatal) :
    retriesLeft (merged cfg run.state writes updates) = retriesLeft run.state := by
  rw [retriesLeft_merged cfg h, errorsAfter, if_neg hnode.1]
  cases node with
  | rollingBack => exact absurd rfl hnode.2.1
  | errorFatal => exact absurd rfl hnode.2.2
  | _ => rfl

theorem visitsLeft_afterVisit (node : SupervisorState) :
    visitsLeft (afterVisit cfg run history writes updates stored (some target)) node =
      14 * retriesLeft (merged cfg run.state writes updates) +
        rank node (merged cfg run.state writes updates).loopDetected history.length := by
  obtain ⟨-, hloop, -, -, hretries⟩ :=
    fields_afterRoute cfg (merged cfg run.state writes updates) stored
  simp only [visitsLeft, afterVisit, hloop, hretries]

/-- **Every visit but a wait takes something off what is left.** -/
theorem visitsLeft_lt (hcoherent : Coherent run) (hcourse : OnCourse cfg run)
    (h : Goes cfg run answers node history writes updates stored (some target))
    (hwait : ¬(node = .hitlWait ∧ target = .hitlWait)) :
    visitsLeft (afterVisit cfg run history writes updates stored (some target)) target <
      visitsLeft run node := by
  have hretries := retriesLeft_merged cfg h.ran
  rw [visitsLeft_afterVisit, visitsLeft]
  by_cases herror : node = .error
  · subst herror
    have hless : retriesLeft (merged cfg run.state writes updates) =
        (3 - (run.state.errorCount + 1)).toNat +
          if run.state.rollbackTriggered then 0 else 1 := hretries
    have herrors : (merged cfg run.state writes updates).errorCount = run.state.errorCount + 1 :=
      (counters_merged cfg h.ran).1
    rw [hless]
    rcases route_from_error (edge_of_goes h) with rfl | ⟨rfl, hfew⟩
    · simp only [rank, retriesLeft]
      omega
    · -- Another error is allowed, so that there is one less to come.
      simp only [rank, retriesLeft]
      omega
  · by_cases hrolling : node = .rollingBack
    · subst hrolling
      have hclear := hcoherent.clear h.visited
      have hrank := rank_le target (merged cfg run.state writes updates).loopDetected history.length
      have hless : 14 * retriesLeft (merged cfg run.state writes updates) + 14 =
          14 * retriesLeft run.state := by
        rw [hretries, retriesLeft, hclear]
        simp [errorsAfter, triggeredAfter]
        omega
      have hlow : rank .rollingBack run.state.loopDetected run.history.length = 3 := rfl
      omega
    · have hfatal : node ≠ .errorFatal := by
        rintro rfl
        cases edge_of_goes h
      have hsame := retriesLeft_same cfg h.ran ⟨herror, hrolling, hfatal⟩
      have hlap := rank_lt hcoherent hcourse h ⟨herror, hrolling⟩ hwait
      omega

/-- A wait takes nothing off, and keeps the time when it began. -/
theorem visitsLeft_wait
    (h : Goes cfg run answers .hitlWait history writes updates stored (some .hitlWait)) :
    visitsLeft (afterVisit cfg run history writes updates stored (some .hitlWait)) .hitlWait =
        visitsLeft run .hitlWait ∧
      ∃ startedAt, (afterVisit cfg run history writes updates stored
          (some .hitlWait)).state.hitlStartedAt = some startedAt ∧
        (∀ time, run.state.hitlStartedAt = some time → startedAt = time) ∧
        answers.routeClock - startedAt < hitlTimeoutSeconds := by
  obtain ⟨hnone, startedAt, hstarted, hearly⟩ := route_waits (edge_of_goes h)
  obtain ⟨-, -, -, hkept, -⟩ := fields_afterRoute cfg (merged cfg run.state writes updates) stored
  refine ⟨?_, startedAt, hkept.trans hstarted, fun time htime => ?_, hearly⟩
  · have hloop := loopDetected_waiting h hnone
    have hsame := retriesLeft_same cfg h.ran ⟨nofun, nofun, nofun⟩
    rw [visitsLeft_afterVisit, visitsLeft, hloop, hsame]
    rfl
  · have hmerged : (merged cfg run.state writes updates).hitlStartedAt =
        (updates.hitlStartedAt <|> run.state.hitlStartedAt) := by
      unfold merged
      split <;> rfl
    have hupdates : updates.hitlStartedAt = none := by
      have hran : hitlWaitNode answers.nodeClock (writes.apply run.state) = updates :=
        Except.ok.inj h.ran
      have hset : (writes.apply run.state).hitlStartedAt = some time := htime
      rw [← hran, hitlWaitNode, hset]
      rfl
    rw [hupdates, htime] at hmerged
    exact Option.some.inj (hstarted.symm.trans hmerged)

end Measure

/-! ## Runs that stay on course -/

section Endless

variable {cfg : GraphConfig} {answers : Nat → VisitAnswers} {start : GraphRun} {n : Nat}

theorem runAt_succ_of_goes {node : SupervisorState} {history : List String}
    {writes : CallbackWrites} {updates : NodeUpdates} {stored : Option String} {target : Target}
    (h : Goes cfg (runAt cfg answers start n) (answers n) node history writes updates stored
      target) :
    runAt cfg answers start (n + 1) =
      afterVisit cfg (runAt cfg answers start n) history writes updates stored target := by
  show (visit cfg (runAt cfg answers start n) (answers n)).getD _ = _
  rw [visit_of_goes h]
  rfl

/-- The run has come to `node` after `n` visits, with `left` visits to go. -/
structure Reached (cfg : GraphConfig) (answers : Nat → VisitAnswers) (start : GraphRun) (n : Nat)
    (node : SupervisorState) (left : Nat) : Prop where
  next : (runAt cfg answers start n).next = some node
  coherent : Coherent (runAt cfg answers start n)
  left : visitsLeft (runAt cfg answers start n) node = left

variable {left : Nat}

/-- One visit further: less is left, or the run waits for the operator. -/
theorem reached_succ (hfinish : Finishing answers)
    (hcourse : ∀ n, OnCourse cfg (runAt cfg answers start n))
    (hendless : ¬ReachesEnd cfg answers start) {node : SupervisorState}
    (h : Reached cfg answers start n node left) :
    (∃ target less, less < left ∧ Reached cfg answers start (n + 1) target less) ∨
      (node = .hitlWait ∧ Reached cfg answers start (n + 1) .hitlWait left ∧
        ∃ startedAt, (runAt cfg answers start (n + 1)).state.hitlStartedAt = some startedAt ∧
          (∀ time, (runAt cfg answers start n).state.hitlStartedAt = some time →
            startedAt = time) ∧
          (answers n).routeClock - startedAt < hitlTimeoutSeconds) := by
  obtain ⟨history, writes, updates, stored, target, hgoes, htyped⟩ :=
    exists_goes h.coherent.typed (hfinish.finish n) h.next
  have hsucc := runAt_succ_of_goes hgoes
  cases target with
  | none => exact absurd ⟨n, node, history, writes, updates, stored, hgoes⟩ hendless
  | some target =>
      have hcoherent : Coherent (runAt cfg answers start (n + 1)) := by
        rw [hsucc]
        exact coherent_goes hgoes htyped
      have hnext : (runAt cfg answers start (n + 1)).next = some target := by
        rw [hsucc]
        rfl
      by_cases hwait : node = .hitlWait ∧ target = .hitlWait
      · obtain ⟨rfl, rfl⟩ := hwait
        obtain ⟨hleft, hstarted⟩ := visitsLeft_wait hgoes
        rw [← hsucc] at hleft hstarted
        exact .inr ⟨rfl, ⟨hnext, hcoherent, hleft.trans h.left⟩, hstarted⟩
      · have hless := visitsLeft_lt h.coherent (hcourse n) hgoes hwait
        rw [← hsucc, h.left] at hless
        exact .inl ⟨target, _, hless, hnext, hcoherent, rfl⟩

/-- A wait for the operator comes to an end: the clock goes on and the time when it began stays. -/
theorem wait_ends (hfinish : Finishing answers)
    (hcourse : ∀ n, OnCourse cfg (runAt cfg answers start n))
    (hendless : ¬ReachesEnd cfg answers start)
    (h : Reached cfg answers start n .hitlWait left) {startedAt : ℚ}
    (hstarted : (runAt cfg answers start n).state.hitlStartedAt = some startedAt) :
    ∃ m target less, less < left ∧ Reached cfg answers start m target less := by
  by_contra hnever
  have hwaits : ∀ k, Reached cfg answers start (n + k) .hitlWait left ∧
      (runAt cfg answers start (n + k)).state.hitlStartedAt = some startedAt := by
    intro k
    induction k with
    | zero => exact ⟨h, hstarted⟩
    | succ k ih =>
        rcases reached_succ hfinish hcourse hendless ih.1 with
          ⟨target, less, hless, hreached⟩ | ⟨-, hreached, time, htime, hsame, -⟩
        · exact absurd ⟨_, target, less, hless, hreached⟩ hnever
        · rw [hsame startedAt ih.2] at htime
          exact ⟨hreached, htime⟩
  obtain ⟨late, hlate⟩ := hfinish.clock (startedAt + hitlTimeoutSeconds)
  obtain ⟨hreached, htime⟩ := hwaits late
  rcases reached_succ hfinish hcourse hendless hreached with
    ⟨target, less, hless, hreached'⟩ | ⟨-, -, time, -, hsame, hearly⟩
  · exact hnever ⟨_, target, less, hless, hreached'⟩
  · have hclock := hlate (n + late) (Nat.le_add_left late n)
    rw [hsame startedAt htime] at hearly
    linarith

/-- **A run that stays on course reaches END.** -/
theorem reachesEnd_of_onCourse (hfinish : Finishing answers)
    (hcourse : ∀ n, OnCourse cfg (runAt cfg answers start n)) {node : SupervisorState}
    (h : Reached cfg answers start n node left) : ReachesEnd cfg answers start := by
  by_contra hendless
  induction left using Nat.strongRecOn generalizing n node with
  | ind left ih =>
      rcases reached_succ hfinish hcourse hendless h with
        ⟨target, less, hless, hreached⟩ | ⟨rfl, hreached, startedAt, hstarted, -, -⟩
      · exact ih less hless hreached
      · obtain ⟨m, target, less, hless, hreached'⟩ :=
          wait_ends hfinish hcourse hendless hreached hstarted
        exact ih less hless hreached'

end Endless

/-! ## Runs that leave the course -/

/-- COMPLETED and IDLE, or the two nodes between which an approved loop goes to and fro. -/
def Stuck (cfg : GraphConfig) (run : GraphRun) : Prop :=
  run.next = some .completed ∨
    (run.next = some .idle ∧ ¬Routed run.state.pendingEvent) ∨
    (cfg.effective = false ∧ run.state.loopDetected = true ∧
      run.state.hitlResponse = .str "approved" ∧
      (run.next = some .hitlWait ∨ run.next = some .dispatching))

theorem stuck_of_not_onCourse {cfg : GraphConfig} {run : GraphRun} (h : ¬OnCourse cfg run) :
    Stuck cfg run := by
  unfold OnCourse at h
  cases hnext : run.next with
  | none =>
      rw [hnext] at h
      exact absurd trivial h
  | some node =>
      rw [hnext] at h
      cases node with
      | completed => exact .inl hnext
      | idle => exact .inr (.inl ⟨hnext, h⟩)
      | hitlWait =>
          obtain ⟨heffective, hloop, happroved⟩ := not_not.mp h
          exact .inr (.inr ⟨heffective, hloop, happroved, .inl hnext⟩)
      | _ => exact absurd trivial h

section Leaving

variable {cfg : GraphConfig} {run : GraphRun} {answers : VisitAnswers} {node : SupervisorState}
  {history : List String} {writes : CallbackWrites} {updates : NodeUpdates}
  {stored : Option String} {target : Target}

/-- **Nothing leads out.** -/
theorem stuck_goes (hstuck : Stuck cfg run)
    (h : Goes cfg run answers node history writes updates stored target) :
    Stuck cfg (afterVisit cfg run history writes updates stored target) := by
  have hpending := pendingEvent_merged h
  have hedge := edge_of_goes h
  obtain ⟨hevent, hflag, hresponse, -⟩ :=
    fields_afterRoute cfg (merged cfg run.state writes updates) stored
  rcases hstuck with hcompleted | ⟨hidle, hunrouted⟩ | ⟨heffective, hloop, happroved, hnext⟩
  · -- The event is cleared, and the edge goes to IDLE.
    cases h.visited.symm.trans hcompleted
    cases hedge
    refine .inr (.inl ⟨rfl, ?_⟩)
    show ¬Routed (afterRoute cfg (merged cfg run.state writes updates) stored).pendingEvent
    rw [hevent, hpending]
    simp [Routed]
  · cases h.visited.symm.trans hidle
    have hsame : (merged cfg run.state writes updates).pendingEvent = run.state.pendingEvent :=
      hpending
    have hidles : routeFromIdle (merged cfg run.state writes updates) = .ok (some .idle) :=
      routeFromIdle_unrouted (hsame ▸ hunrouted)
    cases hidles.symm.trans hedge
    refine .inr (.inl ⟨rfl, ?_⟩)
    show ¬Routed (afterRoute cfg (merged cfg run.state writes updates) stored).pendingEvent
    rw [hevent, hsame]
    exact hunrouted
  · obtain ⟨hloop', happroved'⟩ := unchanged_of_not_effective h heffective
    rw [hloop] at hloop'
    rw [happroved] at happroved'
    have hboth : ∀ next, some next = target → next = .hitlWait ∨ next = .dispatching →
        Stuck cfg (afterVisit cfg run history writes updates stored target) := by
      rintro next rfl hnext
      refine .inr (.inr ⟨heffective, hflag.trans hloop', hresponse.trans happroved', ?_⟩)
      exact hnext.imp (congrArg some) (congrArg some)
    rcases hnext with hnext | hnext
    · cases h.visited.symm.trans hnext
      refine hboth .dispatching (Except.ok.inj (Eq.trans ?_ hedge)) (.inr rfl)
      simp only [route, routeFromHitlWait, happroved']
      rfl
    · cases h.visited.symm.trans hnext
      refine hboth .hitlWait (Except.ok.inj (Eq.trans ?_ hedge)) (.inl rfl)
      simp only [route, routeFromDispatching, hloop']
      rfl

theorem next_of_stuck (h : Stuck cfg run) : run.next ≠ none := by
  rcases h with hnext | ⟨hnext, -⟩ | ⟨-, -, -, hnext | hnext⟩
  · rw [hnext]
    nofun
  · rw [hnext]
    nofun
  · rw [hnext]
    nofun
  · rw [hnext]
    nofun

end Leaving

section Leaving

variable {cfg : GraphConfig} {answers : Nat → VisitAnswers} {start : GraphRun} {n : Nat}

theorem typed_runAt (hfinish : Finishing answers) (htyped : Typed start.state) (n : Nat) :
    Typed (runAt cfg answers start n).state := by
  induction n with
  | zero => exact htyped
  | succ n ih =>
      cases hnext : (runAt cfg answers start n).next with
      | none =>
          have hover : visit cfg (runAt cfg answers start n) (answers n) = none := by
            unfold visit
            rw [hnext]
          show Typed ((visit cfg (runAt cfg answers start n) (answers n)).getD _).state
          rw [hover]
          exact ih
      | some node =>
          obtain ⟨history, writes, updates, stored, target, hgoes, hmerged⟩ :=
            exists_goes ih (hfinish.finish n) hnext
          rw [runAt_succ_of_goes hgoes]
          exact typed_afterRoute hmerged stored

theorem runAt_over (h : (runAt cfg answers start n).next = none) (k : Nat) :
    (runAt cfg answers start (n + k)).next = none := by
  induction k with
  | zero => exact h
  | succ k ih =>
      show ((visit cfg (runAt cfg answers start (n + k)) (answers (n + k))).getD _).next = none
      unfold visit
      rw [ih]
      exact ih

/-- What a visit keeps, and what does not hold once a run is over. -/
structure Endless (cfg : GraphConfig) (holds : GraphRun → Prop) : Prop where
  next : ∀ run, holds run → run.next ≠ none
  goes : ∀ run answers node history writes updates stored target, holds run →
    Goes cfg run answers node history writes updates stored target →
    Typed (merged cfg run.state writes updates) →
    holds (afterVisit cfg run history writes updates stored target)

theorem endless_stuck (cfg : GraphConfig) : Endless cfg (Stuck cfg) where
  next _ := next_of_stuck
  goes _ _ _ _ _ _ _ _ hstuck h _ := stuck_goes hstuck h

theorem Endless.stays {holds : GraphRun → Prop} (hkept : Endless cfg holds)
    (hfinish : Finishing answers) (htyped : Typed start.state)
    (h : holds (runAt cfg answers start n)) (k : Nat) :
    holds (runAt cfg answers start (n + k)) := by
  induction k with
  | zero => exact h
  | succ k ih =>
      obtain ⟨node, hnext⟩ := Option.ne_none_iff_exists'.mp (hkept.next _ ih)
      obtain ⟨history, writes, updates, stored, target, hgoes, hmerged⟩ :=
        exists_goes (typed_runAt hfinish htyped (n + k)) (hfinish.finish (n + k)) hnext
      have hsucc := runAt_succ_of_goes hgoes
      rw [← Nat.add_assoc, hsucc]
      exact hkept.goes _ _ _ _ _ _ _ _ ih hgoes hmerged

/-- **A run that never ends.** -/
theorem Endless.not_reachesEnd {holds : GraphRun → Prop} (hkept : Endless cfg holds)
    (hfinish : Finishing answers) (htyped : Typed start.state)
    (h : holds (runAt cfg answers start n)) :
    ¬ReachesEnd cfg answers start := by
  rintro ⟨m, node, history, writes, updates, stored, hgoes⟩
  have hover : (runAt cfg answers start (m + 1)).next = none := by
    rw [runAt_succ_of_goes hgoes]
    rfl
  -- One of the two runs is the other one, later on.
  have hlate := hkept.next _ (hkept.stays hfinish htyped h (m + 1))
  have hlate' := runAt_over hover n
  rw [Nat.add_comm] at hlate'
  exact hlate hlate'

end Leaving

theorem reachesEnd_iff_onCourse (cfg : GraphConfig) (s : StateGraphState) (history : List String)
    (answers : Nat → VisitAnswers) (htyped : Typed s) (hfinish : Finishing answers) :
    ReachesEnd cfg answers (GraphRun.start s history) ↔
      ∀ n, OnCourse cfg (runAt cfg answers (GraphRun.start s history) n) := by
  constructor
  · intro hend n
    by_contra hleft
    exact (endless_stuck cfg).not_reachesEnd hfinish htyped (stuck_of_not_onCourse hleft) hend
  · intro hcourse
    have hcoherent : Coherent (runAt cfg answers (GraphRun.start s history) 0) :=
      ⟨htyped, nofun, nofun⟩
    exact reachesEnd_of_onCourse hfinish hcourse ⟨rfl, hcoherent, rfl⟩

end SkyClaw.Orchestrator.StateGraph
