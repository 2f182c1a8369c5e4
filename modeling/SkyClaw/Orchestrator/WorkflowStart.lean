import Mathlib.Algebra.Order.Archimedean.Basic
import SkyClaw.Orchestrator.CallbackChannels
import SkyClaw.Orchestrator.WorkflowEnd

/-!
# Which starts of a workflow reach END

Where LangGraph keeps nothing of what a callback stores, the fields that the edges read stay as
they were at the start, but for the event, which COMPLETED clears.  So the start decides whether
the run comes to ERROR, and by that to END, or to COMPLETED, and by that to IDLE for ever.
`reachesEnd_langGraph_iff` says which starts do, and `reachesEnd_iff` puts it beside the
condition on runs of any graph.
-/

namespace SkyClaw.Orchestrator.StateGraph

/-! ## What the edges read -/

/-- What the edges read of a start. -/
structure RoutingFields where
  pendingEvent : Option String
  requiresHitl : Bool
  requiresPatch : Bool
  hasTool : Bool
  hasError : Bool
  loopDetected : Bool
  hitlResponse : Json

/-- `event_data.get(key)` is truthy. -/
def requires (eventData : Json) (key : String) : Bool :=
  match flag eventData key with
  | .ok value => value
  | .error _ => false

def StateGraphState.routing (s : StateGraphState) : RoutingFields where
  pendingEvent := s.pendingEvent
  requiresHitl := requires s.eventData "requires_hitl"
  requiresPatch := requires s.eventData "requires_patch"
  hasTool := s.toolName.truthy
  hasError := s.hasError
  loopDetected := s.loopDetected
  hitlResponse := s.hitlResponse

/-- HITL_WAIT leads to ERROR: nobody answers, or the answer is that nobody did. -/
def RoutingFields.TimesOut (r : RoutingFields) : Prop :=
  r.hitlResponse.isNone = true ∨ r.hitlResponse = .str "timeout"

/-- DISPATCHING leads to ERROR, at once or from HITL_WAIT. -/
def RoutingFields.FailsDispatching (r : RoutingFields) : Prop :=
  if r.loopDetected then r.TimesOut else r.hasError = true

/-- ANALYZING leads to ERROR. -/
def RoutingFields.FailsAnalyzing (r : RoutingFields) : Prop :=
  r.hasError = true ∨
    (r.hasTool = true ∧ r.requiresPatch = false ∧
      if r.requiresHitl then r.TimesOut else r.FailsDispatching)

open WorkflowEventType

/-- The event of the start leads to END. -/
def RoutingFields.Ends (r : RoutingFields) : Prop :=
  r.pendingEvent = some shutdown.value ∨
    r.pendingEvent = some errorOccurred.value ∨
    ((r.pendingEvent = some modlistChanged.value ∨
      r.pendingEvent = some userCommand.value) ∧ r.FailsAnalyzing) ∨
    (r.pendingEvent = some toolRequest.value ∧ r.FailsDispatching)

/-- In front of `node`, on the way to ERROR. -/
def RoutingFields.Ending (r : RoutingFields) (node : SupervisorState) : Prop :=
  r.Ends ∧
    match node with
    | .watching => r.pendingEvent = some modlistChanged.value
    | .analyzing => r.FailsAnalyzing
    | .dispatching => r.FailsDispatching
    | .hitlWait => r.TimesOut
    | .completed => False
    | .patching => False
    | .generatingLods => False
    | _ => True

/-- In front of `node`, on the way to COMPLETED. -/
def RoutingFields.Completing (r : RoutingFields) (node : SupervisorState) : Prop :=
  ¬r.Ends ∧
    match node with
    | .watching => r.pendingEvent = some modlistChanged.value
    | .analyzing => ¬r.FailsAnalyzing
    | .dispatching => ¬r.FailsDispatching
    | .hitlWait => ¬r.TimesOut ∧ ¬r.FailsDispatching
    | .patching => r.hasError = false
    | .generatingLods => r.hasError = false
    | .error => False
    | .rollingBack => False
    | .errorFatal => False
    | _ => True

section Reading

variable {now : ℚ} {s : StateGraphState} {node target : SupervisorState}

theorem flag_eq_requires (h : ∃ fields, s.eventData = .obj fields) (key : String) :
    flag s.eventData key = .ok (requires s.eventData key) := by
  obtain ⟨value, hvalue⟩ := flag_finishes h key
  rw [requires, hvalue]

theorem routeFromAnalyzing_routing (h : ∃ fields, s.eventData = .obj fields) :
    routeFromAnalyzing s = .ok (some
      (if s.routing.hasError then .error
      else if s.routing.hasTool then
        if s.routing.requiresPatch then .patching
        else if s.routing.requiresHitl then .hitlWait
        else .dispatching
      else .completed)) := by
  unfold routeFromAnalyzing
  rw [flag_eq_requires h, flag_eq_requires h]
  show (if s.routing.hasError then validateAndRoute .analyzing .error
    else if s.routing.hasTool then
      if s.routing.requiresPatch then validateAndRoute .analyzing .patching
      else if s.routing.requiresHitl then validateAndRoute .analyzing .hitlWait
      else validateAndRoute .analyzing .dispatching
    else validateAndRoute .analyzing .completed) = _
  split_ifs <;> rfl

/-- The edges of DISPATCHING: a tool's result only decides how COMPLETED is reached. -/
theorem routeFromDispatching_routing (h : DictOrNone s.toolResult) :
    routeFromDispatching s = .ok (some .hitlWait) ∧ s.routing.loopDetected = true ∨
      routeFromDispatching s = .ok (some .error) ∧ s.routing.loopDetected = false ∧
        s.routing.hasError = true ∨
      (routeFromDispatching s = .ok (some .completed) ∨
        routeFromDispatching s = .ok (some .generatingLods)) ∧
        s.routing.loopDetected = false ∧ s.routing.hasError = false := by
  obtain ⟨value, hvalue⟩ := hasStatus_finishes h ["success", "aborted"]
  unfold routeFromDispatching
  rw [hvalue]
  split_ifs with hloop herror
  · exact .inl ⟨rfl, hloop⟩
  · exact .inr (.inl ⟨rfl, Bool.eq_false_iff.mpr hloop, herror⟩)
  · refine .inr (.inr ⟨?_, Bool.eq_false_iff.mpr hloop, Bool.eq_false_iff.mpr herror⟩)
    cases value with
    | false => exact .inl rfl
    | true =>
        dsimp only
        split
        · exact .inr rfl
        · exact .inl rfl

/-- The edges of HITL_WAIT: a refusal and anything unknown go to COMPLETED. -/
theorem routeFromHitlWait_routing (now : ℚ) (s : StateGraphState) :
    ((routeFromHitlWait now s).2 = .ok (some .hitlWait) ∨
      (routeFromHitlWait now s).2 = .ok (some .error)) ∧ s.routing.TimesOut ∨
    ((routeFromHitlWait now s).2 = .ok (some .completed) ∨
      (routeFromHitlWait now s).2 = .ok (some .dispatching) ∧
        s.hitlResponse = .str "approved") ∧ ¬s.routing.TimesOut := by
  have htimes : s.routing.TimesOut ↔
      s.hitlResponse.isNone = true ∨ s.hitlResponse = .str "timeout" := Iff.rfl
  rw [htimes]
  unfold routeFromHitlWait
  split_ifs with hresponse
  · rw [hresponse]
    split
    · next happroved => exact .inr ⟨.inr ⟨rfl, happroved⟩, by simp [happroved]⟩
    · next hdenied => exact .inr ⟨.inl rfl, by simp [hdenied]⟩
    · next htimeout => exact .inl ⟨.inr rfl, .inr htimeout⟩
    · next hunknown => exact .inr ⟨.inl rfl, fun h => h.elim nofun hunknown⟩
  · have hnone : s.hitlResponse.isNone = true := by simpa using hresponse
    refine .inl ⟨?_, .inl hnone⟩
    split
    · exact .inr rfl
    · split_ifs
      · exact .inr rfl
      · exact .inl rfl

theorem routeFromTool_sound (h : DictOrNone s.toolResult) (herror : s.hasError = false)
    {source : SupervisorState} (hsource : source = .patching ∨ source = .generatingLods)
    (statuses : List String) : routeFromTool source statuses s = .ok (some .completed) := by
  obtain ⟨value, hvalue⟩ := hasStatus_finishes h statuses
  unfold routeFromTool
  rw [if_neg (Bool.eq_false_iff.mp herror), hvalue]
  rcases hsource with rfl | rfl
  · rfl
  · rfl

/-! ## One edge further -/

variable {r : RoutingFields}

theorem failsAnalyzing_of_ends (hends : r.Ends)
    (h : r.pendingEvent = some modlistChanged.value ∨
      r.pendingEvent = some userCommand.value) : r.FailsAnalyzing := by
  rcases hends with hshutdown | herror | ⟨-, hfails⟩ | ⟨htool, -⟩
  · rw [hshutdown] at h
    exact absurd h (by decide)
  · rw [herror] at h
    exact absurd h (by decide)
  · exact hfails
  · rw [htool] at h
    exact absurd h (by decide)

theorem failsDispatching_of_ends (hends : r.Ends)
    (h : r.pendingEvent = some toolRequest.value) : r.FailsDispatching := by
  rcases hends with hshutdown | herror | ⟨hevent, -⟩ | ⟨-, hfails⟩
  · rw [hshutdown] at h
    exact absurd h (by decide)
  · rw [herror] at h
    exact absurd h (by decide)
  · rw [h] at hevent
    exact absurd hevent (by decide)
  · exact hfails

theorem routed_of_ends (hends : r.Ends) : Routed r.pendingEvent := by
  rcases hends with hshutdown | herror | ⟨hmodlist | huser, -⟩ | ⟨htool, -⟩
  · exact .inr (.inr (.inr (.inl hshutdown)))
  · exact .inr (.inr (.inr (.inr herror)))
  · exact .inl hmodlist
  · exact .inr (.inl huser)
  · exact .inr (.inr (.inl htool))

/-- An edge keeps the way to ERROR. -/
theorem ending_route (htyped : Typed s) (h : s.routing.Ending node)
    (hedge : (route now s node).2 = .ok (some target)) : s.routing.Ending target := by
  obtain ⟨hends, hthere⟩ := h
  cases node with
  | init =>
      cases hedge
      exact ⟨hends, trivial⟩
  | idle =>
      have hedge' : routeFromIdle s = .ok (some target) := hedge
      unfold routeFromIdle at hedge'
      split_ifs at hedge' with hmodlist huser htool
      · obtain rfl := (validateAndRoute_ok hedge').1
        exact ⟨hends, hmodlist⟩
      · obtain rfl := (validateAndRoute_ok hedge').1
        exact ⟨hends, failsAnalyzing_of_ends hends (.inr huser)⟩
      · obtain rfl := (validateAndRoute_ok hedge').1
        exact ⟨hends, failsDispatching_of_ends hends htool⟩
      · cases hedge'
      · obtain rfl := (validateAndRoute_ok hedge').1
        exact ⟨hends, trivial⟩
      · cases hedge'
        exact ⟨hends, trivial⟩
  | watching =>
      have hmodlist : s.pendingEvent = some modlistChanged.value := hthere
      have hedge' : routeFromWatching s = .ok (some target) := hedge
      rw [routeFromWatching, if_pos hmodlist] at hedge'
      obtain rfl := (validateAndRoute_ok hedge').1
      exact ⟨hends, failsAnalyzing_of_ends hends (.inl hmodlist)⟩
  | analyzing =>
      have hedge' : routeFromAnalyzing s = .ok (some target) := hedge
      rw [routeFromAnalyzing_routing htyped.eventData] at hedge'
      cases hedge'
      rcases hthere with herror | ⟨htool, hpatch, hfails⟩
      · rw [if_pos herror]
        exact ⟨hends, trivial⟩
      · by_cases herror : s.routing.hasError = true
        · rw [if_pos herror]
          exact ⟨hends, trivial⟩
        · rw [if_neg herror, if_pos htool, if_neg (Bool.eq_false_iff.mp hpatch)]
          by_cases hhitl : s.routing.requiresHitl = true
          · rw [if_pos hhitl] at hfails ⊢
            exact ⟨hends, hfails⟩
          · rw [if_neg hhitl] at hfails ⊢
            exact ⟨hends, hfails⟩
  | dispatching =>
      have hedge' : routeFromDispatching s = .ok (some target) := hedge
      have hfails : s.routing.FailsDispatching := hthere
      unfold RoutingFields.FailsDispatching at hfails
      rcases routeFromDispatching_routing htyped.toolResult with
        ⟨hroute, hloop⟩ | ⟨hroute, -, -⟩ | ⟨-, hloop, herror⟩
      · cases hroute.symm.trans hedge'
        rw [if_pos hloop] at hfails
        exact ⟨hends, hfails⟩
      · cases hroute.symm.trans hedge'
        exact ⟨hends, trivial⟩
      · rw [hloop, if_neg (by decide), herror] at hfails
        cases hfails
  | hitlWait =>
      have hedge' : (routeFromHitlWait now s).2 = .ok (some target) := hedge
      rcases routeFromHitlWait_routing now s with ⟨hroute | hroute, htimes⟩ | ⟨-, hanswered⟩
      · cases hroute.symm.trans hedge'
        exact ⟨hends, htimes⟩
      · cases hroute.symm.trans hedge'
        exact ⟨hends, trivial⟩
      · exact absurd hthere hanswered
  | error =>
      rcases route_from_error hedge with rfl | ⟨rfl, -⟩
      · exact ⟨hends, trivial⟩
      · exact ⟨hends, trivial⟩
  | rollingBack =>
      have hvalid := route_valid hedge
      simp only [validTransitions, List.mem_cons, List.not_mem_nil, or_false, reduceCtorEq,
        and_false] at hvalid
      rcases hvalid with rfl | rfl
      · exact ⟨hends, trivial⟩
      · exact ⟨hends, trivial⟩
  | errorFatal => cases hedge
  | _ => exact hthere.elim

/-- An edge keeps the way to COMPLETED. -/
theorem completing_route (htyped : Typed s) (h : s.routing.Completing node)
    (hnode : node ≠ .completed) {next : Target} (hedge : (route now s node).2 = .ok next) :
    ∃ target, next = some target ∧ s.routing.Completing target := by
  obtain ⟨hnever, hthere⟩ := h
  cases node with
  | init => exact ⟨_, (Except.ok.inj hedge).symm, hnever, trivial⟩
  | idle =>
      have hedge' : routeFromIdle s = .ok next := hedge
      unfold routeFromIdle at hedge'
      split_ifs at hedge' with hmodlist huser htool hshutdown herror
      · cases hedge'
        exact ⟨_, rfl, hnever, hmodlist⟩
      · cases hedge'
        refine ⟨_, rfl, hnever, fun hfails => hnever ?_⟩
        exact .inr (.inr (.inl ⟨.inr huser, hfails⟩))
      · cases hedge'
        refine ⟨_, rfl, hnever, fun hfails => hnever ?_⟩
        exact .inr (.inr (.inr ⟨htool, hfails⟩))
      · exact absurd (.inl hshutdown) hnever
      · exact absurd (.inr (.inl herror)) hnever
      · exact ⟨_, (Except.ok.inj hedge').symm, hnever, trivial⟩
  | watching =>
      have hmodlist : s.pendingEvent = some modlistChanged.value := hthere
      have hedge' : routeFromWatching s = .ok next := hedge
      rw [routeFromWatching, if_pos hmodlist] at hedge'
      cases hedge'
      refine ⟨_, rfl, hnever, fun hfails => hnever ?_⟩
      exact .inr (.inr (.inl ⟨.inl hmodlist, hfails⟩))
  | analyzing =>
      have hedge' : routeFromAnalyzing s = .ok next := hedge
      have hsound : ¬s.routing.FailsAnalyzing := hthere
      rw [routeFromAnalyzing_routing htyped.eventData] at hedge'
      refine ⟨_, (Except.ok.inj hedge').symm, hnever, ?_⟩
      unfold RoutingFields.FailsAnalyzing at hsound
      split_ifs with herror htool hpatch hhitl
      · exact absurd (.inl herror) hsound
      · exact Bool.eq_false_iff.mpr herror
      · rw [if_pos hhitl] at hsound
        have htimes : ¬s.routing.TimesOut := fun htimes =>
          hsound (.inr ⟨htool, Bool.eq_false_iff.mpr hpatch, htimes⟩)
        refine ⟨htimes, fun hfails => ?_⟩
        unfold RoutingFields.FailsDispatching at hfails
        split_ifs at hfails
        · exact htimes hfails
        · exact herror hfails
      · rw [if_neg hhitl] at hsound
        exact fun hfails => hsound (.inr ⟨htool, Bool.eq_false_iff.mpr hpatch, hfails⟩)
      · exact trivial
  | dispatching =>
      have hedge' : routeFromDispatching s = .ok next := hedge
      have hsound : ¬s.routing.FailsDispatching := hthere
      rcases routeFromDispatching_routing htyped.toolResult with
        ⟨hroute, hloop⟩ | ⟨-, hloop, herror⟩ | ⟨hroute | hroute, -, herror⟩
      · refine ⟨_, (Except.ok.inj (hroute.symm.trans hedge')).symm, hnever, fun htimes => ?_,
          hsound⟩
        unfold RoutingFields.FailsDispatching at hsound
        rw [if_pos hloop] at hsound
        exact hsound htimes
      · unfold RoutingFields.FailsDispatching at hsound
        rw [if_neg (Bool.eq_false_iff.mp hloop)] at hsound
        exact absurd herror hsound
      · exact ⟨_, (Except.ok.inj (hroute.symm.trans hedge')).symm, hnever, trivial⟩
      · exact ⟨_, (Except.ok.inj (hroute.symm.trans hedge')).symm, hnever, herror⟩
  | hitlWait =>
      have hedge' : (routeFromHitlWait now s).2 = .ok next := hedge
      obtain ⟨hanswered, hsound⟩ := hthere
      rcases routeFromHitlWait_routing now s with
        ⟨-, htimes⟩ | ⟨hroute | ⟨hroute, -⟩, -⟩
      · exact absurd htimes hanswered
      · exact ⟨_, (Except.ok.inj (hroute.symm.trans hedge')).symm, hnever, trivial⟩
      · exact ⟨_, (Except.ok.inj (hroute.symm.trans hedge')).symm, hnever, hsound⟩
  | completed => exact absurd rfl hnode
  | patching =>
      have hroute := routeFromTool_sound htyped.toolResult hthere (.inl rfl) ["success", "aborted"]
      exact ⟨_, (Except.ok.inj (hroute.symm.trans hedge)).symm, hnever, trivial⟩
  | generatingLods =>
      have hroute := routeFromTool_sound htyped.toolResult hthere (.inr rfl) ["success"]
      exact ⟨_, (Except.ok.inj (hroute.symm.trans hedge)).symm, hnever, trivial⟩
  | _ => exact hthere.elim

end Reading

/-! ## Runs under LangGraph -/

section Runs

variable {actionHash : String → Json → String} {run : GraphRun} {answers : VisitAnswers}
  {node : SupervisorState} {history : List String} {writes : CallbackWrites}
  {updates : NodeUpdates} {stored : Option String} {target : Target}

/-- Only COMPLETED changes what the edges read. -/
theorem routing_afterVisit (htyped : Typed run.state)
    (h : Goes (langGraph actionHash) run answers node history writes updates stored target)
    (hnode : node ≠ .completed) :
    (afterVisit (langGraph actionHash) run history writes updates stored target).state.routing =
      run.state.routing := by
  have hpending := pendingEvent_merged h
  rw [if_neg hnode] at hpending
  have hdata : updates.eventData.getD run.state.eventData = run.state.eventData := by
    obtain ⟨updates', hran, hsame | hsame, -⟩ :=
      runNode_finishes (s := writes.apply run.state) answers.nodeClock node htyped.eventData
    · cases hran.symm.trans h.ran
      rw [hsame]
      rfl
    · cases hran.symm.trans h.ran
      rw [hsame]
      rfl
  show (updates.merge run.state).routing = run.state.routing
  have hpending' : (updates.merge run.state).pendingEvent = run.state.pendingEvent := hpending
  have hdata' : (updates.merge run.state).eventData = run.state.eventData := hdata
  unfold StateGraphState.routing
  rw [hpending', hdata']
  rfl

theorem ending_goes {next : SupervisorState} (htyped : Typed run.state)
    (h : Goes (langGraph actionHash) run answers node history writes updates stored (some next))
    (hmerged : Typed (merged (langGraph actionHash) run.state writes updates))
    (hending : run.state.routing.Ending node) :
    (afterVisit (langGraph actionHash) run history writes updates stored
      (some next)).state.routing.Ending next := by
  have hnode : node ≠ .completed := by
    rintro rfl
    exact hending.2
  have hsame := routing_afterVisit htyped h hnode
  rw [← hsame] at hending
  exact ending_route hmerged hending (edge_of_goes h)

theorem onCourse_of_ending {cfg : GraphConfig} (hnext : run.next = some node)
    (h : run.state.routing.Ending node) : OnCourse cfg run := by
  obtain ⟨hends, hthere⟩ := h
  unfold OnCourse
  rw [hnext]
  cases node with
  | completed => exact hthere
  | idle => exact routed_of_ends hends
  | hitlWait =>
      rintro ⟨-, -, happroved⟩
      have htimes : run.state.hitlResponse.isNone = true ∨
          run.state.hitlResponse = .str "timeout" := hthere
      rw [happroved] at htimes
      rcases htimes with hnone | htimeout
      · cases hnone
      · simp at htimeout
  | _ => exact trivial

/-- On the way to COMPLETED, or behind it. -/
def NeverEnds (actionHash : String → Json → String) (run : GraphRun) : Prop :=
  (Typed run.state ∧ ∃ node, run.next = some node ∧ run.state.routing.Completing node) ∨
    Stuck (langGraph actionHash) run

theorem endless_neverEnds (actionHash : String → Json → String) :
    Endless (langGraph actionHash) (NeverEnds actionHash) where
  next run h := by
    rcases h with ⟨-, node, hnext, -⟩ | hstuck
    · rw [hnext]
      nofun
    · exact next_of_stuck hstuck
  goes run answers node history writes updates stored target h hgoes hmerged := by
    rcases h with ⟨htyped, node', hnext, hcompleting⟩ | hstuck
    · cases hgoes.visited.symm.trans hnext
      by_cases hnode : node = .completed
      · subst hnode
        exact .inr (stuck_goes (.inl hnext) hgoes)
      · have hsame := routing_afterVisit htyped hgoes hnode
        rw [← hsame] at hcompleting
        obtain ⟨next, hedge, hthere⟩ :=
          completing_route hmerged hcompleting hnode (edge_of_goes hgoes)
        have htyped' : Typed (afterRoute (langGraph actionHash)
            (merged (langGraph actionHash) run.state writes updates) stored) :=
          typed_afterRoute hmerged stored
        exact .inl ⟨htyped', next, hedge, hthere⟩
    · exact .inr (stuck_goes hstuck hgoes)

variable {s : StateGraphState} {before : List String} {answered : Nat → VisitAnswers}

theorem ending_runAt (htyped : Typed s) (hfinish : Finishing answered) (hends : s.routing.Ends)
    (n : Nat) :
    ∀ node, (runAt (langGraph actionHash) answered (GraphRun.start s before) n).next = some node →
      (runAt (langGraph actionHash) answered (GraphRun.start s before) n).state.routing.Ending
        node := by
  induction n with
  | zero =>
      intro node hnext
      cases hnext
      exact ⟨hends, trivial⟩
  | succ n ih =>
      intro node hnext
      cases hlast : (runAt (langGraph actionHash) answered (GraphRun.start s before) n).next with
      | none =>
          have hover := runAt_over hlast 1
          rw [hnext] at hover
          cases hover
      | some last =>
          have hstate : Typed (runAt (langGraph actionHash) answered (GraphRun.start s before)
              n).state := typed_runAt hfinish htyped n
          obtain ⟨history, writes, updates, stored, target, hgoes, hmerged⟩ :=
            exists_goes hstate (hfinish.finish n) hlast
          rw [runAt_succ_of_goes hgoes] at hnext ⊢
          obtain rfl : target = some node := hnext
          exact ending_goes hstate hgoes hmerged (ih last hlast)

/-- **The starts that reach END under LangGraph.** -/
theorem reachesEnd_langGraph_iff (actionHash : String → Json → String) (before : List String)
    (htyped : Typed s) (hfinish : Finishing answered) :
    ReachesEnd (langGraph actionHash) answered (GraphRun.start s before) ↔ s.routing.Ends := by
  constructor
  · intro hend
    by_contra hnever
    have hstart : NeverEnds actionHash (runAt (langGraph actionHash) answered
        (GraphRun.start s before) 0) := .inl ⟨htyped, .init, rfl, hnever, trivial⟩
    exact (endless_neverEnds actionHash).not_reachesEnd hfinish htyped hstart hend
  · intro hends
    rw [reachesEnd_iff_onCourse (langGraph actionHash) s before answered htyped hfinish]
    intro n
    cases hnext : (runAt (langGraph actionHash) answered (GraphRun.start s before) n).next with
    | none =>
        unfold OnCourse
        rw [hnext]
        exact trivial
    | some node => exact onCourse_of_ending hnext (ending_runAt htyped hfinish hends n node hnext)

end Runs

/-- **When a workflow reaches END**: when its run never leaves the course; under LangGraph, when
its start is one that leads to ERROR or a shutdown. -/
theorem reachesEnd_iff (s : StateGraphState) (history : List String)
    (answers : Nat → VisitAnswers) (htyped : Typed s) (hfinish : Finishing answers) :
    (∀ cfg, ReachesEnd cfg answers (GraphRun.start s history) ↔
      ∀ n, OnCourse cfg (runAt cfg answers (GraphRun.start s history) n)) ∧
    ∀ actionHash, ReachesEnd (langGraph actionHash) answers (GraphRun.start s history) ↔
      s.routing.Ends :=
  ⟨fun cfg => reachesEnd_iff_onCourse cfg s history answers htyped hfinish,
    fun actionHash => reachesEnd_langGraph_iff actionHash history htyped hfinish⟩

/-- Tools succeed at once, the operator denies, and a visit takes a second. -/
def promptAnswers (n : Nat) : VisitAnswers where
  analyzes := true
  dispatch := some (.obj [("status", .str "success")])
  hitl := some (.str "denied")
  nodeClock := n
  routeClock := n

theorem finishing_promptAnswers : Finishing promptAnswers where
  finish _ := ⟨rfl, ⟨_, rfl⟩, ⟨_, rfl⟩⟩
  clock time := by
    obtain ⟨n, hn⟩ := exists_nat_ge time
    refine ⟨n, fun m hm => hn.trans ?_⟩
    show (n : ℚ) ≤ m
    exact_mod_cast hm

/-- `get_initial_state` with an event. -/
def initialWith (event : WorkflowEventType) : StateGraphState :=
  { getInitialState with pendingEvent := some event.value }

theorem typed_initialWith (event : WorkflowEventType) : Typed (initialWith event) :=
  ⟨⟨_, rfl⟩, .inl rfl, .inl rfl⟩

/-- The tool's name stands for the hash of an action. -/
def hashByName (toolName : String) (_payload : Json) : String := toolName

/-- A shutdown ends the run in IDLE. -/
theorem reachesEnd_shutdown :
    ReachesEnd (langGraph hashByName) promptAnswers (GraphRun.start (initialWith .shutdown) []) ∧
      ∀ n, OnCourse (langGraph hashByName) (runAt (langGraph hashByName) promptAnswers
        (GraphRun.start (initialWith .shutdown) []) n) := by
  obtain ⟨hcourse, hstarts⟩ := reachesEnd_iff (initialWith .shutdown) [] promptAnswers
    (typed_initialWith .shutdown) finishing_promptAnswers
  have hend := (hstarts hashByName).mpr (Or.inl rfl)
  exact ⟨hend, (hcourse (langGraph hashByName)).mp hend⟩

/-- A command without a tool is completed, and idles for ever. -/
theorem userCommand_cycles : Typed (initialWith .userCommand) ∧
    (initialWith .userCommand).pendingEvent ≠ none ∧ Finishing promptAnswers ∧
    ¬ReachesEnd (langGraph hashByName) promptAnswers
      (GraphRun.start (initialWith .userCommand) []) := by
  have htyped := typed_initialWith .userCommand
  have hcompleted : (runAt (langGraph hashByName) promptAnswers
      (GraphRun.start (initialWith .userCommand) []) 3).next = some .completed := rfl
  exact ⟨htyped, nofun, finishing_promptAnswers,
    (endless_stuck _).not_reachesEnd finishing_promptAnswers htyped (Or.inl hcompleted)⟩

end SkyClaw.Orchestrator.StateGraph
