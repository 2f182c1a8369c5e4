import SkyClaw.Orchestrator.ApprovalGate

/-!
# How often the workflow handles an error

ERROR counts its visits, ROLLING_BACK sets a flag that keeps it from being visited again, and the
edges read both.  `errorHandling_bounded` says what follows for every run, whatever the environment
puts into the event, the error, the tool result and the fields of the rollback before a node and
between a node and its edge.
-/

namespace SkyClaw.Orchestrator.StateGraph

/-! ## Runs in an environment -/

/-- What the environment puts into the state; `none` leaves a field alone. -/
structure Environment where
  pendingEvent : Option (Option String) := none
  lastError : Option (Option String) := none
  toolResult : Option Json := none
  rollbackTransactionId : Option (Option Int) := none
  rollbackResult : Option Json := none

def Environment.put (env : Environment) (s : StateGraphState) : StateGraphState :=
  { s with
    pendingEvent := env.pendingEvent.getD s.pendingEvent
    lastError := env.lastError.getD s.lastError
    toolResult := env.toolResult.getD s.toolResult
    rollbackTransactionId := env.rollbackTransactionId.getD s.rollbackTransactionId
    rollbackResult := env.rollbackResult.getD s.rollbackResult }

/-- What comes from outside during one visit. -/
structure Surroundings where
  answers : VisitAnswers
  beforeNode : Environment := {}
  beforeEdge : Environment := {}

/-- A visit between two changes of the environment. -/
def visitIn (cfg : GraphConfig) (run : GraphRun) (around : Surroundings) : Option GraphRun :=
  match run.next with
  | none => none
  | some node =>
      let state := around.beforeNode.put run.state
      match callback cfg node state around.answers run.history with
      | (history, .error _) => some ⟨none, state, history⟩
      | (history, .ok writes) =>
          match runNode around.answers.nodeClock (writes.apply state) node with
          | .error _ => some ⟨none, state, history⟩
          | .ok updates =>
              let s := around.beforeEdge.put (merged cfg state writes updates)
              match route around.answers.routeClock s node with
              | (_, .error _) => some ⟨none, s, history⟩
              | (stored, .ok target) => some ⟨target, afterRoute cfg s stored, history⟩

/-- A run with the nodes it has executed, the last one first. -/
structure CountedRun where
  run : GraphRun
  executed : List SupervisorState

def countedVisit (cfg : GraphConfig) (c : CountedRun) (around : Surroundings) :
    Option CountedRun :=
  match c.run.next with
  | none => none
  | some node => (visitIn cfg c.run around).map fun next => ⟨next, node :: c.executed⟩

/-! ## The counter and the flag -/

/-- `error_count` after a node. -/
def errorsAfter (node : SupervisorState) (errorCount : Int) : Int :=
  if node = .error then errorCount + 1 else errorCount

/-- `rollback_triggered` after a node. -/
def triggeredAfter (node : SupervisorState) (rollbackTriggered : Bool) : Bool :=
  match node with
  | .rollingBack => true
  | .errorFatal => false
  | _ => rollbackTriggered

section Counters

variable {cfg : GraphConfig} {now : ℚ} {s : StateGraphState} {node target : SupervisorState}
  {writes : CallbackWrites} {updates : NodeUpdates}

theorem counters_of_runNode (h : runNode now s node = .ok updates) :
    updates.errorCount.getD s.errorCount = errorsAfter node s.errorCount ∧
      updates.rollbackTriggered.getD s.rollbackTriggered =
        triggeredAfter node s.rollbackTriggered := by
  cases node with
  | patching =>
      simp only [runNode, patchingNode] at h
      obtain ⟨report, -, h⟩ := Json.bind_ok h
      split at h
      · cases h
        exact ⟨rfl, rfl⟩
      · cases h
        exact ⟨rfl, rfl⟩
  | _ =>
      cases h
      exact ⟨rfl, rfl⟩

theorem counters_merged (cfg : GraphConfig) (h : runNode now (writes.apply s) node = .ok updates) :
    (merged cfg s writes updates).errorCount = errorsAfter node s.errorCount ∧
      (merged cfg s writes updates).rollbackTriggered =
        triggeredAfter node s.rollbackTriggered := by
  obtain ⟨herrors, htriggered⟩ := counters_of_runNode h
  unfold merged
  split
  · exact ⟨herrors, htriggered⟩
  · exact ⟨herrors, htriggered⟩

theorem counters_afterRoute (cfg : GraphConfig) (s : StateGraphState) (stored : Option String) :
    (afterRoute cfg s stored).errorCount = s.errorCount ∧
      (afterRoute cfg s stored).rollbackTriggered = s.rollbackTriggered := by
  unfold afterRoute
  split
  · exact ⟨rfl, rfl⟩
  · exact ⟨rfl, rfl⟩

/-- The edges into ROLLING_BACK look at the flag. -/
theorem route_to_rollingBack (h : (route now s node).2 = .ok (some .rollingBack)) :
    s.rollbackTriggered = false := by
  have hvalid := route_valid h
  have htool : ∀ source statuses,
      routeFromTool source statuses s = .ok (some .rollingBack) → s.rollbackTriggered = false := by
    intro source statuses htool
    unfold routeFromTool at htool
    split_ifs at htool with herror hflag
    · exact hflag
    · cases (validateAndRoute_ok htool).1
    · split at htool
      · cases htool
      · cases (validateAndRoute_ok htool).1
  cases node with
  | error =>
      simp only [route, routeFromError] at h
      split_ifs at h with hrollback hmany
      · exact hrollback.2
      · cases h
      · cases (validateAndRoute_ok h).1
  | patching | generatingLods => exact htool _ _ h
  | _ => simp [validTransitions] at hvalid

theorem route_from_error (h : (route now s .error).2 = .ok (some target)) :
    target = .rollingBack ∨ (target = .idle ∧ s.errorCount < 3) := by
  simp only [route, routeFromError] at h
  split_ifs at h with hrollback hmany
  · exact .inl (validateAndRoute_ok h).1
  · cases h
  · exact .inr ⟨(validateAndRoute_ok h).1, by omega⟩

end Counters

/-! ## What is executed -/

/-- The run executes ROLLING_BACK once at most, ERROR four times at most, and nothing after
ERROR_FATAL. -/
structure ErrorsBounded (c : CountedRun) : Prop where
  rollbacks : c.executed.count .rollingBack ≤ 1
  errors : c.executed.count .error ≤ 4
  fatal : .errorFatal ∈ c.executed → c.run.next = none

/-- What holds in front of `node`: the counter and the flag tell what was executed, and the third
error leads to END unless ROLLING_BACK comes first. -/
structure ErrorsCounted (c : CountedRun) (node : SupervisorState) : Prop where
  errors : (c.executed.count .error : Int) = c.run.state.errorCount
  rollbacks : c.executed.count .rollingBack = if c.run.state.rollbackTriggered then 1 else 0
  once : node = .rollingBack → c.run.state.rollbackTriggered = false
  budget : c.run.state.errorCount ≤ 2 ∨
    c.run.state.errorCount ≤ 3 ∧ (c.run.state.rollbackTriggered = true ∨ node = .rollingBack)
  alive : .errorFatal ∉ c.executed

/-- The bounds, with what the next node still may do. -/
structure ErrorBudget (c : CountedRun) : Prop where
  bounded : ErrorsBounded c
  counted : ∀ node, c.run.next = some node → ErrorsCounted c node

theorem errorBudget_start (history : List String) :
    ErrorBudget ⟨GraphRun.start getInitialState history, []⟩ where
  bounded := ⟨Nat.zero_le _, Nat.zero_le _, nofun⟩
  counted _ hnode := by
    cases hnode
    have hzero : getInitialState.errorCount ≤ 2 := by decide
    exact ⟨rfl, rfl, nofun, .inl hzero, nofun⟩

section Steps

variable {cfg : GraphConfig} {c : CountedRun} {node : SupervisorState} {next : GraphRun}

theorem bounded_of_counted (h : ErrorsCounted c node)
    (hfatal : node = .errorFatal → next.next = none) :
    ErrorsBounded ⟨next, node :: c.executed⟩ := by
  have herrors := h.errors
  have hrollbacks := h.rollbacks
  have hbudget := h.budget
  constructor
  · show (node :: c.executed).count .rollingBack ≤ 1
    by_cases hnode : node = .rollingBack
    · rw [hnode, List.count_cons_self, hrollbacks, h.once hnode]
      decide
    · rw [List.count_cons_of_ne hnode, hrollbacks]
      split <;> omega
  · show (node :: c.executed).count .error ≤ 4
    rw [List.count_cons]
    split <;> omega
  · intro hmem
    rcases List.mem_cons.mp hmem with hnode | hold
    · exact hfatal hnode.symm
    · exact absurd hold h.alive

/-- Where a visit leads to a node, the counter and the flag are up to date. -/
theorem counted_of_counted {target : SupervisorState} (h : ErrorsCounted c node)
    (herrors : next.state.errorCount = errorsAfter node c.run.state.errorCount)
    (htriggered : next.state.rollbackTriggered =
      triggeredAfter node c.run.state.rollbackTriggered)
    (hrolling : target = .rollingBack → next.state.rollbackTriggered = false)
    (hretry : node = .error → target = .rollingBack ∨ next.state.errorCount < 3)
    (hfatal : node ≠ .errorFatal) : ErrorsCounted ⟨next, node :: c.executed⟩ target := by
  have hcount := h.errors
  have hrollbacks := h.rollbacks
  have hbudget := h.budget
  by_cases herror : node = .error
  · subst herror
    have herrors' : next.state.errorCount = c.run.state.errorCount + 1 := herrors
    have htriggered' : next.state.rollbackTriggered = c.run.state.rollbackTriggered := htriggered
    refine ⟨?_, ?_, hrolling, ?_, ?_⟩
    · show (((SupervisorState.error :: c.executed).count .error : Nat) : Int) = next.state.errorCount
      rw [List.count_cons_self]
      omega
    · show (SupervisorState.error :: c.executed).count .rollingBack =
        if next.state.rollbackTriggered then 1 else 0
      rw [htriggered', List.count_cons_of_ne (by decide), hrollbacks]
    · show next.state.errorCount ≤ 2 ∨ next.state.errorCount ≤ 3 ∧ _
      rcases hretry rfl with htarget | hfew
      · -- ROLLING_BACK comes next, so the flag is not set and there were two errors at most.
        have hclear : c.run.state.rollbackTriggered = false := htriggered' ▸ hrolling htarget
        rw [hclear] at hbudget
        simp only [Bool.false_eq_true, reduceCtorEq, or_self, and_false, or_false] at hbudget
        exact .inr ⟨by omega, .inr htarget⟩
      · exact .inl (by omega)
    · exact fun hmem => h.alive ((List.mem_cons.mp hmem).resolve_left (by decide))
  · have herrors' : next.state.errorCount = c.run.state.errorCount := by
      rw [herrors, errorsAfter, if_neg herror]
    have halive : .errorFatal ∉ node :: c.executed := fun hmem =>
      h.alive ((List.mem_cons.mp hmem).resolve_left hfatal.symm)
    have hcount' : (((node :: c.executed).count .error : Nat) : Int) = next.state.errorCount := by
      rw [List.count_cons_of_ne herror, herrors']
      exact hcount
    by_cases hnode : node = .rollingBack
    · subst hnode
      have htrue : next.state.rollbackTriggered = true := htriggered
      refine ⟨hcount', ?_, hrolling, ?_, halive⟩
      · show (SupervisorState.rollingBack :: c.executed).count .rollingBack =
          if next.state.rollbackTriggered then 1 else 0
        rw [List.count_cons_self, hrollbacks, h.once rfl, htrue]
        rfl
      · show next.state.errorCount ≤ 2 ∨ next.state.errorCount ≤ 3 ∧ _
        refine .inr ⟨by omega, .inl htrue⟩
    · have htriggered' : next.state.rollbackTriggered = c.run.state.rollbackTriggered := by
        rw [htriggered]
        cases node with
        | rollingBack => exact absurd rfl hnode
        | errorFatal => exact absurd rfl hfatal
        | _ => rfl
      refine ⟨hcount', ?_, hrolling, ?_, halive⟩
      · show (node :: c.executed).count .rollingBack =
          if next.state.rollbackTriggered then 1 else 0
        rw [htriggered', List.count_cons_of_ne hnode, hrollbacks]
      · show next.state.errorCount ≤ 2 ∨ next.state.errorCount ≤ 3 ∧
          (next.state.rollbackTriggered = true ∨ _)
        rw [herrors', htriggered']
        rcases hbudget with hfew | ⟨hthree, hset | hrolls⟩
        · exact .inl hfew
        · exact .inr ⟨hthree, .inl hset⟩
        · exact absurd hrolls hnode

/-- A visit that leads to a node has gone through the node and its edge. -/
theorem visitIn_to {run : GraphRun} {around : Surroundings} {target : SupervisorState}
    (hnode : run.next = some node) (hvisit : visitIn cfg run around = some next)
    (htarget : next.next = some target) : ∃ writes updates stored,
      runNode around.answers.nodeClock (writes.apply (around.beforeNode.put run.state)) node =
          .ok updates ∧
        next.state = afterRoute cfg
          (around.beforeEdge.put (merged cfg (around.beforeNode.put run.state) writes updates))
          stored ∧
        (route around.answers.routeClock
          (around.beforeEdge.put (merged cfg (around.beforeNode.put run.state) writes updates))
            node).2 = .ok (some target) := by
  unfold visitIn at hvisit
  rw [hnode] at hvisit
  simp only at hvisit
  split at hvisit
  · cases hvisit
    cases htarget
  · rename_i history writes hcallback
    split at hvisit
    · cases hvisit
      cases htarget
    · rename_i updates hupdates
      split at hvisit
      · cases hvisit
        cases htarget
      · rename_i stored target' hroute
        cases hvisit
        obtain rfl : target' = some target := htarget
        exact ⟨writes, updates, stored, hupdates, rfl, by rw [hroute]⟩

/-- **Every visit stays within the budget.** -/
theorem errorBudget_step (around : Surroundings) {c' : CountedRun} (h : ErrorBudget c)
    (hstep : countedVisit cfg c around = some c') : ErrorBudget c' := by
  unfold countedVisit at hstep
  cases hnode : c.run.next with
  | none =>
      rw [hnode] at hstep
      cases hstep
  | some node =>
      rw [hnode] at hstep
      obtain ⟨next, hvisit, rfl⟩ := Option.map_eq_some_iff.mp hstep
      have hcounted := h.counted node hnode
      have hfatal : node = .errorFatal → next.next = none := by
        rintro rfl
        by_contra hsome
        obtain ⟨target, htarget⟩ := Option.ne_none_iff_exists'.mp hsome
        obtain ⟨_, _, _, _, _, hroute⟩ := visitIn_to hnode hvisit htarget
        cases hroute
      refine ⟨bounded_of_counted hcounted hfatal, fun target htarget => ?_⟩
      obtain ⟨writes, updates, stored, hupdates, hstate, hroute⟩ :=
        visitIn_to hnode hvisit htarget
      obtain ⟨herrors, htriggered⟩ := counters_merged cfg hupdates
      -- The environment and the edge leave the counter and the flag alone.
      have hkept := counters_afterRoute cfg
        (around.beforeEdge.put (merged cfg (around.beforeNode.put c.run.state) writes updates)) stored
      refine counted_of_counted hcounted (hstate ▸ hkept.1.trans herrors)
        (hstate ▸ hkept.2.trans htriggered) ?_ ?_ ?_
      · rintro rfl
        rw [hstate, hkept.2]
        exact route_to_rollingBack hroute
      · rintro rfl
        rw [hstate, hkept.1]
        exact (route_from_error hroute).imp_right And.right
      · rintro rfl
        rw [hfatal rfl] at htarget
        cases htarget

end Steps

/-- **Error handling is bounded.**  Every run from the initial state executes ROLLING_BACK once at
most, ERROR four times at most, and no node after ERROR_FATAL. -/
theorem errorHandling_bounded (cfg : GraphConfig) (history : List String)
    (visits : List Surroundings) :
    Runs.Throughout (countedVisit cfg) ErrorsBounded ⟨GraphRun.start getInitialState history, []⟩
      visits := by
  have hpres : ∀ c around c', ErrorBudget c → countedVisit cfg c around = some c' →
      ErrorBudget c' := fun _ around _ h hstep => errorBudget_step around h hstep
  have hbudget := Runs.throughout_of_step hpres (errorBudget_start history) visits
  exact ⟨hbudget.1.bounded, hbudget.2.mono fun _ _ _ _ h => h.bounded⟩

end SkyClaw.Orchestrator.StateGraph
