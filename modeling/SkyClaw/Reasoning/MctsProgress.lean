import SkyClaw.Reasoning.MctsStatistics

/-!
# Iterations without progress

An iteration that selects a node which has nothing new to simulate ends early, and `_backpropagate` is not
called: the statistics stay as they are.  `progresses_iff`: a run makes progress exactly when none of
its iterations selects such a node.  At the maximal depth not even the tree changes, and the node
is selected for the rest of the run (`iterations_of_maxDepth`).
-/

namespace SkyClaw.Reasoning

variable {σ S ε η : Type} [DecidableEq η] {cfg : MctsConfig} {sqrtLogOver : ℕ → ℕ → ℚ}
variable {root : ThoughtNode σ ℚ} {env : Environment σ S ε η} {s s' : Mcts σ S η} {node : NodeRef σ}

/-- The node is at the maximal depth, or it gets no child whose state is new. -/
def NothingNew (cfg : MctsConfig) (env : Environment σ S ε η) (s : Mcts σ S η) (node : NodeRef σ) :
    Prop :=
  cfg.maxDepth ≤ node.node.depth ∨
    ∀ children, (expandRef cfg env node s).2 = .ok children →
      ∀ child ∈ children, env.problem.stateHash child.node.state ∈ s.visited

/-- The iteration selects a node of which it has nothing to simulate. -/
def Exhausted (cfg : MctsConfig) (sqrtLogOver : ℕ → ℕ → ℚ) (root : ThoughtNode σ ℚ)
    (env : Environment σ S ε η) (s : Mcts σ S η) : Prop :=
  NothingNew cfg env s (selectPromisingNode cfg sqrtLogOver root s)

/-- An iteration of a run, after which there is another one. -/
def GoesOn (cfg : MctsConfig) (sqrtLogOver : ℕ → ℕ → ℚ) (root : ThoughtNode σ ℚ)
    (envs : List (Environment σ S ε η)) (env : Environment σ S ε η) (s s' : Mcts σ S η) : Prop :=
  ∃ before after, envs = before ++ env :: after ∧
    iterations cfg sqrtLogOver root before (Mcts.start root) = (s, .ok none) ∧
    iterate cfg sqrtLogOver root env s = (s', .ok none)

/-- **An iteration makes progress**: at an exhausted node the statistics of the way to it change, the
next iteration does not start where this one did, and it does not select the exhausted node again. -/
structure MakesProgress (cfg : MctsConfig) (sqrtLogOver : ℕ → ℕ → ℚ) (root : ThoughtNode σ ℚ)
    (env : Environment σ S ε η) (s s' : Mcts σ S η) : Prop where
  path : Exhausted cfg sqrtLogOver root env s →
    ∃ other, other <:+ (selectPromisingNode cfg sqrtLogOver root s).address ∧
      s'.metadata other ≠ s.metadata other
  changes : ¬(s'.children = s.children ∧ s'.metadata = s.metadata)
  leaves : Exhausted cfg sqrtLogOver root env s →
    selectPromisingNode cfg sqrtLogOver root s' ≠ selectPromisingNode cfg sqrtLogOver root s

def Progresses (cfg : MctsConfig) (sqrtLogOver : ℕ → ℕ → ℚ) (root : ThoughtNode σ ℚ)
    (envs : List (Environment σ S ε η)) : Prop :=
  ∀ env s s', GoesOn cfg sqrtLogOver root envs env s s' → MakesProgress cfg sqrtLogOver root env s s'

/-! ## The parts of an iteration -/

omit [DecidableEq η] in
theorem visited_attachInOrder (p : Problem σ S ε ℚ η) (parent : NodeRef σ) (s : Mcts σ S η)
    (done : List (Candidate σ)) : (attachInOrder cfg p parent s done).1.visited = s.visited := by
  induction done generalizing s with
  | nil => rfl
  | cons candidate rest ih =>
      refine (ih _).trans ?_
      unfold Mcts.attach
      split
      · rfl
      · rfl

omit [DecidableEq η] in
theorem visited_expandRef (env : Environment σ S ε η) (parent : NodeRef σ) (s : Mcts σ S η) :
    (expandRef cfg env parent s).1.visited = s.visited := by
  unfold expandRef
  split
  · rfl
  · rfl
  · exact visited_attachInOrder _ _ _ _

theorem simulateChildren_of_visited {children : List (NodeRef σ)}
    (h : ∀ child ∈ children, env.problem.stateHash child.node.state ∈ s.visited) :
    simulateChildren cfg env s children = (s, .ok none) := by
  induction children with
  | nil => rfl
  | cons child rest ih =>
      rw [simulateChildren, if_pos (h child List.mem_cons_self)]
      exact ih fun other hother => h other (List.mem_cons_of_mem _ hother)

omit [DecidableEq η] in
theorem metadata_checkSolution (p : Problem σ S ε ℚ η) (s : Mcts σ S η) (node : ThoughtNode σ ℚ) :
    (s.checkSolution p node).1.metadata = s.metadata :=
  (grows_checkSolution p s node).metadata

/-- What the children add to the visits of the root, if the loop comes to its end. -/
theorem visits_simulateChildren {children : List (NodeRef σ)}
    (h : simulateChildren cfg env s children = (s', .ok none)) :
    s.visits [] ≤ s'.visits [] ∧
      ((∃ child ∈ children, env.problem.stateHash child.node.state ∉ s.visited) →
        s.visits [] < s'.visits []) := by
  induction children generalizing s with
  | nil =>
      cases h
      exact ⟨le_rfl, by simp⟩
  | cons child rest ih =>
      by_cases hvisited : env.problem.stateHash child.node.state ∈ s.visited
      · rw [simulateChildren, if_pos hvisited] at h
        refine ⟨(ih h).1, ?_⟩
        rintro ⟨other, hmem, hnew⟩
        refine (ih h).2 ⟨other, ?_, hnew⟩
        rcases List.mem_cons.mp hmem with rfl | hmem
        · exact absurd hvisited hnew
        · exact hmem
      · rw [simulateChildren_cons cfg env s child rest hvisited] at h
        split at h
        · cases (Prod.mk.inj h).2
        · next result _ =>
            split at h
            · cases (Prod.mk.inj h).2
            · cases (Prod.mk.inj h).2
            · next t hcheck =>
                have hmetadata := metadata_checkSolution env.problem (s.record
                  (env.problem.stateHash child.node.state :: s.visited) child.address result.value)
                  child.node
                have hone := visits_record s (env.problem.stateHash child.node.state :: s.visited)
                  child.address result.value []
                rw [if_pos List.nil_suffix] at hone
                rw [hcheck] at hmetadata
                have hroot : t.visits [] = s.visits [] + 1 := by
                  rw [← hone, Mcts.visits, hmetadata]
                  rfl
                have hrest := (ih h).1
                exact ⟨by omega, fun _ => by omega⟩

theorem expandAndSimulate_of_iterate (h : iterate cfg sqrtLogOver root env s = (s', .ok none)) :
    expandAndSimulate cfg env (selectPromisingNode cfg sqrtLogOver root s) s = (s', .ok none) := by
  unfold iterate Mcts.checkSolution at h
  dsimp only at h
  cases hcheck : env.problem.solutionOf (selectPromisingNode cfg sqrtLogOver root s).node.state with
  | error e =>
      rw [hcheck] at h
      cases (Prod.mk.inj h).2
  | ok solution =>
      rw [hcheck] at h
      cases solution with
      | none =>
          simp only [Option.toList_none, List.append_nil] at h
          exact h
      | some found => cases (Prod.mk.inj h).2

/-- **Nothing new**: the statistics stay as they are. -/
theorem metadata_of_nothingNew (h : expandAndSimulate cfg env node s = (s', .ok none))
    (hnothing : NothingNew cfg env s node) : s'.metadata = s.metadata := by
  unfold expandAndSimulate at h
  split at h
  · rw [← (Prod.mk.inj h).1]
  · next hdepth =>
      have hgrows := (fresh_expandRef cfg env node s).1
      have hvisited : (expandRef cfg env node s).1.visited = s.visited := visited_expandRef env node s
      have hknown := hnothing.resolve_left hdepth
      split at h
      · cases (Prod.mk.inj h).2
      · next t children hexpand =>
          rw [hexpand] at hgrows hvisited hknown
          rw [simulateChildren_of_visited] at h
          · rw [← (Prod.mk.inj h).1]
            exact hgrows.metadata
          · intro child hchild
            rw [hvisited]
            exact hknown children rfl child hchild

/-- **Something new**: the root is visited once more. -/
theorem visits_of_something_new (h : expandAndSimulate cfg env node s = (s', .ok none))
    (hsomething : ¬NothingNew cfg env s node) : s.visits [] < s'.visits [] := by
  rw [NothingNew, not_or] at hsomething
  obtain ⟨hdepth, hnew⟩ := hsomething
  rw [expandAndSimulate, if_neg hdepth] at h
  have hgrows := (fresh_expandRef cfg env node s).1
  have hvisited : (expandRef cfg env node s).1.visited = s.visited := visited_expandRef env node s
  split at h
  · cases (Prod.mk.inj h).2
  · next t children hexpand =>
      rw [hexpand] at hgrows hvisited hnew
      push Not at hnew
      obtain ⟨_, hchildren, child, hchild, hstate⟩ := hnew
      cases hchildren
      have hlt := (visits_simulateChildren h).2 ⟨child, hchild, by rw [hvisited]; exact hstate⟩
      rwa [Mcts.visits, hgrows.metadata] at hlt

/-- **An iteration makes progress** exactly when it has something new to simulate. -/
theorem makesProgress_iff (h : iterate cfg sqrtLogOver root env s = (s', .ok none)) :
    MakesProgress cfg sqrtLogOver root env s s' ↔ ¬Exhausted cfg sqrtLogOver root env s := by
  have hrest := expandAndSimulate_of_iterate h
  constructor
  · intro hprogress hexhausted
    obtain ⟨other, -, hchanged⟩ := hprogress.path hexhausted
    exact hchanged (congrFun (metadata_of_nothingNew hrest hexhausted) other)
  · intro hnew
    refine ⟨fun hexhausted => absurd hexhausted hnew, ?_, fun hexhausted => absurd hexhausted hnew⟩
    rintro ⟨-, hmetadata⟩
    have hlt := visits_of_something_new hrest hnew
    rw [Mcts.visits, Mcts.visits, hmetadata] at hlt
    exact lt_irrefl _ hlt

/-- **A run makes progress** exactly when none of its iterations selects an exhausted node. -/
theorem progresses_iff (cfg : MctsConfig) (sqrtLogOver : ℕ → ℕ → ℚ) (root : ThoughtNode σ ℚ)
    (envs : List (Environment σ S ε η)) :
    Progresses cfg sqrtLogOver root envs ↔
      ∀ env s s', GoesOn cfg sqrtLogOver root envs env s s' →
        ¬Exhausted cfg sqrtLogOver root env s := by
  constructor
  · intro h env s s' hstep
    obtain ⟨_, _, _, _, hiterate⟩ := id hstep
    exact (makesProgress_iff hiterate).mp (h env s s' hstep)
  · intro h env s s' hstep
    obtain ⟨_, _, _, _, hiterate⟩ := id hstep
    exact (makesProgress_iff hiterate).mpr (h env s s' hstep)

/-! ## The maximal depth -/

theorem iterate_of_maxDepth (hdepth : cfg.maxDepth ≤ (selectPromisingNode cfg sqrtLogOver root s).node.depth)
    (hcheck : env.problem.solutionOf (selectPromisingNode cfg sqrtLogOver root s).node.state = .ok none) :
    iterate cfg sqrtLogOver root env s = (s, .ok none) := by
  unfold iterate Mcts.checkSolution
  dsimp only
  rw [hcheck]
  simp only [Option.toList_none, List.append_nil]
  exact if_pos hdepth

/-- **At the maximal depth the budget is spent** at one node that is no solution. -/
theorem iterations_of_maxDepth (envs : List (Environment σ S ε η))
    (hdepth : cfg.maxDepth ≤ (selectPromisingNode cfg sqrtLogOver root s).node.depth)
    (hcheck : ∀ env ∈ envs,
      env.problem.solutionOf (selectPromisingNode cfg sqrtLogOver root s).node.state = .ok none) :
    iterations cfg sqrtLogOver root envs s = (s, .ok none) := by
  induction envs with
  | nil => rfl
  | cons env envs ih =>
      rw [iterations, iterate_of_maxDepth hdepth (hcheck env List.mem_cons_self)]
      exact ih fun other hother => hcheck other (List.mem_cons_of_mem _ hother)

/-- Depth 1, without parallel expansion. -/
def shallowConfig : MctsConfig where
  toToTConfig := {
    maxDepth := 1, maxThoughtsPerStep := 3, beamWidth := 3, pruningMethod := .relativeTopK,
    pruningThreshold := 0, pruningTopK := 3, percentileIndex := id, solutionThreshold := 1,
    enableParallelExpansion := false, maxParallelExpansions := 5, parallel_pos := five_pos }
  mctsExplorationConstant := 1
  mctsMaxRolloutDepth := 1
  mctsIterations := 10

/-- The same answers in each iteration: one candidate, and no solution. -/
def shallowEnvironment : Environment ℕ ℕ Unit ℕ where
  problem := onlyCandidate 0 .promising
  schedule := .inOrder
  rollout := fun _ _ => onlyCandidate 0 .promising

/-- The second iteration selects the child of the root, which is at the maximal depth, and so would
every later one. -/
theorem not_progresses_shallow :
    ¬Progresses shallowConfig (fun _ _ => 1) (rootNode 0 "start") [shallowEnvironment, shallowEnvironment] := by
  intro h
  have hfirst : iterations shallowConfig (fun _ _ => 1) (rootNode 0 "start") [shallowEnvironment]
      (Mcts.start (rootNode 0 "start")) = ((iterate shallowConfig (fun _ _ => 1) (rootNode 0 "start")
        shallowEnvironment (Mcts.start (rootNode 0 "start"))).1, .ok none) := by
    rfl
  have hdepth : shallowConfig.maxDepth ≤ (selectPromisingNode shallowConfig (fun _ _ => 1)
      (rootNode 0 "start") (iterate shallowConfig (fun _ _ => 1) (rootNode 0 "start")
        shallowEnvironment (Mcts.start (rootNode 0 "start"))).1).node.depth := by
    decide
  have hsecond : iterate shallowConfig (fun _ _ => 1) (rootNode 0 "start") shallowEnvironment _ =
      (_, .ok none) := iterate_of_maxDepth hdepth rfl
  exact (h shallowEnvironment _ _ ⟨[shallowEnvironment], [], rfl, hfirst, hsecond⟩).changes ⟨rfl, rfl⟩

end SkyClaw.Reasoning
