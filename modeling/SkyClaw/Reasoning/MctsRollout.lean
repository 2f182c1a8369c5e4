import Mathlib.Algebra.Order.Ring.Pow
import Mathlib.Tactic.Linarith
import Mathlib.Tactic.Positivity
import Mathlib.Tactic.Ring
import SkyClaw.Reasoning.Faultless

/-!
# What a rollout is worth

`_simulate` of `MCTSSearchStrategy`, over the rationals.  A rollout is divided by the number of steps that
it took and one: as many as the scores that it added up, but for a dead end, whose score is added
before the step is left out (`simulate_eq`).  So `rewardBounded_iff`: a dead end may be worth
more than a solution, unless its scores are low.
-/

namespace SkyClaw.Reasoning

variable {σ S ε η : Type}

/-! ## The rollout -/

/-- How a rollout ends. -/
inductive Ending where
  | maxDepth
  | solution
  | noCandidates
  | deadEnd
  | failed
deriving DecidableEq, Repr

/-- What `_simulate` returns, and where. -/
structure Rollout where
  value : ℚ
  ending : Ending
deriving DecidableEq, Repr

/-- `temp_node`; it has no parent. -/
def tempNode (current : ThoughtNode σ ℚ) (newState : σ) (newThought : String) (score : ℚ) :
    ThoughtNode σ ℚ where
  path := []
  state := newState
  thoughts := [newThought]
  depth := current.depth + 1
  score := score

/-- What a turn of the loop comes to. -/
inductive Answer (σ : Type) where
  | solved
  | noCandidates
  | failed
  | deadEnd (score : ℚ)
  | moves (next : ThoughtNode σ ℚ)

/-- The body of the loop: the first candidate is evaluated.  What is raised by the generator and the
evaluator ends the rollout; what is raised by the checker is not caught. -/
def rolloutTurn (p : Problem σ S ε ℚ η) (current : ThoughtNode σ ℚ) : Except ε (Answer σ) :=
  match p.solutionOf current.state with
  | .error e => .error e
  | .ok (some _) => .ok .solved
  | .ok none =>
      match p.generate current.state 1 (contextOf current) with
      | .error _ => .ok .failed
      | .ok [] => .ok .noCandidates
      | .ok (candidate :: _) =>
          match p.evaluate candidate.1 candidate.2 (contextOf current) with
          | .error _ => .ok .failed
          | .ok (score, evaluation) =>
              if evaluation = .deadEnd then .ok (.deadEnd score)
              else .ok (.moves (tempNode current candidate.1 candidate.2 score))

/-- The loop of `_simulate`, with the turns that are left; `turns` is what it is answered in each. -/
def simulateLoop (turns : ℕ → Problem σ S ε ℚ η) :
    ℕ → ThoughtNode σ ℚ → ℚ → ℕ → Except ε Rollout
  | 0, _, totalScore, depth => .ok ⟨totalScore / (depth + 1), .maxDepth⟩
  | left + 1, current, totalScore, depth =>
      match rolloutTurn (turns depth) current with
      | .error e => .error e
      | .ok .solved => .ok ⟨1, .solution⟩
      | .ok .noCandidates => .ok ⟨totalScore / (depth + 1), .noCandidates⟩
      | .ok .failed => .ok ⟨totalScore / (depth + 1), .failed⟩
      -- the depth is not advanced here, although the score is added
      | .ok (.deadEnd score) =>
          .ok ⟨(totalScore + score * (9 / 10) ^ depth) / (depth + 1), .deadEnd⟩
      | .ok (.moves next) =>
          simulateLoop turns left next (totalScore + next.score * (9 / 10) ^ depth) (depth + 1)

def simulate (mctsMaxRolloutDepth : ℕ) (turns : ℕ → Problem σ S ε ℚ η) (node : ThoughtNode σ ℚ) :
    Except ε Rollout :=
  simulateLoop turns mctsMaxRolloutDepth node node.score 0

/-! ## The walk -/

/-- What a rollout is told: the scores of the candidates on its way, and how it ends. -/
structure Walk where
  scores : List ℚ
  ending : Ending

/-- A step comes before the rest. -/
def Walk.cons (score : ℚ) (rest : Walk) : Walk := ⟨score :: rest.scores, rest.ending⟩

/-- The candidates from a node on. -/
def walk (turns : ℕ → Problem σ S ε ℚ η) : ℕ → ThoughtNode σ ℚ → ℕ → Except ε Walk
  | 0, _, _ => .ok ⟨[], .maxDepth⟩
  | left + 1, current, depth =>
      match rolloutTurn (turns depth) current with
      | .error e => .error e
      | .ok .solved => .ok ⟨[], .solution⟩
      | .ok .noCandidates => .ok ⟨[], .noCandidates⟩
      | .ok .failed => .ok ⟨[], .failed⟩
      | .ok (.deadEnd score) => .ok ⟨[score], .deadEnd⟩
      | .ok (.moves next) => (walk turns left next (depth + 1)).map (Walk.cons next.score)

/-- The discounted sum of scores, from a depth on. -/
def discounted (depth : ℕ) : List ℚ → ℚ
  | [] => 0
  | score :: scores => score * (9 / 10) ^ depth + discounted (depth + 1) scores

/-- The steps of a walk: the one to a dead end is not taken. -/
def Walk.steps (w : Walk) : ℕ := if w.ending = .deadEnd then w.scores.length - 1 else w.scores.length

/-- What a walk is worth, after what came before it. -/
def Walk.rollout (totalScore : ℚ) (depth : ℕ) (w : Walk) : Rollout where
  value :=
    if w.ending = .solution then 1
    else (totalScore + discounted depth w.scores) / (depth + w.steps + 1)
  ending := w.ending

variable {turns : ℕ → Problem σ S ε ℚ η}

@[simp] theorem discounted_nil (depth : ℕ) : discounted depth [] = 0 := rfl

@[simp] theorem discounted_cons (depth : ℕ) (score : ℚ) (scores : List ℚ) :
    discounted depth (score :: scores) = score * (9 / 10) ^ depth + discounted (depth + 1) scores :=
  rfl

variable {left depth : ℕ} {current : ThoughtNode σ ℚ}

/-- A property of every walk: of the ways to end, and kept by a step. -/
theorem walk_induction {P : ℕ → Walk → Prop}
    (hstop : ∀ depth ending, ending ≠ .deadEnd → P depth ⟨[], ending⟩)
    (hdead : ∀ depth score current, rolloutTurn (turns depth) current = .ok (.deadEnd score) →
      P depth ⟨[score], .deadEnd⟩)
    (hstep : ∀ depth current next rest, rolloutTurn (turns depth) current = .ok (.moves next) →
      P (depth + 1) rest → P depth (rest.cons next.score)) {w : Walk}
    (h : walk turns left current depth = .ok w) : P depth w := by
  induction left generalizing current depth w with
  | zero =>
      cases h
      exact hstop depth _ nofun
  | succ left ih =>
      rw [walk] at h
      split at h
      · cases h
      · cases h
        exact hstop depth _ nofun
      · cases h
        exact hstop depth _ nofun
      · cases h
        exact hstop depth _ nofun
      · next score hturn =>
          cases h
          exact hdead depth score current hturn
      · next next hturn =>
          cases hrest : walk turns left next (depth + 1) with
          | error e =>
              rw [hrest] at h
              cases h
          | ok rest =>
              rw [hrest] at h
              cases h
              exact hstep depth current next rest hturn (ih hrest)

theorem scores_ne_nil {w : Walk}
    (h : walk turns left current depth = .ok w) : w.ending = .deadEnd → w.scores ≠ [] := by
  refine walk_induction (P := fun _ w => w.ending = .deadEnd → w.scores ≠ []) ?_ ?_ ?_ h
  · intro _ ending hnot hdead
    exact absurd hdead hnot
  · intro _ _ _ _ _
    exact List.cons_ne_nil _ _
  · intro _ _ _ _ _ _ _
    exact List.cons_ne_nil _ _

theorem steps_cons {rest : Walk} (score : ℚ)
    (h : walk turns left current depth = .ok rest) : (rest.cons score).steps = rest.steps + 1 := by
  unfold Walk.steps Walk.cons
  by_cases hdead : rest.ending = .deadEnd
  · have hpos := List.length_pos_iff.mpr (scores_ne_nil h hdead)
    rw [if_pos hdead, if_pos hdead, List.length_cons]
    omega
  · rw [if_neg hdead, if_neg hdead, List.length_cons]

theorem rollout_cons {rest : Walk} (totalScore score : ℚ)
    (h : walk turns left current (depth + 1) = .ok rest) :
    rest.rollout (totalScore + score * (9 / 10) ^ depth) (depth + 1) =
      (rest.cons score).rollout totalScore depth := by
  have hsteps : (depth : ℚ) + (rest.cons score).steps + 1 = (depth + 1 : ℕ) + rest.steps + 1 := by
    rw [steps_cons score h]
    push_cast
    ring
  have hsum : totalScore + discounted depth (rest.cons score).scores =
      totalScore + score * (9 / 10) ^ depth + discounted (depth + 1) rest.scores := by
    rw [Walk.cons, discounted_cons, add_assoc]
  unfold Walk.rollout
  rw [hsteps, hsum]
  rfl

/-- **The loop adds up what the walk gives.** -/
theorem simulateLoop_eq (left : ℕ) (current : ThoughtNode σ ℚ) (totalScore : ℚ) (depth : ℕ) :
    simulateLoop turns left current totalScore depth =
      (walk turns left current depth).map (Walk.rollout totalScore depth) := by
  induction left generalizing current totalScore depth with
  | zero => simp [simulateLoop, walk, Walk.rollout, Walk.steps, Except.map]
  | succ left ih =>
      rw [simulateLoop, walk]
      cases rolloutTurn (turns depth) current with
      | error e => rfl
      | ok answer =>
          cases answer with
          | solved => simp [Walk.rollout, Except.map]
          | noCandidates | failed | deadEnd => simp [Walk.rollout, Walk.steps, Except.map]
          | moves next =>
              simp only [ih]
              cases hrest : walk turns left next (depth + 1) with
              | error e => rfl
              | ok rest => exact congrArg Except.ok (rollout_cons totalScore next.score hrest)

theorem simulate_eq (mctsMaxRolloutDepth : ℕ) (turns : ℕ → Problem σ S ε ℚ η) (node : ThoughtNode σ ℚ) :
    simulate mctsMaxRolloutDepth turns node =
      (walk turns mctsMaxRolloutDepth node 0).map (Walk.rollout node.score 0) :=
  simulateLoop_eq _ _ _ _

/-! ## Bounds -/

/-- A score of the evaluator's range. -/
def UnitScore (score : ℚ) : Prop := 0 ≤ score ∧ score ≤ 1

/-- The evaluator gives scores between 0 and 1. -/
def UnitScores (turns : ℕ → Problem σ S ε ℚ η) : Prop :=
  ∀ turn state thought context score evaluation,
    (turns turn).evaluate state thought context = .ok (score, evaluation) → UnitScore score

/-- What a turn evaluates is in the range. -/
theorem rolloutTurn_unit (hturns : UnitScores turns)
    {answer : Answer σ} (h : rolloutTurn (turns depth) current = .ok answer) :
    (∀ score, answer = .deadEnd score → UnitScore score) ∧
      ∀ next, answer = .moves next → UnitScore next.score := by
  unfold rolloutTurn at h
  split at h
  · cases h
  · cases h
    exact ⟨nofun, nofun⟩
  · split at h
    · cases h
      exact ⟨nofun, nofun⟩
    · cases h
      exact ⟨nofun, nofun⟩
    · split at h
      · cases h
        exact ⟨nofun, nofun⟩
      · next score evaluation hscore =>
          have hunit := hturns _ _ _ _ _ _ hscore
          split at h
          · cases h
            exact ⟨fun _ heq => by cases heq; exact hunit, nofun⟩
          · cases h
            exact ⟨nofun, fun _ heq => by cases heq; exact hunit⟩

theorem walk_unit (hturns : UnitScores turns) {w : Walk}
    (h : walk turns left current depth = .ok w) : ∀ score ∈ w.scores, UnitScore score := by
  refine walk_induction (P := fun _ w => ∀ score ∈ w.scores, UnitScore score) ?_ ?_ ?_ h
  · intro _ _ _ score hscore
    exact absurd hscore List.not_mem_nil
  · intro depth score current hturn other hother
    rw [List.mem_singleton.mp hother]
    exact (rolloutTurn_unit hturns hturn).1 score rfl
  · intro depth current next rest hturn hrest score hscore
    rcases List.mem_cons.mp hscore with rfl | hscore
    · exact (rolloutTurn_unit hturns hturn).2 next rfl
    · exact hrest score hscore

variable {scores : List ℚ}

theorem discounted_nonneg (h : ∀ score ∈ scores, UnitScore score) (depth : ℕ) :
    0 ≤ discounted depth scores := by
  induction scores generalizing depth with
  | nil => exact le_rfl
  | cons score scores ih =>
      have hfirst := (h score List.mem_cons_self).1
      have hrest := ih (fun other hother => h other (List.mem_cons_of_mem _ hother)) (depth + 1)
      rw [discounted_cons]
      positivity

theorem discounted_le_sum (h : ∀ score ∈ scores, UnitScore score) (depth : ℕ) :
    discounted depth scores ≤ 10 * ((9 / 10) ^ depth - (9 / 10) ^ (depth + scores.length)) := by
  induction scores generalizing depth with
  | nil => simp
  | cons score scores ih =>
      have hfirst := (h score List.mem_cons_self).2
      have hrest := ih (fun other hother => h other (List.mem_cons_of_mem _ hother)) (depth + 1)
      have hdiscount : (0 : ℚ) ≤ (9 / 10) ^ depth := by positivity
      have hscore : score * (9 / 10) ^ depth ≤ (9 / 10) ^ depth :=
        mul_le_of_le_one_left hdiscount hfirst
      have hlength : depth + (score :: scores).length = depth + 1 + scores.length := by
        rw [List.length_cons]
        omega
      rw [discounted_cons, hlength]
      rw [pow_succ (9 / 10 : ℚ) depth] at hrest
      linarith

theorem discounted_le_length (h : ∀ score ∈ scores, UnitScore score) (depth : ℕ) :
    discounted depth scores ≤ scores.length := by
  induction scores generalizing depth with
  | nil => simp
  | cons score scores ih =>
      have hfirst := h score List.mem_cons_self
      have hrest := ih (fun other hother => h other (List.mem_cons_of_mem _ hother)) (depth + 1)
      have hdiscount : (9 / 10 : ℚ) ^ depth ≤ 1 := pow_le_one₀ (by norm_num) (by norm_num)
      have hscore : score * (9 / 10) ^ depth ≤ 1 := mul_le_one₀ hfirst.2 (by positivity) hdiscount
      rw [discounted_cons, List.length_cons]
      push_cast
      linarith

/-- **A rollout is worth at most as much as a solution.** -/
def RewardBounded (mctsMaxRolloutDepth : ℕ) (turns : ℕ → Problem σ S ε ℚ η) (node : ThoughtNode σ ℚ) :
    Prop :=
  ∀ rollout, simulate mctsMaxRolloutDepth turns node = .ok rollout →
    0 ≤ rollout.value ∧ rollout.value ≤ 1 ∧
      (rollout.ending = .deadEnd → ∀ (otherDepth : ℕ) (otherTurns : ℕ → Problem σ S ε ℚ η)
        (otherNode : ThoughtNode σ ℚ) (other : Rollout),
        simulate otherDepth otherTurns otherNode = .ok other → other.ending = .solution →
          rollout.value ≤ other.value)

variable {mctsMaxRolloutDepth : ℕ}

theorem walk_of_simulate {node : ThoughtNode σ ℚ} {rollout : Rollout}
    (h : simulate mctsMaxRolloutDepth turns node = .ok rollout) :
    ∃ w, walk turns mctsMaxRolloutDepth node 0 = .ok w ∧ rollout = w.rollout node.score 0 := by
  rw [simulate_eq] at h
  cases hwalk : walk turns mctsMaxRolloutDepth node 0 with
  | error e =>
      rw [hwalk] at h
      cases h
  | ok w =>
      rw [hwalk] at h
      exact ⟨w, rfl, (Except.ok.inj h).symm⟩

theorem simulate_of_walk {node : ThoughtNode σ ℚ} {w : Walk}
    (h : walk turns mctsMaxRolloutDepth node 0 = .ok w) :
    simulate mctsMaxRolloutDepth turns node = .ok (w.rollout node.score 0) := by
  rw [simulate_eq, h]
  rfl

theorem value_of_solution {node : ThoughtNode σ ℚ} {rollout : Rollout}
    (h : simulate mctsMaxRolloutDepth turns node = .ok rollout) (hsolution : rollout.ending = .solution) :
    rollout.value = 1 := by
  obtain ⟨w, _, rfl⟩ := walk_of_simulate h
  exact if_pos hsolution

section Values

variable {node : ThoughtNode σ ℚ} {w : Walk} (hnode : UnitScore node.score)
  (hscores : ∀ score ∈ w.scores, UnitScore score)
include hnode hscores

theorem value_nonneg : 0 ≤ (w.rollout node.score 0).value := by
  have hsum := add_nonneg hnode.1 (discounted_nonneg hscores 0)
  unfold Walk.rollout
  dsimp only
  split
  · exact zero_le_one
  · positivity

theorem value_le_one (hdead : w.ending ≠ .deadEnd) : (w.rollout node.score 0).value ≤ 1 := by
  have hsum := discounted_le_length hscores 0
  unfold Walk.rollout
  dsimp only
  split
  · exact le_rfl
  · rw [Walk.steps, if_neg hdead, div_le_one (by positivity)]
    push_cast
    linarith [hnode.2]

omit hnode hscores in
theorem value_le_one_iff (hdead : w.ending = .deadEnd) (hne : w.scores ≠ []) :
    (w.rollout node.score 0).value ≤ 1 ↔ node.score + discounted 0 w.scores ≤ w.scores.length := by
  have hpos := List.length_pos_iff.mpr hne
  have hdivisor : (((0 : ℕ) : ℚ) + (w.scores.length - 1 : ℕ) + 1) = w.scores.length := by
    have hlength : w.scores.length - 1 + 1 = w.scores.length := by omega
    rw [Nat.cast_zero, zero_add]
    exact_mod_cast hlength
  unfold Walk.rollout
  dsimp only
  rw [if_neg (by rw [hdead]; decide), Walk.steps, if_pos hdead, hdivisor,
    div_le_one (by exact_mod_cast hpos)]

/-- **From the sixth candidate on** the discounts make up for the score that is not counted. -/
theorem score_add_discounted_le (hlate : 6 ≤ w.scores.length) :
    node.score + discounted 0 w.scores ≤ w.scores.length := by
  have hsum := discounted_le_sum hscores 0
  have hbound : ∀ n : ℕ, 1 + 10 * (1 - (9 / 10 : ℚ) ^ (n + 6)) ≤ n + 6 := by
    intro n
    induction n with
    | zero => norm_num
    | succ n ih =>
        have hdiscount : (9 / 10 : ℚ) ^ (n + 6) ≤ 1 := pow_le_one₀ (by norm_num) (by norm_num)
        have hnext : n + 1 + 6 = n + 6 + 1 := by omega
        rw [hnext, pow_succ]
        push_cast
        linarith
  obtain ⟨n, hn⟩ := Nat.exists_eq_add_of_le' hlate
  have hthis := hbound n
  rw [hn] at hsum ⊢
  simp only [pow_zero, Nat.zero_add] at hsum
  push_cast
  linarith [hnode.2]

end Values

/-- **A rollout is worth at most as much as a solution** unless one of the first five candidates is a
dead end, and the discounted scores come to more than the number of candidates. -/
theorem rewardBounded_iff (mctsMaxRolloutDepth : ℕ) (turns : ℕ → Problem σ S ε ℚ η)
    (node : ThoughtNode σ ℚ) (hturns : UnitScores turns) (hnode : UnitScore node.score) :
    RewardBounded mctsMaxRolloutDepth turns node ↔
      ∀ w, walk turns mctsMaxRolloutDepth node 0 = .ok w → w.ending = .deadEnd →
        w.scores.length ≤ 5 → node.score + discounted 0 w.scores ≤ w.scores.length := by
  constructor
  · intro h w hwalk hdead _
    exact (value_le_one_iff hdead (scores_ne_nil hwalk hdead)).mp (h _ (simulate_of_walk hwalk)).2.1
  · intro h rollout hsimulate
    obtain ⟨w, hwalk, rfl⟩ := walk_of_simulate hsimulate
    have hscores := walk_unit hturns hwalk
    have hle : (w.rollout node.score 0).value ≤ 1 := by
      by_cases hdead : w.ending = .deadEnd
      · refine (value_le_one_iff hdead (scores_ne_nil hwalk hdead)).mpr ?_
        rcases Nat.lt_or_ge 5 w.scores.length with hlate | hearly
        · exact score_add_discounted_le hnode hscores hlate
        · exact h w hwalk hdead hearly
      · exact value_le_one hnode hscores hdead
    refine ⟨value_nonneg hnode hscores, hle, ?_⟩
    intro _ otherDepth otherTurns otherNode other hother hsolution
    rw [value_of_solution hother hsolution]
    exact hle

/-- One candidate for every state, of one score and evaluation; nothing is a solution. -/
def onlyCandidate (score : ℚ) (evaluation : EvaluationResult) : Problem ℕ ℕ Unit ℚ ℕ where
  generate := fun state _ _ => .ok [(state + 1, "next")]
  evaluate := fun _ _ _ => .ok (score, evaluation)
  check := fun _ => .ok none
  truthy := fun _ => true
  stateHash := id
  nodeId := (graphProblem (fun _ => []) (fun _ => 0) 0).nodeId
  nodeId_injective := (graphProblem (fun _ => []) (fun _ => 0) 0).nodeId_injective

theorem onlyCandidate_unit {score : ℚ} (h : UnitScore score) (evaluation : EvaluationResult) :
    UnitScores fun _ => onlyCandidate score evaluation := by
  intro _ _ _ _ other _ heq
  obtain rfl := (Prod.mk.inj (Except.ok.inj heq)).1
  exact h

theorem rewardBounded_promising :
    RewardBounded 3 (fun _ => onlyCandidate 1 .promising) (rootNode 0 "start") := by
  refine (rewardBounded_iff 3 _ _ (onlyCandidate_unit ⟨zero_le_one, le_rfl⟩ _) ⟨zero_le_one, le_rfl⟩).mpr ?_
  intro w hwalk hdead _
  cases hwalk
  cases hdead

theorem not_rewardBounded_deadEnd :
    UnitScores (fun _ : ℕ => onlyCandidate 1 .deadEnd) ∧
      simulate 3 (fun _ => onlyCandidate 1 .deadEnd) (rootNode 0 "start") = .ok ⟨2, .deadEnd⟩ ∧
      ¬RewardBounded 3 (fun _ => onlyCandidate 1 .deadEnd) (rootNode 0 "start") := by
  have htwo : simulate 3 (fun _ => onlyCandidate 1 .deadEnd) (rootNode 0 "start") =
      .ok ⟨2, .deadEnd⟩ := by
    have hvalue : ((1 : ℚ) + 1 * (9 / 10) ^ 0) / ((0 : ℕ) + 1) = 2 := by norm_num
    exact congrArg (fun value : ℚ => Except.ok (Rollout.mk value .deadEnd)) hvalue
  refine ⟨onlyCandidate_unit ⟨zero_le_one, le_rfl⟩ _, htwo, fun h => ?_⟩
  have hle := (h _ htwo).2.1
  norm_num at hle

end SkyClaw.Reasoning
