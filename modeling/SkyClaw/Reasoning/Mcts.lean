import SkyClaw.Lib.SubtreeSums
import SkyClaw.Reasoning.MctsRollout

/-!
# Monte Carlo tree search

`MCTSSearchStrategy`: selection by UCB1, expansion, a rollout for every child whose state is new, and
backpropagation.  Children are only added at the end, so a node is known by the indices on the way to it.
What the generator, the evaluator and the checker answer may change from iteration to
iteration; `math.sqrt` and `math.log` are a parameter.
-/

namespace SkyClaw.Reasoning

/-- `ToTConfig`, with what the search reads. -/
structure MctsConfig extends ToTConfig ℚ where
  mctsExplorationConstant : ℚ
  mctsMaxRolloutDepth : ℕ
  mctsIterations : ℕ

/-- The indices on the way from the root, the last one first. -/
abbrev Address := List ℕ

/-- `metadata`, as far as the search uses it. -/
structure Metadata where
  mctsVisits : Option ℕ
  mctsTotalScore : Option ℚ
  mctsAvgScore : Option ℚ
deriving DecidableEq, Repr

structure NodeRef (σ : Type) where
  address : Address
  node : ThoughtNode σ ℚ
deriving DecidableEq, Repr

/-- What a search changes.  The simulations with their results are recorded by the model alone. -/
structure Mcts (σ S η : Type) where
  children : Address → List (ThoughtNode σ ℚ)
  metadata : Address → Metadata
  visited : List η
  solutions : List S
  simulations : List (Address × ℚ)

/-- What is answered in an iteration, and what is answered in each turn of the rollout from a node. -/
structure Environment (σ S ε η : Type) where
  problem : Problem σ S ε ℚ η
  schedule : Schedule σ ℚ
  rollout : Address → ℕ → Problem σ S ε ℚ η

variable {σ S ε η : Type}

/-- The root, before the loop. -/
def Mcts.start (root : ThoughtNode σ ℚ) : Mcts σ S η where
  children := fun _ => []
  metadata := fun node => if node = [] then ⟨some 1, some root.score, none⟩ else ⟨none, none, none⟩
  visited := []
  solutions := []
  simulations := []

/-- `mcts_visits`, 0 if there is none. -/
def Mcts.visits (s : Mcts σ S η) (node : Address) : ℕ := (s.metadata node).mctsVisits.getD 0

/-- `mcts_total_score`, 0 if there is none. -/
def Mcts.totalScore (s : Mcts σ S η) (node : Address) : ℚ := (s.metadata node).mctsTotalScore.getD 0

/-! ## Selection -/

/-- `node.children`. -/
def Mcts.childRefs (s : Mcts σ S η) (node : Address) : List (NodeRef σ) :=
  (s.children node).zipIdx.map fun child => ⟨child.2 :: node, child.1⟩

section Search

variable (cfg : MctsConfig) (sqrtLogOver : ℕ → ℕ → ℚ)

/-- UCB1; `sqrtLogOver` is `sqrt(log(parent_visits) / visits)`. -/
def ucbScore (s : Mcts σ S η) (parentVisits : ℕ) (child : NodeRef σ) : ℚ :=
  (s.metadata child.address).mctsAvgScore.getD child.node.score +
    cfg.mctsExplorationConstant * sqrtLogOver parentVisits (s.visits child.address)

/-- The first child that has not been visited, or else the first of the best. -/
def bestChild (s : Mcts σ S η) (parentVisits : ℕ) :
    List (NodeRef σ) → Option (NodeRef σ) → Option (NodeRef σ)
  | [], best => best
  | child :: rest, best =>
      if s.visits child.address = 0 then some child
      else
        match best with
        | none => bestChild s parentVisits rest (some child)
        | some leader =>
            if ucbScore cfg sqrtLogOver s parentVisits leader <
                ucbScore cfg sqrtLogOver s parentVisits child then
              bestChild s parentVisits rest (some child)
            else bestChild s parentVisits rest (some leader)

/-- A turn of `_select_promising_node`. -/
def selectTurn (s : Mcts σ S η) (node : NodeRef σ) : NodeRef σ ⊕ NodeRef σ :=
  match s.childRefs node.address with
  | [] => .inr node
  | child :: rest =>
      let parentVisits := (s.metadata node.address).mctsVisits.getD 1
      if parentVisits ≤ 1 then .inr child
      else
        match bestChild cfg sqrtLogOver s parentVisits (child :: rest) none with
        | none => .inr node
        | some best => .inl best

/-- `_select_promising_node`; a node at the maximal depth has no children. -/
def selectPromisingNode (root : ThoughtNode σ ℚ) (s : Mcts σ S η) : NodeRef σ :=
  (WhileLoop.run (selectTurn cfg sqrtLogOver s) (cfg.maxDepth + 1) ⟨[], root⟩).getD ⟨[], root⟩

/-- `parent.add_child(child)`, and a solution that is found. -/
def Mcts.attach (parent : Address) (s : Mcts σ S η) (attempt : Attempt σ S ℚ) : Mcts σ S η :=
  match attempt.attached with
  | none => s
  | some (child, _) =>
      { s with
        children := Function.update s.children parent (s.children parent ++ [child])
        solutions := s.solutions ++ attempt.solution.toList }

/-- The candidates are attached in the order in which they are done; the children that are returned
come with the index of their candidate. -/
def attachInOrder (p : Problem σ S ε ℚ η) (parent : NodeRef σ) :
    Mcts σ S η → List (Candidate σ) → Mcts σ S η × List (NodeRef σ × ℕ)
  | s, [] => (s, [])
  | s, candidate :: rest =>
      let attempt := createChildNode p cfg.toToTConfig parent.node candidate
      let attached := attachInOrder p parent (s.attach parent.address attempt) rest
      let address := (s.children parent.address).length :: parent.address
      (attached.1,
        (attempt.returned.map fun child => (⟨address, child⟩, candidate.2)).toList ++ attached.2)

/-- `expand_node`; `gather` gives the children in the order of the candidates. -/
def expandRef (env : Environment σ S ε η) (parent : NodeRef σ) (s : Mcts σ S η) :
    Mcts σ S η × Except (Failure ε) (List (NodeRef σ)) :=
  match env.problem.generate parent.node.state cfg.maxThoughtsPerStep (contextOf parent.node) with
  | .error none => (s, .ok [])
  | .error (some e) => (s, .error (.raised e))
  | .ok candidates =>
      let done :=
        if cfg.enableParallelExpansion = true ∧ 1 < candidates.length then
          (batchesOf cfg.toToTConfig candidates.zipIdx).flatMap (env.schedule.order parent.node)
        else candidates.zipIdx
      let attached := attachInOrder cfg env.problem parent s done
      (attached.1,
        .ok ((attached.2.insertionSort fun first second => first.2 ≤ second.2).map Prod.fst))

/-! ## Simulation and backpropagation -/

/-- The body of `_backpropagate`. -/
def Metadata.add (result : ℚ) (metadata : Metadata) : Metadata :=
  let visits := metadata.mctsVisits.getD 0 + 1
  let totalScore := metadata.mctsTotalScore.getD 0 + result
  ⟨some visits, some totalScore, some (totalScore / visits)⟩

def Mcts.backpropagate (s : Mcts σ S η) (node : Address) (result : ℚ) : Mcts σ S η :=
  { s with metadata := SubtreeSums.updateAlong (Metadata.add result) node s.metadata }

def Mcts.checkSolution (p : Problem σ S ε ℚ η) (s : Mcts σ S η) (node : ThoughtNode σ ℚ) :
    Mcts σ S η × Except (Failure ε) (Option S) :=
  match p.solutionOf node.state with
  | .error e => (s, .error (.raised e))
  | .ok solution => ({ s with solutions := s.solutions ++ solution.toList }, .ok solution)

variable [DecidableEq η]

/-- The loop over the children; `none` goes on with the next iteration. -/
def simulateChildren (env : Environment σ S ε η) :
    Mcts σ S η → List (NodeRef σ) → Mcts σ S η × Except (Failure ε) (Option S)
  | s, [] => (s, .ok none)
  | s, child :: rest =>
      if env.problem.stateHash child.node.state ∈ s.visited then simulateChildren env s rest
      else
        let s := { s with visited := env.problem.stateHash child.node.state :: s.visited }
        match simulate cfg.mctsMaxRolloutDepth (env.rollout child.address) child.node with
        | .error e => (s, .error (.raised e))
        | .ok result =>
            let s := { s with simulations := s.simulations ++ [(child.address, result.value)] }
            match (s.backpropagate child.address result.value).checkSolution env.problem child.node with
            | (s, .error failure) => (s, .error failure)
            | (s, .ok (some solution)) => (s, .ok (some solution))
            | (s, .ok none) => simulateChildren env s rest

/-- What follows the check of the node that is selected. -/
def expandAndSimulate (env : Environment σ S ε η) (node : NodeRef σ) (s : Mcts σ S η) :
    Mcts σ S η × Except (Failure ε) (Option S) :=
  if cfg.maxDepth ≤ node.node.depth then (s, .ok none)
  else
    match expandRef cfg env node s with
    | (s, .error failure) => (s, .error failure)
    | (s, .ok children) => simulateChildren cfg env s children

/-- An iteration. -/
def iterate (root : ThoughtNode σ ℚ) (env : Environment σ S ε η) (s : Mcts σ S η) :
    Mcts σ S η × Except (Failure ε) (Option S) :=
  let node := selectPromisingNode cfg sqrtLogOver root s
  match s.checkSolution env.problem node.node with
  | (s, .error failure) => (s, .error failure)
  | (s, .ok (some solution)) => (s, .ok (some solution))
  | (s, .ok none) => expandAndSimulate cfg env node s

/-- Some iterations; `none` if all of them have been made. -/
def iterations (root : ThoughtNode σ ℚ) :
    List (Environment σ S ε η) → Mcts σ S η → Mcts σ S η × Except (Failure ε) (Option S)
  | [], s => (s, .ok none)
  | env :: envs, s =>
      match iterate cfg sqrtLogOver root env s with
      | (s, .error failure) => (s, .error failure)
      | (s, .ok (some solution)) => (s, .ok (some solution))
      | (s, .ok none) => iterations root envs s

/-- The first of the children that have been visited most. -/
def mostVisited (s : Mcts σ S η) : List (NodeRef σ) → Option (NodeRef σ)
  | [] => none
  | child :: rest =>
      some (rest.foldl (fun best other =>
        if s.visits best.address < s.visits other.address then other else best) child)

/-- `search`, with what is answered in each iteration; the checker is asked once more in the end. -/
def mctsSearch (root : ThoughtNode σ ℚ) (env : ℕ → Environment σ S ε η) :
    Mcts σ S η × Except (Failure ε) (Option S) :=
  match iterations cfg sqrtLogOver root ((List.range cfg.mctsIterations).map env) (Mcts.start root) with
  | (s, .error failure) => (s, .error failure)
  | (s, .ok (some solution)) => (s, .ok (some solution))
  | (s, .ok none) =>
      match mostVisited s (s.childRefs []) with
      | none => (s, .ok none)
      | some best =>
          match (env cfg.mctsIterations).problem.check best.node.state with
          | .error e => (s, .error (.raised e))
          | .ok solution => (s, .ok solution)

end Search

end SkyClaw.Reasoning
