import Mathlib.Data.List.Sort

/-!
# The tree of thoughts

`ThoughtNode`, and what `TreeOfThoughtEngine` does with it: `expand_node`, one candidate after the
other or a batch at a time, the cycle detector and the pruning policy.

The generator, the evaluator and the checker are parameters; scores are of any linear order.  A node
is known by the indices of the candidates on the way to it.  The candidates of a batch are
evaluated at once, and a `Schedule` says in which order the evaluations end.
-/

namespace SkyClaw.Reasoning

/-! ## Types -/

inductive EvaluationResult where
  | promising
  | deadEnd
  | solution
  | uncertain
deriving DecidableEq, Repr

inductive PruningMethod where
  | fixedThreshold
  | relativeTopK
  | relativePercentile
deriving DecidableEq, Repr

/-- `ToTConfig`, as far as the engine reads it. -/
structure ToTConfig (R : Type) where
  maxDepth : Nat
  maxThoughtsPerStep : Nat
  beamWidth : Nat
  pruningMethod : PruningMethod
  pruningThreshold : R
  pruningTopK : Nat
  /-- `int(len(scores_sorted) * pruning_percentile)` -/
  percentileIndex : Nat → Nat
  solutionThreshold : R
  enableParallelExpansion : Bool
  maxParallelExpansions : Nat
  parallel_pos : 0 < maxParallelExpansions

/-- The default of `max_parallel_expansions` is positive. -/
theorem five_pos : 0 < 5 := by omega

/-- `ThoughtNode`, without what changes later: the children and the evaluation. -/
structure ThoughtNode (σ R : Type) where
  /-- the indices of the candidates, the last one first -/
  path : List Nat
  state : σ
  /-- the thoughts of `get_path_to_root()` -/
  thoughts : List String
  depth : Nat
  score : R
deriving DecidableEq, Repr

/-- What the generator and the evaluator are told. -/
structure Context where
  depth : Nat
  path : List String
deriving DecidableEq, Repr

/-- What ends a search with an exception. -/
inductive Failure (ε : Type) where
  | raised (e : ε)
  | indexError
deriving DecidableEq, Repr

/-- The generator, the evaluator, the checker and the hash that the engine is given. -/
structure Problem (σ S ε R η : Type) where
  /-- the candidates; `none` is the timeout -/
  generate : σ → Nat → Context → Except (Option ε) (List (σ × String))
  evaluate : σ → String → Context → Except ε (R × EvaluationResult)
  check : σ → Except ε (Option S)
  truthy : S → Bool
  stateHash : σ → η
  /-- the `uuid4()` of a node -/
  nodeId : List Nat → String
  nodeId_injective : Function.Injective nodeId

/-- What a search changes: the hashes of the cycle detector, the children and the evaluations of
the nodes, and the solutions. -/
structure Search (σ S R η : Type) where
  visited : List η
  children : ThoughtNode σ R → List (ThoughtNode σ R)
  evaluation : ThoughtNode σ R → EvaluationResult
  solutions : List S

/-- What a search step gives: what it changed, and its value or the exception. -/
abbrev Result (σ S ε R η α : Type) := Search σ S R η × Except (Failure ε) α

/-- A candidate, and its index. -/
abbrev Candidate (σ : Type) := (σ × String) × Nat

/-- In which order the evaluations of a batch end. -/
structure Schedule (σ R : Type) where
  order : ThoughtNode σ R → List (Candidate σ) → List (Candidate σ)
  perm : ∀ node batch, (order node batch).Perm batch

variable {σ S ε R η : Type}

/-- Every evaluation ends before the next one does. -/
def Schedule.inOrder : Schedule σ R := ⟨fun _ batch => batch, fun _ _ => List.Perm.refl _⟩

/-- Every evaluation ends before those that were started earlier. -/
def Schedule.reversed : Schedule σ R := ⟨fun _ batch => batch.reverse, fun _ _ => List.reverse_perm _⟩

/-- The root of `solve`. -/
def rootNode [One R] (initialState : σ) (initialThought : String) : ThoughtNode σ R :=
  ⟨[], initialState, [initialThought], 0, 1⟩

/-- What `solve` starts with. -/
def Search.reset : Search σ S R η := ⟨[], fun _ => [], fun _ => .uncertain, []⟩

/-! ## Expansion -/

/-- `candidates[i : i + batch_size]`, for all the batches. -/
def batches {α : Type} (batchSize : Nat) (candidates : List α) : List (List α) :=
  (List.range ((candidates.length + batchSize - 1) / batchSize)).map fun i =>
    (candidates.drop (i * batchSize)).take batchSize

/-- The batches of `_expand_candidates_parallel`. -/
def batchesOf (cfg : ToTConfig R) (candidates : List (Candidate σ)) : List (List (Candidate σ)) :=
  batches (min candidates.length cfg.maxParallelExpansions) candidates

section Expansion

variable [LinearOrder R] (p : Problem σ S ε R η) (cfg : ToTConfig R)

/-- What `_create_child_node` leaves of a candidate. -/
structure Attempt (σ S R : Type) where
  /-- the child that is attached, and its evaluation -/
  attached : Option (ThoughtNode σ R × EvaluationResult)
  solution : Option S
  returned : Option (ThoughtNode σ R)

/-- A solution that `if solution:` takes. -/
def Problem.solutionOf (state : σ) : Except ε (Option S) :=
  (p.check state).map (Option.filter p.truthy)

def childNode (parent : ThoughtNode σ R) (candidate : Candidate σ) (score : R) :
    ThoughtNode σ R where
  path := candidate.2 :: parent.path
  state := candidate.1.1
  thoughts := parent.thoughts ++ [candidate.1.2]
  depth := parent.depth + 1
  score := score

/-- The context of `expand_node`. -/
def contextOf (node : ThoughtNode σ R) : Context := ⟨node.depth, node.thoughts⟩

def createChildNode (parent : ThoughtNode σ R) (candidate : Candidate σ) : Attempt σ S R :=
  match p.evaluate candidate.1.1 candidate.1.2 (contextOf parent) with
  | .error _ => ⟨none, none, none⟩
  | .ok (score, evaluation) =>
      let child := childNode parent candidate score
      if cfg.solutionThreshold ≤ score then
        match p.solutionOf candidate.1.1 with
        -- the child is attached by then, but it is not returned
        | .error _ => ⟨some (child, evaluation), none, none⟩
        | .ok none => ⟨some (child, evaluation), none, some child⟩
        | .ok (some solution) => ⟨some (child, .solution), some solution, some child⟩
      else ⟨some (child, evaluation), none, some child⟩

variable [DecidableEq σ]

/-- `parent.add_child(child)`, and what follows it. -/
def Search.attach (parent : ThoughtNode σ R) (search : Search σ S R η) (attempt : Attempt σ S R) :
    Search σ S R η :=
  match attempt.attached with
  | none => search
  | some (child, evaluation) =>
      { search with
        children := Function.update search.children parent (search.children parent ++ [child])
        evaluation := Function.update search.evaluation child evaluation
        solutions := search.solutions ++ attempt.solution.toList }

/-- The candidates are attached in the order in which they are done. -/
def attachAll (parent : ThoughtNode σ R) (search : Search σ S R η)
    (done : List (Candidate σ)) : Search σ S R η :=
  done.foldl (fun search candidate => search.attach parent (createChildNode p cfg parent candidate))
    search

/-- The children that are returned for some candidates. -/
def returnedChildren (parent : ThoughtNode σ R) (candidates : List (Candidate σ)) :
    List (ThoughtNode σ R) :=
  candidates.filterMap fun candidate => (createChildNode p cfg parent candidate).returned

def expandCandidatesSequential (node : ThoughtNode σ R) (search : Search σ S R η)
    (candidates : List (Candidate σ)) : Search σ S R η × List (ThoughtNode σ R) :=
  (attachAll p cfg node search candidates, returnedChildren p cfg node candidates)

/-- `_expand_candidates_parallel`: the children of a batch are attached as they are done, and
gathered in its order. -/
def expandCandidatesParallel (schedule : Schedule σ R) (node : ThoughtNode σ R)
    (search : Search σ S R η) (candidates : List (Candidate σ)) :
    Search σ S R η × List (ThoughtNode σ R) :=
  (attachAll p cfg node search ((batchesOf cfg candidates).flatMap (schedule.order node)),
    (batchesOf cfg candidates).flatMap (returnedChildren p cfg node))

def expandNode (schedule : Schedule σ R) (node : ThoughtNode σ R) (search : Search σ S R η) :
    Result σ S ε R η (List (ThoughtNode σ R)) :=
  match p.generate node.state cfg.maxThoughtsPerStep (contextOf node) with
  | .error none => (search, .ok [])
  | .error (some e) => (search, .error (.raised e))
  | .ok candidates =>
      let expanded :=
        if cfg.enableParallelExpansion = true ∧ 1 < candidates.length then
          expandCandidatesParallel p cfg schedule node search candidates.zipIdx
        else expandCandidatesSequential p cfg node search candidates.zipIdx
      (expanded.1, .ok expanded.2)

/-! ## Pruning -/

/-- The evaluation of what is pruned. -/
def Search.markDeadEnd (search : Search σ S R η) (nodes : List (ThoughtNode σ R)) :
    Search σ S R η :=
  { search with
    evaluation := fun node => if node ∈ nodes then .deadEnd else search.evaluation node }

/-- `sorted(nodes, key=score, reverse=True)`. -/
def byScore (nodes : List (ThoughtNode σ R)) : List (ThoughtNode σ R) :=
  nodes.insertionSort fun first second => second.score ≤ first.score

/-- The nodes below a threshold are pruned. -/
def applyThreshold (threshold : R) (search : Search σ S R η) (nodes : List (ThoughtNode σ R)) :
    Search σ S R η × List (ThoughtNode σ R) :=
  (search.markDeadEnd (nodes.filter fun node => node.score < threshold),
    nodes.filter fun node => ¬node.score < threshold)

def applyTopK (search : Search σ S R η) (nodes : List (ThoughtNode σ R)) :
    Search σ S R η × List (ThoughtNode σ R) :=
  if nodes.length ≤ cfg.pruningTopK then (search, nodes)
  else
    (search.markDeadEnd ((byScore nodes).drop cfg.pruningTopK),
      (byScore nodes).take cfg.pruningTopK)

/-- `_apply_percentile`: the index may be past the end. -/
def applyPercentile (search : Search σ S R η) (nodes : List (ThoughtNode σ R)) :
    Result σ S ε R η (List (ThoughtNode σ R)) :=
  if nodes.length ≤ 1 then (search, .ok nodes)
  else
    match ((nodes.map (·.score)).insertionSort (· ≤ ·))[cfg.percentileIndex nodes.length]? with
    | none => (search, .error .indexError)
    | some threshold =>
        let pruned := applyThreshold threshold search nodes
        (pruned.1, .ok pruned.2)

/-- `PruningPolicy.apply`. -/
def applyPruning (search : Search σ S R η) (nodes : List (ThoughtNode σ R)) :
    Result σ S ε R η (List (ThoughtNode σ R)) :=
  if nodes = [] then (search, .ok nodes)
  else
    let alive := nodes.filter fun node => search.evaluation node ≠ .deadEnd
    match cfg.pruningMethod with
    | .fixedThreshold =>
        let pruned := applyThreshold cfg.pruningThreshold search alive
        (pruned.1, .ok pruned.2)
    | .relativeTopK =>
        let pruned := applyTopK cfg search alive
        (pruned.1, .ok pruned.2)
    | .relativePercentile => applyPercentile cfg search alive

end Expansion

def isVisited [DecidableEq η] (p : Problem σ S ε R η) (search : Search σ S R η)
    (node : ThoughtNode σ R) : Bool :=
  p.stateHash node.state ∈ search.visited

def markVisited (p : Problem σ S ε R η) (search : Search σ S R η) (node : ThoughtNode σ R) :
    Search σ S R η :=
  { search with visited := p.stateHash node.state :: search.visited }

/-- `_check_solution`; a falsy solution counts as none. -/
def checkSolution (p : Problem σ S ε R η) (search : Search σ S R η) (node : ThoughtNode σ R) :
    Result σ S ε R η (Option S) :=
  match p.solutionOf node.state with
  | .error e => (search, .error (.raised e))
  | .ok solution =>
      ({ search with solutions := search.solutions ++ solution.toList }, .ok solution)

end SkyClaw.Reasoning
