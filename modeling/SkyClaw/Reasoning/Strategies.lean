import Mathlib.Order.Lex
import SkyClaw.Lib.WhileLoop
import SkyClaw.Reasoning.Engine

/-!
# Search strategies

The loops of the strategies for breadth-first, depth-first, best-first and beam search.  A turn of a
loop looks at the nodes that wait, and asks for at most one expansion; how a node is expanded
is a parameter of the loop.
-/

namespace SkyClaw.Reasoning

/-- `SearchStrategyType`, as far as it is modelled. -/
inductive SearchStrategyType where
  | bfs
  | dfs
  | bestFirst
  | beam
deriving DecidableEq, Repr

variable {σ S ε R η : Type}

/-! ## Turns -/

/-- What is left after a turn: the search and the nodes that wait, or the end. -/
abbrev Turn (σ S ε R η F : Type) := (Search σ S R η × F) ⊕ Result σ S ε R η (Option S)

/-- What a turn comes to: it is over, or a node is to be expanded before it goes on. -/
inductive Action (σ S ε R η F : Type) where
  | move (turn : Turn σ S ε R η F)
  | expand (search : Search σ S R η) (node : ThoughtNode σ R)
      (resume : Search σ S R η → List (ThoughtNode σ R) → Turn σ S ε R η F)

/-- A strategy: the nodes that wait at first, and what a turn does. -/
structure Strategy (σ S ε R η : Type) where
  Frontier : Type
  start : ThoughtNode σ R → Frontier
  inspect : Search σ S R η → Frontier → Action σ S ε R η Frontier

/-- How nodes are expanded. -/
abbrev Expansion (σ S ε R η : Type) :=
  ThoughtNode σ R → Search σ S R η → Result σ S ε R η (List (ThoughtNode σ R))

/-- The turn, with the expansion that it asks for. -/
def Action.perform {F : Type} (expandNode : Expansion σ S ε R η) :
    Action σ S ε R η F → Turn σ S ε R η F
  | .move turn => turn
  | .expand search node resume =>
      match expandNode node search with
      | (search, .error failure) => .inr (search, .error failure)
      | (search, .ok children) => resume search children

/-- A turn of the loop. -/
def Strategy.turn (strategy : Strategy σ S ε R η) (expandNode : Expansion σ S ε R η)
    (s : Search σ S R η × strategy.Frontier) : Turn σ S ε R η strategy.Frontier :=
  (strategy.inspect s.1 s.2).perform expandNode

/-- Go on with the nodes that are not pruned. -/
def keep {F : Type} (pruned : Result σ S ε R η (List (ThoughtNode σ R)))
    (frontier : Search σ S R η → List (ThoughtNode σ R) → F) : Turn σ S ε R η F :=
  match pruned with
  | (search, .error failure) => .inr (search, .error failure)
  | (search, .ok children) => .inl (search, frontier search children)

section Strategies

variable [LinearOrder R] [DecidableEq σ] [DecidableEq η]
variable (p : Problem σ S ε R η) (cfg : ToTConfig R)

/-- A turn at a node: it ends the search if the node is a solution, or if the check raises. -/
def atNode {F : Type} (search : Search σ S R η) (node : ThoughtNode σ R)
    (rest : Search σ S R η → Action σ S ε R η F) : Action σ S ε R η F :=
  match checkSolution p search node with
  | (search, .error failure) => .move (.inr (search, .error failure))
  | (search, .ok (some solution)) => .move (.inr (search, .ok (some solution)))
  | (search, .ok none) => rest search

section

variable (search : Search σ S R η)

/-- A turn of `BFSSearchStrategy.search`. -/
def bfsInspect :
    List (ThoughtNode σ R) → Action σ S ε R η (List (ThoughtNode σ R))
  | [] => .move (.inr (search, .ok none))
  | current :: queue =>
      atNode p search current fun search =>
        if cfg.maxDepth ≤ current.depth then .move (.inl (search, queue))
        else if isVisited p search current then .move (.inl (search, queue))
        else
          .expand (markVisited p search current) current fun search children =>
            keep (applyPruning cfg search children) fun _ children => queue ++ children

def bfsSearchStrategy : Strategy σ S ε R η where
  Frontier := List (ThoughtNode σ R)
  start := fun root => [root]
  inspect := bfsInspect p cfg

/-- The next child of the node on top of the stack, or one node less. -/
def navigate (current : ThoughtNode σ R) (childIdx : Nat)
    (stack : List (ThoughtNode σ R × Nat)) : List (ThoughtNode σ R × Nat) :=
  match (search.children current)[childIdx]? with
  | some child => (child, 0) :: (current, childIdx + 1) :: stack
  | none => stack

/-- A turn of `DFSSearchStrategy.search`; the top of the stack comes first. -/
def dfsInspect :
    List (ThoughtNode σ R × Nat) → Action σ S ε R η (List (ThoughtNode σ R × Nat))
  | [] => .move (.inr (search, .ok none))
  | (current, childIdx) :: stack =>
      atNode p search current fun search =>
        if childIdx = 0 ∧ isVisited p search current then .move (.inl (search, stack))
        else
          let search := if childIdx = 0 then markVisited p search current else search
          -- with backtracking or without it, the node is taken off
          if cfg.maxDepth ≤ current.depth then .move (.inl (search, stack))
          else if search.children current = [] ∧ childIdx = 0 then
            .expand search current fun search children =>
              -- what the pruning leaves is not looked at
              keep (applyPruning cfg search children) fun search _ =>
                navigate search current childIdx stack
          else .move (.inl (search, navigate search current childIdx stack))

def dfsSearchStrategy : Strategy σ S ε R η where
  Frontier := List (ThoughtNode σ R × Nat)
  start := fun root => [(root, 0)]
  inspect := dfsInspect p cfg

/-! ## Best-first -/

/-- The order of `(-score, id)`. -/
def Before (first second : ThoughtNode σ R) : Prop :=
  second.score < first.score ∨
    second.score = first.score ∧ p.nodeId first.path ≤ p.nodeId second.path

instance : DecidableRel (Before p) := fun _ _ => inferInstanceAs (Decidable (_ ∨ _ ∧ _))

/-- `heappush`, on a queue with the least entry first. -/
def heappush (queue : List (ThoughtNode σ R)) (child : ThoughtNode σ R) : List (ThoughtNode σ R) :=
  queue.orderedInsert (Before p) child

/-- The queue and `visited_ids`. -/
structure BestFirst (σ R : Type) where
  priorityQueue : List (ThoughtNode σ R)
  visitedIds : List String

/-- A turn of `BestFirstSearchStrategy.search`. -/
def bestFirstInspect (frontier : BestFirst σ R) :
    Action σ S ε R η (BestFirst σ R) :=
  match frontier.priorityQueue with
  | [] => .move (.inr (search, .ok none))
  | current :: queue =>
      if p.nodeId current.path ∈ frontier.visitedIds then
        .move (.inl (search, { frontier with priorityQueue := queue }))
      else
        let visitedIds := p.nodeId current.path :: frontier.visitedIds
        if isVisited p search current then .move (.inl (search, ⟨queue, visitedIds⟩))
        else
          atNode p (markVisited p search current) current fun search =>
            if cfg.maxDepth ≤ current.depth then .move (.inl (search, ⟨queue, visitedIds⟩))
            else
              .expand search current fun search children =>
                keep (applyPruning cfg search children) fun _ children =>
                  ⟨children.foldl (heappush p) queue, visitedIds⟩

def bestFirstSearchStrategy : Strategy σ S ε R η where
  Frontier := BestFirst σ R
  start := fun root => ⟨[root], []⟩
  inspect := bestFirstInspect p cfg

/-- Before a level, with the number of levels that are left, or among its nodes. -/
inductive Beam (σ R : Type) where
  | level (left : Nat) (currentLevel : List (ThoughtNode σ R))
  | nodes (left : Nat) (todo nextLevel : List (ThoughtNode σ R))

/-- A turn of `BeamSearchStrategy.search`. -/
def beamInspect : Beam σ R → Action σ S ε R η (Beam σ R)
  | .level 0 _ => .move (.inr (search, .ok none))
  | .level (_ + 1) [] => .move (.inr (search, .ok none))
  | .level (left + 1) currentLevel => .move (.inl (search, .nodes left currentLevel []))
  | .nodes left [] nextLevel =>
      .move (keep (applyPruning cfg search nextLevel) fun _ kept =>
        .level left ((byScore kept).take cfg.beamWidth))
  | .nodes left (node :: todo) nextLevel =>
      if isVisited p search node then .move (.inl (search, .nodes left todo nextLevel))
      else
        atNode p (markVisited p search node) node fun search =>
          .expand search node fun search children =>
            .inl (search, .nodes left todo (nextLevel ++ children))

end

def beamSearchStrategy : Strategy σ S ε R η where
  Frontier := Beam σ R
  start := fun root => .level cfg.maxDepth [root]
  inspect := beamInspect p cfg

def createSearchStrategy : SearchStrategyType → Strategy σ S ε R η
  | .bfs => bfsSearchStrategy p cfg
  | .dfs => dfsSearchStrategy p cfg
  | .bestFirst => bestFirstSearchStrategy p cfg
  | .beam => beamSearchStrategy p cfg

/-- A turn of a strategy of the engine. -/
def searchTurn (schedule : Schedule σ R) (strategyType : SearchStrategyType) :=
  (createSearchStrategy p cfg strategyType).turn (expandNode p cfg schedule)

/-- `search` ends with an outcome. -/
def Searches (schedule : Schedule σ R) (strategyType : SearchStrategyType)
    (root : ThoughtNode σ R) (outcome : Result σ S ε R η (Option S)) : Prop :=
  WhileLoop.Returns (searchTurn p cfg schedule strategyType)
    (Search.reset, (createSearchStrategy p cfg strategyType).start root) outcome

theorem searches_of_run (schedule : Schedule σ R)
    (strategyType : SearchStrategyType) (root : ThoughtNode σ R) (n : Nat)
    {result : Except (Failure ε) (Option S)}
    (h : (WhileLoop.run (searchTurn p cfg schedule strategyType) n
      (Search.reset, (createSearchStrategy p cfg strategyType).start root)).map Prod.snd =
        some result) :
    ∃ outcome, Searches p cfg schedule strategyType root outcome ∧ outcome.2 = result := by
  obtain ⟨outcome, hrun, hresult⟩ := Option.map_eq_some_iff.mp h
  exact ⟨outcome, WhileLoop.returns_of_run hrun, hresult⟩

end Strategies

end SkyClaw.Reasoning
