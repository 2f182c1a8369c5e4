import Mathlib.Algebra.GroupWithZero.Nat
import Mathlib.Logic.Equiv.List
import SkyClaw.Lib.BoundedSearch
import SkyClaw.Reasoning.Expansion

/-!
# Searches in which nothing fails

The generator and the checker are functions of the state, no call fails, and the pruning keeps
every node.  An expansion then gives a child for each state that the generator leads to.
-/

namespace SkyClaw.Reasoning

variable {σ S ε R η : Type} [LinearOrder R] [Zero R]

/-- Nothing fails, and nothing is pruned. -/
structure Faultless (p : Problem σ S ε R η) (cfg : ToTConfig R)
    (generator : σ → List (σ × String)) (checker : σ → Option S) : Prop where
  generates : ∀ state n context, p.generate state n context = .ok (generator state)
  evaluates : ∀ state thought context, ∃ score evaluation,
    p.evaluate state thought context = .ok (score, evaluation) ∧ 0 ≤ score ∧ evaluation ≠ .deadEnd
  checks : ∀ state, p.check state = .ok (checker state)
  truthy : ∀ state solution, checker state = some solution → p.truthy solution = true
  pruningMethod : cfg.pruningMethod = .fixedThreshold
  pruningThreshold : cfg.pruningThreshold = 0
  injective : Function.Injective p.stateHash

/-- The generator leads from a state to another. -/
def LeadsTo (generator : σ → List (σ × String)) (state next : σ) : Prop :=
  next ∈ (generator state).map Prod.fst

/-- Nothing is a dead end. -/
def Search.Alive (search : Search σ S R η) : Prop :=
  ∀ node, search.evaluation node ≠ .deadEnd

/-- A child for each state that the generator leads to. -/
structure IsFamily (generator : σ → List (σ × String)) (node : ThoughtNode σ R)
    (children : List (ThoughtNode σ R)) : Prop where
  depth : ∀ child ∈ children, child.depth = node.depth + 1
  score : ∀ child ∈ children, 0 ≤ child.score
  path : ∀ child ∈ children, ∃ i, child.path = i :: node.path ∧
    (generator node.state)[i]?.map Prod.fst = some child.state
  complete : ∀ next, LeadsTo generator node.state next → ∃ child ∈ children, child.state = next

theorem IsFamily.leads {generator : σ → List (σ × String)} {node child : ThoughtNode σ R}
    {children : List (ThoughtNode σ R)} (h : IsFamily generator node children)
    (hchild : child ∈ children) : LeadsTo generator node.state child.state := by
  obtain ⟨i, _, hstate⟩ := h.path child hchild
  obtain ⟨pair, hpair, hfst⟩ := Option.map_eq_some_iff.mp hstate
  rw [← hfst]
  exact List.mem_map_of_mem (List.mem_of_getElem? hpair)

theorem IsFamily.perm {generator : σ → List (σ × String)} {node : ThoughtNode σ R}
    {children children' : List (ThoughtNode σ R)} (h : IsFamily generator node children)
    (hperm : children'.Perm children) : IsFamily generator node children' := by
  constructor
  · intro child hchild
    exact h.depth child (hperm.subset hchild)
  · intro child hchild
    exact h.score child (hperm.subset hchild)
  · intro child hchild
    exact h.path child (hperm.subset hchild)
  · intro next hnext
    obtain ⟨child, hmem, hstate⟩ := h.complete next hnext
    exact ⟨child, hperm.symm.subset hmem, hstate⟩

namespace Faultless

variable {p : Problem σ S ε R η} {cfg : ToTConfig R} {generator : σ → List (σ × String)}
  {checker : σ → Option S}

theorem solutionOf (h : Faultless p cfg generator checker) (state : σ) :
    p.solutionOf state = .ok (checker state) := by
  unfold Problem.solutionOf
  rw [h.checks]
  cases hchecker : checker state with
  | none => rfl
  | some solution => simp [Except.map, h.truthy state solution hchecker]

theorem atNode_none (h : Faultless p cfg generator checker) {F : Type} (search : Search σ S R η)
    {node : ThoughtNode σ R} (hnone : checker node.state = none)
    (rest : Search σ S R η → Action σ S ε R η F) : atNode p search node rest = rest search := by
  unfold atNode checkSolution
  rw [h.solutionOf, hnone]
  simp

theorem atNode_some (h : Faultless p cfg generator checker) {F : Type} (search : Search σ S R η)
    {node : ThoughtNode σ R} {solution : S} (hsome : checker node.state = some solution)
    (rest : Search σ S R η → Action σ S ε R η F) :
    atNode p search node rest =
      .move (.inr ({ search with solutions := search.solutions ++ [solution] },
        .ok (some solution))) := by
  unfold atNode checkSolution
  rw [h.solutionOf, hsome]
  rfl

theorem createChildNode (h : Faultless p cfg generator checker) (parent : ThoughtNode σ R)
    (candidate : Candidate σ) :
    ∃ score evaluation solution, 0 ≤ score ∧ evaluation ≠ .deadEnd ∧
      createChildNode p cfg parent candidate =
        ⟨some (childNode parent candidate score, evaluation), solution,
          some (childNode parent candidate score)⟩ := by
  obtain ⟨score, evaluation, heval, hscore, halive⟩ :=
    h.evaluates candidate.1.1 candidate.1.2 (contextOf parent)
  unfold Reasoning.createChildNode
  simp only [heval, h.solutionOf]
  split
  · cases checker candidate.1.1 with
    | none => exact ⟨score, evaluation, none, hscore, halive, rfl⟩
    | some solution => exact ⟨score, .solution, some solution, hscore, nofun, rfl⟩
  · exact ⟨score, evaluation, none, hscore, halive, rfl⟩

theorem attachedChildren (h : Faultless p cfg generator checker) (parent : ThoughtNode σ R)
    (candidates : List (Candidate σ)) :
    attachedChildren p cfg parent candidates = returnedChildren p cfg parent candidates := by
  unfold Reasoning.attachedChildren returnedChildren
  apply List.filterMap_congr
  intro candidate _
  obtain ⟨score, evaluation, solution, _, _, heq⟩ := h.createChildNode parent candidate
  rw [heq]
  rfl

theorem returnedChildren (h : Faultless p cfg generator checker) (parent : ThoughtNode σ R) :
    IsFamily generator parent (returnedChildren p cfg parent (generator parent.state).zipIdx) := by
  have hmem : ∀ child ∈ Reasoning.returnedChildren p cfg parent (generator parent.state).zipIdx,
      ∃ candidate ∈ (generator parent.state).zipIdx, ∃ score, 0 ≤ score ∧
        child = childNode parent candidate score := by
    intro child hchild
    obtain ⟨candidate, hcandidate, hreturned⟩ := List.mem_filterMap.mp hchild
    obtain ⟨score, _, _, hscore, _, heq⟩ := h.createChildNode parent candidate
    rw [heq] at hreturned
    exact ⟨candidate, hcandidate, score, hscore, (Option.some.inj hreturned).symm⟩
  constructor
  · intro child hchild
    obtain ⟨candidate, _, score, _, rfl⟩ := hmem child hchild
    rfl
  · intro child hchild
    obtain ⟨candidate, _, score, hscore, rfl⟩ := hmem child hchild
    exact hscore
  · intro child hchild
    obtain ⟨candidate, hcandidate, score, _, rfl⟩ := hmem child hchild
    refine ⟨candidate.2, rfl, ?_⟩
    rw [List.mem_zipIdx_iff_getElem?.mp hcandidate]
    rfl
  · intro next hnext
    obtain ⟨pair, hpair, rfl⟩ := List.mem_map.mp hnext
    obtain ⟨i, hi⟩ := List.mem_iff_getElem?.mp hpair
    have hcandidate : (pair, i) ∈ (generator parent.state).zipIdx :=
      List.mk_mem_zipIdx_iff_getElem?.mpr hi
    obtain ⟨score, _, _, _, _, heq⟩ := h.createChildNode parent (pair, i)
    refine ⟨childNode parent (pair, i) score, List.mem_filterMap.mpr ⟨_, hcandidate, ?_⟩, rfl⟩
    rw [heq]

variable [DecidableEq σ]

theorem alive_attachAll (h : Faultless p cfg generator checker)
    (parent : ThoughtNode σ R) {search : Search σ S R η} (halive : search.Alive)
    (done : List (Candidate σ)) : (attachAll p cfg parent search done).Alive := by
  unfold attachAll
  induction done generalizing search with
  | nil => exact halive
  | cons candidate done ih =>
      rw [List.foldl_cons]
      apply ih
      obtain ⟨score, evaluation, solution, _, hevaluation, heq⟩ := h.createChildNode parent candidate
      rw [heq]
      intro node
      unfold Search.attach
      simp only [Function.update_apply]
      split
      · exact hevaluation
      · exact halive node

end Faultless

/-- A node has been expanded. -/
structure Expanded [DecidableEq σ] (generator : σ → List (σ × String)) (node : ThoughtNode σ R)
    (search search' : Search σ S R η) (children : List (ThoughtNode σ R)) : Prop where
  alive : search'.Alive
  visited : search'.visited = search.visited
  family : IsFamily generator node children
  attached : ∃ attached, IsFamily generator node attached ∧ ∀ other, search'.children other =
    if other = node then search.children node ++ attached else search.children other

namespace Faultless

variable {p : Problem σ S ε R η} {cfg : ToTConfig R} {generator : σ → List (σ × String)}
  {checker : σ → Option S} [DecidableEq σ]

/-- **An expansion** gives a child for each state that the generator leads to. -/
theorem expandNode (h : Faultless p cfg generator checker) (schedule : Schedule σ R)
    (node : ThoughtNode σ R) {search : Search σ S R η} (halive : search.Alive) :
    ∃ search' children, expandNode p cfg schedule node search = (search', .ok children) ∧
      Expanded generator node search search' children := by
  refine ⟨_, _, expandNode_eq p cfg schedule node search (h.generates _ _ _), ?_⟩
  constructor
  · exact h.alive_attachAll node halive _
  · exact attachAll_visited p cfg node search _
  · exact h.returnedChildren node
  · refine ⟨_, ?_, attachAll_children p cfg node search _⟩
    have hperm := (completed_perm cfg schedule node (generator node.state).zipIdx).filterMap
      fun candidate => (Reasoning.createChildNode p cfg node candidate).attached.map Prod.fst
    have hall := h.attachedChildren node (generator node.state).zipIdx
    unfold Reasoning.attachedChildren at hall ⊢
    rw [hall] at hperm
    exact (h.returnedChildren node).perm hperm

/-- **The pruning** keeps every node. -/
theorem applyPruning (h : Faultless p cfg generator checker) {search : Search σ S R η}
    (halive : search.Alive) {nodes : List (ThoughtNode σ R)}
    (hscore : ∀ node ∈ nodes, 0 ≤ node.score) :
    ∃ search', applyPruning (ε := ε) cfg search nodes = (search', .ok nodes) ∧ search'.Alive ∧
      search'.visited = search.visited ∧ search'.children = search.children := by
  have hkept : nodes.filter (fun node => search.evaluation node ≠ .deadEnd) = nodes :=
    List.filter_eq_self.mpr fun node _ => decide_eq_true (halive node)
  have hbelow : nodes.filter (fun node => node.score < 0) = [] :=
    List.filter_eq_nil_iff.mpr fun node hnode => by simpa using hscore node hnode
  have habove : nodes.filter (fun node => ¬node.score < 0) = nodes :=
    List.filter_eq_self.mpr fun node hnode => by simpa using hscore node hnode
  unfold Reasoning.applyPruning
  split
  · exact ⟨search, rfl, halive, rfl, rfl⟩
  · simp only [h.pruningMethod, h.pruningThreshold, hkept, applyThreshold, hbelow, habove]
    refine ⟨_, rfl, ?_, rfl, rfl⟩
    intro node
    simp [Search.markDeadEnd, halive node]

end Faultless

/-! ## Searches over numbers -/

/-- A problem whose states are numbers, accepted from a goal on. -/
def graphProblem (generator : ℕ → List (ℕ × String)) (score : ℕ → ℕ) (goal : ℕ) :
    Problem ℕ ℕ Unit ℕ ℕ where
  generate := fun state _ _ => .ok (generator state)
  evaluate := fun state _ _ => .ok (score state, .promising)
  check := fun state => .ok (if goal ≤ state then some state else none)
  truthy := fun _ => true
  stateHash := id
  nodeId := fun path => String.ofList (List.replicate (Encodable.encode path) 'x')
  nodeId_injective := by
    intro path other h
    have hlength := congrArg List.length (String.ofList_injective h)
    rw [List.length_replicate, List.length_replicate] at hlength
    exact Encodable.encode_injective hlength

/-- A threshold of zero. -/
def graphConfig (maxDepth : ℕ) (enableParallelExpansion : Bool) : ToTConfig ℕ where
  maxDepth := maxDepth
  maxThoughtsPerStep := 3
  beamWidth := 3
  pruningMethod := .fixedThreshold
  pruningThreshold := 0
  pruningTopK := 3
  percentileIndex := id
  solutionThreshold := 1
  enableParallelExpansion := enableParallelExpansion
  maxParallelExpansions := 5
  parallel_pos := five_pos

theorem graph_faultless (generator : ℕ → List (ℕ × String)) (score : ℕ → ℕ) (goal maxDepth : ℕ)
    (enableParallelExpansion : Bool) :
    Faultless (graphProblem generator score goal) (graphConfig maxDepth enableParallelExpansion)
      generator fun state => if goal ≤ state then some state else none where
  generates := fun _ _ _ => rfl
  evaluates := fun state _ _ => ⟨score state, .promising, rfl, Nat.zero_le _, by simp⟩
  checks := fun _ => rfl
  truthy := fun _ _ _ => rfl
  pruningMethod := rfl
  pruningThreshold := rfl
  injective := Function.injective_id

/-- Two ways to a state: one over two others, and a shorter one of a lower score. -/
def detour : ℕ → List (ℕ × String)
  | 0 => [(1, "the long way"), (2, "the short way")]
  | 1 => [(3, "further")]
  | 2 => [(4, "there")]
  | 3 => [(4, "there")]
  | 4 => [(5, "the goal")]
  | _ => []

/-- A goal that is one step away. -/
def oneStep (state : ℕ) : List (ℕ × String) := if state = 0 then [(1, "the goal")] else []

/-- Two goals, each a step away. -/
def fork (state : ℕ) : List (ℕ × String) := if state = 0 then [(1, "one"), (2, "another")] else []

/-- The short way looks worse. -/
def detourScore (state : ℕ) : ℕ := if state = 2 then 0 else 1

end SkyClaw.Reasoning
