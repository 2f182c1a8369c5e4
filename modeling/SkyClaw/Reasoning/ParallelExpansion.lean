import SkyClaw.Reasoning.Faultless
import SkyClaw.Reasoning.Termination

/-!
# Parallel expansion against sequential expansion

The children of a node are attached as their evaluations end.  `transparent_iff` says when a search
that expands batches of candidates at once is the search that expands one after the other: in every
batch, the evaluations that give a score end in the order of the candidates.
-/

namespace SkyClaw.Reasoning

open WhileLoop (Returns Passes)

variable {σ S ε R η : Type}

/-- `enable_parallel_expansion=True`. -/
def ToTConfig.parallel (cfg : ToTConfig R) : ToTConfig R :=
  { cfg with enableParallelExpansion := true }

/-- `enable_parallel_expansion=False`. -/
def ToTConfig.sequential (cfg : ToTConfig R) : ToTConfig R :=
  { cfg with enableParallelExpansion := false }

/-- The evaluator gives a score. -/
def succeeds (p : Problem σ S ε R η) (node : ThoughtNode σ R) (candidate : Candidate σ) : Bool :=
  (p.evaluate candidate.1.1 candidate.1.2 (contextOf node)).isOk

/-- In every batch of a node, the evaluations that give a score end in the order of the
candidates. -/
def InOrder (p : Problem σ S ε R η) (cfg : ToTConfig R) (schedule : Schedule σ R)
    (node : ThoughtNode σ R) : Prop :=
  ∀ candidates, p.generate node.state cfg.maxThoughtsPerStep (contextOf node) = .ok candidates →
    1 < candidates.length → ∀ batch ∈ batchesOf cfg candidates.zipIdx,
      (schedule.order node batch).filter (succeeds p node) = batch.filter (succeeds p node)

/-! ## What is attached -/

section Attached

variable [LinearOrder R] (p : Problem σ S ε R η) (cfg : ToTConfig R)

def candidateOf (child : ThoughtNode σ R) : Option (Candidate σ) :=
  match child.path, child.thoughts.getLast? with
  | i :: _, some thought => some ((child.state, thought), i)
  | _, _ => none

omit [LinearOrder R] in
theorem candidateOf_childNode (parent : ThoughtNode σ R) (candidate : Candidate σ) (score : R) :
    candidateOf (childNode parent candidate score) = some candidate := by
  unfold candidateOf childNode
  simp

theorem attached_eq (node : ThoughtNode σ R) (candidate : Candidate σ) :
    ((createChildNode p cfg node candidate).attached.map Prod.fst).bind candidateOf =
      if succeeds p node candidate then some candidate else none := by
  unfold createChildNode succeeds
  cases p.evaluate candidate.1.1 candidate.1.2 (contextOf node) with
  | error e => rfl
  | ok result =>
      obtain ⟨score, evaluation⟩ := result
      have hchild := candidateOf_childNode node candidate score
      simp only [Except.isOk, Except.toBool, if_true]
      split
      · cases p.solutionOf candidate.1.1 with
        | error e => exact hchild
        | ok solution => cases solution <;> exact hchild
      · exact hchild

theorem filterMap_candidateOf (node : ThoughtNode σ R) (done : List (Candidate σ)) :
    (attachedChildren p cfg node done).filterMap candidateOf = done.filter (succeeds p node) := by
  unfold attachedChildren
  rw [List.filterMap_filterMap, ← List.filterMap_eq_filter]
  apply List.filterMap_congr
  intro candidate _
  rw [attached_eq]
  rfl

variable [DecidableEq σ]

theorem attachAll_filter (node : ThoughtNode σ R) (search : Search σ S R η)
    (done : List (Candidate σ)) :
    attachAll p cfg node search done =
      attachAll p cfg node search (done.filter (succeeds p node)) := by
  unfold attachAll
  induction done generalizing search with
  | nil => rfl
  | cons candidate done ih =>
      rw [List.foldl_cons, ih]
      by_cases hsucceeds : succeeds p node candidate = true
      · rw [List.filter_cons_of_pos hsucceeds, List.foldl_cons]
      · have hfailed : (createChildNode p cfg node candidate).attached = none := by
          unfold succeeds at hsucceeds
          unfold createChildNode
          cases heval : p.evaluate candidate.1.1 candidate.1.2 (contextOf node) with
          | error e => rfl
          | ok result => simp [heval, Except.isOk, Except.toBool] at hsucceeds
        have hsame : search.attach node (createChildNode p cfg node candidate) = search := by
          unfold Search.attach
          rw [hfailed]
        rw [List.filter_cons_of_neg hsucceeds, hsame]

end Attached

theorem flatMap_inj {α β : Type} {f g : α → List β} {l : List α}
    (hlength : ∀ a ∈ l, (f a).length = (g a).length) :
    l.flatMap f = l.flatMap g ↔ ∀ a ∈ l, f a = g a := by
  induction l with
  | nil => simp
  | cons a l ih =>
      rw [List.forall_mem_cons] at hlength ⊢
      rw [List.flatMap_cons, List.flatMap_cons, ← ih hlength.2]
      constructor
      · intro h
        exact List.append_inj h hlength.1
      · rintro ⟨hfirst, hrest⟩
        rw [hfirst, hrest]

section Order

variable (p : Problem σ S ε R η) (cfg : ToTConfig R) (schedule : Schedule σ R)

theorem completed_sequential (node : ThoughtNode σ R) (candidates : List (Candidate σ)) :
    completed cfg.sequential schedule node candidates = candidates :=
  if_neg fun h => Bool.false_ne_true h.1

/-- **The batches of a node are in order** exactly if what succeeds is done in the order of the
candidates. -/
theorem inOrder_iff {node : ThoughtNode σ R} {candidates : List (σ × String)}
    (h : p.generate node.state cfg.maxThoughtsPerStep (contextOf node) = .ok candidates) :
    InOrder p cfg schedule node ↔
      (completed cfg.parallel schedule node candidates.zipIdx).filter (succeeds p node) =
        candidates.zipIdx.filter (succeeds p node) := by
  have hiff : InOrder p cfg schedule node ↔ (1 < candidates.length →
      ∀ batch ∈ batchesOf cfg candidates.zipIdx,
        (schedule.order node batch).filter (succeeds p node) =
          batch.filter (succeeds p node)) := by
    constructor
    · exact fun hin => hin candidates h
    · intro hin other hother
      rw [h] at hother
      cases hother
      exact hin
  rw [hiff]
  unfold completed
  rw [List.length_zipIdx]
  by_cases hlength : 1 < candidates.length
  · have hzip : 1 < candidates.zipIdx.length := by rwa [List.length_zipIdx]
    have hflatten : (batchesOf cfg candidates.zipIdx).flatMap (·.filter (succeeds p node)) =
        candidates.zipIdx.filter (succeeds p node) := by
      rw [List.flatMap_def, ← List.filter_flatten, batchesOf_flatten cfg hzip]
    rw [if_pos ⟨rfl, hlength⟩, forall_prop_of_true hlength, List.filter_flatMap, ← hflatten]
    refine (flatMap_inj fun batch _ => ?_).symm
    exact ((schedule.perm node batch).filter _).length_eq
  · rw [if_neg fun h => hlength h.2]
    exact iff_of_true (fun h => absurd h hlength) rfl

end Order

section Expansion

variable [LinearOrder R] [DecidableEq σ] (p : Problem σ S ε R η) (cfg : ToTConfig R)
  (schedule : Schedule σ R)

/-- **In order, the expansions are the same.** -/
theorem expandNode_parallel {node : ThoughtNode σ R} (h : InOrder p cfg schedule node)
    (search : Search σ S R η) :
    expandNode p cfg.parallel schedule node search =
      expandNode p cfg.sequential schedule node search := by
  cases hgenerate : p.generate node.state cfg.maxThoughtsPerStep (contextOf node) with
  | error failure =>
      unfold expandNode ToTConfig.parallel ToTConfig.sequential
      cases failure with
      | none | some => simp [hgenerate]
  | ok candidates =>
      rw [expandNode_eq p cfg.parallel schedule node search hgenerate,
        expandNode_eq p cfg.sequential schedule node search hgenerate, completed_sequential]
      have hattach : attachAll p cfg node search
            (completed cfg.parallel schedule node candidates.zipIdx) =
          attachAll p cfg node search candidates.zipIdx := by
        rw [attachAll_filter, (inOrder_iff p cfg schedule hgenerate).mp h, ← attachAll_filter]
      exact congrArg (fun attached => (attached, _)) hattach

omit [DecidableEq σ] in
/-- **Out of order, the children differ.** -/
theorem inOrder_of_attachedChildren {node : ThoughtNode σ R} {candidates : List (σ × String)}
    (hgenerate : p.generate node.state cfg.maxThoughtsPerStep (contextOf node) = .ok candidates)
    (h : attachedChildren p cfg node (completed cfg.parallel schedule node candidates.zipIdx) =
      attachedChildren p cfg node candidates.zipIdx) : InOrder p cfg schedule node := by
  rw [inOrder_iff p cfg schedule hgenerate, ← filterMap_candidateOf p cfg,
    ← filterMap_candidateOf p cfg, h]

theorem children_prefix_expandNode (node other : ThoughtNode σ R) (search : Search σ S R η) :
    search.children other <+: (expandNode p cfg schedule node search).1.children other := by
  cases hgenerate : p.generate node.state cfg.maxThoughtsPerStep (contextOf node) with
  | error failure =>
      unfold expandNode
      cases failure with
      | none | some => simp [hgenerate]
  | ok candidates =>
      rw [expandNode_eq p cfg schedule node search hgenerate]
      simp only [attachAll_children]
      by_cases hother : other = node
      · rw [if_pos hother, hother]
        exact List.prefix_append _ _
      · rw [if_neg hother]

end Expansion

/-! ## Strategies leave the tree to the expansions -/

/-- The search after a turn. -/
def Turn.search {F : Type} : Turn σ S ε R η F → Search σ S R η
  | .inl s => s.1
  | .inr outcome => outcome.1

/-- An action changes no children, its expansion apart. -/
def Action.KeepsTree {F : Type} (search : Search σ S R η) : Action σ S ε R η F → Prop
  | .move turn => turn.search.children = search.children
  | .expand search' _ resume => search'.children = search.children ∧
      ∀ expanded children, (resume expanded children).search.children = expanded.children

/-- A strategy leaves the tree to the expansions. -/
def Strategy.KeepsTree (strategy : Strategy σ S ε R η) : Prop :=
  ∀ search frontier, (strategy.inspect search frontier).KeepsTree search

section KeepsTree

variable [LinearOrder R] [DecidableEq σ] [DecidableEq η] (p : Problem σ S ε R η)
  (cfg : ToTConfig R)

omit [DecidableEq η] in
theorem keep_children {F : Type} (search : Search σ S R η) (nodes : List (ThoughtNode σ R))
    (frontier : Search σ S R η → List (ThoughtNode σ R) → F) :
    (keep (applyPruning (ε := ε) cfg search nodes) frontier).search.children = search.children := by
  rcases applyPruning_cases (ε := ε) cfg search nodes with herror | ⟨pruned, kept, heq, hpruned⟩
  · rw [herror]
    rfl
  · rw [heq]
    exact hpruned.children

omit [LinearOrder R] [DecidableEq σ] [DecidableEq η] in
theorem atNode_keepsTree {F : Type} {search search' : Search σ S R η} (node : ThoughtNode σ R)
    {rest : Search σ S R η → Action σ S ε R η F} (hsame : search'.children = search.children)
    (hrest : (rest search').KeepsTree search) :
    (atNode p search' node rest).KeepsTree search := by
  rcases atNode_cases p search' node rest with ⟨e, _, heq⟩ | ⟨solution, _, heq⟩ | ⟨_, heq⟩
  · rw [heq]
    exact hsame
  · rw [heq]
    exact hsame
  · rw [heq]
    exact hrest

theorem bfs_keepsTree : (bfsSearchStrategy p cfg).KeepsTree := by
  intro search queue
  cases queue with
  | nil => rfl
  | cons current queue =>
      apply atNode_keepsTree p current rfl
      split
      · rfl
      · split
        · rfl
        · exact ⟨rfl, fun expanded children => keep_children cfg expanded children _⟩

theorem dfs_keepsTree : (dfsSearchStrategy p cfg).KeepsTree := by
  intro search stack
  cases stack with
  | nil => rfl
  | cons entry stack =>
      obtain ⟨current, idx⟩ := entry
      apply atNode_keepsTree p current rfl
      have hmarked : (if idx = 0 then markVisited p search current else search).children =
          search.children := by
        split <;> rfl
      split
      · rfl
      · generalize (if idx = 0 then markVisited p search current else search) = marked at hmarked
        dsimp only
        split
        · exact hmarked
        · split
          · exact ⟨hmarked, fun expanded children => keep_children cfg expanded children _⟩
          · exact hmarked

theorem bestFirst_keepsTree : (bestFirstSearchStrategy p cfg).KeepsTree := by
  rintro search ⟨queue, visitedIds⟩
  simp only [bestFirstSearchStrategy, bestFirstInspect]
  cases queue with
  | nil => rfl
  | cons current queue =>
      dsimp only
      split
      · rfl
      · split
        · rfl
        · apply atNode_keepsTree p current rfl
          split
          · rfl
          · exact ⟨rfl, fun expanded children => keep_children cfg expanded children _⟩

theorem beam_keepsTree : (beamSearchStrategy p cfg).KeepsTree := by
  intro search frontier
  match frontier with
  | .level 0 _ => rfl
  | .level (_ + 1) [] => rfl
  | .level (_ + 1) (_ :: _) => rfl
  | .nodes left [] nextLevel => exact keep_children cfg search nextLevel _
  | .nodes left (node :: todo) nextLevel =>
      simp only [beamSearchStrategy, beamInspect]
      split
      · rfl
      · exact atNode_keepsTree p node rfl ⟨rfl, fun _ _ => rfl⟩

theorem createSearchStrategy_keepsTree (strategyType : SearchStrategyType) :
    (createSearchStrategy p cfg strategyType).KeepsTree := by
  cases strategyType with
  | bfs => exact bfs_keepsTree p cfg
  | dfs => exact dfs_keepsTree p cfg
  | bestFirst => exact bestFirst_keepsTree p cfg
  | beam => exact beam_keepsTree p cfg

end KeepsTree

/-! ## Runs -/

section Runs

variable [LinearOrder R] [DecidableEq σ] {p : Problem σ S ε R η}
  {cfg : ToTConfig R} {schedule : Schedule σ R} {strategy : Strategy σ S ε R η}

/-- What a turn does to the children of a node: they grow. -/
theorem children_prefix_turn (hkeeps : strategy.KeepsTree)
    (s : Search σ S R η × strategy.Frontier) (other : ThoughtNode σ R) :
    s.1.children other <+:
      (strategy.turn (expandNode p cfg schedule) s).search.children other := by
  have haction := hkeeps s.1 s.2
  unfold Strategy.turn
  cases hinspect : strategy.inspect s.1 s.2 with
  | move turn =>
      rw [hinspect] at haction
      rw [← congrFun haction other]
      exact List.prefix_refl _
  | expand search' node resume =>
      rw [hinspect] at haction
      obtain ⟨hsame, hresume⟩ := haction
      have hgrows := children_prefix_expandNode p cfg schedule node other search'
      rw [hsame] at hgrows
      cases hexpand : expandNode p cfg schedule node search' with
      | mk expanded result =>
          rw [hexpand] at hgrows
          cases result with
          | error failure =>
              simp only [Action.perform, hexpand]
              exact hgrows
          | ok children =>
              simp only [Action.perform, hexpand, hresume]
              exact hgrows

variable {s : Search σ S R η × strategy.Frontier}

theorem children_prefix_returns (hkeeps : strategy.KeepsTree) {outcome : Result σ S ε R η (Option S)}
    (h : Returns (strategy.turn (expandNode p cfg schedule)) s outcome) (other : ThoughtNode σ R) :
    s.1.children other <+: outcome.1.children other := by
  induction h with
  | @stop s outcome hturn =>
      have hgrows : s.1.children other <+:
          (strategy.turn (expandNode p cfg schedule) s).search.children other :=
        children_prefix_turn hkeeps s other
      rwa [hturn] at hgrows
  | @next s t outcome hturn _ ih =>
      have hgrows : s.1.children other <+:
          (strategy.turn (expandNode p cfg schedule) s).search.children other :=
        children_prefix_turn hkeeps s other
      rw [hturn] at hgrows
      exact hgrows.trans ih

/-- A turn asks for the expansion of a node. -/
def Strategy.Expands (strategy : Strategy σ S ε R η) (s : Search σ S R η × strategy.Frontier)
    (node : ThoughtNode σ R) : Prop :=
  ∃ search resume, strategy.inspect s.1 s.2 = .expand search node resume

/-- **In order, a turn is the same.** -/
theorem turn_parallel
    (h : ∀ node, strategy.Expands s node → InOrder p cfg schedule node) :
    strategy.turn (expandNode p cfg.parallel schedule) s =
      strategy.turn (expandNode p cfg.sequential schedule) s := by
  unfold Strategy.turn
  cases hinspect : strategy.inspect s.1 s.2 with
  | move turn => rfl
  | expand search node resume =>
      have hsame := expandNode_parallel p cfg schedule (h node ⟨search, resume, hinspect⟩) search
      simp only [Action.perform, hsame]

variable {node : ThoughtNode σ R}

/-- What a turn attaches is where it was attached when the search ends. -/
theorem attached_prefix_returns (hkeeps : strategy.KeepsTree) {outcome : Result σ S ε R η (Option S)}
    (h : Returns (strategy.turn (expandNode p cfg schedule)) s outcome)
    (hexpands : strategy.Expands s node) {candidates : List (σ × String)}
    (hgenerate : p.generate node.state cfg.maxThoughtsPerStep (contextOf node) = .ok candidates) :
    s.1.children node ++
        attachedChildren p cfg node (completed cfg schedule node candidates.zipIdx) <+:
      outcome.1.children node := by
  obtain ⟨search, resume, hinspect⟩ := hexpands
  have haction := hkeeps s.1 s.2
  rw [hinspect] at haction
  have hattached : (expandNode p cfg schedule node search).1.children node =
      s.1.children node ++
        attachedChildren p cfg node (completed cfg schedule node candidates.zipIdx) := by
    rw [expandNode_eq p cfg schedule node search hgenerate]
    simp only [attachAll_children, if_true, haction.1]
  have hturn : (strategy.turn (expandNode p cfg schedule) s).search.children node =
      (expandNode p cfg schedule node search).1.children node := by
    unfold Strategy.turn
    rw [hinspect]
    cases hexpand : expandNode p cfg schedule node search with
    | mk expanded result =>
        cases result with
        | error failure =>
            simp only [Action.perform, hexpand]
            rfl
        | ok children => simp only [Action.perform, hexpand, haction.2]
  rw [← hattached, ← hturn]
  cases h with
  | stop hstop =>
      rw [hstop]
      exact List.prefix_refl _
  | next hnext hrest =>
      rw [hnext]
      exact children_prefix_returns hkeeps hrest node

/-- **The same tree was attached in the same order.** -/
theorem inOrder_of_same (hkeeps : strategy.KeepsTree)
    {outcome outcome' : Result σ S ε R η (Option S)}
    (hparallel : Returns (strategy.turn (expandNode p cfg.parallel schedule)) s outcome)
    (hsequential : Returns (strategy.turn (expandNode p cfg.sequential schedule)) s outcome')
    (hsame : outcome.1.children = outcome'.1.children)
    (hexpands : strategy.Expands s node) : InOrder p cfg schedule node := by
  cases hgenerate : p.generate node.state cfg.maxThoughtsPerStep (contextOf node) with
  | error failure =>
      intro candidates hok
      rw [hgenerate] at hok
      cases hok
  | ok candidates =>
      have hfirst := attached_prefix_returns hkeeps hparallel hexpands hgenerate
      have hsecond := attached_prefix_returns hkeeps hsequential hexpands hgenerate
      rw [hsame] at hfirst
      rw [completed_sequential] at hsecond
      have hperm : (attachedChildren p cfg node
            (completed cfg.parallel schedule node candidates.zipIdx)).Perm
          (attachedChildren p cfg node candidates.zipIdx) :=
        (completed_perm cfg.parallel schedule node candidates.zipIdx).filterMap _
      have heq := List.prefix_of_prefix_length_le hfirst hsecond (by
        rw [List.length_append, List.length_append]
        exact Nat.add_le_add_left hperm.length_eq.le _)
      have hlist := heq.eq_of_length (by
        rw [List.length_append, List.length_append]
        exact congrArg _ hperm.length_eq)
      exact inOrder_of_attachedChildren p cfg schedule hgenerate (List.append_cancel_left hlist)

theorem inOrder_of_passes (hkeeps : strategy.KeepsTree) {t : Search σ S R η × strategy.Frontier}
    {outcome outcome' : Result σ S ε R η (Option S)}
    (hparallel : Returns (strategy.turn (expandNode p cfg.parallel schedule)) s outcome)
    (hsequential : Returns (strategy.turn (expandNode p cfg.sequential schedule)) s outcome')
    (hsame : outcome.1.children = outcome'.1.children)
    (hpasses : Passes (strategy.turn (expandNode p cfg.sequential schedule)) s t) (hexpands : strategy.Expands t node) :
    InOrder p cfg schedule node := by
  induction hpasses using Relation.ReflTransGen.head_induction_on with
  | refl => exact inOrder_of_same hkeeps hparallel hsequential hsame hexpands
  | @head s u hturn _ ih =>
      -- the first turn is the same in both searches
      have hfirst : strategy.turn (expandNode p cfg.parallel schedule) s = .inl u := by
        rw [← hturn]
        exact turn_parallel fun node hnode =>
          inOrder_of_same hkeeps hparallel hsequential hsame hnode
      exact ih ((WhileLoop.returns_inl_iff hfirst).mp hparallel)
        ((WhileLoop.returns_inl_iff hturn).mp hsequential)

end Runs

/-! ## The searches -/

section Searches

variable [LinearOrder R] [DecidableEq σ] [DecidableEq η] (p : Problem σ S ε R η)
  (cfg : ToTConfig R) (schedule : Schedule σ R) (strategyType : SearchStrategyType)
  (root : ThoughtNode σ R)

/-- **Parallel expansion is transparent**: both searches end, with the same result and the same
tree. -/
def Transparent : Prop :=
  ∃ outcome outcome', Searches p cfg.parallel schedule strategyType root outcome ∧
    Searches p cfg.sequential schedule strategyType root outcome' ∧ outcome.2 = outcome'.2 ∧
    outcome.1.children = outcome'.1.children ∧ outcome.1.evaluation = outcome'.1.evaluation

/-- The search that expands one candidate after the other asks for the expansion of a node. -/
def ExpandsInSearch (node : ThoughtNode σ R) : Prop :=
  ∃ s, Passes (searchTurn p cfg.sequential schedule strategyType)
      (Search.reset, (createSearchStrategy p cfg.sequential strategyType).start root) s ∧
    (createSearchStrategy p cfg.sequential strategyType).Expands s node

theorem createSearchStrategy_parallel :
    createSearchStrategy p cfg.parallel strategyType =
      createSearchStrategy p cfg.sequential strategyType := by
  cases strategyType <;> rfl

/-- **When parallel expansion is transparent**: every node that the search expands has its batches
in order. -/
theorem transparent_iff :
    Transparent p cfg schedule strategyType root ↔
      ∀ node, ExpandsInSearch p cfg schedule strategyType root node →
        InOrder p cfg schedule node := by
  have hkeeps := createSearchStrategy_keepsTree p cfg.sequential strategyType
  unfold Transparent Searches searchTurn
  rw [createSearchStrategy_parallel]
  constructor
  · rintro ⟨outcome, outcome', hparallel, hsequential, _, hsame, _⟩ node ⟨s, hpasses, hexpands⟩
    exact inOrder_of_passes hkeeps hparallel hsequential hsame hpasses hexpands
  · intro hinOrder
    obtain ⟨outcome, hsequential⟩ : ∃ outcome,
        Searches p cfg.sequential schedule strategyType root outcome :=
      exists_searches p schedule strategyType root
    refine ⟨outcome, outcome, ?_, hsequential, rfl, rfl, rfl⟩
    refine hsequential.congr fun s hpasses => ?_
    exact turn_parallel fun node hexpands => hinOrder node ⟨s, hpasses, hexpands⟩

end Searches

/-- The second candidate is evaluated first, and depth-first search takes it. -/
theorem transparent_counterexample :
    ¬Transparent (graphProblem fork (fun _ => 1) 1) (graphConfig 1 true) Schedule.reversed .dfs
      (rootNode 0 "start") := by
  rintro ⟨outcome, outcome', hparallel, hsequential, hresult, _⟩
  obtain ⟨other, hother, htwo⟩ : ∃ other, Searches (graphProblem fork (fun _ => 1) 1)
      (graphConfig 1 true).parallel Schedule.reversed .dfs (rootNode 0 "start") other ∧
        other.2 = .ok (some 2) := searches_of_run _ _ _ .dfs _ 10 rfl
  obtain ⟨other', hother', hone⟩ : ∃ other, Searches (graphProblem fork (fun _ => 1) 1)
      (graphConfig 1 true).sequential Schedule.reversed .dfs (rootNode 0 "start") other ∧
        other.2 = .ok (some 1) := searches_of_run _ _ _ .dfs _ 10 rfl
  rw [hparallel.unique hother, hsequential.unique hother', htwo, hone] at hresult
  exact absurd hresult (by decide)

end SkyClaw.Reasoning
