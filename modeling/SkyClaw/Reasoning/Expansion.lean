import Mathlib.Data.List.Perm.Basic
import SkyClaw.Reasoning.Strategies

/-!
# What an expansion and the pruning do

`expandNode_eq` brings the two ways to expand a node to one form: the candidates are attached in
the order in which they are done, and the children come back in the order of the candidates.
-/

namespace SkyClaw.Reasoning

variable {σ S ε R η : Type}

theorem isVisited_iff [DecidableEq η] {p : Problem σ S ε R η} {search : Search σ S R η}
    {node : ThoughtNode σ R} :
    isVisited p search node = true ↔ p.stateHash node.state ∈ search.visited :=
  decide_eq_true_iff

/-! ## Batches -/

theorem flatten_slices {α : Type} (n : Nat) (l : List α) (m : Nat) :
    ((List.range m).map fun i => (l.drop (i * n)).take n).flatten = l.take (m * n) := by
  induction m with
  | zero => simp
  | succ m ih =>
      rw [List.range_succ, List.map_append, List.flatten_append, ih, Nat.succ_mul, List.take_add]
      simp

theorem batches_flatten {α : Type} {n : Nat} (hn : 0 < n) (l : List α) :
    (batches n l).flatten = l := by
  unfold batches
  rw [flatten_slices]
  apply List.take_of_length_le
  have hdiv : n * ((l.length + n - 1) / n) + (l.length + n - 1) % n = l.length + n - 1 :=
    Nat.div_add_mod _ _
  have hmod : (l.length + n - 1) % n < n := Nat.mod_lt _ hn
  rw [Nat.mul_comm]
  omega

/-! ## One order of completion -/

section Completion

variable (cfg : ToTConfig R)

theorem batchesOf_flatten {candidates : List (Candidate σ)} (h : 1 < candidates.length) :
    (batchesOf cfg candidates).flatten = candidates := by
  have hpos : 0 < cfg.maxParallelExpansions := cfg.parallel_pos
  exact batches_flatten (by omega) candidates

/-- The order in which the candidates of a node are done. -/
def completed (schedule : Schedule σ R) (node : ThoughtNode σ R)
    (candidates : List (Candidate σ)) : List (Candidate σ) :=
  if cfg.enableParallelExpansion = true ∧ 1 < candidates.length then
    (batchesOf cfg candidates).flatMap (schedule.order node)
  else candidates

theorem completed_perm (schedule : Schedule σ R) (node : ThoughtNode σ R)
    (candidates : List (Candidate σ)) :
    (completed cfg schedule node candidates).Perm candidates := by
  unfold completed
  split
  · next hparallel =>
      have hbatches : ((batchesOf cfg candidates).flatMap (schedule.order node)).Perm
          ((batchesOf cfg candidates).flatMap id) :=
        List.Perm.flatMap_left _ fun batch _ => schedule.perm node batch
      rwa [List.flatMap_id, batchesOf_flatten cfg hparallel.2] at hbatches
  · exact List.Perm.refl _

end Completion

section Expansion

variable [LinearOrder R] [DecidableEq σ] (p : Problem σ S ε R η) (cfg : ToTConfig R)

/-- The children that are attached for some candidates. -/
def attachedChildren (node : ThoughtNode σ R) (done : List (Candidate σ)) :
    List (ThoughtNode σ R) :=
  done.filterMap fun candidate => (createChildNode p cfg node candidate).attached.map Prod.fst

/-- **An expansion**, for the candidates of a node. -/
theorem expandNode_eq (schedule : Schedule σ R) (node : ThoughtNode σ R) (search : Search σ S R η)
    {candidates : List (σ × String)}
    (h : p.generate node.state cfg.maxThoughtsPerStep (contextOf node) = .ok candidates) :
    expandNode p cfg schedule node search =
      (attachAll p cfg node search (completed cfg schedule node candidates.zipIdx),
        .ok (returnedChildren p cfg node candidates.zipIdx)) := by
  unfold expandNode
  simp only [h]
  unfold completed
  rw [List.length_zipIdx]
  split
  · next hparallel =>
      have hlength : 1 < candidates.zipIdx.length := by
        rw [List.length_zipIdx]
        exact hparallel.2
      have hreturned : (batchesOf cfg candidates.zipIdx).flatMap (returnedChildren p cfg node) =
          returnedChildren p cfg node candidates.zipIdx := by
        unfold returnedChildren
        rw [List.flatMap_def, ← List.filterMap_flatten, batchesOf_flatten cfg hlength]
      rw [expandCandidatesParallel, hreturned]
  · rfl

/-! ## The tree after an expansion -/

theorem attach_children (parent : ThoughtNode σ R) (search : Search σ S R η)
    (attempt : Attempt σ S R) (node : ThoughtNode σ R) :
    (search.attach parent attempt).children node =
      if node = parent then search.children parent ++ (attempt.attached.map Prod.fst).toList
      else search.children node := by
  unfold Search.attach
  cases hattached : attempt.attached with
  | none | some =>
      by_cases hnode : node = parent
      · simp [hnode]
      · simp [hnode]

/-- **The children of a node** grow by those that are attached. -/
theorem attachAll_children (parent : ThoughtNode σ R) (search : Search σ S R η)
    (done : List (Candidate σ)) (node : ThoughtNode σ R) :
    (attachAll p cfg parent search done).children node =
      if node = parent then search.children parent ++ attachedChildren p cfg parent done
      else search.children node := by
  unfold attachAll attachedChildren
  induction done generalizing search with
  | nil =>
      by_cases hnode : node = parent
      · simp [hnode]
      · simp [hnode]
  | cons candidate done ih =>
      rw [List.foldl_cons, ih]
      by_cases hnode : node = parent
      · rw [if_pos hnode, if_pos hnode, attach_children, if_pos rfl, List.append_assoc]
        congr 1
        rw [List.filterMap_cons]
        cases (createChildNode p cfg parent candidate).attached with
        | none | some => rfl
      · rw [if_neg hnode, if_neg hnode, attach_children, if_neg hnode]

@[simp] theorem attach_visited (parent : ThoughtNode σ R) (search : Search σ S R η)
    (attempt : Attempt σ S R) : (search.attach parent attempt).visited = search.visited := by
  unfold Search.attach
  cases attempt.attached with
  | none | some => rfl

@[simp] theorem attachAll_visited (parent : ThoughtNode σ R) (search : Search σ S R η)
    (done : List (Candidate σ)) :
    (attachAll p cfg parent search done).visited = search.visited := by
  unfold attachAll
  induction done generalizing search with
  | nil => rfl
  | cons candidate done ih => rw [List.foldl_cons, ih, attach_visited]

omit [DecidableEq σ] in
theorem createChildNode_returned {parent child : ThoughtNode σ R} {candidate : Candidate σ}
    (h : (createChildNode p cfg parent candidate).returned = some child) :
    (createChildNode p cfg parent candidate).attached.map Prod.fst = some child := by
  unfold createChildNode at h ⊢
  grind

omit [DecidableEq σ] in
theorem createChildNode_attached {parent child : ThoughtNode σ R} {candidate : Candidate σ}
    (h : (createChildNode p cfg parent candidate).attached.map Prod.fst = some child) :
    ∃ score evaluation, p.evaluate candidate.1.1 candidate.1.2 (contextOf parent) =
      .ok (score, evaluation) ∧ child = childNode parent candidate score := by
  unfold createChildNode at h
  grind

omit [DecidableEq σ] in
theorem depth_of_attached {parent child : ThoughtNode σ R} {done : List (Candidate σ)}
    (h : child ∈ attachedChildren p cfg parent done) : child.depth = parent.depth + 1 := by
  obtain ⟨candidate, _, hattached⟩ := List.mem_filterMap.mp h
  obtain ⟨score, _, _, rfl⟩ := createChildNode_attached p cfg hattached
  rfl

omit [DecidableEq σ] in
theorem returnedChildren_subset (parent : ThoughtNode σ R) (candidates : List (Candidate σ)) :
    returnedChildren p cfg parent candidates ⊆ attachedChildren p cfg parent candidates := by
  intro child hchild
  obtain ⟨candidate, hmem, hreturned⟩ := List.mem_filterMap.mp hchild
  exact List.mem_filterMap.mpr ⟨candidate, hmem, createChildNode_returned p cfg hreturned⟩

/-- A node has been expanded: its children are one level below it, and no other node has got
any. -/
structure Grown (node : ThoughtNode σ R) (search search' : Search σ S R η)
    (children : List (ThoughtNode σ R)) : Prop where
  depth : ∀ child ∈ children, child.depth = node.depth + 1
  attached : ∃ attached, (∀ child ∈ attached, child.depth = node.depth + 1) ∧
    ∀ other, search'.children other =
      if other = node then search.children node ++ attached else search.children other

/-- **What an expansion that does not fail leaves.** -/
theorem expandNode_grown {schedule : Schedule σ R} {node : ThoughtNode σ R}
    {search search' : Search σ S R η} {children : List (ThoughtNode σ R)}
    (h : expandNode p cfg schedule node search = (search', .ok children)) :
    Grown node search search' children := by
  cases hgenerate : p.generate node.state cfg.maxThoughtsPerStep (contextOf node) with
  | ok candidates =>
      rw [expandNode_eq p cfg schedule node search hgenerate] at h
      obtain ⟨rfl, hchildren⟩ := Prod.mk.inj h
      cases hchildren
      refine ⟨?_, _, ?_, attachAll_children p cfg node search _⟩
      · intro child hchild
        exact depth_of_attached p cfg (returnedChildren_subset p cfg node _ hchild)
      · intro child hchild
        exact depth_of_attached p cfg hchild
  | error failure =>
      unfold expandNode at h
      cases failure with
      | some e => simp [hgenerate] at h
      | none =>
          simp only [hgenerate, Prod.mk.injEq, Except.ok.injEq] at h
          obtain ⟨rfl, rfl⟩ := h
          refine ⟨by simp, [], by simp, ?_⟩
          intro other
          by_cases hother : other = node
          · simp [hother]
          · simp [hother]

/-! ## What the pruning leaves alone -/

omit [DecidableEq σ] in
theorem byScore_perm (nodes : List (ThoughtNode σ R)) : (byScore nodes).Perm nodes :=
  List.perm_insertionSort _ nodes

/-- Some nodes are evaluated anew, and some are kept. -/
structure Pruned (search search' : Search σ S R η) (nodes kept : List (ThoughtNode σ R)) :
    Prop where
  children : search'.children = search.children
  visited : search'.visited = search.visited
  kept : kept ⊆ nodes

omit [LinearOrder R] [DecidableEq σ] in
theorem Pruned.mono {search search' : Search σ S R η} {alive nodes kept : List (ThoughtNode σ R)}
    (h : Pruned search search' alive kept) (hsub : alive ⊆ nodes) :
    Pruned search search' nodes kept :=
  ⟨h.children, h.visited, List.Subset.trans h.kept hsub⟩

theorem applyThreshold_pruned (threshold : R) (search : Search σ S R η)
    (nodes : List (ThoughtNode σ R)) :
    Pruned search (applyThreshold threshold search nodes).1 nodes
      (applyThreshold threshold search nodes).2 :=
  ⟨rfl, rfl, List.filter_subset_self _⟩

theorem applyTopK_pruned (search : Search σ S R η) (nodes : List (ThoughtNode σ R)) :
    Pruned search (applyTopK cfg search nodes).1 nodes (applyTopK cfg search nodes).2 := by
  unfold applyTopK
  split
  · exact ⟨rfl, rfl, List.Subset.refl nodes⟩
  · refine ⟨rfl, rfl, ?_⟩
    exact List.Subset.trans (List.take_subset _ _) (byScore_perm nodes).subset

theorem applyPercentile_cases (search : Search σ S R η) (nodes : List (ThoughtNode σ R)) :
    applyPercentile (ε := ε) cfg search nodes = (search, .error .indexError) ∨
      ∃ search' kept, applyPercentile (ε := ε) cfg search nodes = (search', .ok kept) ∧
        Pruned search search' nodes kept := by
  unfold applyPercentile
  split
  · exact .inr ⟨search, nodes, rfl, rfl, rfl, List.Subset.refl nodes⟩
  · split
    · exact .inl rfl
    · next threshold _ => exact .inr ⟨_, _, rfl, applyThreshold_pruned threshold search nodes⟩

/-- **The pruning** keeps some of the nodes, or raises. -/
theorem applyPruning_cases (search : Search σ S R η) (nodes : List (ThoughtNode σ R)) :
    applyPruning (ε := ε) cfg search nodes = (search, .error .indexError) ∨
      ∃ search' kept, applyPruning (ε := ε) cfg search nodes = (search', .ok kept) ∧
        Pruned search search' nodes kept := by
  have halive : nodes.filter (fun node => search.evaluation node ≠ .deadEnd) ⊆ nodes :=
    List.filter_subset_self _
  unfold applyPruning
  split
  · exact .inr ⟨search, nodes, rfl, rfl, rfl, List.Subset.refl nodes⟩
  · split
    · exact .inr ⟨_, _, rfl, (applyThreshold_pruned cfg.pruningThreshold search _).mono halive⟩
    · exact .inr ⟨_, _, rfl, (applyTopK_pruned cfg search _).mono halive⟩
    · rcases applyPercentile_cases cfg search
        (nodes.filter fun node => search.evaluation node ≠ .deadEnd) with
        herror | ⟨search', kept, heq, hpruned⟩
      · exact .inl herror
      · exact .inr ⟨search', kept, heq, hpruned.mono halive⟩

variable {cfg} in
theorem applyPruning_ok {search search' : Search σ S R η} {nodes kept : List (ThoughtNode σ R)}
    (h : applyPruning (ε := ε) cfg search nodes = (search', .ok kept)) :
    Pruned search search' nodes kept := by
  rcases applyPruning_cases (ε := ε) cfg search nodes with herror | ⟨_, _, heq, hpruned⟩
  · rw [herror] at h
    cases h
  · rw [heq] at h
    cases h
    exact hpruned

end Expansion

/-! ## Turns that go on -/

section Turns

variable {F : Type} {E : Expansion σ S ε R η} {t : Search σ S R η × F}

theorem perform_expand_inl {search : Search σ S R η} {node : ThoughtNode σ R}
    {resume : Search σ S R η → List (ThoughtNode σ R) → Turn σ S ε R η F}
    (h : (Action.expand search node resume).perform E = .inl t) :
    ∃ search' children, E node search = (search', .ok children) ∧
      resume search' children = .inl t := by
  unfold Action.perform at h
  cases hexpand : E node search with
  | mk search' result =>
      cases result with
      | error failure => simp [hexpand] at h
      | ok children =>
          simp only [hexpand] at h
          exact ⟨search', children, rfl, h⟩

theorem keep_inl {pruned : Result σ S ε R η (List (ThoughtNode σ R))}
    {frontier : Search σ S R η → List (ThoughtNode σ R) → F} (h : keep pruned frontier = .inl t) :
    ∃ search children, pruned = (search, .ok children) ∧
      t = (search, frontier search children) := by
  obtain ⟨search, result⟩ := pruned
  cases result with
  | error failure => simp [keep] at h
  | ok children => exact ⟨search, children, rfl, (Sum.inl.inj h).symm⟩

end Turns

/-- **What a turn at a node comes to.** -/
theorem atNode_cases {F : Type} (p : Problem σ S ε R η) (search : Search σ S R η)
    (node : ThoughtNode σ R) (rest : Search σ S R η → Action σ S ε R η F) :
    (∃ e, p.solutionOf node.state = .error e ∧
        atNode p search node rest = .move (.inr (search, .error (.raised e)))) ∨
      (∃ solution, p.solutionOf node.state = .ok (some solution) ∧
        atNode p search node rest =
          .move (.inr ({ search with solutions := search.solutions ++ [solution] },
            .ok (some solution)))) ∨
      p.solutionOf node.state = .ok none ∧ atNode p search node rest = rest search := by
  unfold atNode checkSolution
  cases p.solutionOf node.state with
  | error e => exact .inl ⟨e, rfl, rfl⟩
  | ok solution =>
      cases solution with
      | some solution => exact .inr (.inl ⟨solution, rfl, rfl⟩)
      | none =>
          refine .inr (.inr ⟨rfl, ?_⟩)
          simp only [Option.toList_none, List.append_nil]

theorem atNode_inl {F : Type} {p : Problem σ S ε R η} {E : Expansion σ S ε R η}
    {search : Search σ S R η} {node : ThoughtNode σ R}
    {rest : Search σ S R η → Action σ S ε R η F} {t : Search σ S R η × F}
    (h : (atNode p search node rest).perform E = .inl t) :
    p.solutionOf node.state = .ok none ∧ (rest search).perform E = .inl t := by
  rcases atNode_cases p search node rest with ⟨e, _, heq⟩ | ⟨solution, _, heq⟩ | ⟨hnone, heq⟩
  · rw [heq] at h
    cases h
  · rw [heq] at h
    cases h
  · rw [heq] at h
    exact ⟨hnone, h⟩

end SkyClaw.Reasoning
