import SkyClaw.Reasoning.Mcts

/-!
# The statistics of the search tree

Visits and scores are those of the simulations in the subtree (`Balanced`): an expansion adds nodes that
no simulation has been at, and a simulation with its backpropagation is recorded at the node and at
those above.  `consistent_iterations` reads this off at a node and its children.
-/

namespace SkyClaw.Reasoning

open SubtreeSums

variable {σ S ε η : Type} {s s' : Mcts σ S η} {root : ThoughtNode σ ℚ} {parent : NodeRef σ}

/-- The nodes of the tree. -/
def Mcts.IsNode (s : Mcts σ S η) : Address → Prop
  | [] => True
  | i :: node => s.IsNode node ∧ i < (s.children node).length

/-- The nodes that a simulation has been started from. -/
def Mcts.simulated (s : Mcts σ S η) : List Address := s.simulations.map Prod.fst

variable {node : Address}

theorem isNode_of_suffix {other : Address} (h : s.IsNode other) (hsuffix : node <:+ other) :
    s.IsNode node := by
  induction other with
  | nil => rwa [List.suffix_nil.mp hsuffix]
  | cons i other ih =>
      rcases List.suffix_cons_iff.mp hsuffix with rfl | hsuffix
      · exact h
      · exact ih h.1 hsuffix

/-- **The statistics count what has been simulated**, each node at most once. -/
structure Balanced (root : ThoughtNode σ ℚ) (s : Mcts σ S η) : Prop where
  visits : ∀ node, s.visits node =
    (if node = [] then 1 else 0) + subtreeSum (s.simulations.map fun entry => (entry.1, 1)) node
  totalScore : ∀ node, s.totalScore node =
    (if node = [] then root.score else 0) + subtreeSum s.simulations node
  once : s.simulated.Nodup
  nodes : ∀ node ∈ s.simulated, node ≠ [] ∧ s.IsNode node

theorem balanced_start (root : ThoughtNode σ ℚ) : Balanced root (Mcts.start root : Mcts σ S η) where
  visits := by
    intro node
    unfold Mcts.visits Mcts.start
    split <;> simp_all
  totalScore := by
    intro node
    unfold Mcts.totalScore Mcts.start
    split <;> simp_all
  once := List.nodup_nil
  nodes := fun _ hnode => absurd hnode List.not_mem_nil

/-! ## What leaves the statistics alone -/

/-- The tree may have grown, and the statistics are as before. -/
structure Grows (s s' : Mcts σ S η) : Prop where
  children : ∀ node, s.children node <+: s'.children node
  metadata : s'.metadata = s.metadata
  simulations : s'.simulations = s.simulations

theorem Grows.refl (s : Mcts σ S η) : Grows s s := ⟨fun _ => List.prefix_rfl, rfl, rfl⟩

theorem Grows.trans {t : Mcts σ S η} (h : Grows s s') (h' : Grows s' t) : Grows s t :=
  ⟨fun node => (h.children node).trans (h'.children node), h'.metadata.trans h.metadata,
    h'.simulations.trans h.simulations⟩

theorem Grows.isNode (h : Grows s s') (hnode : s.IsNode node) : s'.IsNode node := by
  induction node with
  | nil => trivial
  | cons i node ih => exact ⟨ih hnode.1, hnode.2.trans_le (h.children node).length_le⟩

theorem Balanced.grows (hs : Balanced root s) (h : Grows s s') : Balanced root s' where
  visits := by
    intro node
    rw [Mcts.visits, h.metadata, h.simulations]
    exact hs.visits node
  totalScore := by
    intro node
    rw [Mcts.totalScore, h.metadata, h.simulations]
    exact hs.totalScore node
  once := by
    rw [Mcts.simulated, h.simulations]
    exact hs.once
  nodes := by
    intro node hnode
    rw [Mcts.simulated, h.simulations] at hnode
    exact ⟨(hs.nodes node hnode).1, h.isNode (hs.nodes node hnode).2⟩

theorem grows_checkSolution (p : Problem σ S ε ℚ η) (s : Mcts σ S η) (node : ThoughtNode σ ℚ) :
    Grows s (s.checkSolution p node).1 := by
  unfold Mcts.checkSolution
  split
  · exact .refl s
  · exact ⟨fun _ => List.prefix_rfl, rfl, rfl⟩

theorem grows_attach (node : Address) (s : Mcts σ S η) (attempt : Attempt σ S ℚ) :
    Grows s (s.attach node attempt) := by
  unfold Mcts.attach
  split
  · exact .refl s
  · next child _ _ =>
      refine ⟨fun other => ?_, rfl, rfl⟩
      by_cases h : other = node
      · subst h
        simp
      · simp [Function.update_of_ne h]

/-! ## Expansion -/

/-- New children of a node, each at its own address. -/
structure Fresh (parent : Address) (s s' : Mcts σ S η) (addresses : List Address) : Prop where
  grows : Grows s s'
  once : addresses.Nodup
  between : ∀ address ∈ addresses, ∃ i, address = i :: parent ∧ (s.children parent).length ≤ i ∧
    i < (s'.children parent).length

theorem fresh_attachInOrder (cfg : MctsConfig) (p : Problem σ S ε ℚ η) (parent : NodeRef σ)
    (s : Mcts σ S η) (done : List (Candidate σ)) :
    Fresh parent.address s (attachInOrder cfg p parent s done).1
      ((attachInOrder cfg p parent s done).2.map fun ref => ref.1.address) := by
  induction done generalizing s with
  | nil => exact ⟨.refl s, List.nodup_nil, fun _ h => absurd h List.not_mem_nil⟩
  | cons candidate rest ih =>
      rw [attachInOrder]
      dsimp only
      have hfirst := grows_attach parent.address s (createChildNode p cfg.toToTConfig parent.node candidate)
      have hrest := ih (s.attach parent.address (createChildNode p cfg.toToTConfig parent.node candidate))
      cases hreturned : (createChildNode p cfg.toToTConfig parent.node candidate).returned with
      | none =>
          refine ⟨hfirst.trans hrest.grows, hrest.once, fun address haddress => ?_⟩
          obtain ⟨i, heq, hle, hlt⟩ := hrest.between address haddress
          exact ⟨i, heq, ((hfirst.children _).length_le).trans hle, hlt⟩
      | some child =>
          obtain ⟨⟨attachedChild, evaluation⟩, hattached, -⟩ :=
            Option.map_eq_some_iff.mp (createChildNode_returned p cfg.toToTConfig hreturned)
          have hone : ((s.attach parent.address
              (createChildNode p cfg.toToTConfig parent.node candidate)).children parent.address).length =
                (s.children parent.address).length + 1 := by
            rw [Mcts.attach, hattached]
            simp
          have hlater : ∀ address ∈ (attachInOrder cfg p parent (s.attach parent.address
              (createChildNode p cfg.toToTConfig parent.node candidate)) rest).2.map
                (fun ref => ref.1.address), ∃ i, address = i :: parent.address ∧
                  (s.children parent.address).length < i := by
            intro address haddress
            obtain ⟨i, heq, hle, -⟩ := hrest.between address haddress
            exact ⟨i, heq, by omega⟩
          refine ⟨hfirst.trans hrest.grows, ?_, ?_⟩
          · refine List.nodup_cons.mpr ⟨fun hmem => ?_, hrest.once⟩
            obtain ⟨i, heq, hlt⟩ := hlater _ hmem
            have hsame := (List.cons.inj heq).1
            omega
          · intro address haddress
            have hlength := (hrest.grows.children parent.address).length_le
            rcases List.mem_cons.mp haddress with rfl | haddress
            · exact ⟨_, rfl, le_rfl, by omega⟩
            · obtain ⟨i, heq, hle, hlt⟩ := hrest.between address haddress
              exact ⟨i, heq, by omega, hlt⟩

/-- **An expansion adds children, and returns some of them.** -/
theorem fresh_expandRef (cfg : MctsConfig) (env : Environment σ S ε η) (parent : NodeRef σ)
    (s : Mcts σ S η) :
    Grows s (expandRef cfg env parent s).1 ∧
      ∀ children, (expandRef cfg env parent s).2 = .ok children →
        Fresh parent.address s (expandRef cfg env parent s).1 (children.map (·.address)) := by
  unfold expandRef
  split
  · refine ⟨.refl s, fun children h => ?_⟩
    cases h
    exact ⟨.refl s, List.nodup_nil, fun _ h => absurd h List.not_mem_nil⟩
  · exact ⟨.refl s, fun _ h => nomatch h⟩
  · next candidates _ =>
      dsimp only
      generalize (if cfg.enableParallelExpansion = true ∧ 1 < candidates.length then
        (batchesOf cfg.toToTConfig candidates.zipIdx).flatMap (env.schedule.order parent.node)
        else candidates.zipIdx) = done
      have hfresh := fresh_attachInOrder cfg env.problem parent s done
      refine ⟨hfresh.grows, fun children h => ?_⟩
      cases h
      have hperm : (((attachInOrder cfg env.problem parent s done).2.insertionSort
          fun first second => first.2 ≤ second.2).map Prod.fst).map (·.address) |>.Perm
            ((attachInOrder cfg env.problem parent s done).2.map fun ref => ref.1.address) := by
        rw [List.map_map]
        exact (List.perm_insertionSort _ _).map _
      exact ⟨hfresh.grows, hperm.nodup_iff.mpr hfresh.once, fun address haddress =>
        hfresh.between address (hperm.mem_iff.mp haddress)⟩

/-! ## Simulation -/

/-- A simulation that is recorded, and its result on the way to the root. -/
def Mcts.record (s : Mcts σ S η) (visited : List η) (node : Address) (result : ℚ) : Mcts σ S η :=
  ({ s with visited := visited, simulations := s.simulations ++ [(node, result)] }).backpropagate node
    result

theorem visits_record (s : Mcts σ S η) (visited : List η) (node : Address) (result : ℚ) (other : Address) :
    (s.record visited node result).visits other = s.visits other + if other <:+ node then 1 else 0 := by
  unfold Mcts.visits Mcts.record Mcts.backpropagate
  dsimp only
  rw [updateAlong_apply]
  split
  · rfl
  · rfl

theorem totalScore_record (s : Mcts σ S η) (visited : List η) (node : Address) (result : ℚ)
    (other : Address) :
    (s.record visited node result).totalScore other =
      s.totalScore other + if other <:+ node then result else 0 := by
  unfold Mcts.totalScore Mcts.record Mcts.backpropagate
  dsimp only
  rw [updateAlong_apply]
  split
  · rfl
  · exact (add_zero _).symm

theorem simulated_record (s : Mcts σ S η) (visited : List η) (node : Address) (result : ℚ) :
    (s.record visited node result).simulated = s.simulated ++ [node] :=
  List.map_append

theorem isNode_record (visited : List η) (node : Address) (result : ℚ) {other : Address}
    (h : s.IsNode other) : (s.record visited node result).IsNode other := by
  induction other with
  | nil => trivial
  | cons i other ih => exact ⟨ih h.1, h.2⟩

/-- **A simulation from a new node** keeps the statistics balanced. -/
theorem Balanced.record (hs : Balanced root s) (visited : List η) (result : ℚ)
    (hroot : node ≠ []) (hnode : s.IsNode node) (hnew : node ∉ s.simulated) :
    Balanced root (s.record visited node result) where
  visits := by
    intro other
    have hlog : (s.record visited node result).simulations.map (fun entry => (entry.1, 1)) =
        s.simulations.map (fun entry => (entry.1, 1)) ++ [(node, 1)] := List.map_append
    rw [visits_record, hlog, subtreeSum_concat, hs.visits other, add_assoc]
  totalScore := by
    intro other
    have hlog : (s.record visited node result).simulations = s.simulations ++ [(node, result)] := rfl
    rw [totalScore_record, hlog, subtreeSum_concat, hs.totalScore other, add_assoc]
  once := by
    rw [simulated_record, ← List.concat_eq_append]
    exact hs.once.concat hnew
  nodes := by
    intro other hother
    rw [simulated_record, List.mem_append, List.mem_singleton] at hother
    rcases hother with hother | rfl
    · exact ⟨(hs.nodes other hother).1, isNode_record _ _ _ (hs.nodes other hother).2⟩
    · exact ⟨hroot, isNode_record _ _ _ hnode⟩

/-- Nodes that no simulation has been started from. -/
structure Pending (s : Mcts σ S η) (addresses : List Address) : Prop where
  once : addresses.Nodup
  each : ∀ address ∈ addresses, address ≠ [] ∧ s.IsNode address ∧ address ∉ s.simulated

variable {addresses : List Address}

theorem Fresh.pending (hs : Balanced root s)
    (h : Fresh node s s' addresses) (hnode : s.IsNode node) : Pending s' addresses := by
  refine ⟨h.once, fun address haddress => ?_⟩
  obtain ⟨i, rfl, hle, hlt⟩ := h.between address haddress
  refine ⟨List.cons_ne_nil _ _, ⟨h.grows.isNode hnode, hlt⟩, fun hsimulated => ?_⟩
  rw [Mcts.simulated, h.grows.simulations] at hsimulated
  have hold := (hs.nodes _ hsimulated).2.2
  omega

theorem Pending.grows (h : Pending s addresses) (hgrows : Grows s s') :
    Pending s' addresses := by
  refine ⟨h.once, fun address haddress => ?_⟩
  obtain ⟨hne, hnode, hnew⟩ := h.each address haddress
  refine ⟨hne, hgrows.isNode hnode, ?_⟩
  rwa [Mcts.simulated, hgrows.simulations]

theorem Pending.record (h : Pending s (node :: addresses))
    (visited : List η) (result : ℚ) : Pending (s.record visited node result) addresses := by
  obtain ⟨hnot, honce⟩ := List.nodup_cons.mp h.once
  refine ⟨honce, fun address haddress => ?_⟩
  obtain ⟨hne, hnode, hnew⟩ := h.each address (List.mem_cons_of_mem _ haddress)
  refine ⟨hne, isNode_record _ _ _ hnode, ?_⟩
  rw [simulated_record, List.mem_append, List.mem_singleton]
  rintro (hold | rfl)
  · exact hnew hold
  · exact hnot haddress

theorem Pending.tail (h : Pending s (node :: addresses)) :
    Pending s addresses :=
  ⟨(List.nodup_cons.mp h.once).2, fun address haddress => h.each address (List.mem_cons_of_mem _ haddress)⟩

variable [DecidableEq η] (cfg : MctsConfig) (sqrtLogOver : ℕ → ℕ → ℚ)

theorem simulateChildren_cons (env : Environment σ S ε η) (s : Mcts σ S η) (child : NodeRef σ)
    (rest : List (NodeRef σ)) (hnew : env.problem.stateHash child.node.state ∉ s.visited) :
    simulateChildren cfg env s (child :: rest) =
      match simulate cfg.mctsMaxRolloutDepth (env.rollout child.address) child.node with
      | .error e =>
          ({ s with visited := env.problem.stateHash child.node.state :: s.visited }, .error (.raised e))
      | .ok result =>
          match (s.record (env.problem.stateHash child.node.state :: s.visited) child.address
              result.value).checkSolution env.problem child.node with
          | (s, .error failure) => (s, .error failure)
          | (s, .ok (some solution)) => (s, .ok (some solution))
          | (s, .ok none) => simulateChildren cfg env s rest := by
  rw [simulateChildren, if_neg hnew]
  rfl

/-- **The loop over the children.** -/
theorem balanced_simulateChildren (env : Environment σ S ε η) (children : List (NodeRef σ))
    (hs : Balanced root s) (hpending : Pending s (children.map (·.address))) :
    Balanced root (simulateChildren cfg env s children).1 := by
  induction children generalizing s with
  | nil => exact hs
  | cons child rest ih =>
      by_cases hvisited : env.problem.stateHash child.node.state ∈ s.visited
      · rw [simulateChildren, if_pos hvisited]
        exact ih hs hpending.tail
      · obtain ⟨hroot, hnode, hnew⟩ := hpending.each child.address List.mem_cons_self
        rw [simulateChildren_cons cfg env s child rest hvisited]
        split
        · exact hs.grows ⟨fun _ => List.prefix_rfl, rfl, rfl⟩
        · next result _ =>
            have hrecorded := hs.record (env.problem.stateHash child.node.state :: s.visited)
              result.value hroot hnode hnew
            have hgrows := grows_checkSolution env.problem (s.record
              (env.problem.stateHash child.node.state :: s.visited) child.address result.value) child.node
            split
            · next hcheck => exact hrecorded.grows (by rw [hcheck] at hgrows; exact hgrows)
            · next hcheck => exact hrecorded.grows (by rw [hcheck] at hgrows; exact hgrows)
            · next hcheck =>
                rw [hcheck] at hgrows
                exact ih (hrecorded.grows hgrows) ((hpending.record _ _).grows hgrows)

/-! ## Selection -/

/-- Nodes know their depth, and those at the maximal depth have no children. -/
structure Shaped (cfg : MctsConfig) (root : ThoughtNode σ ℚ) (s : Mcts σ S η) : Prop where
  depth : ∀ node, ∀ child ∈ s.children node, child.depth = root.depth + node.length + 1
  bounded : ∀ node, s.children node ≠ [] → root.depth + node.length < cfg.maxDepth

/-- A node of the tree. -/
def Placed (root : ThoughtNode σ ℚ) (s : Mcts σ S η) (node : NodeRef σ) : Prop :=
  s.IsNode node.address ∧ node.node.depth = root.depth + node.address.length

omit [DecidableEq η]

variable {cfg sqrtLogOver}

theorem mem_childRefs {child : NodeRef σ} :
    child ∈ s.childRefs node ↔
      ∃ i, child.address = i :: node ∧ (s.children node)[i]? = some child.node := by
  unfold Mcts.childRefs
  rw [List.mem_map]
  constructor
  · rintro ⟨entry, hentry, rfl⟩
    exact ⟨entry.2, rfl, List.mem_zipIdx_iff_getElem?.mp hentry⟩
  · rintro ⟨i, haddress, hchild⟩
    refine ⟨(child.node, i), List.mem_zipIdx_iff_getElem?.mpr hchild, ?_⟩
    rw [← haddress]

theorem Shaped.placed (hs : Shaped cfg root s) {node child : NodeRef σ} (hnode : Placed root s node)
    (hchild : child ∈ s.childRefs node.address) :
    Placed root s child ∧ child.address.length = node.address.length + 1 := by
  obtain ⟨i, haddress, hget⟩ := mem_childRefs.mp hchild
  obtain ⟨hlt, -⟩ := List.getElem?_eq_some_iff.mp hget
  have hdepth := hs.depth node.address _ (List.mem_of_getElem? hget)
  rw [Placed, haddress]
  exact ⟨⟨⟨hnode.1, hlt⟩, hdepth⟩, rfl⟩

theorem bestChild_mem {parentVisits : ℕ} {children : List (NodeRef σ)} {leader : Option (NodeRef σ)}
    {best : NodeRef σ} (h : bestChild cfg sqrtLogOver s parentVisits children leader = some best) :
    best ∈ children ∨ leader = some best := by
  induction children generalizing leader with
  | nil => exact .inr h
  | cons child rest ih =>
      unfold bestChild at h
      split at h
      · exact .inl (Option.some.inj h ▸ List.mem_cons_self)
      · have hcases : ∀ {other : Option (NodeRef σ)},
            bestChild cfg sqrtLogOver s parentVisits rest other = some best →
              (other = some child ∨ other = leader) → best ∈ child :: rest ∨ leader = some best := by
          intro other hother hfrom
          rcases ih hother with hmem | hsome
          · exact .inl (List.mem_cons_of_mem _ hmem)
          · rcases hfrom with rfl | rfl
            · exact .inl (Option.some.inj hsome ▸ List.mem_cons_self)
            · exact .inr hsome
        split at h
        · exact hcases h (.inl rfl)
        · split at h
          · exact hcases h (.inl rfl)
          · exact hcases h (.inr rfl)

theorem selectTurn_cases (node : NodeRef σ) :
    (∃ next ∈ s.childRefs node.address, selectTurn cfg sqrtLogOver s node = .inl next) ∨
      ∃ found, (found = node ∨ found ∈ s.childRefs node.address) ∧
        selectTurn cfg sqrtLogOver s node = .inr found := by
  unfold selectTurn
  split
  · exact .inr ⟨node, .inl rfl, rfl⟩
  · next child rest hchildren =>
      dsimp only
      split
      · refine .inr ⟨child, .inr ?_, rfl⟩
        rw [hchildren]
        exact List.mem_cons_self
      · split
        · exact .inr ⟨node, .inl rfl, rfl⟩
        · next best hbest =>
            refine .inl ⟨best, ?_, rfl⟩
            rw [hchildren]
            exact (bestChild_mem hbest).resolve_right nofun

/-- **The selection ends** within as many turns as the tree is deep. -/
theorem exists_run_selectTurn (hs : Shaped cfg root s) (turns : ℕ) {node : NodeRef σ}
    (hnode : Placed root s node) (hdepth : cfg.maxDepth ≤ root.depth + node.address.length + turns) :
    ∃ found, WhileLoop.run (selectTurn cfg sqrtLogOver s) (turns + 1) node = some found := by
  induction turns generalizing node with
  | zero =>
      have hnone : s.children node.address = [] := by
        by_contra hchildren
        have hlt := hs.bounded _ hchildren
        omega
      refine ⟨node, ?_⟩
      rw [WhileLoop.run, selectTurn, Mcts.childRefs, hnone]
      rfl
  | succ turns ih =>
      rw [WhileLoop.run]
      rcases selectTurn_cases (s := s) node with ⟨next, hnext, hturn⟩ | ⟨found, _, hturn⟩
      · obtain ⟨hplaced, hlength⟩ := hs.placed hnode hnext
        rw [hturn]
        exact ih hplaced (by omega)
      · rw [hturn]
        exact ⟨found, rfl⟩

theorem selectPromisingNode_returns (hs : Shaped cfg root s) :
    WhileLoop.Returns (selectTurn cfg sqrtLogOver s) ⟨[], root⟩
      (selectPromisingNode cfg sqrtLogOver root s) := by
  have hroot : Placed root s ⟨[], root⟩ := ⟨trivial, rfl⟩
  obtain ⟨found, hrun⟩ : ∃ found, WhileLoop.run (selectTurn cfg sqrtLogOver s) (cfg.maxDepth + 1)
      ⟨[], root⟩ = some found := exists_run_selectTurn hs cfg.maxDepth hroot (by omega)
  unfold selectPromisingNode
  rw [hrun]
  exact WhileLoop.returns_of_run hrun

/-- **The node that is selected** is a node of the tree. -/
theorem placed_selectPromisingNode (hs : Shaped cfg root s) :
    Placed root s (selectPromisingNode cfg sqrtLogOver root s) := by
  refine (selectPromisingNode_returns hs).of_invariant (I := Placed root s) ?_ ?_ ⟨trivial, rfl⟩
  · intro node next hnode hturn
    rcases selectTurn_cases (s := s) node with ⟨child, hchild, hother⟩ | ⟨found, _, hother⟩
    · cases hturn.symm.trans hother
      exact (hs.placed hnode hchild).1
    · cases hturn.symm.trans hother
  · intro node found hnode hturn
    rcases selectTurn_cases (s := s) node with ⟨child, _, hother⟩ | ⟨other, hfound, hother⟩
    · cases hturn.symm.trans hother
    · cases hturn.symm.trans hother
      rcases hfound with rfl | hchild
      · exact hnode
      · exact (hs.placed hnode hchild).1

/-! ## Runs -/

theorem Shaped.attach (hs : Shaped cfg root s) (hparent : Placed root s parent)
    (hdepth : parent.node.depth < cfg.maxDepth) (p : Problem σ S ε ℚ η) (candidate : Candidate σ) :
    Shaped cfg root
      (s.attach parent.address (createChildNode p cfg.toToTConfig parent.node candidate)) := by
  cases hattached : (createChildNode p cfg.toToTConfig parent.node candidate).attached with
  | none =>
      rw [Mcts.attach, hattached]
      exact hs
  | some entry =>
      obtain ⟨_, _, _, hchild⟩ := createChildNode_attached p cfg.toToTConfig
        (by rw [hattached]; rfl : (createChildNode p cfg.toToTConfig parent.node candidate).attached.map
          Prod.fst = some entry.1)
      have hplace : entry.1.depth = root.depth + parent.address.length + 1 := by
        rw [hchild, ← hparent.2]
        rfl
      rw [Mcts.attach, hattached]
      constructor
      · intro node child hmem
        by_cases hnode : node = parent.address
        · subst hnode
          simp only [Function.update_self, List.mem_append, List.mem_singleton] at hmem
          rcases hmem with hold | rfl
          · exact hs.depth _ child hold
          · exact hplace
        · simp only [Function.update_of_ne hnode] at hmem
          exact hs.depth node child hmem
      · intro node hchildren
        by_cases hnode : node = parent.address
        · rw [hnode, ← hparent.2]
          exact hdepth
        · simp only [Function.update_of_ne hnode] at hchildren
          exact hs.bounded node hchildren

theorem Shaped.attachInOrder (hs : Shaped cfg root s) (hparent : Placed root s parent)
    (hdepth : parent.node.depth < cfg.maxDepth) (p : Problem σ S ε ℚ η) (done : List (Candidate σ)) :
    Shaped cfg root (attachInOrder cfg p parent s done).1 := by
  induction done generalizing s with
  | nil => exact hs
  | cons candidate rest ih =>
      have hgrows := grows_attach parent.address s
        (createChildNode p cfg.toToTConfig parent.node candidate)
      exact ih (hs.attach hparent hdepth p candidate) ⟨hgrows.isNode hparent.1, hparent.2⟩

theorem Shaped.expandRef (hs : Shaped cfg root s) (hparent : Placed root s parent)
    (hdepth : parent.node.depth < cfg.maxDepth) (env : Environment σ S ε η) :
    Shaped cfg root (expandRef cfg env parent s).1 := by
  unfold Reasoning.expandRef
  split
  · exact hs
  · exact hs
  · exact hs.attachInOrder hparent hdepth _ _

theorem children_checkSolution (p : Problem σ S ε ℚ η) (s : Mcts σ S η) (node : ThoughtNode σ ℚ) :
    (s.checkSolution p node).1.children = s.children := by
  unfold Mcts.checkSolution
  split
  · rfl
  · rfl

theorem Shaped.of_children (hs : Shaped cfg root s) (h : s'.children = s.children) :
    Shaped cfg root s' :=
  ⟨by rw [h]; exact hs.depth, by rw [h]; exact hs.bounded⟩

variable [DecidableEq η]

theorem children_simulateChildren (env : Environment σ S ε η) (s : Mcts σ S η)
    (children : List (NodeRef σ)) : (simulateChildren cfg env s children).1.children = s.children := by
  induction children generalizing s with
  | nil => rfl
  | cons child rest ih =>
      by_cases hvisited : env.problem.stateHash child.node.state ∈ s.visited
      · rw [simulateChildren, if_pos hvisited]
        exact ih s
      · rw [simulateChildren_cons cfg env s child rest hvisited]
        split
        · rfl
        · next result _ =>
            have hcheck := children_checkSolution env.problem (s.record
              (env.problem.stateHash child.node.state :: s.visited) child.address result.value) child.node
            split
            · next heq => rw [heq] at hcheck; exact hcheck
            · next heq => rw [heq] at hcheck; exact hcheck
            · next heq => rw [heq] at hcheck; exact (ih _).trans hcheck

/-- **What every iteration keeps.** -/
structure TreeKept (cfg : MctsConfig) (root : ThoughtNode σ ℚ) (s : Mcts σ S η) : Prop where
  balanced : Balanced root s
  shaped : Shaped cfg root s

omit [DecidableEq η] in
theorem TreeKept.checkSolution (hs : TreeKept cfg root s) (p : Problem σ S ε ℚ η)
    (node : ThoughtNode σ ℚ) : TreeKept cfg root (s.checkSolution p node).1 :=
  ⟨hs.balanced.grows (grows_checkSolution p s node),
    hs.shaped.of_children (children_checkSolution p s node)⟩

theorem TreeKept.expandAndSimulate (hs : TreeKept cfg root s) (hparent : Placed root s parent)
    (env : Environment σ S ε η) : TreeKept cfg root (expandAndSimulate cfg env parent s).1 := by
  unfold Reasoning.expandAndSimulate
  split
  · exact hs
  · next hdepth =>
      have hshaped := hs.shaped.expandRef hparent (Nat.lt_of_not_le hdepth) env
      have hexpand := fresh_expandRef cfg env parent s
      split
      · next heq =>
          rw [heq] at hexpand hshaped
          exact ⟨hs.balanced.grows hexpand.1, hshaped⟩
      · next s' children heq =>
          rw [heq] at hexpand hshaped
          have hfresh := hexpand.2 children rfl
          exact ⟨balanced_simulateChildren cfg env children (hs.balanced.grows hexpand.1)
            (hfresh.pending hs.balanced hparent.1),
            hshaped.of_children (children_simulateChildren env s' children)⟩

/-- **An iteration**, however it ends. -/
theorem TreeKept.iterate (hs : TreeKept cfg root s) (env : Environment σ S ε η) :
    TreeKept cfg root (iterate cfg sqrtLogOver root env s).1 := by
  unfold Reasoning.iterate
  dsimp only
  have hchecked := hs.checkSolution env.problem (selectPromisingNode cfg sqrtLogOver root s).node
  have hgrows := grows_checkSolution env.problem s (selectPromisingNode cfg sqrtLogOver root s).node
  have hselected : Placed root s (selectPromisingNode cfg sqrtLogOver root s) :=
    placed_selectPromisingNode hs.shaped
  split
  · next heq => rw [heq] at hchecked; exact hchecked
  · next heq => rw [heq] at hchecked; exact hchecked
  · next heq =>
      rw [heq] at hchecked hgrows
      exact hchecked.expandAndSimulate ⟨hgrows.isNode hselected.1, hselected.2⟩ env

theorem TreeKept.iterations (hs : TreeKept cfg root s) (envs : List (Environment σ S ε η)) :
    TreeKept cfg root (iterations cfg sqrtLogOver root envs s).1 := by
  induction envs generalizing s with
  | nil => exact hs
  | cons env envs ih =>
      have hnext : TreeKept cfg root (Reasoning.iterate cfg sqrtLogOver root env s).1 := hs.iterate env
      rw [Reasoning.iterations]
      split
      · next heq => rw [heq] at hnext; exact hnext
      · next heq => rw [heq] at hnext; exact hnext
      · next heq => rw [heq] at hnext; exact ih hnext

omit [DecidableEq η] in
theorem treeKept_start (cfg : MctsConfig) (root : ThoughtNode σ ℚ) :
    TreeKept cfg root (Mcts.start root : Mcts σ S η) :=
  ⟨balanced_start root, fun _ _ h => absurd h List.not_mem_nil, fun _ h => absurd rfl h⟩

/-- **Visits and scores of a node**: its own simulation and those of its children's subtrees. -/
structure Consistent (root : ThoughtNode σ ℚ) (s : Mcts σ S η) : Prop where
  visits : ∀ node, s.IsNode node → s.visits node =
    ((List.range (s.children node).length).map fun i => s.visits (i :: node)).sum +
      if node = [] ∨ node ∈ s.simulated then 1 else 0
  totalScore : ∀ node, s.IsNode node → s.totalScore node =
    ((s.simulations.filter fun entry => node <:+ entry.1).map Prod.snd).sum +
      if node = [] then root.score else 0
  once : s.simulated.Nodup

omit [DecidableEq η] in
theorem Balanced.consistent (hs : Balanced root s) : Consistent root s where
  visits := by
    intro node _
    have hlog : (s.simulations.map fun entry => (entry.1, 1)).map Prod.fst = s.simulated := by
      rw [List.map_map]
      rfl
    have hsplit := subtreeSum_split (s.simulations.map fun entry => (entry.1, 1)) node
      (List.range (s.children node).length) List.nodup_range (by
        intro entry hentry i hsuffix
        have hsimulated : entry.1 ∈ s.simulated := hlog ▸ List.mem_map_of_mem hentry
        exact List.mem_range.mpr (isNode_of_suffix (hs.nodes _ hsimulated).2 hsuffix).2)
    have hchildren : ∀ i, subtreeSum (s.simulations.map fun entry => (entry.1, 1)) (i :: node) =
        s.visits (i :: node) := by
      intro i
      rw [hs.visits, if_neg (List.cons_ne_nil _ _), zero_add]
    rw [sumAt_const s.simulations 1 node hs.once] at hsplit
    simp only [hchildren] at hsplit
    rw [hs.visits, hsplit]
    change _ = _ + if node = [] ∨ node ∈ s.simulated then 1 else 0
    by_cases hroot : node = []
    · have hnot : node ∉ s.simulations.map Prod.fst := fun h => (hs.nodes node h).1 hroot
      rw [if_pos hroot, if_neg hnot, if_pos (.inl hroot), zero_add, Nat.add_comm]
    · rw [if_neg hroot, zero_add, Nat.add_comm]
      simp only [hroot, false_or]
      rfl
  totalScore := by
    intro node _
    rw [hs.totalScore, add_comm]
    rfl
  once := hs.once

/-- **The statistics are consistent** after any number of iterations, however the last one ends. -/
theorem consistent_iterations (cfg : MctsConfig) (sqrtLogOver : ℕ → ℕ → ℚ) (root : ThoughtNode σ ℚ)
    (envs : List (Environment σ S ε η)) :
    Consistent root (iterations cfg sqrtLogOver root envs (Mcts.start root)).1 :=
  ((treeKept_start cfg root).iterations envs).balanced.consistent

end SkyClaw.Reasoning
