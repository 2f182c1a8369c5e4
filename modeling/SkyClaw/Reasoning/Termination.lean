import Mathlib.Logic.Hydra
import Mathlib.Tactic.Abel
import SkyClaw.Reasoning.Expansion

/-!
# Every search ends

A turn takes a node off, or it puts finitely many nodes of the next level in its place.  The nodes
that wait are measured by the levels below them, and such a turn lowers them in the order of
multisets.
-/

namespace SkyClaw.Reasoning

open Relation (CutExpand)

variable {σ S ε R η : Type}

/-! ## The measure -/

theorem wellFounded_cutExpand : WellFounded (CutExpand (α := ℕ) (· < ·)) :=
  WellFounded.cutExpand (wellFounded_lt (α := ℕ))

/-- The levels below the nodes that wait. -/
def levels (cfg : ToTConfig R) (nodes : List (ThoughtNode σ R)) : Multiset ℕ :=
  Multiset.ofList (nodes.map fun node => cfg.maxDepth - node.depth)

variable {cfg : ToTConfig R}

theorem levels_perm {nodes nodes' : List (ThoughtNode σ R)} (h : nodes.Perm nodes') :
    levels cfg nodes = levels cfg nodes' :=
  Multiset.coe_eq_coe.mpr (h.map _)

theorem cutExpand_levels {current : ThoughtNode σ R} {queue kept : List (ThoughtNode σ R)}
    (hdepth : current.depth < cfg.maxDepth)
    (hkept : ∀ child ∈ kept, child.depth = current.depth + 1) :
    CutExpand (· < ·) (levels cfg (queue ++ kept)) (levels cfg (current :: queue)) := by
  refine ⟨levels cfg kept, cfg.maxDepth - current.depth, ?_, ?_⟩
  · intro rest hrest
    obtain ⟨child, hchild, rfl⟩ := List.mem_map.mp (Multiset.mem_coe.mp hrest)
    rw [hkept child hchild]
    omega
  · unfold levels
    simp only [List.map_append, List.map_cons, ← Multiset.coe_add, ← Multiset.cons_coe,
      ← Multiset.singleton_add]
    abel

theorem cutExpand_levels_pop (current : ThoughtNode σ R) (queue : List (ThoughtNode σ R)) :
    CutExpand (· < ·) (levels cfg queue) (levels cfg (current :: queue)) := by
  refine ⟨0, cfg.maxDepth - current.depth, by simp, ?_⟩
  unfold levels
  simp only [List.map_cons, ← Multiset.cons_coe, ← Multiset.singleton_add]
  abel

section Ends

variable [LinearOrder R] [DecidableEq σ] [DecidableEq η]
variable (p : Problem σ S ε R η) (cfg) (schedule : Schedule σ R)

omit [DecidableEq η] in
theorem depth_of_kept {node child : ThoughtNode σ R} {search expanded pruned : Search σ S R η}
    {children kept : List (ThoughtNode σ R)}
    (hexpand : expandNode p cfg schedule node search = (expanded, .ok children))
    (hprune : applyPruning (ε := ε) cfg expanded children = (pruned, .ok kept))
    (hchild : child ∈ kept) : child.depth = node.depth + 1 :=
  (expandNode_grown p cfg hexpand).depth child ((applyPruning_ok hprune).kept hchild)

theorem bfs_lowers {s t : Search σ S R η × List (ThoughtNode σ R)}
    (h : (bfsSearchStrategy p cfg).turn (expandNode p cfg schedule) s = .inl t) :
    CutExpand (· < ·) (levels cfg t.2) (levels cfg s.2) := by
  obtain ⟨search, queue⟩ := s
  cases queue with
  | nil => cases h
  | cons current queue =>
      obtain ⟨_, h⟩ := atNode_inl h
      split at h
      · cases h
        exact cutExpand_levels_pop current queue
      · next hdepth =>
          split at h
          · cases h
            exact cutExpand_levels_pop current queue
          · obtain ⟨expanded, children, hexpand, hkeep⟩ := perform_expand_inl h
            obtain ⟨pruned, kept, hprune, rfl⟩ := keep_inl hkeep
            apply cutExpand_levels (by omega)
            intro child hchild
            exact depth_of_kept cfg p schedule hexpand hprune hchild

omit [DecidableEq σ] [DecidableEq η] in
theorem foldl_heappush_perm (children queue : List (ThoughtNode σ R)) :
    (children.foldl (heappush p) queue).Perm (queue ++ children) := by
  induction children generalizing queue with
  | nil => simp
  | cons child children ih =>
      rw [List.foldl_cons]
      have hpush : (heappush p queue child).Perm (child :: queue) := List.perm_orderedInsert _ _ _
      have hmiddle : (child :: queue ++ children).Perm (queue ++ child :: children) :=
        List.perm_middle.symm
      exact (ih _).trans ((hpush.append_right children).trans hmiddle)

theorem bestFirst_lowers {s t : Search σ S R η × BestFirst σ R}
    (h : (bestFirstSearchStrategy p cfg).turn (expandNode p cfg schedule) s = .inl t) :
    CutExpand (· < ·) (levels cfg t.2.priorityQueue) (levels cfg s.2.priorityQueue) := by
  obtain ⟨search, queue, visitedIds⟩ := s
  cases queue with
  | nil => cases h
  | cons current queue =>
      unfold Strategy.turn at h
      simp only [bestFirstSearchStrategy, bestFirstInspect] at h
      split at h
      · cases h
        exact cutExpand_levels_pop current queue
      · split at h
        · cases h
          exact cutExpand_levels_pop current queue
        · obtain ⟨_, h⟩ := atNode_inl h
          split at h
          · cases h
            exact cutExpand_levels_pop current queue
          · obtain ⟨expanded, children, hexpand, hkeep⟩ := perform_expand_inl h
            obtain ⟨pruned, kept, hprune, rfl⟩ := keep_inl hkeep
            rw [levels_perm (foldl_heappush_perm p kept queue)]
            apply cutExpand_levels (by omega)
            intro child hchild
            exact depth_of_kept cfg p schedule hexpand hprune hchild

/-- The levels that are left, and the nodes of this one. -/
def beamMeasure : Beam σ R → ℕ ×ₗ ℕ
  | .level left _ => toLex (2 * left, 0)
  | .nodes left todo _ => toLex (2 * left + 1, todo.length)

omit [LinearOrder R] [DecidableEq σ] in
theorem beamMeasure_lt (left : Nat) (node : ThoughtNode σ R) (todo nextLevel nextLevel' :
    List (ThoughtNode σ R)) :
    beamMeasure (.nodes left todo nextLevel) < beamMeasure (.nodes left (node :: todo) nextLevel') :=
  Prod.Lex.toLex_lt_toLex.mpr (.inr ⟨rfl, Nat.lt_succ_self _⟩)

theorem beam_lowers {s t : Search σ S R η × Beam σ R}
    (h : (beamSearchStrategy p cfg).turn (expandNode p cfg schedule) s = .inl t) :
    beamMeasure t.2 < beamMeasure s.2 := by
  obtain ⟨search, frontier⟩ := s
  unfold Strategy.turn at h
  match frontier with
  | .level 0 _ => cases h
  | .level (_ + 1) [] => cases h
  | .level (left + 1) (node :: rest) =>
      cases h
      simp only [beamMeasure, Prod.Lex.toLex_lt_toLex]
      omega
  | .nodes left [] nextLevel =>
      obtain ⟨pruned, kept, _, rfl⟩ := keep_inl h
      simp only [beamMeasure, Prod.Lex.toLex_lt_toLex]
      omega
  | .nodes left (node :: todo) nextLevel =>
      simp only [beamSearchStrategy, beamInspect] at h
      split at h
      · cases h
        exact beamMeasure_lt left node todo _ _
      · obtain ⟨_, h⟩ := atNode_inl h
        obtain ⟨expanded, children, _, hresume⟩ := perform_expand_inl h
        cases hresume
        exact beamMeasure_lt left node todo _ _

/-! ## Depth-first -/

/-- Children that wait behind another one. -/
def waitingLevels (children : List (ThoughtNode σ R)) : Multiset ℕ :=
  Multiset.ofList (children.map fun child => 3 * (cfg.maxDepth - child.depth) + 2)

/-- An entry of the stack: a node that has not been looked at, or one with the children that wait
behind it. -/
def entryLevels (search : Search σ S R η) : ThoughtNode σ R × Nat → Multiset ℕ
  | (node, 0) => {3 * (cfg.maxDepth - node.depth) + 1}
  | (node, idx + 1) =>
      {3 * (cfg.maxDepth - node.depth)} +
        waitingLevels cfg ((search.children node).drop (idx + 1))

def stackLevels (search : Search σ S R η) (stack : List (ThoughtNode σ R × Nat)) : Multiset ℕ :=
  (stack.map (entryLevels cfg search)).sum

omit [LinearOrder R] [DecidableEq σ] [DecidableEq η] in
theorem stackLevels_cons (search : Search σ S R η) (entry : ThoughtNode σ R × Nat)
    (stack : List (ThoughtNode σ R × Nat)) :
    stackLevels cfg search (entry :: stack) =
      entryLevels cfg search entry + stackLevels cfg search stack := by
  unfold stackLevels
  rw [List.map_cons, List.sum_cons]

/-- Children are one level below their parents, and an index counts children. -/
structure WellStacked (search : Search σ S R η) (stack : List (ThoughtNode σ R × Nat)) :
    Prop where
  depth : ∀ node, ∀ child ∈ search.children node, child.depth = node.depth + 1
  opened : ∀ entry ∈ stack, 0 < entry.2 →
    entry.1.depth < cfg.maxDepth ∧ entry.2 ≤ (search.children entry.1).length

variable {cfg} {stack : List (ThoughtNode σ R × Nat)} {entry : ThoughtNode σ R × Nat}
  {current : ThoughtNode σ R} {search' : Search σ S R η} {idx : Nat}

section

omit [LinearOrder R] [DecidableEq σ] [DecidableEq η]

theorem WellStacked.tail {search : Search σ S R η} (h : WellStacked cfg search (entry :: stack)) :
    WellStacked cfg search stack :=
  ⟨h.depth, fun other hother => h.opened other (List.mem_cons_of_mem _ hother)⟩

theorem WellStacked.congr {search : Search σ S R η} (h : WellStacked cfg search stack)
    (hchildren : search'.children = search.children) : WellStacked cfg search' stack := by
  constructor
  · rw [hchildren]
    exact h.depth
  · rw [hchildren]
    exact h.opened

theorem stackLevels_congr {search : Search σ S R η}
    (h : ∀ entry ∈ stack, 0 < entry.2 → search'.children entry.1 = search.children entry.1) :
    stackLevels cfg search' stack = stackLevels cfg search stack := by
  unfold stackLevels
  congr 1
  apply List.map_congr_left
  rintro ⟨node, idx⟩ hentry
  cases idx with
  | zero => rfl
  | succ idx =>
      have hsame := h _ hentry (Nat.succ_pos idx)
      simp only at hsame
      simp only [entryLevels, hsame]

theorem pop_lowers {search : Search σ S R η}
    (stack : List (ThoughtNode σ R × Nat)) (h : ∃ level, entryLevels cfg search entry = {level}) :
    CutExpand (· < ·) (stackLevels cfg search stack)
      (stackLevels cfg search (entry :: stack)) := by
  obtain ⟨level, hlevel⟩ := h
  rw [stackLevels_cons, hlevel]
  have hzero := (Relation.cutExpand_add_right (stackLevels cfg search stack)).mpr
    (Relation.cutExpand_zero (r := (· < ·)) (x := level))
  rwa [zero_add] at hzero

theorem navigate_wellStacked {search : Search σ S R η} (h : WellStacked cfg search ((current, idx) :: stack))
    (hdepth : current.depth < cfg.maxDepth) :
    WellStacked cfg search (navigate search current idx stack) := by
  unfold navigate
  cases hchild : (search.children current)[idx]? with
  | none => exact h.tail
  | some child =>
      refine ⟨h.depth, ?_⟩
      simp only [List.forall_mem_cons]
      have hlt : idx < (search.children current).length := (List.getElem?_eq_some_iff.mp hchild).1
      exact ⟨fun h => absurd h (Nat.lt_irrefl 0), fun _ => ⟨hdepth, hlt⟩, h.tail.opened⟩

/-- **One child more**, or one node less. -/
theorem navigate_lowers {search : Search σ S R η} (h : WellStacked cfg search ((current, idx) :: stack))
    (hdepth : current.depth < cfg.maxDepth) :
    CutExpand (· < ·) (stackLevels cfg search (navigate search current idx stack))
      (stackLevels cfg search ((current, idx) :: stack)) := by
  have hlevel : ∀ child ∈ search.children current,
      3 * (cfg.maxDepth - child.depth) + 2 < 3 * (cfg.maxDepth - current.depth) := by
    intro child hchild
    rw [h.depth current child hchild]
    omega
  unfold navigate
  cases hchild : (search.children current)[idx]? with
  | none =>
      have hdrop : (search.children current).drop idx = [] :=
        List.drop_eq_nil_iff.mpr (List.getElem?_eq_none_iff.mp hchild)
      apply pop_lowers
      cases idx with
      | zero => exact ⟨_, rfl⟩
      | succ idx =>
          refine ⟨3 * (cfg.maxDepth - current.depth), ?_⟩
          simp [entryLevels, hdrop, waitingLevels]
  | some child =>
      obtain ⟨hidx, rfl⟩ := List.getElem?_eq_some_iff.mp hchild
      have hmem : (search.children current)[idx] ∈ search.children current := List.getElem_mem hidx
      have hchildLevel := hlevel _ hmem
      rw [stackLevels_cons, stackLevels_cons, stackLevels_cons, ← add_assoc]
      apply (Relation.cutExpand_add_right _).mpr
      cases idx with
      | zero =>
          -- the node is opened: every level that appears is below its own
          apply Relation.cutExpand_singleton
          intro level hmemLevel
          rcases Multiset.mem_add.mp hmemLevel with hfirst | hopen
          · rw [Multiset.mem_singleton.mp hfirst]
            omega
          · rcases Multiset.mem_add.mp hopen with hself | hwaiting
            · rw [Multiset.mem_singleton.mp hself]
              omega
            · obtain ⟨other, hother, rfl⟩ := List.mem_map.mp (Multiset.mem_coe.mp hwaiting)
              have hotherLevel := hlevel other (List.drop_subset _ _ hother)
              omega
      | succ idx =>
          -- the next child is looked at: it alone is lowered
          refine ⟨{3 * (cfg.maxDepth - (search.children current)[idx + 1].depth) + 1},
            3 * (cfg.maxDepth - (search.children current)[idx + 1].depth) + 2, ?_, ?_⟩
          · intro level hmemLevel
            rw [Multiset.mem_singleton.mp hmemLevel]
            omega
          · simp only [entryLevels, waitingLevels, List.drop_eq_getElem_cons hidx, List.map_cons,
              ← Multiset.cons_coe, ← Multiset.singleton_add]
            abel

end

omit [DecidableEq η] in
/-- A node is opened: only it has got children. -/
theorem WellStacked.open {search : Search σ S R η} {children : List (ThoughtNode σ R)}
    (h : WellStacked cfg search ((current, 0) :: stack)) (hempty : search.children current = [])
    (hgrown : Grown current search search' children) :
    WellStacked cfg search' ((current, 0) :: stack) ∧
      stackLevels cfg search' ((current, 0) :: stack) =
        stackLevels cfg search ((current, 0) :: stack) := by
  obtain ⟨attached, hdepth, hchildren⟩ := hgrown.attached
  have hsame : ∀ entry ∈ (current, 0) :: stack, 0 < entry.2 →
      search'.children entry.1 = search.children entry.1 := by
    intro entry hentry hpos
    -- an entry with an index has children, and the node has none
    have hle := (h.opened entry hentry hpos).2
    rw [hchildren, if_neg]
    intro heq
    rw [heq, hempty, List.length_nil] at hle
    omega
  refine ⟨⟨?_, ?_⟩, stackLevels_congr hsame⟩
  · intro node child hchild
    rw [hchildren] at hchild
    split at hchild
    · next heq =>
        rw [hempty, List.nil_append] at hchild
        rw [heq]
        exact hdepth child hchild
    · exact h.depth node child hchild
  · intro entry hentry hpos
    rw [hsame entry hentry hpos]
    exact h.opened entry hentry hpos

variable {p schedule}

theorem dfs_next {s t : Search σ S R η × List (ThoughtNode σ R × Nat)}
    (hs : WellStacked cfg s.1 s.2)
    (h : (dfsSearchStrategy p cfg).turn (expandNode p cfg schedule) s = .inl t) :
    WellStacked cfg t.1 t.2 ∧
      CutExpand (· < ·) (stackLevels cfg t.1 t.2) (stackLevels cfg s.1 s.2) := by
  obtain ⟨search, stack⟩ := s
  cases stack with
  | nil => cases h
  | cons entry stack =>
      obtain ⟨current, idx⟩ := entry
      obtain ⟨_, h⟩ := atNode_inl h
      split at h
      · next hvisited =>
          obtain ⟨rfl, _⟩ := hvisited
          cases h
          exact ⟨hs.tail, pop_lowers stack ⟨_, rfl⟩⟩
      · -- marking leaves the children alone
        have hmarked : (if idx = 0 then markVisited p search current else search).children =
            search.children := by
          split <;> rfl
        have hs' := hs.congr hmarked
        have hlevels : stackLevels cfg (if idx = 0 then markVisited p search current else search)
            ((current, idx) :: stack) = stackLevels cfg search ((current, idx) :: stack) :=
          stackLevels_congr fun _ _ _ => by rw [hmarked]
        rw [← hlevels]
        generalize (if idx = 0 then markVisited p search current else search) = marked at *
        split at h
        · next hdepth =>
            cases h
            have hzero : idx = 0 := by
              by_contra hpos
              have hopened := (hs.opened _ List.mem_cons_self (Nat.pos_of_ne_zero hpos)).1
              simp only at hopened
              omega
            subst hzero
            exact ⟨hs'.tail, pop_lowers stack ⟨_, rfl⟩⟩
        · next hdepth =>
            rw [not_le] at hdepth
            dsimp only at h
            split at h
            · next hempty =>
                obtain ⟨hempty, rfl⟩ := hempty
                obtain ⟨expanded, children, hexpand, hresume⟩ := perform_expand_inl h
                obtain ⟨hopen, hsame⟩ := hs'.open hempty (expandNode_grown p cfg hexpand)
                obtain ⟨pruned, kept, hprune, rfl⟩ := keep_inl hresume
                have hchildren := (applyPruning_ok hprune).children
                have hopen' := hopen.congr hchildren
                refine ⟨navigate_wellStacked hopen' hdepth, ?_⟩
                have hpruned : stackLevels cfg pruned ((current, 0) :: stack) =
                    stackLevels cfg expanded ((current, 0) :: stack) :=
                  stackLevels_congr fun _ _ _ => by rw [hchildren]
                rw [← hsame, ← hpruned]
                exact navigate_lowers hopen' hdepth
            · cases h
              exact ⟨navigate_wellStacked hs' hdepth, navigate_lowers hs' hdepth⟩

variable (p schedule)

/-- **Every search ends.** -/
theorem exists_searches (strategyType : SearchStrategyType) (root : ThoughtNode σ R) :
    ∃ outcome, Searches p cfg schedule strategyType root outcome := by
  cases strategyType with
  | bfs =>
      refine WhileLoop.exists_returns (I := fun _ => True)
        (InvImage.wf (fun s => levels cfg s.2) wellFounded_cutExpand) ?_ trivial
      exact fun s t _ h => ⟨trivial, bfs_lowers cfg p schedule h⟩
  | dfs =>
      refine WhileLoop.exists_returns (I := fun s => WellStacked cfg s.1 s.2)
        (InvImage.wf (fun s => stackLevels cfg s.1 s.2) wellFounded_cutExpand) ?_ ?_
      · exact fun s t hs h => dfs_next hs h
      · refine ⟨by simp [Search.reset], ?_⟩
        intro entry hentry hpos
        rw [List.mem_singleton.mp hentry] at hpos
        exact absurd hpos (Nat.lt_irrefl 0)
  | bestFirst =>
      refine WhileLoop.exists_returns (I := fun _ => True)
        (InvImage.wf (fun s => levels cfg s.2.priorityQueue) wellFounded_cutExpand) ?_ trivial
      exact fun s t _ h => ⟨trivial, bestFirst_lowers cfg p schedule h⟩
  | beam =>
      refine WhileLoop.exists_returns (I := fun _ => True)
        (InvImage.wf (fun s => beamMeasure s.2) wellFounded_lt) ?_ trivial
      exact fun s t _ h => ⟨trivial, beam_lowers cfg p schedule h⟩

end Ends

end SkyClaw.Reasoning
