import Mathlib.Data.Rat.Floor
import SkyClaw.Reasoning.Expansion

/-!
# What the pruning policy keeps

`PruningPolicy.apply` keeps the best of the nodes that are alive and marks the others.  `prunesWell_iff`:
it does so for every configuration but a percentile of 1, which asks for an index behind the last score,
unless a node that is kept stands in the list twice.
-/

namespace SkyClaw.Reasoning

variable {σ S ε R η : Type} [LinearOrder R]

/-- The nodes that are no dead ends. -/
def aliveNodes (search : Search σ S R η) (nodes : List (ThoughtNode σ R)) :
    List (ThoughtNode σ R) :=
  nodes.filter fun node => search.evaluation node ≠ .deadEnd

/-- A configuration that pydantic lets through, with its `pruning_percentile`. -/
structure ToTConfig.Admits (cfg : ToTConfig R) (pruningPercentile : ℚ) : Prop where
  topK : 1 ≤ cfg.pruningTopK ∧ cfg.pruningTopK ≤ 10
  percentile : 0 ≤ pruningPercentile ∧ pruningPercentile ≤ 1
  index : ∀ n : ℕ, cfg.percentileIndex n = ⌊n * pruningPercentile⌋₊

/-- **Alive nodes of the list are kept, each once; no removed one is better than a kept one; exactly the
removed ones are marked; and the methods that compare keep some node if one is alive.** -/
structure PrunesTo (cfg : ToTConfig R) (search search' : Search σ S R η)
    (nodes kept : List (ThoughtNode σ R)) : Prop where
  alive : ∀ node ∈ kept, node ∈ aliveNodes search nodes
  once : kept.Nodup
  best : ∀ node ∈ aliveNodes search nodes, node ∉ kept → ∀ other ∈ kept, node.score ≤ other.score
  removed : ∀ node ∈ aliveNodes search nodes, node ∉ kept → search'.evaluation node = .deadEnd
  others : ∀ node, (node ∉ aliveNodes search nodes ∨ node ∈ kept) →
    search'.evaluation node = search.evaluation node
  some : cfg.pruningMethod ≠ .fixedThreshold → aliveNodes search nodes ≠ [] → kept ≠ []

/-- What a method keeps of the alive nodes. -/
def Keeps (cfg : ToTConfig R) (alive : List (ThoughtNode σ R)) (node : ThoughtNode σ R) : Prop :=
  match cfg.pruningMethod with
  | .fixedThreshold => cfg.pruningThreshold ≤ node.score
  | .relativeTopK => node ∈ (byScore alive).take cfg.pruningTopK
  | .relativePercentile =>
      ∀ threshold, ((alive.map (·.score)).insertionSort (· ≤ ·))[cfg.percentileIndex alive.length]? =
        some threshold → 1 < alive.length → threshold ≤ node.score

variable [DecidableEq σ]

def PrunesWell (ε : Type) (cfg : ToTConfig R) (search : Search σ S R η)
    (nodes : List (ThoughtNode σ R)) : Prop :=
  ∃ search' kept, applyPruning (ε := ε) cfg search nodes = (search', .ok kept) ∧
    PrunesTo cfg search search' nodes kept

/-- No node that is kept stands in the list twice. -/
def KeptOnce (cfg : ToTConfig R) (alive : List (ThoughtNode σ R)) : Prop :=
  ∀ node ∈ alive, Keeps cfg alive node → alive.count node ≤ 1

/-! ## Keeping a part -/

section Parts

variable {cfg : ToTConfig R} {search : Search σ S R η} {nodes kept removed : List (ThoughtNode σ R)}

theorem markDeadEnd_nil (search : Search σ S R η) : search.markDeadEnd [] = search := by
  simp [Search.markDeadEnd]

/-- **A part that is as good as the rest** is kept well, unless a node of it stands in the list twice. -/
theorem prunesTo_iff (hperm : (kept ++ removed).Perm (aliveNodes search nodes))
    (hbest : ∀ node ∈ removed, ∀ other ∈ kept, node.score ≤ other.score)
    (hsome : cfg.pruningMethod ≠ .fixedThreshold → aliveNodes search nodes ≠ [] → kept ≠ []) :
    PrunesTo cfg search (search.markDeadEnd removed) nodes kept ↔
      ∀ node ∈ kept, (aliveNodes search nodes).count node ≤ 1 := by
  have hcount : ∀ node, (aliveNodes search nodes).count node = kept.count node + removed.count node := by
    intro node
    rw [← hperm.count_eq node, List.count_append]
  have hmem : ∀ node, node ∈ aliveNodes search nodes ↔ node ∈ kept ∨ node ∈ removed := by
    intro node
    rw [← hperm.mem_iff, List.mem_append]
  have hmark : ∀ node, (search.markDeadEnd removed).evaluation node =
      if node ∈ removed then .deadEnd else search.evaluation node := fun _ => rfl
  have halive : ∀ node ∈ aliveNodes search nodes, search.evaluation node ≠ .deadEnd := by
    intro node hnode
    exact of_decide_eq_true (List.mem_filter.mp hnode).2
  constructor
  · intro h node hnode
    have hkept : kept.count node ≤ 1 := List.nodup_iff_count_le_one.mp h.once node
    have hremoved : node ∉ removed := by
      intro hin
      have hsame := h.others node (.inr hnode)
      rw [hmark, if_pos hin] at hsame
      exact halive node (h.alive node hnode) hsame.symm
    rw [hcount, List.count_eq_zero_of_not_mem hremoved]
    exact hkept
  · intro h
    have hapart : ∀ node ∈ kept, node ∉ removed := by
      intro node hkept hremoved
      have htwice := h node hkept
      have hone := List.count_pos_iff.mpr hkept
      have hother := List.count_pos_iff.mpr hremoved
      rw [hcount] at htwice
      omega
    refine ⟨fun node hnode => (hmem node).mpr (.inl hnode), ?_, ?_, ?_, ?_, hsome⟩
    · refine List.nodup_iff_count_le_one.mpr fun node => ?_
      by_cases hnode : node ∈ kept
      · have hone := h node hnode
        rw [hcount] at hone
        omega
      · rw [List.count_eq_zero_of_not_mem hnode]
        exact Nat.zero_le 1
    · intro node hnode hnot other hother
      exact hbest node (((hmem node).mp hnode).resolve_left hnot) other hother
    · intro node hnode hnot
      rw [hmark, if_pos (((hmem node).mp hnode).resolve_left hnot)]
    · intro node hnode
      rw [hmark, if_neg]
      intro hin
      rcases hnode with hnot | hkept
      · exact hnot ((hmem node).mpr (.inr hin))
      · exact hapart node hkept hin

/-- The nodes that are not below a threshold. -/
theorem applyThreshold_prunes (threshold : R)
    (hsome : cfg.pruningMethod ≠ .fixedThreshold → aliveNodes search nodes ≠ [] →
      ∃ node ∈ aliveNodes search nodes, threshold ≤ node.score) :
    PrunesTo cfg search (applyThreshold threshold search (aliveNodes search nodes)).1 nodes
        (applyThreshold threshold search (aliveNodes search nodes)).2 ↔
      ∀ node ∈ aliveNodes search nodes, threshold ≤ node.score →
        (aliveNodes search nodes).count node ≤ 1 := by
  have hperm : ((aliveNodes search nodes).filter (fun node => ¬node.score < threshold) ++
      (aliveNodes search nodes).filter fun node => node.score < threshold).Perm
        (aliveNodes search nodes) := by
    refine List.perm_append_comm.trans ?_
    simpa only [decide_not] using List.filter_append_perm (fun node => decide (node.score < threshold))
      (aliveNodes search nodes)
  have hkept : ∀ node, node ∈ (aliveNodes search nodes).filter (fun node => ¬node.score < threshold) ↔
      node ∈ aliveNodes search nodes ∧ threshold ≤ node.score := by
    intro node
    simp
  refine (prunesTo_iff hperm ?_ ?_).trans ?_
  · intro node hnode other hother
    have hbelow : node.score < threshold := by
      simpa using (List.mem_filter.mp hnode).2
    exact hbelow.le.trans ((hkept other).mp hother).2
  · intro hmethod halive hnone
    obtain ⟨node, hnode, hscore⟩ := hsome hmethod halive
    have hin := (hkept node).mpr ⟨hnode, hscore⟩
    rw [hnone] at hin
    exact absurd hin List.not_mem_nil
  · constructor
    · intro h node hnode hscore
      exact h node ((hkept node).mpr ⟨hnode, hscore⟩)
    · intro h node hnode
      exact h node ((hkept node).mp hnode).1 ((hkept node).mp hnode).2

theorem prunesTo_all :
    PrunesTo cfg search search nodes (aliveNodes search nodes) ↔
      ∀ node ∈ aliveNodes search nodes, (aliveNodes search nodes).count node ≤ 1 := by
  have hall : PrunesTo cfg search (search.markDeadEnd []) nodes (aliveNodes search nodes) ↔
      ∀ node ∈ aliveNodes search nodes, (aliveNodes search nodes).count node ≤ 1 :=
    prunesTo_iff (by rw [List.append_nil]) (fun _ hnode => absurd hnode List.not_mem_nil)
      fun _ halive => halive
  rwa [markDeadEnd_nil] at hall

omit [DecidableEq σ] in
theorem byScore_pairwise (alive : List (ThoughtNode σ R)) :
    (byScore alive).Pairwise fun first second => second.score ≤ first.score :=
  List.pairwise_insertionSort _ alive

/-- The first of the sorted nodes. -/
theorem applyTopK_prunes (hpos : 1 ≤ cfg.pruningTopK) :
    PrunesTo cfg search (applyTopK cfg search (aliveNodes search nodes)).1 nodes
        (applyTopK cfg search (aliveNodes search nodes)).2 ↔
      ∀ node ∈ (byScore (aliveNodes search nodes)).take cfg.pruningTopK,
        (aliveNodes search nodes).count node ≤ 1 := by
  have hsorted : (byScore (aliveNodes search nodes)).length = (aliveNodes search nodes).length :=
    (byScore_perm _).length_eq
  unfold applyTopK
  by_cases hlength : (aliveNodes search nodes).length ≤ cfg.pruningTopK
  · rw [if_pos hlength, List.take_of_length_le (hsorted.trans_le hlength)]
    refine prunesTo_all.trans ⟨?_, ?_⟩
    · intro h node hnode
      exact h node ((byScore_perm _).mem_iff.mp hnode)
    · intro h node hnode
      exact h node ((byScore_perm _).mem_iff.mpr hnode)
  · rw [if_neg hlength]
    refine prunesTo_iff ?_ ?_ ?_
    · rw [List.take_append_drop]
      exact byScore_perm _
    · intro node hnode other hother
      have hpairs := byScore_pairwise (aliveNodes search nodes)
      rw [← List.take_append_drop cfg.pruningTopK (byScore _), List.pairwise_append] at hpairs
      exact hpairs.2.2 other hother node hnode
    · intro _ _ hnone
      have hzero := congrArg List.length hnone
      rw [List.length_take, hsorted, List.length_nil] at hzero
      omega

variable {pruningPercentile : ℚ}

omit [LinearOrder R] [DecidableEq σ] in
/-- **The index is in the list** just when the percentile is below 1. -/
theorem percentileIndex_lt (h : cfg.Admits pruningPercentile) {n : ℕ}
    (hpos : 0 < n) : cfg.percentileIndex n < n ↔ pruningPercentile < 1 := by
  have hlength : (0 : ℚ) < n := Nat.cast_pos.mpr hpos
  rw [h.index, Nat.floor_lt (mul_nonneg hlength.le h.percentile.1)]
  exact mul_lt_iff_lt_one_right hlength

theorem applyPruning_nil : applyPruning (ε := ε) cfg search [] = (search, .ok []) := by
  rw [applyPruning, if_pos rfl]

theorem applyPruning_eq (hnodes : nodes ≠ []) :
    applyPruning (ε := ε) cfg search nodes = match cfg.pruningMethod with
      | .fixedThreshold =>
          ((applyThreshold cfg.pruningThreshold search (aliveNodes search nodes)).1,
            .ok (applyThreshold cfg.pruningThreshold search (aliveNodes search nodes)).2)
      | .relativeTopK =>
          ((applyTopK cfg search (aliveNodes search nodes)).1,
            .ok (applyTopK cfg search (aliveNodes search nodes)).2)
      | .relativePercentile => applyPercentile cfg search (aliveNodes search nodes) := by
  rw [applyPruning, if_neg hnodes]
  rfl

theorem prunesWell_of_eq {search' : Search σ S R η}
    (h : applyPruning (ε := ε) cfg search nodes = (search', .ok kept)) :
    PrunesWell ε cfg search nodes ↔ PrunesTo cfg search search' nodes kept := by
  constructor
  · rintro ⟨other, otherKept, heq, hprunes⟩
    rw [h] at heq
    obtain ⟨rfl, hok⟩ := Prod.mk.inj heq
    cases hok
    exact hprunes
  · intro hprunes
    exact ⟨search', kept, h, hprunes⟩

/-- The nodes that are not below the score at the index. -/
theorem applyPercentile_prunes (h : cfg.Admits pruningPercentile)
    (hmethod : cfg.pruningMethod = .relativePercentile) (hnodes : nodes ≠ []) :
    PrunesWell ε cfg search nodes ↔
      ((aliveNodes search nodes).length ≤ 1 ∨ pruningPercentile < 1) ∧
        KeptOnce cfg (aliveNodes search nodes) := by
  have heq : applyPruning (ε := ε) cfg search nodes = applyPercentile cfg search (aliveNodes search nodes) := by
    rw [applyPruning_eq hnodes, hmethod]
  by_cases hone : (aliveNodes search nodes).length ≤ 1
  · rw [applyPercentile, if_pos hone] at heq
    rw [prunesWell_of_eq heq, prunesTo_all]
    constructor
    · intro hcount
      exact ⟨.inl hone, fun node hnode _ => hcount node hnode⟩
    · intro _ node _
      exact List.count_le_length.trans hone
  · have hpos : 0 < (aliveNodes search nodes).length := by omega
    rw [applyPercentile, if_neg hone] at heq
    by_cases hindex : cfg.percentileIndex (aliveNodes search nodes).length <
        (aliveNodes search nodes).length
    · have hlt : cfg.percentileIndex (aliveNodes search nodes).length <
          (((aliveNodes search nodes).map (·.score)).insertionSort (· ≤ ·)).length := by
        rw [List.length_insertionSort, List.length_map]
        exact hindex
      rw [List.getElem?_eq_getElem hlt] at heq
      have hkeeps : KeptOnce cfg (aliveNodes search nodes) ↔
          ∀ node ∈ aliveNodes search nodes,
            (((aliveNodes search nodes).map (·.score)).insertionSort (· ≤ ·))[cfg.percentileIndex
              (aliveNodes search nodes).length] ≤ node.score →
            (aliveNodes search nodes).count node ≤ 1 := by
        simp only [KeptOnce, Keeps, hmethod, List.getElem?_eq_getElem hlt, Option.some.injEq,
          forall_eq', Nat.lt_of_not_le hone, forall_const]
      rw [prunesWell_of_eq heq, hkeeps, applyThreshold_prunes]
      · exact ⟨fun hcount => ⟨.inr ((percentileIndex_lt h hpos).mp hindex), hcount⟩, And.right⟩
      · intro _ _
        have hin := List.getElem_mem hlt
        rw [List.mem_insertionSort, List.mem_map] at hin
        obtain ⟨node, hnode, hscore⟩ := hin
        exact ⟨node, hnode, hscore.ge⟩
    · -- the index is past the last score
      rw [List.getElem?_eq_none (by simpa using hindex)] at heq
      constructor
      · rintro ⟨search', kept, hok, _⟩
        rw [heq] at hok
        cases (Prod.mk.inj hok).2
      · rintro ⟨hshort | hbelow, _⟩
        · exact absurd hshort hone
        · exact absurd ((percentileIndex_lt h hpos).mpr hbelow) hindex

end Parts

/-- The default configuration, but for the percentile. -/
def percentileConfig (pruningPercentile : ℚ) : ToTConfig ℕ where
  maxDepth := 5
  maxThoughtsPerStep := 3
  beamWidth := 3
  pruningMethod := .relativePercentile
  pruningThreshold := 0
  pruningTopK := 3
  percentileIndex := fun n => ⌊n * pruningPercentile⌋₊
  solutionThreshold := 1
  enableParallelExpansion := false
  maxParallelExpansions := 5
  parallel_pos := five_pos

/-- A worse node and a better one. -/
def twoNodes : List (ThoughtNode ℕ ℕ) := [⟨[0], 1, [], 1, 0⟩, ⟨[1], 2, [], 1, 1⟩]

end SkyClaw.Reasoning
