import Mathlib.Algebra.BigOperators.Group.List.Basic
import Mathlib.Data.List.Infix
import Mathlib.Data.List.Nodup

/-!
# Sums over subtrees

A node of a tree is the list of the turns to it, the last one first: the root is `[]`, the parent of
`i :: node` is `node`, and a node lies below its suffixes.  A log says what has been added at which
nodes.  What is changed along the way to the root is changed at the nodes above
(`updateAlong_apply`), and the sum over a subtree is the sum at its root and those over the
subtrees below it (`subtreeSum_split`).
-/

namespace SubtreeSums

open Function

variable {ι α M : Type*} [DecidableEq ι]

/-! ## Updates along a path -/

/-- A change of a node, of its parent, and so on up to the root. -/
def updateAlong (f : α → α) : List ι → (List ι → α) → List ι → α
  | [], m => update m [] (f (m []))
  | i :: node, m => updateAlong f node (update m (i :: node) (f (m (i :: node))))

theorem updateAlong_apply (f : α → α) (node : List ι) (m : List ι → α) (other : List ι) :
    updateAlong f node m other = if other <:+ node then f (m other) else m other := by
  induction node generalizing m with
  | nil =>
      rw [updateAlong]
      by_cases hroot : other = []
      · rw [if_pos (List.suffix_nil.mpr hroot), hroot, update_self]
      · rw [if_neg (mt List.suffix_nil.mp hroot), update_of_ne hroot]
  | cons i node ih =>
      rw [updateAlong, ih]
      by_cases hself : other = i :: node
      · subst hself
        have hnot : ¬i :: node <:+ node := by
          intro h
          have hlength := h.length_le
          rw [List.length_cons] at hlength
          omega
        rw [if_neg hnot, update_self, if_pos List.suffix_rfl]
      · rw [update_of_ne hself]
        have hiff : other <:+ i :: node ↔ other <:+ node := by
          rw [List.suffix_cons_iff, or_iff_right hself]
        simp only [hiff]

variable [AddCommMonoid M]

/-- What has been added at a node. -/
def sumAt (log : List (List ι × M)) (node : List ι) : M :=
  ((log.filter fun entry => entry.1 = node).map Prod.snd).sum

/-- What has been added at a node and below it. -/
def subtreeSum (log : List (List ι × M)) (node : List ι) : M :=
  ((log.filter fun entry => node <:+ entry.1).map Prod.snd).sum

@[simp] theorem sumAt_nil (node : List ι) : sumAt ([] : List (List ι × M)) node = 0 := rfl

@[simp] theorem subtreeSum_nil (node : List ι) : subtreeSum ([] : List (List ι × M)) node = 0 := rfl

theorem sumAt_cons (entry : List ι × M) (log : List (List ι × M)) (node : List ι) :
    sumAt (entry :: log) node = (if entry.1 = node then entry.2 else 0) + sumAt log node := by
  unfold sumAt
  by_cases h : entry.1 = node
  · rw [List.filter_cons_of_pos (by simpa using h), if_pos h, List.map_cons, List.sum_cons]
  · rw [List.filter_cons_of_neg (by simpa using h), if_neg h, zero_add]

theorem subtreeSum_cons (entry : List ι × M) (log : List (List ι × M)) (node : List ι) :
    subtreeSum (entry :: log) node =
      (if node <:+ entry.1 then entry.2 else 0) + subtreeSum log node := by
  unfold subtreeSum
  by_cases h : node <:+ entry.1
  · rw [List.filter_cons_of_pos (by simpa using h), if_pos h, List.map_cons, List.sum_cons]
  · rw [List.filter_cons_of_neg (by simpa using h), if_neg h, zero_add]

theorem subtreeSum_concat (log : List (List ι × M)) (entry : List ι × M) (node : List ι) :
    subtreeSum (log ++ [entry]) node =
      subtreeSum log node + if node <:+ entry.1 then entry.2 else 0 := by
  induction log with
  | nil => rw [List.nil_append, subtreeSum_cons, subtreeSum_nil, zero_add, add_zero]
  | cons first log ih => rw [List.cons_append, subtreeSum_cons, subtreeSum_cons, ih, add_assoc]

theorem sumAt_const {N : Type*} (log : List (List ι × N)) (value : M) (node : List ι)
    (honce : (log.map Prod.fst).Nodup) :
    sumAt (log.map fun entry => (entry.1, value)) node =
      if node ∈ log.map Prod.fst then value else 0 := by
  induction log with
  | nil => simp
  | cons entry log ih =>
      rw [List.map_cons, List.nodup_cons] at honce
      rw [List.map_cons, sumAt_cons, ih honce.2, List.map_cons]
      by_cases h : entry.1 = node
      · rw [if_pos h, if_neg (h ▸ honce.1), if_pos (List.mem_cons.mpr (.inl h.symm)), add_zero]
      · have hiff : node ∈ entry.1 :: log.map Prod.fst ↔ node ∈ log.map Prod.fst := by
          rw [List.mem_cons, or_iff_right (Ne.symm h)]
        rw [if_neg h, zero_add]
        simp only [hiff]

/-! ## The split -/

omit [DecidableEq ι] in
/-- **Below a node, a node is the node itself or below one child.** -/
theorem suffix_iff_eq_or_child (node other : List ι) :
    node <:+ other ↔ other = node ∨ ∃ i, i :: node <:+ other := by
  constructor
  · rintro ⟨above, rfl⟩
    rcases List.eq_nil_or_concat above with rfl | ⟨rest, i, rfl⟩
    · exact .inl rfl
    · refine .inr ⟨i, rest, ?_⟩
      rw [List.concat_eq_append, List.append_assoc, List.singleton_append]
  · rintro (rfl | ⟨i, h⟩)
    · exact List.suffix_rfl
    · exact (List.suffix_cons i node).trans h

omit [DecidableEq ι] in
theorem not_child_suffix (node : List ι) (i : ι) : ¬i :: node <:+ node := by
  intro h
  have hlength := h.length_le
  rw [List.length_cons] at hlength
  omega

omit [DecidableEq ι] in
theorem child_unique {node other : List ι} {i j : ι} (hi : i :: node <:+ other)
    (hj : j :: node <:+ other) : i = j :=
  (List.cons.inj ((List.suffix_or_suffix_of_suffix hi hj).elim
    (fun h => h.eq_of_length rfl) fun h => (h.eq_of_length rfl).symm)).1

theorem sum_children (children : List ι) (hnodup : children.Nodup) (node other : List ι) (value : M)
    (hchildren : ∀ i, i :: node <:+ other → i ∈ children) :
    (children.map fun i => if i :: node <:+ other then value else 0).sum =
      if node <:+ other ∧ other ≠ node then value else 0 := by
  by_cases hbelow : ∃ i, i :: node <:+ other
  · obtain ⟨i, hi⟩ := hbelow
    have hne : other ≠ node := by
      rintro rfl
      exact not_child_suffix other i hi
    rw [if_pos ⟨(suffix_iff_eq_or_child node other).mpr (.inr ⟨i, hi⟩), hne⟩,
      List.sum_map_eq_nsmul_single i _ fun j hj _ => if_neg fun h => hj (child_unique h hi),
      List.count_eq_one_of_mem hnodup (hchildren i hi), one_nsmul, if_pos hi]
  · have hnone : ¬(node <:+ other ∧ other ≠ node) := by
      rintro ⟨h, hne⟩
      exact ((suffix_iff_eq_or_child node other).mp h).elim hne hbelow
    have hzero : (fun i => if i :: node <:+ other then value else 0) = fun _ : ι => (0 : M) := by
      funext i
      exact if_neg fun h => hbelow ⟨i, h⟩
    rw [if_neg hnone, hzero, List.sum_map_zero]

/-- **A subtree's sum** is what has been added at its root, and the sums of the subtrees below. -/
theorem subtreeSum_split (log : List (List ι × M)) (node : List ι) (children : List ι)
    (hnodup : children.Nodup)
    (hchildren : ∀ entry ∈ log, ∀ i, i :: node <:+ entry.1 → i ∈ children) :
    subtreeSum log node =
      sumAt log node + (children.map fun i => subtreeSum log (i :: node)).sum := by
  induction log with
  | nil => simp
  | cons entry log ih =>
      have hrest := ih fun other hother => hchildren other (List.mem_cons_of_mem _ hother)
      have hhere := sum_children children hnodup node entry.1 entry.2
        (hchildren entry List.mem_cons_self)
      simp only [subtreeSum_cons, sumAt_cons, List.sum_map_add]
      rw [hhere, hrest]
      by_cases hself : entry.1 = node
      · rw [if_pos hself, if_pos (hself ▸ List.suffix_rfl), if_neg fun h => h.2 hself, zero_add,
          add_assoc]
      · rw [if_neg hself, zero_add]
        have hiff : node <:+ entry.1 ∧ entry.1 ≠ node ↔ node <:+ entry.1 := and_iff_left hself
        simp only [hiff]
        rw [add_left_comm]

end SubtreeSums
