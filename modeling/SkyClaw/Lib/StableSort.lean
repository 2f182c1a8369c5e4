import Mathlib.Data.List.Sort

/-!
# Sorting by a key

`sortBy key` is stable: rows of equal keys stay as they stood.  `sortBy_eq_iff` says when lists of the
same rows are sorted alike.
-/

namespace StableSort

open List

variable {α κ : Type*} [LinearOrder κ] (key : α → κ)

/-- `sorted(rows, key=key)` -/
def sortBy (rows : List α) : List α := rows.insertionSort fun a b => key a ≤ key b

theorem perm_sortBy (rows : List α) : (sortBy key rows).Perm rows := List.perm_insertionSort _ rows

variable {key} {rows others : List α} {a b : α}

theorem pairwise_sortBy (rows : List α) : (sortBy key rows).Pairwise fun a b => key a ≤ key b :=
  List.pairwise_insertionSort _ rows

theorem pair_sortBy (hle : key a ≤ key b) (h : [a, b] <+ rows) : [a, b] <+ sortBy key rows :=
  List.pair_sublist_insertionSort hle h

/-- Two different rows stand in one order only. -/
theorem not_pair_swap (hnodup : rows.Nodup) (h : [a, b] <+ rows) : ¬ [b, a] <+ rows := by
  induction rows with
  | nil => cases h
  | cons c rows ih =>
      obtain ⟨hc, hrest⟩ := List.nodup_cons.mp hnodup
      intro hswap
      have hmem : ∀ {x y : α}, [x, y] <+ c :: rows → [x, y] <+ rows ∨ (x = c ∧ y ∈ rows) := by
        intro x y hxy
        cases hxy with
        | cons _ h => exact .inl h
        | cons_cons _ h => exact .inr ⟨rfl, List.singleton_sublist.mp h⟩
      rcases hmem h with hab | ⟨rfl, hb⟩
      · rcases hmem hswap with hba | ⟨rfl, -⟩
        · exact ih hrest hab hba
        · exact hc (hab.subset (by simp))
      · rcases hmem hswap with hba | ⟨rfl, -⟩
        · exact hc (hba.subset (by simp))
        · exact hc hb

theorem pair_or_swap (hne : a ≠ b) (ha : a ∈ rows) (hb : b ∈ rows) :
    [a, b] <+ rows ∨ [b, a] <+ rows := by
  induction rows with
  | nil => cases ha
  | cons c rows ih =>
      rcases List.mem_cons.mp ha with rfl | hrows
      · exact .inl ((List.singleton_sublist.mpr ((List.mem_cons.mp hb).resolve_left hne.symm)).cons_cons a)
      · rcases List.mem_cons.mp hb with rfl | hrows'
        · exact .inr ((List.singleton_sublist.mpr hrows).cons_cons b)
        · exact (ih hrows hrows').imp (List.Sublist.cons c) (List.Sublist.cons c)

theorem pair_append_iff {c : α} : [a, b] <+ rows ++ [c] ↔ [a, b] <+ rows ∨ (a ∈ rows ∧ b = c) := by
  rw [← List.reverse_sublist, ← @List.reverse_sublist _ _ rows]
  simp [List.cons_sublist_cons', and_comm]

theorem pair_filter_iff {p : α → Bool} :
    [a, b] <+ rows.filter p ↔ [a, b] <+ rows ∧ p a = true ∧ p b = true := by
  constructor
  · intro h
    exact ⟨h.trans List.filter_sublist, List.of_mem_filter (h.subset (by simp)),
      List.of_mem_filter (h.subset (by simp))⟩
  · rintro ⟨h, ha, hb⟩
    simpa [ha, hb] using h.filter p

/-- **Lists of the same rows are sorted alike** just if rows of equal keys stand alike. -/
theorem sortBy_eq_iff (hnodup : rows.Nodup) (hperm : rows.Perm others) :
    sortBy key rows = sortBy key others ↔
      ∀ a b, key a = key b → [a, b] <+ rows → [a, b] <+ others := by
  have hsorted := (perm_sortBy key rows).trans (hperm.trans (perm_sortBy key others).symm)
  constructor
  · intro h a b hkey hab
    have hne : a ≠ b := by
      rintro rfl
      exact not_pair_swap hnodup hab hab
    refine (pair_or_swap hne (hperm.subset (hab.subset (by simp)))
      (hperm.subset (hab.subset (by simp)))).resolve_right fun hba => ?_
    have hfirst := pair_sortBy hkey.le hab
    rw [h] at hfirst
    exact not_pair_swap ((perm_sortBy key others).nodup_iff.mpr (hperm.nodup_iff.mp hnodup)) hfirst
      (pair_sortBy hkey.ge hba)
  · intro h
    have hnodup' := (perm_sortBy key rows).nodup_iff.mpr hnodup
    refine @List.Perm.eq_of_pairwise _ (fun a b => [a, b] <+ sortBy key rows) _ _ ?_
      (List.pairwise_iff_forall_sublist.mpr id) (List.pairwise_iff_forall_sublist.mpr ?_) hsorted
    · exact fun a b _ _ hab hba => absurd hba (not_pair_swap hnodup' hab)
    · intro a b hab
      have hne : a ≠ b := by
        rintro rfl
        exact not_pair_swap (hsorted.nodup_iff.mp hnodup') hab hab
      have hmem : ∀ {x}, x ∈ [a, b] → x ∈ sortBy key rows := fun hx =>
        hsorted.symm.subset (hab.subset hx)
      refine (pair_or_swap hne (hmem (by simp)) (hmem (by simp))).resolve_right fun hba => ?_
      have hkey : key b = key a :=
        le_antisymm (List.pairwise_iff_forall_sublist.mp (pairwise_sortBy rows) hba)
          (List.pairwise_iff_forall_sublist.mp (pairwise_sortBy others) hab)
      rcases pair_or_swap hne.symm ((perm_sortBy key rows).subset (hmem (by simp)))
        ((perm_sortBy key rows).subset (hmem (by simp))) with hold | hold
      · exact not_pair_swap (hsorted.nodup_iff.mp hnodup') hab
          (pair_sortBy hkey.le (h b a hkey hold))
      · exact not_pair_swap hnodup' hba (pair_sortBy hkey.ge hold)

theorem filter_orderedInsert (p : α → Bool) (hsorted : rows.Pairwise fun a b => key a ≤ key b) :
    (rows.orderedInsert (fun a b => key a ≤ key b) a).filter p =
      if p a then (rows.filter p).orderedInsert (fun a b => key a ≤ key b) a else rows.filter p := by
  induction rows with
  | nil => cases hp : p a <;> simp [hp]
  | cons b rows ih =>
      obtain ⟨hb, hrest⟩ := List.pairwise_cons.mp hsorted
      by_cases hle : key a ≤ key b
      · have hfront : (rows.filter p).orderedInsert (fun a b => key a ≤ key b) a =
            a :: rows.filter p := by
          cases hrows : rows.filter p with
          | nil => rfl
          | cons c more =>
              have hc : c ∈ rows := List.mem_of_mem_filter (hrows ▸ List.mem_cons_self)
              exact List.orderedInsert_cons_of_le _ _ (hle.trans (hb c hc))
        cases hp : p a <;> cases hpb : p b <;> simp [hle, hp, hpb, hfront]
      · cases hp : p a <;> cases hpb : p b <;> simp [hle, hp, hpb, ih hrest]

/-- What is left out may as well be left out before. -/
theorem filter_sortBy (p : α → Bool) (rows : List α) :
    (sortBy key rows).filter p = sortBy key (rows.filter p) := by
  induction rows with
  | nil => rfl
  | cons a rows ih =>
      show (List.orderedInsert _ a (sortBy key rows)).filter p = _
      rw [filter_orderedInsert p (pairwise_sortBy rows), ih, List.filter_cons]
      split_ifs <;> rfl

end StableSort
