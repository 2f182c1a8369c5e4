import Mathlib.Data.Finset.Max
import Mathlib.Data.List.Sort

/-!
# `ORDER BY`

What a query may answer that orders its rows by a key: rows with the same key come in any order.
The rows have an order of their own, that of their numbers; the answers are in that order exactly
when the key rises strictly along it.
-/

namespace OrderBy

variable {α κ : Type*} [LinearOrder α] [LinearOrder κ]

/-- An answer of `SELECT … ORDER BY key ASC`. -/
structure IsAnswer (key : α → κ) (rows answer : List α) : Prop where
  perm : answer.Perm rows
  sorted : answer.Pairwise fun a b => key a ≤ key b

/-- An answer of `SELECT … ORDER BY key DESC LIMIT 1`. -/
def IsLast (key : α → κ) (rows : List α) (row : α) : Prop :=
  row ∈ rows ∧ ∀ other ∈ rows, key other ≤ key row

variable {rows : List α}

theorem rel_of_lt {R : α → α → Prop} (hrows : rows.Pairwise (· < ·))
    (hR : rows.Pairwise R) {a b : α} (ha : a ∈ rows) (hb : b ∈ rows) (hlt : a < b) : R a b := by
  induction rows with
  | nil => cases ha
  | cons first rest ih =>
      obtain ⟨hfirst, hrest⟩ := List.pairwise_cons.mp hrows
      obtain ⟨hRfirst, hRrest⟩ := List.pairwise_cons.mp hR
      rcases List.mem_cons.mp ha with rfl | haRest
      · rcases List.mem_cons.mp hb with rfl | hbRest
        · exact absurd hlt (lt_irrefl b)
        · exact hRfirst b hbRest
      · rcases List.mem_cons.mp hb with rfl | hbRest
        · exact absurd hlt (not_lt_of_gt (hfirst a haRest))
        · exact ih hrest hRrest haRest hbRest

/-- There is an answer that puts rows with the same key in the reverse of their own order. -/
theorem exists_isAnswer_reversed (key : α → κ) (rows : List α) :
    ∃ answer, IsAnswer key rows answer ∧
      answer.Pairwise fun a b => key a < key b ∨ (key a = key b ∧ b ≤ a) := by
  let before : α → α → Bool := fun a b => decide (key a < key b ∨ (key a = key b ∧ b ≤ a))
  have htrans : ∀ a b c, before a b = true → before b c = true → before a c = true := by
    intro a b c hab hbc
    simp only [before, decide_eq_true_eq] at hab hbc ⊢
    rcases hab with hab | ⟨hab, hba⟩
    · rcases hbc with hbc | ⟨hbc, -⟩
      · exact .inl (hab.trans hbc)
      · exact .inl (hbc ▸ hab)
    · rcases hbc with hbc | ⟨hbc, hcb⟩
      · exact .inl (hab ▸ hbc)
      · exact .inr ⟨hab.trans hbc, hcb.trans hba⟩
  have htotal : ∀ a b, (before a b || before b a) = true := by
    intro a b
    simp only [before, Bool.or_eq_true, decide_eq_true_eq]
    rcases lt_trichotomy (key a) (key b) with hlt | heq | hgt
    · exact .inl (.inl hlt)
    · rcases le_total b a with hba | hab
      · exact .inl (.inr ⟨heq, hba⟩)
      · exact .inr (.inr ⟨heq.symm, hab⟩)
    · exact .inr (.inl hgt)
  have hsorted : (rows.mergeSort before).Pairwise
      fun a b => key a < key b ∨ (key a = key b ∧ b ≤ a) :=
    (List.pairwise_mergeSort htrans htotal rows).imp fun h => of_decide_eq_true h
  refine ⟨rows.mergeSort before, ⟨List.mergeSort_perm rows before, ?_⟩, hsorted⟩
  refine hsorted.imp fun h => ?_
  rcases h with hlt | ⟨heq, -⟩
  · exact hlt.le
  · exact heq.le

/-- **Answers in the rows' own order.** -/
theorem forall_isAnswer_iff {key : α → κ} (hrows : rows.Pairwise (· < ·)) :
    (∀ answer, IsAnswer key rows answer → answer = rows) ↔
      ∀ a ∈ rows, ∀ b ∈ rows, a < b → key a < key b := by
  constructor
  · intro h a ha b hb hlt
    obtain ⟨answer, hanswer, hreversed⟩ := exists_isAnswer_reversed key rows
    rw [h answer hanswer] at hreversed
    -- the order of the rows is the reversed one only where the keys differ
    rcases rel_of_lt hrows hreversed ha hb hlt with hkey | ⟨-, hle⟩
    · exact hkey
    · exact absurd hlt (not_lt_of_ge hle)
  · intro h answer hanswer
    have hstrict : rows.Pairwise fun a b => key a ≤ key b :=
      hrows.imp_of_mem fun ha hb hlt => (h _ ha _ hb hlt).le
    refine List.Perm.eq_of_pairwise ?_ hanswer.sorted hstrict hanswer.perm
    intro a b ha hb hab hba
    rcases lt_trichotomy a b with hlt | heq | hgt
    · exact absurd (h a (hanswer.perm.mem_iff.mp ha) b hb hlt) (not_lt_of_ge hba)
    · exact heq
    · exact absurd (h b hb a (hanswer.perm.mem_iff.mp ha) hgt) (not_lt_of_ge hab)

theorem IsLast.greatest {key : α → κ} {row : α} (h : IsLast key rows row)
    (hkey : ∀ a ∈ rows, ∀ b ∈ rows, a < b → key a < key b) : ∀ other ∈ rows, other ≤ row := by
  intro other hother
  by_contra hlt
  exact absurd (hkey row h.1 other hother (lt_of_not_ge hlt)) (not_lt_of_ge (h.2 other hother))

theorem key_lt_of_forall_isLast {key : α → κ} {greatest other : α}
    (hgreatest : ∀ row ∈ rows, row ≤ greatest) (hother : other ∈ rows) (hlt : other < greatest)
    (h : ∀ row, IsLast key rows row → greatest ≤ row) : key other < key greatest := by
  -- the last of the other rows is no answer, so it is before the greatest
  have hne : (rows.toFinset.filter (· < greatest)).Nonempty :=
    ⟨other, Finset.mem_filter.mpr ⟨List.mem_toFinset.mpr hother, hlt⟩⟩
  obtain ⟨last, hlast, hmax⟩ := Finset.exists_max_image _ key hne
  obtain ⟨hlastMem, hlastLt⟩ := Finset.mem_filter.mp hlast
  have hle : key other ≤ key last :=
    hmax other (Finset.mem_filter.mpr ⟨List.mem_toFinset.mpr hother, hlt⟩)
  refine lt_of_le_of_lt hle ?_
  by_contra hnot
  have hanswer : IsLast key rows last := by
    refine ⟨List.mem_toFinset.mp hlastMem, fun row hrow => ?_⟩
    rcases (hgreatest row hrow).lt_or_eq with hbefore | rfl
    · exact hmax row (Finset.mem_filter.mpr ⟨List.mem_toFinset.mpr hrow, hbefore⟩)
    · exact le_of_not_gt hnot
  exact absurd hlastLt (not_lt_of_ge (h last hanswer))

end OrderBy
