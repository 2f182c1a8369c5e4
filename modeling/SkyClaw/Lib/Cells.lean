import Mathlib.Data.List.Basic

/-!
# Cells that are addressed by their place

A list whose members are known by their index: they are added at the end, changed in place, and
never removed.  `Has p cells i`: there is a cell at place `i`, and it satisfies `p`.
-/

namespace Cells

variable {α : Type*} {p : α → Bool} {cells : List α}

/-- There is a cell at place `i` that satisfies `p`. -/
def Has (p : α → Bool) (cells : List α) (i : Nat) : Prop :=
  ∃ cell, cells[i]? = some cell ∧ p cell = true

instance (i : Nat) : Decidable (Has p cells i) :=
  decidable_of_iff ((cells[i]?).any p = true) (by
    unfold Has
    cases cells[i]? with
    | none => simp
    | some cell => simp)

variable {i : Nat}

theorem Has.lt_length (h : Has p cells i) : i < cells.length := by
  obtain ⟨cell, hcell, -⟩ := h
  exact (List.getElem?_eq_some_iff.mp hcell).1

@[simp] theorem not_has_nil (i : Nat) : ¬Has p [] i := fun h => Nat.not_lt_zero _ h.lt_length

variable {j : Nat}

theorem Has.of_set {cell new : α} (hcell : cells[i]? = some cell)
    (hnew : p new = true → p cell = true) (h : Has p (cells.set i new) j) : Has p cells j := by
  obtain ⟨other, hother, hp⟩ := h
  by_cases hij : i = j
  · subst hij
    rw [List.getElem?_set_self (List.getElem?_eq_some_iff.mp hcell).1] at hother
    cases hother
    exact ⟨cell, hcell, hnew hp⟩
  · rw [List.getElem?_set_ne hij] at hother
    exact ⟨other, hother, hp⟩

theorem Has.set_ne (new : α) (hij : i ≠ j) (h : Has p cells j) :
    Has p (cells.set i new) j := by
  obtain ⟨other, hother, hp⟩ := h
  exact ⟨other, (List.getElem?_set_ne hij).trans hother, hp⟩

theorem not_has_set_self {new : α} (hnew : p new = false) :
    ¬Has p (cells.set i new) i := by
  rintro ⟨other, hother, hp⟩
  have hlength := (List.getElem?_eq_some_iff.mp hother).1
  rw [List.length_set] at hlength
  rw [List.getElem?_set_self hlength] at hother
  cases hother
  exact absurd (hnew.symm.trans hp) Bool.false_ne_true

theorem Has.of_append {new : α} (h : Has p (cells ++ [new]) j) :
    Has p cells j ∨ j = cells.length := by
  have hlength := h.lt_length
  rw [List.length_append, List.length_singleton] at hlength
  rcases Nat.lt_succ_iff_lt_or_eq.mp hlength with hj | hj
  · obtain ⟨other, hother, hp⟩ := h
    rw [List.getElem?_append_left hj] at hother
    exact .inl ⟨other, hother, hp⟩
  · exact .inr hj

variable {f : α → α}

theorem Has.of_modify (hf : ∀ cell, p (f cell) = true → p cell = true)
    (h : Has p (cells.modify i f) j) : Has p cells j := by
  obtain ⟨other, hother, hp⟩ := h
  rw [List.getElem?_modify] at hother
  obtain ⟨cell, hcell, rfl⟩ := Option.map_eq_some_iff.mp hother
  refine ⟨cell, hcell, ?_⟩
  split at hp
  · exact hf cell hp
  · exact hp

theorem not_has_modify_self (hf : ∀ cell, p (f cell) = false) :
    ¬Has p (cells.modify i f) i := by
  rintro ⟨other, hother, hp⟩
  rw [List.getElem?_modify] at hother
  obtain ⟨cell, -, rfl⟩ := Option.map_eq_some_iff.mp hother
  rw [if_pos rfl, hf] at hp
  cases hp

end Cells
