import Mathlib.Data.List.Induction

/-!
# Lists whose items need earlier items

An item of a list needs keys and gives keys.  A list is grounded when an earlier item gives each key
that an item needs.  A cut keeps a list grounded unless it severs an item from what it needs.
-/

namespace Grounded

variable {α κ : Type*} (needs gives : α → List κ)

/-- An earlier item gives what an item needs. -/
def Grounded (l : List α) : Prop :=
  ∀ before a after, l = before ++ a :: after → ∀ k ∈ needs a, ∃ b ∈ before, k ∈ gives b

/-- An item is kept, and what gives it a key is all dropped. -/
def Severs (dropped kept : List α) : Prop :=
  ∃ before a after, kept = before ++ a :: after ∧
    ∃ k ∈ needs a, (∃ b ∈ dropped, k ∈ gives b) ∧ ∀ b ∈ before, k ∉ gives b

variable {needs gives}

theorem grounded_nil : Grounded needs gives [] := by
  intro before a after h
  exact absurd h (by simp)

variable {l : List α}

theorem grounded_of_append {more : List α} (h : Grounded needs gives (l ++ more)) :
    Grounded needs gives l := by
  intro before a after heq k hk
  exact h before a (after ++ more) (by rw [heq, List.append_assoc]; rfl) k hk

theorem grounded_concat {a : α} (h : Grounded needs gives l)
    (ha : ∀ k ∈ needs a, ∃ b ∈ l, k ∈ gives b) : Grounded needs gives (l ++ [a]) := by
  intro before b after heq k hk
  rcases List.eq_nil_or_concat after with rfl | ⟨more, last, rfl⟩
  · obtain ⟨rfl, rfl⟩ := List.append_inj' heq rfl |>.imp id List.singleton_inj.mp
    exact ha k hk
  · rw [List.concat_eq_append, ← List.cons_append, ← List.append_assoc] at heq
    exact h before b more (List.append_inj' heq rfl).1 k hk

theorem grounded_concat_of_needs_eq_nil {a : α} (h : Grounded needs gives l)
    (ha : needs a = []) : Grounded needs gives (l ++ [a]) := by
  refine grounded_concat h fun k hk => ?_
  rw [ha] at hk
  cases hk

/-- **A cut keeps a list grounded** exactly when it severs nothing. -/
theorem grounded_of_append_iff {dropped kept : List α}
    (h : Grounded needs gives (dropped ++ kept)) :
    Grounded needs gives kept ↔ ¬ Severs needs gives dropped kept := by
  constructor
  · rintro hkept ⟨before, a, after, heq, k, hk, _, hnone⟩
    obtain ⟨b, hb, hgives⟩ := hkept before a after heq k hk
    exact hnone b hb hgives
  · intro hsevers before a after heq k hk
    have hwhole : dropped ++ kept = (dropped ++ before) ++ a :: after := by
      rw [heq, List.append_assoc]
    obtain ⟨b, hb, hgives⟩ := h _ a after hwhole k hk
    rcases List.mem_append.mp hb with hdropped | hbefore
    · by_contra hnone
      push_neg at hnone
      exact hsevers ⟨before, a, after, heq, k, hk, ⟨b, hdropped, hgives⟩, hnone⟩
    · exact ⟨b, hbefore, hgives⟩

theorem not_severs_nil (kept : List α) : ¬ Severs needs gives [] kept := by
  rintro ⟨_, _, _, _, _, _, ⟨_, hb, _⟩, _⟩
  cases hb

theorem grounded_append {front : List α} (hfront : ∀ a ∈ front, needs a = [])
    (h : Grounded needs gives l) : Grounded needs gives (front ++ l) := by
  induction l using List.reverseRecOn with
  | nil =>
      rw [List.append_nil]
      intro before a after heq k hk
      rw [hfront a (by rw [heq]; simp)] at hk
      cases hk
  | append_singleton l a ih =>
      rw [← List.append_assoc]
      refine grounded_concat (ih (grounded_of_append h)) fun k hk => ?_
      obtain ⟨b, hb, hgives⟩ := h l a [] rfl k hk
      exact ⟨b, List.mem_append_right _ hb, hgives⟩

theorem grounded_filter {p : α → Bool} (hp : ∀ a ∈ l, p a = false → gives a = [])
    (h : Grounded needs gives l) : Grounded needs gives (l.filter p) := by
  induction l using List.reverseRecOn with
  | nil => exact grounded_nil
  | append_singleton l a ih =>
      have hrest := ih (fun b hb => hp b (List.mem_append_left _ hb)) (grounded_of_append h)
      rw [List.filter_append]
      cases hkeep : p a with
      | false =>
          rw [List.filter_cons_of_neg (by simp [hkeep]), List.filter_nil, List.append_nil]
          exact hrest
      | true =>
          rw [List.filter_cons_of_pos hkeep, List.filter_nil]
          refine grounded_concat hrest fun k hk => ?_
          obtain ⟨b, hb, hgives⟩ := h l a [] rfl k hk
          refine ⟨b, List.mem_filter.mpr ⟨hb, ?_⟩, hgives⟩
          by_contra hdrop
          rw [hp b (List.mem_append_left _ hb) (by simpa using hdrop)] at hgives
          cases hgives

end Grounded
