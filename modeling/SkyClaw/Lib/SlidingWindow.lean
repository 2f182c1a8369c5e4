import Mathlib.Algebra.Order.Group.Defs
import Mathlib.Data.List.Count
import Mathlib.Data.List.Perm.Basic
import Mathlib.Tactic.Abel

/-!
# At most so many events in each window of time

Events are added to a log at the present time.  A place for an event may be reserved for a time to come:
`Reserved.push` takes a place, and `Reserved.take` uses one that is due, so that no window of the log
gets more than the limit (`AtMost.take`).
-/

namespace SlidingWindow

section Counts

variable {T : Type*} [LinearOrder T]

/-- The events later than a time. -/
def since (c : T) (log : List T) : Nat := log.countP (c < ·)

/-- The reservations that may be used at a time. -/
def dueBy (t : T) (due : List T) : Nat := due.countP (· ≤ t)

@[simp] theorem since_nil (c : T) : since c [] = 0 := rfl

@[simp] theorem since_append (c : T) (log more : List T) :
    since c (log ++ more) = since c log + since c more := List.countP_append

theorem since_singleton (c t : T) : since c [t] = if c < t then 1 else 0 := by
  simp [since, List.countP_singleton]

theorem since_antitone {c d : T} (h : c ≤ d) (log : List T) : since d log ≤ since c log := by
  refine List.countP_mono_left fun t _ ht => ?_
  simp only [decide_eq_true_eq] at ht ⊢
  exact lt_of_le_of_lt h ht

theorem since_dropWhile {c : T} {old : T → Bool} (h : ∀ t, old t = true → t ≤ c) (log : List T) :
    since c (log.dropWhile old) = since c log := by
  induction log with
  | nil => rfl
  | cons t log ih =>
      by_cases hold : old t = true
      · rw [List.dropWhile_cons_of_pos hold, ih]
        have hlate : ¬c < t := not_lt.mpr (h t hold)
        simp [since, hlate]
      · rw [List.dropWhile_cons_of_neg hold]

theorem countP_eraseIdx {α : Type*} {p : α → Bool} {l : List α} {i : Nat} {a : α} (hi : l[i]? = some a) :
    l.countP p = (l.eraseIdx i).countP p + if p a then 1 else 0 := by
  obtain ⟨hlt, rfl⟩ := List.getElem?_eq_some_iff.mp hi
  have hperm : (l[i] :: l.eraseIdx i).Perm l := List.getElem_cons_eraseIdx_perm hlt
  rw [← hperm.countP_eq p, List.countP_cons]

theorem dueBy_eraseIdx {t d : T} {due : List T} {i : Nat} (hi : due[i]? = some d) (hdue : d ≤ t) :
    dueBy t due = dueBy t (due.eraseIdx i) + 1 := by
  rw [dueBy, countP_eraseIdx hi, if_pos (decide_eq_true hdue), dueBy]

end Counts

variable {T : Type*} [AddCommGroup T] [LinearOrder T]

/-- At most `n` events in each window, which has its start and not its end. -/
def AtMost (n : Nat) (width : T) (log : List T) : Prop :=
  ∀ start, log.countP (fun t => start ≤ t ∧ t < start + width) ≤ n

/-- From now on, the events of the last window and the reservations that are due are at most `n`. -/
def Reserved (n : Nat) (width now : T) (log due : List T) : Prop :=
  ∀ t, now ≤ t → since (t - width) log + dueBy t due ≤ n

theorem atMost_nil (n : Nat) (width : T) : AtMost n width [] := fun _ => Nat.zero_le _

section Ordered

variable [IsOrderedAddMonoid T] {n : Nat} {width now : T} {log due : List T}

theorem AtMost.concat (h : AtMost n width log) (hroom : since (now - width) log < n) :
    AtMost n width (log ++ [now]) := by
  intro start
  rw [List.countP_append]
  by_cases hnow : start ≤ now ∧ now < start + width
  · -- What is in the window is in the last window.
    have hlast : log.countP (fun t => start ≤ t ∧ t < start + width) ≤ since (now - width) log := by
      refine List.countP_mono_left fun t ht hin => ?_
      simp only [decide_eq_true_eq] at hin ⊢
      have hstart : now - width < start := sub_lt_iff_lt_add.mpr hnow.2
      exact lt_of_lt_of_le hstart hin.1
    have hone : [now].countP (fun t => start ≤ t ∧ t < start + width) ≤ 1 := List.countP_le_length
    omega
  · have hnone : [now].countP (fun t => start ≤ t ∧ t < start + width) = 0 := by
      simp [hnow]
    rw [hnone]
    exact h start

omit [IsOrderedAddMonoid T] in
theorem Reserved.later {now' : T} (h : Reserved n width now log due) (hle : now ≤ now') :
    Reserved n width now' log due := fun t ht => h t (hle.trans ht)

omit [IsOrderedAddMonoid T] in
theorem Reserved.drop {due' : List T} (h : Reserved n width now log due) (hsub : due'.Sublist due) :
    Reserved n width now log due' := by
  intro t ht
  have hle : dueBy t due' ≤ dueBy t due := hsub.countP_le
  have hall : since (t - width) log + dueBy t due ≤ n := h t ht
  omega

variable {d : T}

/-- **A place is reserved** when the window that ends at its time has room for it and for all the
reservations there are. -/
theorem Reserved.push (h : Reserved n width now log due)
    (hroom : since (d - width) log + due.length < n) :
    Reserved n width now log (due ++ [d]) := by
  intro t ht
  have hall : dueBy t (due ++ [d]) = dueBy t due + dueBy t [d] := List.countP_append
  rw [hall]
  by_cases hdue : d ≤ t
  · have hone : dueBy t [d] ≤ 1 := List.countP_le_length
    have hlen : dueBy t due ≤ due.length := List.countP_le_length
    have hlog : since (t - width) log ≤ since (d - width) log :=
      since_antitone (sub_le_sub_right hdue width) log
    omega
  · have hnone : dueBy t [d] = 0 := by simp [dueBy, hdue]
    rw [hnone]
    exact h t ht

omit [IsOrderedAddMonoid T] in
theorem Reserved.room {i : Nat} (h : Reserved n width now log due)
    (hi : due[i]? = some d) (hdue : d ≤ now) : since (now - width) log < n := by
  have hall : since (now - width) log + dueBy now due ≤ n := h now le_rfl
  have hone : dueBy now due = dueBy now (due.eraseIdx i) + 1 := dueBy_eraseIdx hi hdue
  omega

omit [IsOrderedAddMonoid T] in
/-- **A reservation that is due is used.** -/
theorem Reserved.take {i : Nat} (h : Reserved n width now log due)
    (hi : due[i]? = some d) (hdue : d ≤ now) :
    Reserved n width now (log ++ [now]) (due.eraseIdx i) := by
  intro t ht
  have hall : since (t - width) log + dueBy t due ≤ n := h t ht
  have hone : dueBy t due = dueBy t (due.eraseIdx i) + 1 := dueBy_eraseIdx hi (hdue.trans ht)
  have hnew : since (t - width) [now] ≤ 1 := List.countP_le_length
  rw [since_append]
  omega

end Ordered

end SlidingWindow
