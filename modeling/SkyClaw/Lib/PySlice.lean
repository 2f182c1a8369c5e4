import Mathlib.Data.List.Basic

/-!
# Slices of lists

`l[:i]` and `l[i:]` for an integer index, which counts from the end when it is negative.
-/

namespace PySlice

variable {α : Type*}

/-- The place in a list of length `n` that an index stands for. -/
def place (n : Nat) (i : Int) : Nat := if i < 0 then (n + i).toNat else min i.toNat n

/-- `l[:i]` -/
def before (l : List α) (i : Int) : List α := l.take (place l.length i)

/-- `l[i:]` -/
def after (l : List α) (i : Int) : List α := l.drop (place l.length i)

/-- The last `n` items; none for a negative number. -/
def last (l : List α) (n : Int) : List α := l.drop (l.length - n.toNat)

theorem before_append_after (l : List α) (i : Int) : before l i ++ after l i = l :=
  List.take_append_drop _ l

theorem after_suffix (l : List α) (i : Int) : after l i <:+ l := List.drop_suffix _ l

theorem place_neg_le (n : Nat) (i : Int) : place n (-i) ≤ n - i.toNat := by
  unfold place
  split_ifs with hneg
  · omega
  · omega

theorem last_sublist_after (l : List α) (n : Int) : (last l n).Sublist (after l (-n)) :=
  List.drop_sublist_drop_left l (place_neg_le l.length n)

theorem after_neg_one (l : List α) (a : α) : after (l ++ [a]) (-1) = [a] := by
  have hplace : place (l ++ [a]).length (-1) = l.length := by
    unfold place
    rw [List.length_append, List.length_singleton]
    split_ifs <;> omega
  rw [after, hplace, List.drop_left]

theorem before_neg_of_le {l : List α} {n : Int} (hn : 0 ≤ n) (h : (l.length : Int) ≤ n) :
    before l (-n) = [] := by
  have hplace : place l.length (-n) = 0 := by
    unfold place
    split_ifs <;> omega
  rw [before, hplace, List.take_zero]

end PySlice
