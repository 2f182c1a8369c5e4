import Mathlib.Data.List.DropRight

/-!
# A window over the end of a history

A bounded queue keeps the last entries of all that was appended to it (`push_rtake`), so that a
question about fewer entries than it keeps is answered as over the whole history
(`lastRelated_rtake`).
-/

namespace TailWindow

variable {α β : Type*}

/-- An append to a queue with a greatest length. -/
def push (size : Nat) (window : List α) (entry : α) : List α := (window ++ [entry]).rtake size

/-- There are `count` entries, and any two of the last `count` are related. -/
def LastRelated (R : α → α → Prop) (count : Nat) (history : List α) : Prop :=
  count ≤ history.length ∧ ∀ a ∈ history.rtake count, ∀ b ∈ history.rtake count, R a b

theorem rtake_append (history more : List α) (count : Nat) (h : more.length ≤ count) :
    (history ++ more).rtake count = history.rtake (count - more.length) ++ more := by
  simp only [List.rtake, List.length_append]
  rw [List.drop_append_of_le_length (by omega)]
  congr 2
  omega

theorem rtake_rtake (history : List α) {count size : Nat} (h : count ≤ size) :
    (history.rtake size).rtake count = history.rtake count := by
  simp only [List.rtake, List.length_drop, List.drop_drop]
  congr 1
  omega

theorem length_rtake (history : List α) (count : Nat) :
    (history.rtake count).length = min count history.length := by
  simp only [List.rtake, List.length_drop]
  omega

theorem map_rtake (f : α → β) (history : List α) (count : Nat) :
    (history.rtake count).map f = (history.map f).rtake count := by
  simp only [List.rtake, List.map_drop, List.length_map]

/-- **The window is the end of the history.** -/
theorem push_rtake (history : List α) {size : Nat} (hsize : 0 < size) (entry : α) :
    push size (history.rtake size) entry = (history ++ [entry]).rtake size := by
  have hone : [entry].length ≤ size := hsize
  rw [push, rtake_append _ _ _ hone, rtake_append _ _ _ hone, rtake_rtake _ (Nat.sub_le _ _)]

variable {R : α → α → Prop}

/-- **The window is enough** for a question about no more entries than it keeps. -/
theorem lastRelated_rtake (history : List α) {count size : Nat}
    (h : count ≤ size) :
    LastRelated R count (history.rtake size) ↔ LastRelated R count history := by
  rw [LastRelated, LastRelated, rtake_rtake history h, length_rtake]
  have hlong : count ≤ min size history.length ↔ count ≤ history.length := by omega
  rw [hlong]

theorem lastRelated_map {R : β → β → Prop} (f : α → β) (count : Nat) (history : List α) :
    LastRelated R count (history.map f) ↔
      LastRelated (fun a b => R (f a) (f b)) count history := by
  rw [LastRelated, LastRelated, ← map_rtake, List.length_map]
  simp only [List.forall_mem_map]

theorem LastRelated.last {count : Nat} {history : List α} {entry : α}
    (h : LastRelated R count (history ++ [entry])) (hcount : 0 < count) : R entry entry := by
  have hone : [entry].length ≤ count := hcount
  have hmem : entry ∈ (history ++ [entry]).rtake count := by
    rw [rtake_append _ _ _ hone]
    exact List.mem_append_right _ (List.mem_singleton_self entry)
  exact h.2 entry hmem entry hmem

theorem LastRelated.congr {S : α → α → Prop} {count : Nat} {history : List α}
    (h : ∀ a ∈ history, ∀ b ∈ history, R a b ↔ S a b) :
    LastRelated R count history ↔ LastRelated S count history := by
  have hmem : ∀ a ∈ history.rtake count, a ∈ history := fun a ha => List.mem_of_mem_drop ha
  refine and_congr_right fun _ => ?_
  constructor
  · exact fun hR a ha b hb => (h a (hmem a ha) b (hmem b hb)).mp (hR a ha b hb)
  · exact fun hS a ha b hb => (h a (hmem a ha) b (hmem b hb)).mpr (hS a ha b hb)

section Repeated

variable [DecidableEq α]

/-- The last `count` entries are the first of them. -/
def repeated (count : Nat) (history : List α) : Bool :=
  count ≤ history.length &&
    match history.rtake count with
    | [] => true
    | first :: rest => (first :: rest).all (· = first)

theorem repeated_iff (count : Nat) (history : List α) :
    repeated count history = true ↔ LastRelated (· = ·) count history := by
  unfold repeated LastRelated
  rw [Bool.and_eq_true, decide_eq_true_eq]
  refine and_congr_right fun _ => ?_
  cases history.rtake count with
  | nil => simp
  | cons first rest =>
      simp only [List.all_eq_true, decide_eq_true_eq]
      constructor
      · exact fun h a ha b hb => (h a ha).trans (h b hb).symm
      · exact fun h a ha => h a ha first List.mem_cons_self

end Repeated

end TailWindow
