import Mathlib.Data.List.Basic

/-!
# Sets as tables of slots

A set whose items stand in the slots of a table, in any order, as a hash table has them.  An item stays
in its slot until it is discarded or the table is rebuilt, so going through the slots meets each item
that stays exactly once (`scan_eq_some`, `scan_eq_none`).
-/

/-- A table without an item in two slots. -/
structure SlotTable (α : Type*) where
  slots : List (Option α)
  single : ∀ (i j : Nat) (c : α), slots[i]? = some (some c) → slots[j]? = some (some c) → i = j

namespace SlotTable

variable {α : Type*}

/-- So many slots, and no items. -/
def empty (n : Nat) : SlotTable α :=
  ⟨List.replicate n none, fun i j c h => by
    rw [List.getElem?_replicate] at h
    split at h
    · cases Option.some.inj h
    · cases h⟩

/-- The item is in this slot. -/
def At (t : SlotTable α) (i : Nat) (c : α) : Prop := t.slots[i]? = some (some c)

instance : Membership α (SlotTable α) := ⟨fun t c => ∃ i, t.At i c⟩

/-- `len(s)` -/
def size (t : SlotTable α) : Nat := t.slots.countP Option.isSome

/-- `list(s)` -/
def items (t : SlotTable α) : List α := t.slots.filterMap id

theorem mem_items_iff {t : SlotTable α} {c : α} : c ∈ t.items ↔ c ∈ t := by
  unfold items
  rw [List.mem_filterMap]
  constructor
  · rintro ⟨slot, hslot, rfl⟩
    exact List.mem_iff_getElem?.mp hslot
  · rintro ⟨i, hi⟩
    exact ⟨some c, List.mem_iff_getElem?.mpr ⟨i, hi⟩, rfl⟩

theorem size_pos_of_mem {t : SlotTable α} {c : α} (h : c ∈ t) : 0 < t.size := by
  obtain ⟨i, hi⟩ := h
  exact List.countP_pos_iff.mpr ⟨some c, List.mem_iff_getElem?.mpr ⟨i, hi⟩, rfl⟩

section Changes

variable [DecidableEq α]

instance (t : SlotTable α) (c : α) : Decidable (c ∈ t) := decidable_of_iff _ mem_items_iff

/-- `s.add(c)`, into a slot that is free, without a rebuild. -/
def insertAt (t : SlotTable α) (c : α) (i : Nat) : Option (SlotTable α) :=
  if h : c ∉ t ∧ t.slots[i]? = some none then
    some ⟨t.slots.set i (some c), by
      have hnew : ∀ j d, (t.slots.set i (some c))[j]? = some (some d) →
          (j = i ∧ d = c) ∨ (j ≠ i ∧ t.At j d) := by
        intro j d hj
        rw [List.getElem?_set] at hj
        split_ifs at hj with hij
        · exact Or.inl ⟨hij.symm, (Option.some.inj (Option.some.inj hj)).symm⟩
        · exact Or.inr ⟨Ne.symm hij, hj⟩
      intro j k d hj hk
      rcases hnew j d hj with ⟨rfl, rfl⟩ | ⟨-, hold⟩
      · rcases hnew k d hk with ⟨rfl, -⟩ | ⟨-, hold⟩
        · rfl
        · exact absurd ⟨k, hold⟩ h.1
      · rcases hnew k d hk with ⟨rfl, rfl⟩ | ⟨-, hold'⟩
        · exact absurd ⟨j, hold⟩ h.1
        · exact t.single j k d hold hold'⟩
  else none

/-- `s -= cs` -/
def removeAll (t : SlotTable α) (cs : List α) : SlotTable α :=
  ⟨t.slots.map (Option.filter fun c => decide (c ∉ cs)), by
    intro i j c hi hj
    have hold : ∀ k : Nat, (t.slots.map (Option.filter fun c => decide (c ∉ cs)))[k]? = some (some c) →
        t.slots[k]? = some (some c) := by
      intro k hk
      rw [List.getElem?_map] at hk
      obtain ⟨slot, hslot, hfilter⟩ := Option.map_eq_some_iff.mp hk
      rw [hslot, (Option.filter_eq_some_iff.mp hfilter).1]
    exact t.single i j c (hold i hi) (hold j hj)⟩

/-- `s.discard(c)` -/
def discard (t : SlotTable α) (c : α) : SlotTable α := t.removeAll [c]

theorem at_removeAll_iff {t : SlotTable α} {cs : List α} {i : Nat} {c : α} :
    (t.removeAll cs).At i c ↔ t.At i c ∧ c ∉ cs := by
  unfold At removeAll
  rw [List.getElem?_map, Option.map_eq_some_iff]
  constructor
  · rintro ⟨slot, hslot, hfilter⟩
    obtain ⟨rfl, hnot⟩ := Option.filter_eq_some_iff.mp hfilter
    exact ⟨hslot, of_decide_eq_true hnot⟩
  · rintro ⟨hslot, hnot⟩
    exact ⟨some c, hslot, Option.filter_eq_some_iff.mpr ⟨rfl, decide_eq_true hnot⟩⟩

theorem mem_removeAll_iff {t : SlotTable α} {cs : List α} {c : α} :
    c ∈ t.removeAll cs ↔ c ∈ t ∧ c ∉ cs := by
  constructor
  · rintro ⟨i, hi⟩
    obtain ⟨hold, hnot⟩ := at_removeAll_iff.mp hi
    exact ⟨⟨i, hold⟩, hnot⟩
  · rintro ⟨⟨i, hi⟩, hnot⟩
    exact ⟨i, at_removeAll_iff.mpr ⟨hi, hnot⟩⟩

theorem not_mem_of_insertAt {t t' : SlotTable α} {c : α} {i : Nat} (h : t.insertAt c i = some t') :
    c ∉ t := by
  unfold insertAt at h
  split_ifs at h with hfree
  exact hfree.1

theorem at_insertAt_iff {t t' : SlotTable α} {c d : α} {i j : Nat}
    (h : t.insertAt c i = some t') : t'.At j d ↔ (j = i ∧ d = c) ∨ t.At j d := by
  unfold insertAt at h
  split_ifs at h with hfree
  cases h
  obtain ⟨hlt, hnone⟩ := List.getElem?_eq_some_iff.mp hfree.2
  unfold At
  rw [List.getElem?_set]
  by_cases hij : i = j
  · subst hij
    rw [if_pos rfl, if_pos hlt, hfree.2]
    simp [eq_comm]
  · rw [if_neg hij]
    simp [Ne.symm hij]

end Changes

/-! ## Going through the slots -/

/-- The first item from a slot on, and its slot; the slots are counted from `i`. -/
def scanFrom (start : Nat) : Nat → List (Option α) → Option (Nat × α)
  | _, [] => none
  | i, slot :: slots =>
      match slot with
      | some c => if start ≤ i then some (i, c) else scanFrom start (i + 1) slots
      | none => scanFrom start (i + 1) slots

/-- `next(iterator)` -/
def scan (t : SlotTable α) (start : Nat) : Option (Nat × α) := scanFrom start 0 t.slots

theorem scanFrom_eq_some {start i j : Nat} {slots : List (Option α)} {c : α}
    (h : scanFrom start i slots = some (j, c)) :
    start ≤ j ∧ i ≤ j ∧ slots[j - i]? = some (some c) ∧
      ∀ k d, slots[k]? = some (some d) → start ≤ i + k → j ≤ i + k := by
  induction slots generalizing i with
  | nil => cases h
  | cons slot slots ih =>
      have hlater : scanFrom start (i + 1) slots = some (j, c) →
          (∀ d, slot = some d → ¬start ≤ i) → start ≤ j ∧ i ≤ j ∧
            (slot :: slots)[j - i]? = some (some c) ∧
              ∀ k d, (slot :: slots)[k]? = some (some d) → start ≤ i + k → j ≤ i + k := by
        intro hscan hfirst
        obtain ⟨hstart, hle, hat, hnext⟩ := ih hscan
        refine ⟨hstart, by omega, ?_, fun k d hk hstart => ?_⟩
        · rw [show j - i = (j - (i + 1)) + 1 by omega]
          exact hat
        · cases k with
          | zero => exact absurd hstart (hfirst d (Option.some.inj hk))
          | succ k =>
              have := hnext k d hk (by omega)
              omega
      cases slot with
      | none => exact hlater h fun d hd => by cases hd
      | some d =>
          rw [scanFrom] at h
          split_ifs at h with hstart
          · cases h
            refine ⟨hstart, Nat.le_refl _, ?_, fun k d _ _ => Nat.le_add_right _ _⟩
            rw [Nat.sub_self]
            rfl
          · exact hlater h fun _ _ => hstart

theorem scanFrom_eq_none {start i : Nat} {slots : List (Option α)}
    (h : scanFrom start i slots = none) :
    ∀ k d, slots[k]? = some (some d) → i + k < start := by
  induction slots generalizing i with
  | nil =>
      intro k d hk
      cases hk
  | cons slot slots ih =>
      have hlater : scanFrom start (i + 1) slots = none → (∀ d, slot = some d → ¬start ≤ i) →
          ∀ k d, (slot :: slots)[k]? = some (some d) → i + k < start := by
        intro hscan hfirst k d hk
        cases k with
        | zero =>
            have := hfirst d (Option.some.inj hk)
            omega
        | succ k =>
            have := ih hscan k d hk
            omega
      cases slot with
      | none => exact hlater h fun d hd => by cases hd
      | some d =>
          rw [scanFrom] at h
          split_ifs at h with hstart
          exact hlater h fun _ _ => hstart

/-- **The next item**: no other one is between. -/
theorem scan_eq_some {t : SlotTable α} {start j : Nat} {c : α} (h : t.scan start = some (j, c)) :
    start ≤ j ∧ t.At j c ∧ ∀ i d, t.At i d → start ≤ i → j ≤ i := by
  obtain ⟨hstart, -, hat, hnext⟩ := scanFrom_eq_some h
  refine ⟨hstart, hat, fun i d hi hle => ?_⟩
  have := hnext i d hi (by omega)
  omega

theorem scan_eq_none {t : SlotTable α} {start : Nat} (h : t.scan start = none) {i : Nat} {c : α}
    (hi : t.At i c) : i < start := by
  have := scanFrom_eq_none h i c hi
  omega

end SlotTable
