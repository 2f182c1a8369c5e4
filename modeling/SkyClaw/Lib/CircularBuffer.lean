import Mathlib.Data.Nat.ModEq
import Mathlib.Data.List.Basic

/-!
# A list in circular slots

`window` reads a list off slots that are counted modulo a capacity.  A write behind the last entry
appends to the list (`window_write`); in a full window it takes the place of the first entry
(`window_overwrite`).
-/

namespace CircularBuffer

variable {β : Type*}

/-- The `size` entries from the slot `head` on. -/
def window (slots : Nat → β) (capacity head size : Nat) : List β :=
  (List.range size).map fun i => slots ((head + i) % capacity)

variable (slots : Nat → β) {capacity head size : Nat}

@[simp] theorem length_window : (window slots capacity head size).length = size := by
  simp [window]

theorem mod_ne {i : Nat} (hi : i < size) (hsize : size < capacity) :
    (head + i) % capacity ≠ (head + size) % capacity := by
  intro heq
  have hmod : i ≡ size [MOD capacity] := Nat.ModEq.add_left_cancel' head heq
  have hsame : i = size := hmod.eq_of_lt_of_lt (hi.trans hsize) hsize
  omega

/-- **A write behind the last entry appends.** -/
theorem window_write (hsize : size < capacity) (entry : β) :
    window (Function.update slots ((head + size) % capacity) entry) capacity head (size + 1) =
      window slots capacity head size ++ [entry] := by
  unfold window
  rw [List.range_succ, List.map_append, List.map_singleton, Function.update_self]
  congr 1
  refine List.map_congr_left fun i hi => ?_
  exact Function.update_of_ne (mod_ne (List.mem_range.mp hi) hsize) _ _

theorem window_succ (hhead : head < capacity) :
    window slots capacity head (size + 1) =
      slots head :: window slots capacity ((head + 1) % capacity) size := by
  unfold window
  rw [List.range_succ_eq_map, List.map_cons, List.map_map, Nat.add_zero, Nat.mod_eq_of_lt hhead]
  congr 1
  refine List.map_congr_left fun i _ => ?_
  show slots ((head + (i + 1)) % capacity) = _
  rw [Nat.mod_add_mod]
  congr 2
  omega

/-- **A write into a full window** takes the place of its first entry. -/
theorem window_overwrite (hhead : head < capacity) (entry : β) :
    slots head :: window (Function.update slots ((head + capacity) % capacity) entry) capacity
        ((head + 1) % capacity) capacity =
      window slots capacity head capacity ++ [entry] := by
  obtain ⟨size, rfl⟩ : ∃ size, capacity = size + 1 := ⟨capacity - 1, by omega⟩
  -- The slot that is written is the last one from the next slot on.
  have hlast : (head + (size + 1)) % (size + 1) = ((head + 1) % (size + 1) + size) % (size + 1) := by
    rw [Nat.mod_add_mod]
    congr 1
    omega
  rw [hlast, window_write slots (Nat.lt_succ_self size), window_succ slots hhead]
  rfl

end CircularBuffer
