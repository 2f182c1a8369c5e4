import SkyClaw.Lib.CircularBuffer
import SkyClaw.Lib.TailWindow

/-!
# `RingBuffer` of the Operations Hub

The circular buffer behind the log stream of `AppState`.  `refines_of_capacity` says that it is the
list of the last entries, over any pushes and clears.

A value of JavaScript is an `Option`, `none` for `undefined`.  Indices are below `2 ^ 32` and exact.
-/

namespace SkyClaw.Web

open TailWindow

/-- A `RingBuffer`; its indices stay within its slots. -/
structure RingBuffer (α : Type) where
  capacity : Nat
  buffer : List (Option α)
  /-- index of the oldest entry -/
  head : Nat
  /-- number of entries currently stored -/
  size : Nat
  length_buffer : buffer.length = capacity
  head_lt : head < capacity
  size_le : size ≤ capacity

namespace RingBuffer

variable {α : Type}

/-- `capacity | 0` -/
def toInt32 (capacity : Int) : Int := capacity.bmod (2 ^ 32)

/-- The constructor, for an integer.  `none` where it throws, and for a capacity that has no bits
below `2 ^ 32`: the remainders by it are not numbers. -/
def new (capacity : Int) : Option (RingBuffer α) :=
  if capacity ≤ 0 then none
  else if hpos : 0 < toInt32 capacity then
    some
      { capacity := (toInt32 capacity).toNat
        buffer := List.replicate (toInt32 capacity).toNat none
        head := 0
        size := 0
        length_buffer := List.length_replicate
        head_lt := by omega
        size_le := Nat.zero_le _ }
  else none

section

variable (rb : RingBuffer α)

/-- The entry returned is the one that is evicted. -/
def push (item : Option α) : Option α × RingBuffer α :=
  let writeIndex := (rb.head + rb.size) % rb.capacity
  if hroom : rb.size < rb.capacity then
    (none,
      { rb with
        buffer := rb.buffer.set writeIndex item
        size := rb.size + 1
        length_buffer := (List.length_set).trans rb.length_buffer
        size_le := hroom })
  else
    ((rb.buffer[rb.head]?).join,
      { rb with
        buffer := rb.buffer.set writeIndex item
        head := (rb.head + 1) % rb.capacity
        length_buffer := (List.length_set).trans rb.length_buffer
        head_lt := Nat.mod_lt _ (Nat.zero_lt_of_lt rb.head_lt) })

def toArray : List (Option α) :=
  (List.range rb.size).map fun i => (rb.buffer[(rb.head + i) % rb.capacity]?).join

def clear : RingBuffer α :=
  { rb with
    buffer := rb.buffer.map fun _ => none
    head := 0
    size := 0
    length_buffer := (List.length_map _).trans rb.length_buffer
    head_lt := Nat.zero_lt_of_lt rb.head_lt
    size_le := Nat.zero_le _ }

/-- `get length()` -/
def length : Nat := rb.size

/-! ## The list behind it -/

inductive Call (α : Type)
  | push (item : Option α)
  | clear

/-- A buffer with the items pushed since it was last cleared. -/
structure Logged (α : Type) where
  buffer : RingBuffer α
  since : List (Option α)

def step (s : Logged α) : Call α → Logged α
  | .push item => ⟨(s.buffer.push item).2, s.since ++ [item]⟩
  | .clear => ⟨s.buffer.clear, []⟩

def after (calls : List (Call α)) : Logged α := calls.foldl step ⟨rb, []⟩

/-- What is returned has left the list, or nothing has. -/
def Leaves (entries next : List (Option α)) (item returned : Option α) : Prop :=
  (entries ++ [item] = next ∧ returned = none) ∨ entries ++ [item] = returned :: next

/-- **The last entries**, as many as there is room for. -/
structure Refines (capacity : Nat) (s : Logged α) : Prop where
  toArray : s.buffer.toArray = s.since.rtake capacity
  length : s.buffer.length = min capacity s.since.length
  returns : ∀ item, Leaves (s.since.rtake capacity) ((s.since ++ [item]).rtake capacity) item
    (s.buffer.push item).1

/-! ## One push -/

/-- The slots, as they are read. -/
def slots (i : Nat) : Option α := (rb.buffer[i]?).join

theorem toArray_eq :
    rb.toArray = CircularBuffer.window rb.slots rb.capacity rb.head rb.size := rfl

theorem length_toArray : rb.toArray.length = rb.length := by
  rw [toArray_eq, CircularBuffer.length_window]
  rfl

theorem slots_set {buffer : List (Option α)} {index : Nat} (hindex : index < buffer.length)
    (item : Option α) :
    (fun i => ((buffer.set index item)[i]?).join) =
      Function.update (fun i => (buffer[i]?).join) index item := by
  funext i
  by_cases hi : i = index
  · rw [hi, Function.update_self, List.getElem?_set_self hindex]
    rfl
  · rw [Function.update_of_ne hi, List.getElem?_set_ne (Ne.symm hi)]

/-- **A push** appends, and evicts the oldest entry of a full buffer. -/
theorem push_spec (item : Option α) :
    if rb.size < rb.capacity then
      (rb.push item).2.toArray = rb.toArray ++ [item] ∧ (rb.push item).1 = none
    else (rb.push item).1 :: (rb.push item).2.toArray = rb.toArray ++ [item] := by
  have hpos : 0 < rb.capacity := Nat.zero_lt_of_lt rb.head_lt
  have hindex : (rb.head + rb.size) % rb.capacity < rb.buffer.length := by
    rw [rb.length_buffer]
    exact Nat.mod_lt _ hpos
  have hslots := slots_set hindex item
  split
  · next hroom =>
      have hpush : rb.push item = (none,
          { rb with
            buffer := rb.buffer.set ((rb.head + rb.size) % rb.capacity) item
            size := rb.size + 1
            length_buffer := (List.length_set).trans rb.length_buffer
            size_le := hroom }) := dif_pos hroom
      rw [hpush]
      refine ⟨?_, rfl⟩
      show CircularBuffer.window (fun i =>
        ((rb.buffer.set ((rb.head + rb.size) % rb.capacity) item)[i]?).join) _ _ _ = _
      rw [hslots]
      exact CircularBuffer.window_write rb.slots hroom item
  · next hfull =>
      have hsize : rb.size = rb.capacity := Nat.le_antisymm rb.size_le (not_lt.mp hfull)
      have hpush : rb.push item = (rb.slots rb.head,
          { rb with
            buffer := rb.buffer.set ((rb.head + rb.size) % rb.capacity) item
            head := (rb.head + 1) % rb.capacity
            length_buffer := (List.length_set).trans rb.length_buffer
            head_lt := Nat.mod_lt _ hpos }) := dif_neg hfull
      rw [hpush]
      show rb.slots rb.head :: CircularBuffer.window (fun i =>
        ((rb.buffer.set ((rb.head + rb.size) % rb.capacity) item)[i]?).join) rb.capacity
          ((rb.head + 1) % rb.capacity) rb.size = _
      rw [hslots, toArray_eq, hsize]
      exact CircularBuffer.window_overwrite rb.slots rb.head_lt item

theorem capacity_push (item : Option α) : (rb.push item).2.capacity = rb.capacity := by
  unfold push
  dsimp only
  split
  · rfl
  · rfl

end

/-! ## Over any calls -/

/-- The buffer holds the end of what was pushed. -/
structure Holds (capacity : Nat) (s : Logged α) : Prop where
  slots : s.buffer.capacity = capacity
  entries : s.buffer.toArray = s.since.rtake capacity

variable {capacity : Nat} {s : Logged α}

theorem Holds.size (h : Holds capacity s) :
    s.buffer.size = min capacity s.since.length := by
  rw [← length_rtake, ← h.entries]
  exact (length_toArray s.buffer).symm

/-- What a push returns, and what the list is after it. -/
theorem Holds.push (h : Holds capacity s) (item : Option α) :
    (s.buffer.push item).2.toArray = (s.since ++ [item]).rtake capacity ∧
      Leaves (s.since.rtake capacity) ((s.since ++ [item]).rtake capacity) item
        (s.buffer.push item).1 := by
  have hpos : 0 < capacity := h.slots ▸ Nat.zero_lt_of_lt s.buffer.head_lt
  have hsize := h.size
  have hspec := push_spec s.buffer item
  have hnext : (s.since ++ [item]).rtake capacity =
      (s.since.rtake capacity ++ [item]).rtake capacity := (push_rtake s.since hpos item).symm
  rw [h.entries, h.slots] at hspec
  rw [hnext]
  have hlength := length_rtake s.since capacity
  split at hspec
  · next hroom =>
      obtain ⟨harray, hreturned⟩ := hspec
      have hall : (s.since.rtake capacity ++ [item]).rtake capacity =
          s.since.rtake capacity ++ [item] := by
        rw [List.rtake, List.length_append, List.length_singleton, hlength,
          Nat.sub_eq_zero_of_le (by omega), List.drop_zero]
      rw [hall]
      exact ⟨harray, .inl ⟨rfl, hreturned⟩⟩
  · next hfull =>
      have hall : (s.since.rtake capacity ++ [item]).rtake capacity =
          (s.buffer.push item).2.toArray := by
        rw [← hspec, List.rtake, hspec, List.length_append, List.length_singleton, hlength, ← hspec,
          show min capacity s.since.length + 1 - capacity = 1 by omega]
        rfl
      rw [hall]
      exact ⟨rfl, .inr hspec.symm⟩

theorem Holds.step (h : Holds capacity s) (call : Call α) :
    Holds capacity (step s call) := by
  cases call with
  | push item => exact ⟨(capacity_push s.buffer item).trans h.slots, (h.push item).1⟩
  | clear =>
      refine ⟨h.slots, ?_⟩
      show [] = List.rtake [] capacity
      simp [List.rtake]

theorem Holds.after (h : Holds capacity s)
    (calls : List (Call α)) : Holds capacity (calls.foldl RingBuffer.step s) := by
  induction calls generalizing s with
  | nil => exact h
  | cons call calls ih => exact ih (h.step call)

/-- **The ring buffer is the list of the last entries**, for every capacity that an array has. -/
theorem refines_of_capacity {capacity : Int} (hpos : 1 ≤ capacity) (hmax : capacity ≤ 2 ^ 31 - 1) :
    ∃ rb : RingBuffer α, new capacity = some rb ∧
      ∀ calls, Refines capacity.toNat (after rb calls) := by
  have hint : toInt32 capacity = capacity := by
    unfold toInt32
    rw [Int.bmod_eq_of_le] <;> omega
  have hnew : ∃ rb : RingBuffer α, new capacity = some rb ∧ rb.capacity = capacity.toNat ∧
      rb.toArray = [] := by
    unfold new
    rw [if_neg (by omega), dif_pos (by omega)]
    exact ⟨_, rfl, congrArg Int.toNat hint, rfl⟩
  obtain ⟨rb, hrb, hcapacity, hempty⟩ := hnew
  refine ⟨rb, hrb, fun calls => ?_⟩
  have hstart : Holds capacity.toNat (⟨rb, []⟩ : Logged α) := by
    refine ⟨hcapacity, ?_⟩
    rw [hempty]
    simp [List.rtake]
  have hafter := hstart.after calls
  exact ⟨hafter.entries, hafter.size, fun item => (hafter.push item).2⟩

theorem refines_of_capacity_three :
    ∃ rb : RingBuffer Nat, new 3 = some rb ∧ ∀ calls, Refines 3 (after rb calls) :=
  refines_of_capacity (by decide) (by decide)

end RingBuffer
end SkyClaw.Web
