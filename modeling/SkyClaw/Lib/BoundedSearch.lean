import Mathlib.Order.Nat

/-!
# Searches up to a depth

A search looks for a goal among the states that a start reaches in a bounded number of steps.  It
expands states, each at the depth at which it met them, and keeps others for later.

`Swept` is the invariant of a search that meets the states by depth: no goal is missed, and none at
a smaller depth than the first one found.  `Explored` is that of a search in any order which
expands every state once: a goal is missed only behind a state that was first met at the bound.
-/

namespace BoundedSearch

variable {σ : Type*}

/-! ## Walks -/

/-- A walk of a number of steps. -/
def Walk (step : σ → σ → Prop) : Nat → σ → σ → Prop
  | 0, s, t => s = t
  | n + 1, s, t => ∃ u, step s u ∧ Walk step n u t

variable {step : σ → σ → Prop}

variable {s t : σ}

@[simp] theorem walk_zero : Walk step 0 s t ↔ s = t := Iff.rfl

variable {n : Nat}

theorem Walk.snoc {u : σ} (h : Walk step n s t) (hstep : step t u) :
    Walk step (n + 1) s u := by
  induction n generalizing s with
  | zero =>
      obtain rfl : s = t := h
      exact ⟨u, hstep, rfl⟩
  | succ n ih =>
      obtain ⟨v, hfirst, hrest⟩ := h
      exact ⟨v, hfirst, ih hrest⟩

theorem Walk.exists_last {u : σ} (h : Walk step (n + 1) s u) :
    ∃ t, Walk step n s t ∧ step t u := by
  induction n generalizing s with
  | zero =>
      obtain ⟨v, hstep, hrest⟩ := h
      obtain rfl : v = u := hrest
      exact ⟨s, rfl, hstep⟩
  | succ n ih =>
      obtain ⟨v, hfirst, hrest⟩ := h
      obtain ⟨t, hwalk, hlast⟩ := ih hrest
      exact ⟨t, ⟨v, hfirst, hwalk⟩, hlast⟩

variable (step) (goal : σ → Prop) (bound : Nat) (start : σ)

/-- A state is met at a depth or above it: it is kept for later, or it is no goal and has been
expanded, if that was not past the bound. -/
def Covered (kept expanded : σ → Nat → Prop) (s : σ) (depth : Nat) : Prop :=
  (∃ d ≤ depth, kept s d) ∨ ¬goal s ∧ (bound ≤ depth ∨ ∃ d ≤ depth, expanded s d)

/-- **The invariant by depth**: the start is covered, and so is what an expanded state leads to. -/
structure Swept (kept expanded : σ → Nat → Prop) : Prop where
  initial : Covered goal bound kept expanded start 0
  closed : ∀ s d, expanded s d → ∀ t, step s t → Covered goal bound kept expanded t (d + 1)

variable {step goal bound start} {kept expanded : σ → Nat → Prop}

theorem Covered.mono {d e : Nat} (h : Covered goal bound kept expanded s d) (hle : d ≤ e) :
    Covered goal bound kept expanded s e := by
  rcases h with ⟨c, hc, hkept⟩ | ⟨hgoal, hbound | ⟨c, hc, hexpanded⟩⟩
  · exact .inl ⟨c, hc.trans hle, hkept⟩
  · exact .inr ⟨hgoal, .inl (hbound.trans hle)⟩
  · exact .inr ⟨hgoal, .inr ⟨c, hc.trans hle, hexpanded⟩⟩

theorem Covered.imp {kept' expanded' : σ → Nat → Prop} {e : Nat}
    (h : Covered goal bound kept expanded s e)
    (hkept : ∀ s d, kept s d → kept' s d ∨ ¬goal s ∧ (bound ≤ d ∨ ∃ c ≤ d, expanded' s c))
    (hexpanded : ∀ s d, expanded s d → expanded' s d) :
    Covered goal bound kept' expanded' s e := by
  rcases h with ⟨d, hd, hmem⟩ | ⟨hgoal, hbound | ⟨d, hd, hmem⟩⟩
  · rcases hkept s d hmem with hmem' | ⟨hgoal, hbound | ⟨c, hc, hmem'⟩⟩
    · exact .inl ⟨d, hd, hmem'⟩
    · exact .inr ⟨hgoal, .inl (hbound.trans hd)⟩
    · exact .inr ⟨hgoal, .inr ⟨c, hc.trans hd, hmem'⟩⟩
  · exact .inr ⟨hgoal, .inl hbound⟩
  · exact .inr ⟨hgoal, .inr ⟨d, hd, hexpanded s d hmem⟩⟩

theorem Swept.covered {k : Nat} (h : Swept step goal bound start kept expanded)
    (hdeep : ∀ s d, kept s d → n < d) (hn : n ≤ bound) (hk : k ≤ n) (hwalk : Walk step k start t) :
    Covered goal bound kept expanded t k := by
  induction k generalizing t with
  | zero =>
      obtain rfl : start = t := hwalk
      exact h.initial
  | succ k ih =>
      obtain ⟨s, hwalk, hstep⟩ := hwalk.exists_last
      rcases ih (by omega) hwalk with ⟨d, hd, hkept⟩ | ⟨_, hbound | ⟨d, hd, hexpanded⟩⟩
      · have hlt := hdeep s d hkept
        omega
      · omega
      · exact (h.closed s d hexpanded t hstep).mono (by omega)

/-- **No goal above what is kept.** -/
theorem Swept.not_goal (h : Swept step goal bound start kept expanded)
    (hdeep : ∀ s d, kept s d → n < d) (hn : n ≤ bound) (hwalk : Walk step n start t) :
    ¬goal t := by
  rcases h.covered hdeep hn le_rfl hwalk with ⟨d, hd, hkept⟩ | ⟨hgoal, _⟩
  · have hlt := hdeep t d hkept
    omega
  · exact hgoal

/-! ## In any order -/

variable (step goal bound start)

/-- **The invariant in any order**: a marked state is no goal, and unless it was met at the bound
whatever it leads to is marked or pending. -/
structure Explored (marked pending : σ → Prop) : Prop where
  initial : marked start ∨ pending start
  closed : ∀ s, marked s → ¬goal s ∧
    ∃ d, Walk step d start s ∧ (d = bound ∨ ∀ t, step s t → marked t ∨ pending t)

/-- A goal behind a state that is reached in exactly the bound, and in fewer steps as well. -/
def Blocked : Prop :=
  ∃ s t j i, Walk step bound start s ∧ Walk step j start s ∧ j < bound ∧
    Walk step i s t ∧ j + i ≤ bound ∧ goal t

variable {step goal bound start} {marked pending : σ → Prop}

theorem Explored.blocked_of_marked {i j : Nat}
    (h : Explored step goal bound start marked pending) (hnone : ∀ s, ¬pending s)
    (hmarked : marked s) (hreach : Walk step j start s) (hwalk : Walk step i s t)
    (hle : j + i ≤ bound) (hgoal : goal t) : Blocked step goal bound start := by
  induction i generalizing j s with
  | zero =>
      obtain rfl : s = t := hwalk
      exact absurd hgoal (h.closed s hmarked).1
  | succ i ih =>
      obtain ⟨_, d, hmet, hbound | hnext⟩ := h.closed s hmarked
      · subst hbound
        exact ⟨s, t, j, i + 1, hmet, hreach, by omega, hwalk, hle, hgoal⟩
      · obtain ⟨u, hstep, hrest⟩ := hwalk
        have hmarked' : marked u := (hnext u hstep).resolve_right (hnone u)
        exact ih hmarked' (hreach.snoc hstep) hrest (by omega)

/-- **A goal that is missed is blocked.** -/
theorem Explored.blocked {k : Nat} (h : Explored step goal bound start marked pending)
    (hnone : ∀ s, ¬pending s) (hwalk : Walk step k start t) (hk : k ≤ bound) (hgoal : goal t) :
    Blocked step goal bound start := by
  have hstart : Walk step 0 start start := walk_zero.mpr rfl
  exact h.blocked_of_marked hnone (h.initial.resolve_right (hnone start)) hstart hwalk
    (by omega) hgoal

theorem Explored.imp {marked' pending' : σ → Prop}
    (h : Explored step goal bound start marked pending)
    (hmarked : ∀ s, marked s → marked' s) (hpending : ∀ s, pending s → marked' s ∨ pending' s)
    (hnew : ∀ s, marked' s → marked s ∨ ¬goal s ∧
      ∃ d, Walk step d start s ∧ (d = bound ∨ ∀ t, step s t → marked' t ∨ pending' t)) :
    Explored step goal bound start marked' pending' := by
  constructor
  · rcases h.initial with hstart | hstart
    · exact .inl (hmarked start hstart)
    · exact hpending start hstart
  · intro s hs
    rcases hnew s hs with hold | hclosed
    · obtain ⟨hgoal, d, hwalk, hrest⟩ := h.closed s hold
      refine ⟨hgoal, d, hwalk, hrest.imp_right fun hnext t hstep => ?_⟩
      rcases hnext t hstep with ht | ht
      · exact .inl (hmarked t ht)
      · exact hpending t ht
    · exact hclosed

end BoundedSearch
