import Mathlib.Logic.Function.Basic

/-!
# Partial maps

A dict as a function to `Option`, changed with `update`: what an entry of the
changed dict says about the dict before, and what a loop over different keys does to each.
-/

namespace PartialMap

open Function

variable {κ α : Type*} [DecidableEq κ] {f : κ → Option α} {k k' : κ} {a b : α}

theorem update_some_eq_some_iff :
    update f k (some a) k' = some b ↔ (k' = k ∧ b = a) ∨ (k' ≠ k ∧ f k' = some b) := by
  by_cases hkey : k' = k
  · subst hkey
    rw [update_self, Option.some_inj]
    constructor
    · rintro rfl
      exact .inl ⟨rfl, rfl⟩
    · rintro (⟨-, rfl⟩ | ⟨hne, -⟩)
      · rfl
      · exact absurd rfl hne
  · rw [update_of_ne hkey]
    constructor
    · intro hold
      exact .inr ⟨hkey, hold⟩
    · rintro (⟨hself, -⟩ | ⟨-, hold⟩)
      · exact absurd hself hkey
      · exact hold

theorem update_none_eq_some_iff :
    update f k none k' = some b ↔ k' ≠ k ∧ f k' = some b := by
  by_cases hkey : k' = k
  · subst hkey
    rw [update_self]
    exact ⟨nofun, fun h => absurd rfl h.1⟩
  · rw [update_of_ne hkey]
    exact (and_iff_right hkey).symm

/-! ## Loops over keys -/

section Loops

variable {σ β : Type*} {step : σ → κ → σ} {view : σ → κ → β}

variable {keys : List κ}

omit [DecidableEq κ]

theorem foldl_view_of_not_mem (hother : ∀ s k k', k' ≠ k → view (step s k) k' = view s k') {k : κ} (hk : k ∉ keys) (s : σ) : view (keys.foldl step s) k = view s k := by
  induction keys generalizing s with
  | nil => rfl
  | cons first rest ih =>
      rw [List.mem_cons, not_or] at hk
      rw [List.foldl_cons, ih hk.2, hother s first k hk.1]

/-- **A loop over different keys**, each step of which changes what belongs to its own key. -/
theorem foldl_view_of_mem (hother : ∀ s k k', k' ≠ k → view (step s k) k' = view s k')
    {change : κ → β → β} (hown : ∀ s k, view (step s k) k = change k (view s k)) (hnodup : keys.Nodup) {k : κ} (hk : k ∈ keys) (s : σ) :
    view (keys.foldl step s) k = change k (view s k) := by
  induction keys generalizing s with
  | nil => cases hk
  | cons first rest ih =>
      rw [List.nodup_cons] at hnodup
      rw [List.foldl_cons]
      rcases List.mem_cons.mp hk with rfl | hk
      · rw [foldl_view_of_not_mem hother hnodup.1, hown]
      · have hne : k ≠ first := fun heq => hnodup.1 (heq ▸ hk)
        rw [ih hnodup.2 hk, hother s first k hne]

/-- A flag that is raised at a key, for what belongs to it, is raised by the loop if it is raised
at one of the keys. -/
theorem foldl_flag_iff (hother : ∀ s k k', k' ≠ k → view (step s k) k' = view s k')
    {flag : σ → Bool} {raises : κ → β → Prop}
    (hraises : ∀ s k, flag (step s k) = true ↔ flag s = true ∨ raises k (view s k)) (hnodup : keys.Nodup) (s : σ) :
    flag (keys.foldl step s) = true ↔ flag s = true ∨ ∃ k ∈ keys, raises k (view s k) := by
  induction keys generalizing s with
  | nil => simp
  | cons first rest ih =>
      rw [List.nodup_cons] at hnodup
      have hrest : (∃ k ∈ rest, raises k (view (step s first) k)) ↔
          ∃ k ∈ rest, raises k (view s k) := by
        refine exists_congr fun k => and_congr_right fun hk => ?_
        rw [hother s first k fun heq => hnodup.1 (heq ▸ hk)]
      simp only [List.foldl_cons, ih hnodup.2, hrest, hraises, or_assoc, List.mem_cons,
        exists_eq_or_imp]

end Loops

/-! ## Entries that are set one after another -/

section Put

/-- `d[k] = a` -/
def put (f : κ → Option α) (entry : κ × α) : κ → Option α :=
  update f entry.1 (some entry.2)

theorem foldl_put_of_not_mem {entries : List (κ × α)} (h : k ∉ entries.map Prod.fst)
    (f : κ → Option α) : entries.foldl put f k = f k := by
  induction entries generalizing f with
  | nil => rfl
  | cons entry rest ih =>
      rw [List.map_cons, List.mem_cons, not_or] at h
      rw [List.foldl_cons, ih h.2]
      exact update_of_ne h.1 _ _

theorem foldl_put_of_last {before after : List (κ × α)} (h : k ∉ after.map Prod.fst)
    (f : κ → Option α) : (before ++ (k, a) :: after).foldl put f k = some a := by
  rw [List.foldl_append, List.foldl_cons, foldl_put_of_not_mem h]
  exact update_self _ _ _

theorem foldl_put_of_mem {entries : List (κ × α)} (hnodup : (entries.map Prod.fst).Nodup)
    (h : (k, a) ∈ entries) (f : κ → Option α) : entries.foldl put f k = some a := by
  obtain ⟨before, after, rfl⟩ := List.append_of_mem h
  refine foldl_put_of_last ?_ f
  rw [List.map_append, List.map_cons, List.nodup_append, List.nodup_cons] at hnodup
  exact hnodup.2.1.1

/-- The last entry of a key. -/
def IsLast (entries : List (κ × α)) (k : κ) (a : α) : Prop :=
  ∃ before after, entries = before ++ (k, a) :: after ∧ k ∉ after.map Prod.fst

omit [DecidableEq κ] in
theorem exists_isLast {entries : List (κ × α)} (h : k ∈ entries.map Prod.fst) :
    ∃ a, IsLast entries k a := by
  induction entries with
  | nil => cases h
  | cons entry rest ih =>
      by_cases hrest : k ∈ rest.map Prod.fst
      · obtain ⟨a, before, after, rfl, hlast⟩ := ih hrest
        exact ⟨a, entry :: before, after, rfl, hlast⟩
      · rw [List.map_cons, List.mem_cons, or_iff_left hrest] at h
        exact ⟨entry.2, [], rest, by rw [h]; rfl, hrest⟩

/-- **Nothing is changed** if each key ends with the value that it had. -/
theorem foldl_put_eq_self_iff {entries : List (κ × α)} :
    entries.foldl put f = f ↔ ∀ k a, IsLast entries k a → f k = some a := by
  constructor
  · rintro hsame k a ⟨before, after, rfl, hlast⟩
    rw [← hsame]
    exact foldl_put_of_last hlast f
  · intro h
    funext k
    by_cases hk : k ∈ entries.map Prod.fst
    · obtain ⟨a, before, after, rfl, hlast⟩ := exists_isLast hk
      rw [foldl_put_of_last hlast, h k a ⟨before, after, rfl, hlast⟩]
    · exact foldl_put_of_not_mem hk f

end Put

end PartialMap
