import Mathlib.Data.List.Perm.Basic
import SkyClaw.Lib.Runs

/-!
# Background tasks

Tasks that are spawned and run later, in any order, each with at most one effect.  What
has happened and what is pending together do not depend on the order.
-/

/-- The tasks that have not run, and the effects so far. -/
structure TaskPool (τ ε : Type*) where
  pending : List τ
  effects : List ε

namespace TaskPool

variable {τ ε : Type*} (effect : τ → Option ε)

def empty : TaskPool τ ε := ⟨[], []⟩

def spawn (pool : TaskPool τ ε) (task : τ) : TaskPool τ ε :=
  { pool with pending := pool.pending ++ [task] }

/-- An effect that waits for no task. -/
def record (pool : TaskPool τ ε) (e : ε) : TaskPool τ ε :=
  { pool with effects := pool.effects ++ [e] }

/-- A pending task runs. -/
def runTask (pool : TaskPool τ ε) (i : Nat) : Option (TaskPool τ ε) :=
  pool.pending[i]?.map fun task =>
    ⟨pool.pending.eraseIdx i, pool.effects ++ (effect task).toList⟩

/-- The effects so far and those of the pending tasks. -/
def account (pool : TaskPool τ ε) : List ε := pool.effects ++ pool.pending.filterMap effect

variable {effect}

theorem account_spawn (pool : TaskPool τ ε) (task : τ) :
    account effect (pool.spawn task) = account effect pool ++ (effect task).toList := by
  unfold account spawn
  rw [List.filterMap_append, List.append_assoc]
  cases htask : effect task with
  | none | some => simp [htask]

theorem account_record (pool : TaskPool τ ε) (e : ε) :
    (account effect (pool.record e)).Perm (account effect pool ++ [e]) := by
  unfold account record
  rw [List.append_assoc, List.append_assoc]
  have hcomm : ([e] ++ pool.pending.filterMap effect).Perm (pool.pending.filterMap effect ++ [e]) :=
    List.perm_append_comm
  exact hcomm.append_left pool.effects

theorem account_runTask {pool next : TaskPool τ ε} {i : Nat}
    (hrun : runTask effect pool i = some next) :
    (account effect next).Perm (account effect pool) := by
  obtain ⟨task, htask, rfl⟩ := Option.map_eq_some_iff.mp hrun
  obtain ⟨hi, hget⟩ := List.getElem?_eq_some_iff.mp htask
  have hsplit : pool.pending.Perm (task :: pool.pending.eraseIdx i) := by
    rw [← hget]
    exact (List.getElem_cons_eraseIdx_perm hi).symm
  have heffects : (pool.pending.filterMap effect).Perm
      ((effect task).toList ++ (pool.pending.eraseIdx i).filterMap effect) := by
    refine (hsplit.filterMap effect).trans ?_
    cases hcase : effect task with
    | none => rw [List.filterMap_cons_none hcase]; rfl
    | some e => rw [List.filterMap_cons_some hcase]; rfl
  unfold account
  rw [List.append_assoc]
  exact heffects.symm.append_left pool.effects

theorem account_of_drained {pool : TaskPool τ ε} (h : pool.pending = []) :
    account effect pool = pool.effects := by
  unfold account
  rw [h, List.filterMap_nil, List.append_nil]

theorem exists_drained (effect : τ → Option ε) (pool : TaskPool τ ε) :
    ∃ drained, Runs.exec (runTask effect) pool (List.replicate pool.pending.length 0) =
      some drained ∧ drained.pending = [] := by
  obtain ⟨pending, effects⟩ := pool
  induction pending generalizing effects with
  | nil => exact ⟨⟨[], effects⟩, rfl, rfl⟩
  | cons task rest ih =>
      obtain ⟨drained, hrun, hdrained⟩ := ih (effects ++ (effect task).toList)
      exact ⟨drained, hrun, hdrained⟩

end TaskPool
