import Mathlib.Algebra.BigOperators.Group.List.Basic
import Mathlib.Algebra.GroupWithZero.Nat

/-!
# Interleaved tasks

Tasks over a state that they share.  One of them takes a step at a time; what the step does is read
off the list split at that task.
-/

namespace Interleave

variable {σ φ : Type*} (next : σ → φ → Option (σ × φ))

/-- Task `i` takes its next step. -/
def stepAt (shared : σ) (tasks : List φ) (i : Nat) : Option (σ × List φ) :=
  tasks[i]?.bind fun task =>
    (next shared task).map fun after => (after.1, tasks.set i after.2)

variable {next}

variable {shared shared' : σ} {tasks tasks' : List φ} {i : Nat}

/-- **What a step does**: the task of its place is replaced. -/
theorem stepAt_cases
    (h : stepAt next shared tasks i = some (shared', tasks')) :
    ∃ before task after task', tasks = before ++ task :: after ∧
      next shared task = some (shared', task') ∧ tasks' = before ++ task' :: after := by
  unfold stepAt at h
  obtain ⟨task, htask, h⟩ := Option.bind_eq_some_iff.mp h
  obtain ⟨⟨shared'', task'⟩, hnext, heq⟩ := Option.map_eq_some_iff.mp h
  cases heq
  obtain ⟨hi, rfl⟩ := List.getElem?_eq_some_iff.mp htask
  refine ⟨tasks.take i, tasks[i], tasks.drop (i + 1), task', ?_, hnext, ?_⟩
  · rw [List.getElem_cons_drop, List.take_append_drop]
  · exact List.set_eq_take_append_cons_drop.trans (if_pos hi)

theorem stepAt_getElem?
    (h : stepAt next shared tasks i = some (shared', tasks')) :
    ∃ task task', tasks[i]? = some task ∧ next shared task = some (shared', task') ∧
      tasks'[i]? = some task' ∧ ∀ j, j ≠ i → tasks'[j]? = tasks[j]? := by
  unfold stepAt at h
  obtain ⟨task, htask, h⟩ := Option.bind_eq_some_iff.mp h
  obtain ⟨⟨shared'', task'⟩, hnext, heq⟩ := Option.map_eq_some_iff.mp h
  cases heq
  obtain ⟨hi, -⟩ := List.getElem?_eq_some_iff.mp htask
  exact ⟨task, task', htask, hnext, List.getElem?_set_self hi,
    fun j hj => List.getElem?_set_ne (Ne.symm hj)⟩

theorem exists_stepAt {task : φ} (hmem : task ∈ tasks)
    {result : σ × φ} (hnext : next shared task = some result) :
    ∃ i result, stepAt next shared tasks i = some result := by
  obtain ⟨i, hi⟩ := List.getElem?_of_mem hmem
  refine ⟨i, (result.1, tasks.set i result.2), ?_⟩
  unfold stepAt
  rw [hi, Option.bind_some, hnext, Option.map_some]

theorem forall_mem_of_stepAt {P : φ → Prop}
    (hkeeps : ∀ shared task shared' task', P task → next shared task = some (shared', task') →
      P task') (hall : ∀ task ∈ tasks, P task)
    (h : stepAt next shared tasks i = some (shared', tasks')) : ∀ task ∈ tasks', P task := by
  obtain ⟨before, task, after, task', rfl, hnext, rfl⟩ := stepAt_cases h
  rw [List.forall_mem_append, List.forall_mem_cons] at hall ⊢
  exact ⟨hall.1, hkeeps shared task shared' task' hall.2.1 hnext, hall.2.2⟩

theorem map_of_stepAt {γ : Type*} {f : φ → γ}
    (hkeeps : ∀ shared task shared' task', next shared task = some (shared', task') →
      f task' = f task)
    (h : stepAt next shared tasks i = some (shared', tasks')) : tasks'.map f = tasks.map f := by
  obtain ⟨before, task, after, task', rfl, hnext, rfl⟩ := stepAt_cases h
  rw [List.map_append, List.map_append, List.map_cons, List.map_cons,
    hkeeps shared task shared' task' hnext]

theorem sum_of_stepAt (weight : φ → Nat)
    (h : stepAt next shared tasks i = some (shared', tasks')) :
    ∃ task task', next shared task = some (shared', task') ∧
      (tasks'.map weight).sum + weight task = (tasks.map weight).sum + weight task' := by
  obtain ⟨before, task, after, task', rfl, hnext, rfl⟩ := stepAt_cases h
  refine ⟨task, task', hnext, ?_⟩
  simp only [List.map_append, List.map_cons, List.sum_append, List.sum_cons]
  omega

end Interleave
