import Mathlib.Logic.Basic

/-!
# Finite runs of a labelled step function

A system is given by a partial step function `step : σ → α → Option σ`: an
action is either disabled in a state (`none`) or leads to exactly one next
state.  All nondeterminism (which party moves, what the environment answers,
how far the clock advances) sits in the action, so a schedule `List α`
determines a run and a concrete run can be evaluated.

`Always P` speaks about every step that a schedule performs.  The rules below
package the two inductions a development needs: an invariant that guarded steps
preserve, and the equivalence of two step properties under such an invariant.
-/

namespace Runs

variable {σ α : Type*}

/-- Perform the actions of a schedule in order; `none` as soon as one of them
is disabled. -/
def exec (step : σ → α → Option σ) : σ → List α → Option σ
  | s, [] => some s
  | s, a :: as => (step s a).bind fun t => exec step t as

/-- Every step performed by the schedule satisfies `P`. -/
def Always (step : σ → α → Option σ) (P : σ → α → σ → Prop) : σ → List α → Prop
  | _, [] => True
  | s, a :: as => ∀ t, step s a = some t → P s a t ∧ Always step P t as

/-- Every state the schedule visits, the first one included, satisfies `I`. -/
def Throughout (step : σ → α → Option σ) (I : σ → Prop) (s : σ) (as : List α) : Prop :=
  I s ∧ Always step (fun _ _ t => I t) s as

variable {step : σ → α → Option σ}

@[simp] theorem exec_nil (s : σ) : exec step s [] = some s := rfl

@[simp] theorem exec_cons (s : σ) (a : α) (as : List α) :
    exec step s (a :: as) = (step s a).bind fun t => exec step t as := rfl

variable {s t u : σ} {a : α} {as : List α}

theorem exec_of_step (hstep : step s a = some t)
    (hrest : exec step t as = some u) : exec step s (a :: as) = some u := by
  rw [exec_cons, hstep]
  exact hrest

theorem exec_append (s : σ) (as bs : List α) :
    exec step s (as ++ bs) = (exec step s as).bind fun t => exec step t bs := by
  induction as generalizing s with
  | nil => rfl
  | cons a as ih =>
      simp only [List.cons_append, exec_cons, Option.bind_assoc]
      congr 1
      funext t
      exact ih t

theorem exists_exec (h : ∀ a ∈ as, ∀ s, ∃ t, step s a = some t) (s : σ) :
    ∃ t, exec step s as = some t := by
  induction as generalizing s with
  | nil => exact ⟨s, rfl⟩
  | cons a as ih =>
      obtain ⟨u, hstep⟩ := h a List.mem_cons_self s
      obtain ⟨t, hrest⟩ := ih (fun b hb => h b (List.mem_cons_of_mem a hb)) u
      exact ⟨t, by rw [exec_cons, hstep]; exact hrest⟩

theorem exec_lift {ω β : Type*} {whole : ω → β → Option ω} (put : σ → ω) (act : α → β)
    (hstep : ∀ s a, whole (put s) (act a) = (step s a).map put) (s : σ) (as : List α) :
    exec whole (put s) (as.map act) = (exec step s as).map put := by
  induction as generalizing s with
  | nil => rfl
  | cons a as ih =>
      rw [List.map_cons, exec_cons, exec_cons, hstep]
      cases step s a with
      | none => rfl
      | some t => exact ih t

@[simp] theorem always_nil (P : σ → α → σ → Prop) (s : σ) : Always step P s [] := trivial

variable {P : σ → α → σ → Prop}

theorem Always.cons
    (hstep : step s a = some t) (hP : P s a t) (hrest : Always step P t as) :
    Always step P s (a :: as) := by
  intro u hu
  cases hstep.symm.trans hu
  exact ⟨hP, hrest⟩

variable {Q : σ → α → σ → Prop}

theorem Always.mono
    (hPQ : ∀ s a t, step s a = some t → P s a t → Q s a t)
    (h : Always step P s as) : Always step Q s as := by
  induction as generalizing s with
  | nil => trivial
  | cons a as ih =>
      intro t hstep
      obtain ⟨hP, hrest⟩ := h t hstep
      exact ⟨hPQ s a t hstep hP, ih hrest⟩

/-- **History rule.**  An invariant between the state and what the actions so far have
brought in holds in the state a run ends in. -/
theorem history_of_step {υ : Type*} (I : σ → List υ → Prop) (brings : α → List υ)
    (hpres : ∀ s a t before, I s before → step s a = some t → I t (before ++ brings a))
    {before : List υ} (hs : I s before)
    (hrun : exec step s as = some t) : I t (before ++ as.flatMap brings) := by
  induction as generalizing s before with
  | nil =>
      cases hrun
      rw [List.flatMap_nil, List.append_nil]
      exact hs
  | cons a as ih =>
      rw [exec_cons, Option.bind_eq_some_iff] at hrun
      obtain ⟨u, hstep, hrest⟩ := hrun
      rw [List.flatMap_cons, ← List.append_assoc]
      exact ih (hpres s a u before hs hstep) hrest

theorem always_of_forall_mem
    (h : ∀ a ∈ as, ∀ s t, step s a = some t → P s a t) (s : σ) : Always step P s as := by
  induction as generalizing s with
  | nil => trivial
  | cons a as ih =>
      intro t hstep
      have hrest : ∀ b ∈ as, ∀ s t, step s b = some t → P s b t :=
        fun b hb => h b (List.mem_cons_of_mem a hb)
      exact ⟨h a List.mem_cons_self s t hstep, ih hrest t⟩

theorem always_and :
    Always step (fun s a t => P s a t ∧ Q s a t) s as ↔
      Always step P s as ∧ Always step Q s as := by
  constructor
  · intro h
    exact ⟨h.mono fun _ _ _ _ hPQ => hPQ.1, h.mono fun _ _ _ _ hPQ => hPQ.2⟩
  · rintro ⟨hP, hQ⟩
    induction as generalizing s with
    | nil => trivial
    | cons a as ih =>
        intro t hstep
        obtain ⟨hPstep, hPrest⟩ := hP t hstep
        obtain ⟨hQstep, hQrest⟩ := hQ t hstep
        exact ⟨⟨hPstep, hQstep⟩, ih hPrest hQrest⟩

variable {I : σ → Prop} {C : σ → α → σ → Prop}

/-- **Invariant rule.**  An invariant that every step meeting the guard `C`
preserves holds throughout each run whose steps all meet the guard. -/
theorem throughout_of_guarded
    (hpres : ∀ s a t, I s → step s a = some t → C s a t → I t) (hs : I s) (hC : Always step C s as) :
    Throughout step I s as := by
  refine ⟨hs, ?_⟩
  induction as generalizing s with
  | nil => trivial
  | cons a as ih =>
      intro t hstep
      obtain ⟨hguard, hrest⟩ := hC t hstep
      have ht : I t := hpres s a t hs hstep hguard
      exact ⟨ht, ih ht hrest⟩

theorem throughout_of_step
    (hpres : ∀ s a t, I s → step s a = some t → I t) (hs : I s)
    (as : List α) : Throughout step I s as := by
  refine throughout_of_guarded (C := fun _ _ _ => True)
    (fun s a t hI hstep _ => hpres s a t hI hstep) hs ?_
  induction as generalizing s with
  | nil => trivial
  | cons a as ih => exact fun t hstep => ⟨trivial, ih (hpres s a t hs hstep)⟩

theorem Throughout.mono {J : σ → Prop}
    (h : Throughout step I s as) (hIJ : ∀ s, I s → J s) : Throughout step J s as :=
  ⟨hIJ s h.1, h.2.mono fun _ _ t _ ht => hIJ t ht⟩

theorem Throughout.exec
    (h : Throughout step I s as) (hrun : exec step s as = some t) : I t := by
  induction as generalizing s with
  | nil =>
      cases hrun
      exact h.1
  | cons a as ih =>
      rw [exec_cons, Option.bind_eq_some_iff] at hrun
      obtain ⟨u, hstep, hrest⟩ := hrun
      exact ih (h.2 u hstep) hrest

theorem Always.at_prefix {before after : List α}
    (h : Always step P s (before ++ a :: after)) (hrun : Runs.exec step s before = some u)
    (hstep : step u a = some t) : P u a t := by
  induction before generalizing s with
  | nil =>
      cases hrun
      exact (h t hstep).1
  | cons b before ih =>
      rw [exec_cons, Option.bind_eq_some_iff] at hrun
      obtain ⟨v, hfirst, hrest⟩ := hrun
      exact ih (h v hfirst).2 hrest

theorem Always.append {before after : List α}
    (h : Always step P s before) (hrun : Runs.exec step s before = some u)
    (hrest : Always step P u after) : Always step P s (before ++ after) := by
  induction before generalizing s with
  | nil =>
      cases hrun
      exact hrest
  | cons b before ih =>
      rw [exec_cons, Option.bind_eq_some_iff] at hrun
      obtain ⟨v, hfirst, hbefore⟩ := hrun
      obtain ⟨hP, h⟩ := h v hfirst
      exact .cons hfirst hP (ih h hbefore)

/-- A decidable step property can be checked along a concrete schedule. -/
def decidableAlways (step : σ → α → Option σ) (P : σ → α → σ → Prop)
    [∀ s a t, Decidable (P s a t)] : ∀ s as, Decidable (Always step P s as)
  | _, [] => .isTrue trivial
  | s, a :: as =>
      match hstep : step s a with
      | none => .isTrue fun t ht => by rw [hstep] at ht; cases ht
      | some t =>
          have : Decidable (Always step P t as) := decidableAlways step P t as
          decidable_of_iff (P s a t ∧ Always step P t as)
            ⟨fun h u hu => by
                obtain rfl : t = u := Option.some.inj (hstep.symm.trans hu)
                exact h,
              fun h => h t hstep⟩

instance {P : σ → α → σ → Prop} [∀ s a t, Decidable (P s a t)] (s : σ) (as : List α) :
    Decidable (Always step P s as) := decidableAlways step P s as

theorem Always.of_throughout
    (hP : ∀ s a t, I s → step s a = some t → C s a t → P s a t) (hI : Throughout step I s as)
    (hC : Always step C s as) :
    Always step P s as := by
  induction as generalizing s with
  | nil => trivial
  | cons a as ih =>
      intro t hstep
      obtain ⟨hguard, hrest⟩ := hC t hstep
      exact ⟨hP s a t hI.1 hstep hguard, ih (hI.2 t hstep) hrest⟩

/-- **Equivalence rule.**  If `P` and `C` agree on every step from a state that
satisfies `I`, and steps meeting `C` preserve `I`, then a run meets `P` at every
step exactly when it meets `C` at every step: up to the first step where they
could differ the invariant has been kept. -/
theorem always_iff_of_guarded
    (hpres : ∀ s a t, I s → step s a = some t → C s a t → I t)
    (hiff : ∀ s a t, I s → step s a = some t → (P s a t ↔ C s a t)) (hs : I s) (as : List α) :
    Always step P s as ↔ Always step C s as := by
  induction as generalizing s with
  | nil => exact Iff.rfl
  | cons a as ih =>
      constructor
      · intro h t hstep
        obtain ⟨hP, hrest⟩ := h t hstep
        have hC : C s a t := (hiff s a t hs hstep).mp hP
        exact ⟨hC, (ih (hpres s a t hs hstep hC)).mp hrest⟩
      · intro h t hstep
        obtain ⟨hC, hrest⟩ := h t hstep
        exact ⟨(hiff s a t hs hstep).mpr hC, (ih (hpres s a t hs hstep hC)).mpr hrest⟩

theorem always_congr
    (hiff : ∀ s a t, step s a = some t → (P s a t ↔ C s a t)) (s : σ) (as : List α) :
    Always step P s as ↔ Always step C s as := by
  refine always_iff_of_guarded (I := fun _ => True) (fun _ _ _ _ _ _ => trivial) ?_ trivial as
  intro s a t _ hstep
  exact hiff s a t hstep

/-! ## Runs that come to an end -/

/-- No action can be performed. -/
def Final (step : σ → α → Option σ) (s : σ) : Prop := ∀ a, step s a = none

variable {measure : σ → Nat}

/-- **Measure rule.**  Where every step takes something off a measure, no run is longer than it. -/
theorem length_le_of_decreasing
    (hdecreasing : ∀ s a t, step s a = some t → measure t < measure s)
    (hrun : exec step s as = some t) : as.length ≤ measure s := by
  induction as generalizing s with
  | nil => exact Nat.zero_le _
  | cons a as ih =>
      rw [exec_cons, Option.bind_eq_some_iff] at hrun
      obtain ⟨u, hstep, hrest⟩ := hrun
      have hless := hdecreasing s a u hstep
      have hlength := ih hrest
      rw [List.length_cons]
      omega

theorem exists_final
    (hdecreasing : ∀ s a t, step s a = some t → measure t < measure s) (s : σ) :
    ∃ as t, exec step s as = some t ∧ Final step t := by
  induction hmeasure : measure s using Nat.strongRecOn generalizing s with
  | ind n ih =>
      by_cases hfinal : Final step s
      · exact ⟨[], s, rfl, hfinal⟩
      · obtain ⟨a, hstep⟩ := not_forall.mp hfinal
        obtain ⟨u, hstep⟩ := Option.ne_none_iff_exists'.mp hstep
        obtain ⟨as, t, hrun, hfinal⟩ := ih (measure u) (hmeasure ▸ hdecreasing s a u hstep) u rfl
        exact ⟨a :: as, t, exec_of_step hstep hrun, hfinal⟩

end Runs
