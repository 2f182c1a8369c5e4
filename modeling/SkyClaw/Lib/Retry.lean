import Mathlib.Tactic.TypeStar

/-!
# Retry loops

An attempt works on a state that survives it, and either returns or raises.  `run`
repeats it after an error worth a retry, up to a number of further attempts; the last
error is raised.
-/

namespace Retry

variable {σ ε α : Type*}

/-- Attempt `i`, and up to `n` more. -/
def run (shouldRetry : ε → Bool) (attempt : Nat → σ → σ × Except ε α) :
    Nat → Nat → σ → σ × Except ε α
  | 0, i, s => attempt i s
  | n + 1, i, s =>
      match attempt i s with
      | (t, .ok a) => (t, .ok a)
      | (t, .error e) =>
          if shouldRetry e then run shouldRetry attempt n (i + 1) t else (t, .error e)

variable {shouldRetry : ε → Bool} {attempt : Nat → σ → σ × Except ε α} {n i : Nat} {s t : σ} {e : ε}

theorem run_of_ok {a : α} (h : attempt i s = (t, .ok a)) (n : Nat) :
    run shouldRetry attempt n i s = (t, .ok a) := by
  cases n with
  | zero => exact h
  | succ n => rw [run, h]

theorem run_of_again (h : attempt i s = (t, .error e)) (hretry : shouldRetry e = true) :
    run shouldRetry attempt (n + 1) i s = run shouldRetry attempt n (i + 1) t := by
  rw [run, h]
  exact if_pos hretry

theorem run_of_last (h : attempt i s = (t, .error e)) (hlast : n = 0 ∨ shouldRetry e = false) :
    run shouldRetry attempt n i s = (t, .error e) := by
  cases n with
  | zero => exact h
  | succ n =>
      rw [run, h]
      refine if_neg ?_
      rw [hlast.resolve_left n.succ_ne_zero]
      exact Bool.false_ne_true

/-- **Rule for retry loops.**  The loop ends as one of its attempts does, begun in a
state that satisfies what every failed attempt keeps. -/
theorem run_eq_attempt (shouldRetry : ε → Bool) (attempt : Nat → σ → σ × Except ε α)
    {I : σ → Prop} (hkeep : ∀ i s t e, I s → attempt i s = (t, .error e) → I t) (n i : Nat)
    {s : σ} (hs : I s) : ∃ j u, I u ∧ run shouldRetry attempt n i s = attempt j u := by
  induction n generalizing i s with
  | zero => exact ⟨i, s, hs, rfl⟩
  | succ n ih =>
      rw [run]
      cases hattempt : attempt i s with
      | mk t result =>
          cases result with
          | ok a => exact ⟨i, s, hs, hattempt.symm⟩
          | error e =>
              by_cases hretry : shouldRetry e = true
              · simp only [hretry, if_true]
                exact ih (i + 1) (hkeep i s t e hs hattempt)
              · simp only [hretry, Bool.false_eq_true, if_false]
                exact ⟨i, s, hs, hattempt.symm⟩

/-! ## Attempts without a state -/

section Stateless

variable (shouldRetry : ε → Bool) (attempt : Nat → Except ε α)

/-- Attempt `i`, and up to `n` more, of attempts that leave nothing behind. -/
def stateless (n i : Nat) : Except ε α :=
  (run shouldRetry (fun j (_ : Unit) => ((), attempt j)) n i ()).2

variable {shouldRetry attempt}

variable {n i : Nat} {e : ε}

theorem stateless_of_ok {a : α} (h : attempt i = .ok a) (n : Nat) :
    stateless shouldRetry attempt n i = .ok a :=
  congrArg Prod.snd (run_of_ok (congrArg (Prod.mk ()) h) n)

theorem stateless_of_again (h : attempt i = .error e)
    (hretry : shouldRetry e = true) (n : Nat) :
    stateless shouldRetry attempt (n + 1) i = stateless shouldRetry attempt n (i + 1) :=
  congrArg Prod.snd (run_of_again (congrArg (Prod.mk ()) h) hretry)

theorem stateless_of_last (h : attempt i = .error e)
    (hlast : n = 0 ∨ shouldRetry e = false) : stateless shouldRetry attempt n i = .error e :=
  congrArg Prod.snd (run_of_last (congrArg (Prod.mk ()) h) hlast)

variable (shouldRetry attempt)

/-- The last attempt raises: those before it raised what is worth a retry, and no attempt is left or
its error is worth none. -/
def LastRaises (n i : Nat) (e : ε) : Prop :=
  ∃ j ≤ n, (∀ k < j, ∃ earlier, attempt (i + k) = .error earlier ∧ shouldRetry earlier = true) ∧
    attempt (i + j) = .error e ∧ (j = n ∨ shouldRetry e = false)

variable {shouldRetry attempt}

theorem LastRaises.first (h : attempt i = .error e)
    (hlast : n = 0 ∨ shouldRetry e = false) : LastRaises shouldRetry attempt n i e :=
  ⟨0, n.zero_le, fun k hk => absurd hk k.not_lt_zero, h, hlast.imp_left Eq.symm⟩

theorem LastRaises.again {earlier : ε} (h : attempt i = .error earlier)
    (hretry : shouldRetry earlier = true) (hlater : LastRaises shouldRetry attempt n (i + 1) e) :
    LastRaises shouldRetry attempt (n + 1) i e := by
  obtain ⟨j, hj, hbefore, hraised, hlast⟩ := hlater
  refine ⟨j + 1, Nat.succ_le_succ hj, fun k hk => ?_, ?_, hlast.imp_left (congrArg Nat.succ)⟩
  · cases k with
    | zero => exact ⟨earlier, h, hretry⟩
    | succ k =>
        rw [← Nat.add_assoc, Nat.add_right_comm]
        exact hbefore k (Nat.lt_of_succ_lt_succ hk)
  · rwa [← Nat.add_assoc, Nat.add_right_comm]

/-- **What a loop raises** is the error of its last attempt. -/
theorem stateless_eq_error_iff :
    stateless shouldRetry attempt n i = .error e ↔ LastRaises shouldRetry attempt n i e := by
  constructor
  · intro h
    induction n generalizing i with
    | zero => exact LastRaises.first h (.inl rfl)
    | succ n ih =>
        cases hattempt : attempt i with
        | ok a =>
            rw [stateless_of_ok hattempt] at h
            cases h
        | error first =>
            by_cases hretry : shouldRetry first = true
            · rw [stateless_of_again hattempt hretry] at h
              exact LastRaises.again hattempt hretry (ih h)
            · have hlast : shouldRetry first = false := eq_false_of_ne_true hretry
              rw [stateless_of_last hattempt (.inr hlast)] at h
              cases h
              exact LastRaises.first hattempt (.inr hlast)
  · rintro ⟨j, hj, hbefore, hraised, hlast⟩
    induction j generalizing n i with
    | zero => exact stateless_of_last hraised (hlast.imp_left Eq.symm)
    | succ j ih =>
        obtain ⟨earlier, hearlier, hretry⟩ := hbefore 0 j.succ_pos
        obtain ⟨n, rfl⟩ := Nat.exists_eq_succ_of_ne_zero (Nat.ne_zero_of_lt hj)
        refine (stateless_of_again hearlier hretry n).trans ?_
        refine ih (Nat.le_of_succ_le_succ hj) (fun k hk => ?_) ?_ (hlast.imp_left Nat.succ.inj)
        · have hnext := hbefore (k + 1) (Nat.succ_lt_succ hk)
          rwa [← Nat.add_assoc, Nat.add_right_comm] at hnext
        · rwa [← Nat.add_assoc, Nat.add_right_comm] at hraised

end Stateless

end Retry
