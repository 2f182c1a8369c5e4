import Mathlib.Logic.Relation

/-!
# While loops

A loop is given by its turn: a state is followed by the next one, or the loop ends with a
result.  `Returns` relates the state a loop starts in to what it ends with.  The rules package
the inductions over the turns: an invariant, a measure that every turn lowers, and two loops that
agree on the states they pass.
-/

namespace WhileLoop

variable {σ ρ : Type*}

/-- Up to a number of turns, and the result if the loop has ended by then. -/
def run (turn : σ → σ ⊕ ρ) : Nat → σ → Option ρ
  | 0, _ => none
  | n + 1, s =>
      match turn s with
      | .inl t => run turn n t
      | .inr r => some r

/-- The loop ends with a result. -/
inductive Returns (turn : σ → σ ⊕ ρ) : σ → ρ → Prop
  | stop {s : σ} {r : ρ} : turn s = .inr r → Returns turn s r
  | next {s t : σ} {r : ρ} : turn s = .inl t → Returns turn t r → Returns turn s r

/-- The states that the loop passes. -/
def Passes (turn : σ → σ ⊕ ρ) : σ → σ → Prop :=
  Relation.ReflTransGen fun s t => turn s = .inl t

variable {turn : σ → σ ⊕ ρ}

theorem returns_of_run {n : Nat} {s : σ} {r : ρ} (h : run turn n s = some r) :
    Returns turn s r := by
  induction n generalizing s with
  | zero => cases h
  | succ n ih =>
      rw [run] at h
      cases hturn : turn s with
      | inl t =>
          rw [hturn] at h
          exact .next hturn (ih h)
      | inr result =>
          rw [hturn] at h
          cases h
          exact .stop hturn

theorem returns_inr_iff {s : σ} {r result : ρ} (hturn : turn s = .inr result) :
    Returns turn s r ↔ r = result := by
  constructor
  · intro h
    cases h with
    | stop hstop => exact Sum.inr.inj (hstop.symm.trans hturn)
    | next hnext _ => exact absurd (hnext.symm.trans hturn) nofun
  · rintro rfl
    exact .stop hturn

theorem returns_inl_iff {s t : σ} {r : ρ} (hturn : turn s = .inl t) :
    Returns turn s r ↔ Returns turn t r := by
  constructor
  · intro h
    cases h with
    | stop hstop => exact absurd (hstop.symm.trans hturn) nofun
    | next hnext hrest =>
        cases hnext.symm.trans hturn
        exact hrest
  · exact .next hturn

/-- **A loop ends with one result.** -/
theorem Returns.unique {s : σ} {r r' : ρ} (h : Returns turn s r) (h' : Returns turn s r') :
    r = r' := by
  induction h with
  | stop hturn => exact ((returns_inr_iff hturn).mp h').symm
  | next hturn _ ih => exact ih ((returns_inl_iff hturn).mp h')

/-- **Invariant rule.**  What holds at the start, is kept by every turn and gives the property of
the result where the loop ends. -/
theorem Returns.of_invariant {I : σ → Prop} {Q : ρ → Prop}
    (hnext : ∀ s t, I s → turn s = .inl t → I t) (hstop : ∀ s r, I s → turn s = .inr r → Q r)
    {s : σ} {r : ρ} (h : Returns turn s r) (hs : I s) : Q r := by
  induction h with
  | stop hturn => exact hstop _ _ hs hturn
  | next hturn _ ih => exact ih (hnext _ _ hs hturn)

/-- **Termination rule.**  A loop whose turns go down a well-founded relation ends. -/
theorem exists_returns {I : σ → Prop} {lower : σ → σ → Prop} (hwf : WellFounded lower)
    (hnext : ∀ s t, I s → turn s = .inl t → I t ∧ lower t s) {s : σ} (hs : I s) :
    ∃ r, Returns turn s r := by
  induction s using hwf.induction with
  | _ s ih =>
      cases hturn : turn s with
      | inr r => exact ⟨r, .stop hturn⟩
      | inl t =>
          obtain ⟨ht, hlower⟩ := hnext s t hs hturn
          obtain ⟨r, hr⟩ := ih t hlower ht
          exact ⟨r, .next hturn hr⟩

/-- **Two loops** that agree on the states one of them passes end alike. -/
theorem Returns.congr {other : σ → σ ⊕ ρ} {s : σ} {r : ρ} (h : Returns turn s r)
    (hagree : ∀ t, Passes turn s t → other t = turn t) : Returns other s r := by
  induction h with
  | stop hturn => exact .stop ((hagree _ .refl).trans hturn)
  | next hturn _ ih =>
      refine .next ((hagree _ .refl).trans hturn) (ih ?_)
      intro u hu
      exact hagree u (.head hturn hu)

end WhileLoop
