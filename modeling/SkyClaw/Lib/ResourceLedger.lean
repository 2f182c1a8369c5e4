import Mathlib.Data.List.Nodup

/-!
# Resources that are kept, handed out and closed

Resources are numbered in the order in which they are opened.  A resource is idle, in the hand of
one owner, or closed; `WellFormed` says so, and each way to move one keeps it.
-/

/-- The idle resources, whether each that was ever opened is open, and what the owners hold. -/
structure Ledger (ω : Type*) where
  idle : List Nat
  opened : List Bool
  held : ω → Option Nat

namespace Ledger

open Function

variable {ω : Type*}

def Open (l : Ledger ω) (c : Nat) : Prop := l.opened[c]? = some true

/-- An open resource is idle or held, never both, and by one owner. -/
structure WellFormed (l : Ledger ω) : Prop where
  nodup : l.idle.Nodup
  apart : ∀ {o c}, l.held o = some c → c ∉ l.idle
  sole : ∀ {o p c}, l.held o = some c → l.held p = some c → o = p
  account : ∀ c, l.Open c ↔ c ∈ l.idle ∨ ∃ o, l.held o = some c

theorem WellFormed.empty : WellFormed (⟨[], [], fun _ => none⟩ : Ledger ω) where
  nodup := List.nodup_nil
  apart := by simp
  sole := by simp
  account := by simp [Open]

theorem WellFormed.none_open {l : Ledger ω} (h : l.WellFormed) (hidle : l.idle = [])
    (hheld : ∀ o, l.held o = none) (c : Nat) : ¬ l.Open c := by
  intro hopen
  rcases (h.account c).mp hopen with hmem | ⟨o, ho⟩
  · rw [hidle] at hmem
    cases hmem
  · rw [hheld o] at ho
    cases ho

theorem WellFormed.lt_of_held {l : Ledger ω} (h : l.WellFormed) {o : ω} {c : Nat}
    (hheld : l.held o = some c) : c < l.opened.length := by
  have hopen : l.Open c := (h.account c).mpr (.inr ⟨o, hheld⟩)
  exact (List.getElem?_eq_some_iff.mp hopen).1

variable [DecidableEq ω]

/-- An owner opens a resource. -/
def acquire (l : Ledger ω) (o : ω) : Ledger ω :=
  { l with
    opened := l.opened ++ [true]
    held := update l.held o (some l.opened.length) }

/-- An owner is handed an idle resource. -/
def take (l : Ledger ω) (o : ω) (c : Nat) (rest : List Nat) : Ledger ω :=
  { l with idle := rest, held := update l.held o (some c) }

/-- An owner gives back what it holds. -/
def put (l : Ledger ω) (o : ω) (c : Nat) : Ledger ω :=
  { l with idle := l.idle ++ [c], held := update l.held o none }

/-- An owner closes what it holds. -/
def close (l : Ledger ω) (o : ω) (c : Nat) : Ledger ω :=
  { l with opened := l.opened.set c false, held := update l.held o none }

/-! ## One owner changes hands -/

variable {p : ω} {d : Nat}

theorem update_some_iff {held : ω → Option Nat} {o : ω} {c : Nat} :
    update held o (some c) p = some d ↔
      (p = o ∧ c = d) ∨ (p ≠ o ∧ held p = some d) := by
  by_cases hp : p = o
  · simp [hp]
  · simp [hp]

theorem update_none_iff {held : ω → Option Nat} {o : ω} :
    update held o none p = some d ↔ p ≠ o ∧ held p = some d := by
  by_cases hp : p = o
  · simp [hp]
  · simp [hp]

variable {l : Ledger ω} {o : ω} {c : Nat}

omit [DecidableEq ω] in
theorem ne_of_held (hfree : l.held o = none) (hp : l.held p = some d) :
    p ≠ o := by
  rintro rfl
  rw [hfree] at hp
  cases hp

theorem WellFormed.acquire (h : l.WellFormed) (hfree : l.held o = none) :
    (l.acquire o).WellFormed := by
  -- the new number is neither idle nor held
  have hfresh : ¬ l.Open l.opened.length := by simp [Open]
  have hidle : l.opened.length ∉ l.idle := fun hmem => hfresh ((h.account _).mpr (.inl hmem))
  have hheld : ∀ p, l.held p ≠ some l.opened.length :=
    fun p hp => hfresh ((h.account _).mpr (.inr ⟨p, hp⟩))
  refine ⟨h.nodup, ?_, ?_, ?_⟩
  · intro p d hp
    rcases update_some_iff.mp hp with ⟨-, rfl⟩ | ⟨-, hp⟩
    · exact hidle
    · exact h.apart hp
  · intro p q d hp hq
    rcases update_some_iff.mp hp with ⟨rfl, rfl⟩ | ⟨-, hp⟩
    · rcases update_some_iff.mp hq with ⟨rfl, -⟩ | ⟨-, hq⟩
      · rfl
      · exact absurd hq (hheld q)
    · rcases update_some_iff.mp hq with ⟨-, rfl⟩ | ⟨-, hq⟩
      · exact absurd hp (hheld p)
      · exact h.sole hp hq
  · intro d
    show (l.opened ++ [true])[d]? = some true ↔ d ∈ l.idle ∨ _
    by_cases hd : d = l.opened.length
    · subst hd
      simp only [List.getElem?_concat_length, true_iff]
      exact .inr ⟨o, update_some_iff.mpr (.inl ⟨rfl, rfl⟩)⟩
    · have hopen : (l.opened ++ [true])[d]? = some true ↔ l.Open d := by
        unfold Open
        rcases Nat.lt_or_gt_of_ne hd with hlt | hgt
        · rw [List.getElem?_append_left hlt]
        · rw [List.getElem?_eq_none (by simp; omega), List.getElem?_eq_none (by omega)]
      rw [hopen, h.account d]
      refine or_congr Iff.rfl ⟨?_, ?_⟩
      · rintro ⟨p, hp⟩
        exact ⟨p, update_some_iff.mpr (.inr ⟨ne_of_held hfree hp, hp⟩)⟩
      · rintro ⟨p, hp⟩
        rcases update_some_iff.mp hp with ⟨-, hnew⟩ | ⟨-, hp⟩
        · exact absurd hnew.symm hd
        · exact ⟨p, hp⟩

theorem WellFormed.take (h : l.WellFormed) (hfree : l.held o = none) {rest : List Nat}
    (hidle : l.idle = c :: rest) : (l.take o c rest).WellFormed := by
  have hnodup : (c :: rest).Nodup := hidle ▸ h.nodup
  have hapart : ∀ {p d}, l.held p = some d → d ≠ c ∧ d ∉ rest := by
    intro p d hp
    have hnot := h.apart hp
    rw [hidle, List.mem_cons, not_or] at hnot
    exact hnot
  refine ⟨(List.nodup_cons.mp hnodup).2, ?_, ?_, ?_⟩
  · intro p d hp
    rcases update_some_iff.mp hp with ⟨-, rfl⟩ | ⟨-, hp⟩
    · exact (List.nodup_cons.mp hnodup).1
    · exact (hapart hp).2
  · intro p q d hp hq
    rcases update_some_iff.mp hp with ⟨rfl, rfl⟩ | ⟨-, hp⟩
    · rcases update_some_iff.mp hq with ⟨rfl, -⟩ | ⟨-, hq⟩
      · rfl
      · exact absurd rfl (hapart hq).1
    · rcases update_some_iff.mp hq with ⟨-, rfl⟩ | ⟨-, hq⟩
      · exact absurd rfl (hapart hp).1
      · exact h.sole hp hq
  · intro d
    show l.Open d ↔ d ∈ rest ∨ _
    rw [h.account d, hidle, List.mem_cons]
    constructor
    · rintro ((rfl | hmem) | ⟨p, hp⟩)
      · exact .inr ⟨o, update_some_iff.mpr (.inl ⟨rfl, rfl⟩)⟩
      · exact .inl hmem
      · exact .inr ⟨p, update_some_iff.mpr (.inr ⟨ne_of_held hfree hp, hp⟩)⟩
    · rintro (hmem | ⟨p, hp⟩)
      · exact .inl (.inr hmem)
      · rcases update_some_iff.mp hp with ⟨-, rfl⟩ | ⟨-, hp⟩
        · exact .inl (.inl rfl)
        · exact .inr ⟨p, hp⟩

theorem WellFormed.put (h : l.WellFormed) (hheld : l.held o = some c) :
    (l.put o c).WellFormed := by
  refine ⟨?_, ?_, ?_, ?_⟩
  · show (l.idle ++ [c]).Nodup
    rw [List.nodup_append]
    refine ⟨h.nodup, List.nodup_singleton c, ?_⟩
    intro d hd e he
    obtain rfl := List.mem_singleton.mp he
    rintro rfl
    exact h.apart hheld hd
  · intro p d hp
    obtain ⟨hpo, hp⟩ := update_none_iff.mp hp
    show d ∉ l.idle ++ [c]
    rw [List.mem_append, List.mem_singleton, not_or]
    refine ⟨h.apart hp, ?_⟩
    intro hdc
    exact hpo (h.sole (hdc ▸ hp) hheld)
  · intro p q d hp hq
    exact h.sole (update_none_iff.mp hp).2 (update_none_iff.mp hq).2
  · intro d
    show l.Open d ↔ d ∈ l.idle ++ [c] ∨ _
    rw [h.account d, List.mem_append, List.mem_singleton]
    constructor
    · rintro (hmem | ⟨p, hp⟩)
      · exact .inl (.inl hmem)
      · by_cases hdc : d = c
        · exact .inl (.inr hdc)
        · refine .inr ⟨p, update_none_iff.mpr ⟨?_, hp⟩⟩
          rintro rfl
          exact hdc (Option.some.inj (hp.symm.trans hheld))
    · rintro ((hmem | rfl) | ⟨p, hp⟩)
      · exact .inl hmem
      · exact .inr ⟨o, hheld⟩
      · exact .inr ⟨p, (update_none_iff.mp hp).2⟩

theorem WellFormed.close (h : l.WellFormed) (hheld : l.held o = some c) :
    (l.close o c).WellFormed := by
  refine ⟨h.nodup, ?_, ?_, ?_⟩
  · intro p d hp
    exact h.apart (update_none_iff.mp hp).2
  · intro p q d hp hq
    exact h.sole (update_none_iff.mp hp).2 (update_none_iff.mp hq).2
  · intro d
    show (l.opened.set c false)[d]? = some true ↔ d ∈ l.idle ∨ _
    by_cases hd : d = c
    · subst hd
      have hclosed : (l.opened.set d false)[d]? = some false :=
        List.getElem?_set_self (h.lt_of_held hheld)
      rw [hclosed]
      constructor
      · intro hfalse
        cases hfalse
      · rintro (hmem | ⟨p, hp⟩)
        · exact absurd hmem (h.apart hheld)
        · obtain ⟨hpo, hp⟩ := update_none_iff.mp hp
          exact absurd (h.sole hp hheld) hpo
    · rw [List.getElem?_set_ne (Ne.symm hd)]
      refine (h.account d).trans (or_congr Iff.rfl ⟨?_, ?_⟩)
      · rintro ⟨p, hp⟩
        refine ⟨p, update_none_iff.mpr ⟨?_, hp⟩⟩
        rintro rfl
        exact hd (Option.some.inj (hp.symm.trans hheld))
      · rintro ⟨p, hp⟩
        exact ⟨p, (update_none_iff.mp hp).2⟩

end Ledger
