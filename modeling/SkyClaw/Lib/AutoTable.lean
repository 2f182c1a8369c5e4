import Mathlib.Logic.Function.Basic

/-!
# Tables with an `AUTOINCREMENT` key

An `AutoTable` files its rows under the numbers an `INTEGER PRIMARY KEY
AUTOINCREMENT` hands out.  Numbers are never reused: the proof that nothing is
filed at or above the next number is a field, so an insert cannot hit a row.
-/

/-- Rows filed under consecutive numbers; deleted or skipped numbers are `none`. -/
structure AutoTable (ρ : Type*) where
  row : Nat → Option ρ
  next : Nat
  fresh : ∀ id, next ≤ id → row id = none

namespace AutoTable

variable {ρ : Type*}

/-- A table no row was ever inserted into; the first number is 1. -/
def empty : AutoTable ρ := ⟨fun _ => none, 1, fun _ _ => rfl⟩

section

variable (t : AutoTable ρ)

/-- `INSERT`: the row gets the number `next`. -/
def insert (r : ρ) : AutoTable ρ :=
  ⟨Function.update t.row t.next (some r), t.next + 1, by
    intro id hid
    have hne : id ≠ t.next := by omega
    rw [Function.update_of_ne hne]
    exact t.fresh id (by omega)⟩

/-- `UPDATE … SET f WHERE id = ?`. -/
def update (t : AutoTable ρ) (id : Nat) (f : ρ → ρ) : AutoTable ρ :=
  ⟨Function.update t.row id ((t.row id).map f), t.next, by
    intro id' hid
    by_cases hne : id' = id
    · subst hne
      rw [Function.update_self, t.fresh id' hid]
      rfl
    · rw [Function.update_of_ne hne]
      exact t.fresh id' hid⟩

/-- `UPDATE … SET f` of every row; `f` leaves alone what the `WHERE` does not select. -/
def mapRows (f : ρ → ρ) : AutoTable ρ :=
  ⟨fun id => (t.row id).map f, t.next, fun id hid => by rw [t.fresh id hid]; rfl⟩

/-- `DELETE … WHERE id = ?`. -/
def delete (id : Nat) : AutoTable ρ :=
  ⟨Function.update t.row id none, t.next, by
    intro id' hid
    by_cases hne : id' = id
    · rw [hne, Function.update_self]
    · rw [Function.update_of_ne hne]
      exact t.fresh id' hid⟩

/-- The numbers under which a row is filed that satisfies `p`, in order. -/
def numbersWhere (p : ρ → Bool) : List Nat :=
  (List.range t.next).filter fun id => (t.row id).any p

@[simp] theorem next_insert (r : ρ) : (t.insert r).next = t.next + 1 := rfl

@[simp] theorem row_mapRows (f : ρ → ρ) (id : Nat) : (t.mapRows f).row id = (t.row id).map f := rfl

@[simp] theorem row_delete_self (id : Nat) : (t.delete id).row id = none := by
  simp [delete]

end

variable {id : Nat}

theorem row_delete_of_ne (t : AutoTable ρ) {id' : Nat} (h : id' ≠ id) :
    (t.delete id).row id' = t.row id' := by
  simp [delete, Function.update_of_ne h]

variable {t : AutoTable ρ}

theorem lt_next {r : ρ} (h : t.row id = some r) : id < t.next := by
  by_contra hge
  rw [t.fresh id (by omega)] at h
  cases h

@[simp] theorem row_insert_self (t : AutoTable ρ) (r : ρ) :
    (t.insert r).row t.next = some r := by
  simp [insert]

theorem row_insert_of_ne (t : AutoTable ρ) (r : ρ) (h : id ≠ t.next) :
    (t.insert r).row id = t.row id := by
  simp [insert, Function.update_of_ne h]

theorem row_insert_of_some (t : AutoTable ρ) (r : ρ) {q : ρ}
    (h : t.row id = some q) : (t.insert r).row id = some q := by
  have hne : id ≠ t.next := by
    rintro rfl
    rw [t.fresh t.next (Nat.le_refl _)] at h
    cases h
  rw [row_insert_of_ne t r hne, h]

theorem row_insert_eq_some {r q : ρ}
    (h : (t.insert r).row id = some q) : t.row id = some q ∨ (id = t.next ∧ q = r) := by
  by_cases hid : id = t.next
  · subst hid
    rw [row_insert_self] at h
    exact .inr ⟨rfl, (Option.some.inj h).symm⟩
  · rw [row_insert_of_ne t r hid] at h
    exact .inl h

@[simp] theorem row_update_self (t : AutoTable ρ) (id : Nat) (f : ρ → ρ) :
    (t.update id f).row id = (t.row id).map f := by
  simp [update]

theorem row_update_of_ne (t : AutoTable ρ) (f : ρ → ρ) {id' : Nat} (h : id' ≠ id) :
    (t.update id f).row id' = t.row id' := by
  simp [update, Function.update_of_ne h]

theorem mem_numbersWhere {p : ρ → Bool} :
    id ∈ t.numbersWhere p ↔ ∃ r, t.row id = some r ∧ p r = true := by
  simp only [numbersWhere, List.mem_filter, List.mem_range, Option.any_eq_true]
  constructor
  · rintro ⟨_, r, hr, hp⟩
    exact ⟨r, hr, hp⟩
  · rintro ⟨r, hr, hp⟩
    exact ⟨lt_next hr, r, hr, hp⟩

theorem pairwise_numbersWhere (t : AutoTable ρ) (p : ρ → Bool) :
    (t.numbersWhere p).Pairwise (· < ·) :=
  List.pairwise_lt_range.filter _

end AutoTable
