import Mathlib.Data.List.Basic

/-!
# One transaction shared by several writers

A connection in implicit-transaction mode: writes go into the open transaction,
whoever makes them, and `commit` and `rollback` settle all of them at once.  The
connection is kept as the log of its writes, each with its owner, so that one can
say what became of the writes of one owner; the contents of the database are what
the log leaves of the contents it started from.
-/

/-- The committed writes and those of the open transaction, each with its owner. -/
structure SharedTransaction (ω : Type*) where
  durable : List (Nat × ω)
  pending : List (Nat × ω)

namespace SharedTransaction

variable {ω δ : Type*}

/-- A connection on which nothing was written yet. -/
def empty : SharedTransaction ω := ⟨[], []⟩

section

variable (t : SharedTransaction ω)

/-- `owner` writes into the open transaction. -/
def write (owner : Nat) (writes : List ω) : SharedTransaction ω :=
  { t with pending := t.pending ++ writes.map fun w => (owner, w) }

def commit : SharedTransaction ω :=
  { durable := t.durable ++ t.pending, pending := [] }

def rollback : SharedTransaction ω := { t with pending := [] }

/-- The writes of one owner in a log. -/
def ownedBy (owner : Nat) (log : List (Nat × ω)) : List ω :=
  (log.filter fun entry => entry.1 = owner).map Prod.snd

/-- What `owner` has committed, and what it has in the open transaction. -/
def durableOf (owner : Nat) : List ω := ownedBy owner t.durable

def pendingOf (owner : Nat) : List ω := ownedBy owner t.pending

end

/-! ## The writes of one owner -/

theorem ownedBy_append (owner : Nat) (log log' : List (Nat × ω)) :
    ownedBy owner (log ++ log') = ownedBy owner log ++ ownedBy owner log' := by
  simp [ownedBy]

theorem ownedBy_self (owner : Nat) (writes : List ω) :
    ownedBy owner (writes.map fun w => (owner, w)) = writes := by
  simp [ownedBy, List.filter_map, Function.comp_def]

variable {owner : Nat}

theorem ownedBy_of_ne {other : Nat} (writes : List ω) (h : other ≠ owner) :
    ownedBy owner (writes.map fun w => (other, w)) = [] := by
  simp [ownedBy, List.filter_map, Function.comp_def, h]

section

variable (t : SharedTransaction ω)

@[simp] theorem durableOf_write (owner owner' : Nat) (writes : List ω) :
    (t.write owner writes).durableOf owner' = t.durableOf owner' := rfl

@[simp] theorem pendingOf_write_self (owner : Nat) (writes : List ω) :
    (t.write owner writes).pendingOf owner = t.pendingOf owner ++ writes := by
  rw [pendingOf, write, ownedBy_append, ownedBy_self, pendingOf]

theorem pendingOf_write_of_ne {owner' : Nat} (writes : List ω)
    (h : owner' ≠ owner) : (t.write owner writes).pendingOf owner' = t.pendingOf owner' := by
  rw [pendingOf, write, ownedBy_append, ownedBy_of_ne writes (Ne.symm h), List.append_nil, pendingOf]

@[simp] theorem durableOf_commit (owner : Nat) :
    t.commit.durableOf owner = t.durableOf owner ++ t.pendingOf owner :=
  ownedBy_append owner t.durable t.pending

@[simp] theorem pendingOf_commit (owner : Nat) :
    t.commit.pendingOf owner = [] := rfl

@[simp] theorem pendingOf_rollback (owner : Nat) :
    t.rollback.pendingOf owner = [] := rfl

end

/-- The committed contents, and the contents as the connection reads them. -/
def committed (apply : δ → ω → δ) (base : δ) (t : SharedTransaction ω) : δ :=
  (t.durable.map Prod.snd).foldl apply base

def working (apply : δ → ω → δ) (base : δ) (t : SharedTransaction ω) : δ :=
  (t.pending.map Prod.snd).foldl apply (t.committed apply base)

section Contents

variable (apply : δ → ω → δ) (base : δ) (t : SharedTransaction ω)

@[simp] theorem committed_write (owner : Nat) (writes : List ω) :
    (t.write owner writes).committed apply base = t.committed apply base := rfl

@[simp] theorem working_write (owner : Nat) (writes : List ω) :
    (t.write owner writes).working apply base = writes.foldl apply (t.working apply base) := by
  simp only [working, committed_write, write, List.map_append, List.foldl_append, List.map_map]
  congr 1
  exact List.map_id writes

@[simp] theorem committed_commit : t.commit.committed apply base = t.working apply base := by
  simp [committed, working, commit]

@[simp] theorem working_commit : t.commit.working apply base = t.working apply base :=
  t.committed_commit apply base

@[simp] theorem committed_rollback : t.rollback.committed apply base = t.committed apply base := rfl

@[simp] theorem working_rollback : t.rollback.working apply base = t.committed apply base := rfl

end Contents

@[simp] theorem durableOf_rollback (t : SharedTransaction ω) (owner : Nat) :
    t.rollback.durableOf owner = t.durableOf owner := rfl

end SharedTransaction
