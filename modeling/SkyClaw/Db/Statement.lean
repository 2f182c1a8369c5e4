import Mathlib.Tactic.TypeStar

/-!
# Statements on a shared connection

Every component of `db/` runs a statement and then `commit()` on a connection it
keeps.  A statement that ran stays visible on that connection even when the
commit raises, since nothing rolls it back.
-/

namespace SkyClaw.Db

/-- How one `execute` followed by `commit` ends.  The two error cases are
`sqlite3` exceptions: raised by the statement itself, or by the commit after the
statement took effect on the connection. -/
inductive DbOutcome
  | ok
  | executeError
  | commitError
deriving DecidableEq

/-- The state a statement leaves on the connection, if it turns `before` into
`after` when it runs. -/
def DbOutcome.leaves {σ : Type*} (outcome : DbOutcome) (before after : σ) : σ :=
  match outcome with
  | .executeError => before
  | .ok | .commitError => after

@[simp] theorem DbOutcome.leaves_executeError {σ : Type*} (before after : σ) :
    DbOutcome.executeError.leaves before after = before := rfl

theorem DbOutcome.leaves_of_ran {σ : Type*} {outcome : DbOutcome} (before after : σ)
    (hran : outcome ≠ .executeError) : outcome.leaves before after = after := by
  cases outcome with
  | executeError => exact absurd rfl hran
  | ok | commitError => rfl

end SkyClaw.Db
