import SkyClaw.Lib.PurePath

/-!
# Path isolation

`safe_join` and `PathValidator.validate`.  There are no symbolic links here, so a path resolves
to its text without `.` and `..`.
-/

namespace SkyClaw.Security

open PurePath Location

variable {fl : Flavour} (u : UnicodeText) (cwd : List Char → Location fl)

/-- `PathViolationError`. -/
inductive PathViolation (fl : Flavour) where
  /-- `Path traversal component ('..') detected in: …` -/
  | traversal (path : PurePath fl)
  /-- `Path '…' is outside all sandbox roots: …` -/
  | outsideRoots (resolved : Location fl) (roots : List (Location fl))
  /-- `Untrusted path … escapes root … (would resolve to …)` -/
  | escapesRoot (untrusted : PurePath fl) (root candidate : Location fl)
  /-- `Zip-slip detected: …` -/
  | zipSlip (member : List Char)
  /-- `Path traversal detected: … escapes sandbox` -/
  | escapesSandbox (member : List Char)

def safeJoin (root untrusted : PurePath fl) : Except (PathViolation fl) (Location fl) :=
  let rootResolved := resolve cwd root
  let candidate := resolve cwd (join u rootResolved.toPath untrusted)
  if IsRelativeTo u candidate rootResolved then .ok candidate
  else .error (.escapesRoot untrusted rootResolved candidate)

/-- `PathValidator`; at least one root is required. -/
structure PathValidator (fl : Flavour) where
  roots : List (Location fl)
  roots_ne_nil : roots ≠ []

def PathValidator.validate (validator : PathValidator fl) (path : PurePath fl) :
    Except (PathViolation fl) (Location fl) :=
  if parentName ∈ path.parts then .error (.traversal path)
  else if validator.roots.any fun root => IsRelativeTo u (resolve cwd path) root then
    .ok (resolve cwd path)
  else .error (.outsideRoots (resolve cwd path) validator.roots)

variable {u cwd}

theorem safeJoin_relative (root : Location fl) {parts : List (List Char)}
    (h : parentName ∉ parts) :
    safeJoin u cwd root.toPath (relative fl parts) = .ok (root.append parts h) := by
  unfold safeJoin
  dsimp only
  rw [resolve_toPath, resolve_join_relative cwd root h, if_pos (isRelativeTo_append root h)]

end SkyClaw.Security
