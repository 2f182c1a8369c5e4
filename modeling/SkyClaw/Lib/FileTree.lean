import Mathlib.Data.List.Induction

/-!
# Directory trees

The entries below a directory, by their path relative to it, each with a label; the
path `[]` is the directory itself.  An entry's parent is an entry: that is a field,
so a tree with a dangling entry cannot be built.  Files and directories are not told
apart, as nothing here depends on it.
-/

/-- Labelled entries, closed under parents. -/
structure FileTree (ε : Type*) where
  entry : List String → Option ε
  closed : ∀ path name, (entry (path ++ [name])).isSome = true → (entry path).isSome = true

namespace FileTree

variable {ε ε' : Type*}

variable {q : List String}

section

variable (t : FileTree ε)

theorem isSome_of_prefix {p : List String} (hbelow : p <+: q)
    (h : (t.entry q).isSome = true) : (t.entry p).isSome = true := by
  obtain ⟨rest, rfl⟩ := hbelow
  -- Go up from the entry, one name at a time.
  induction rest using List.reverseRecOn with
  | nil => simpa using h
  | append_singleton rest name ih =>
      apply ih
      rw [← List.append_assoc] at h
      exact t.closed (p ++ rest) name h

theorem isSome_head {name : String} {rest : List String}
    (h : (t.entry (name :: rest)).isSome = true) : (t.entry [name]).isSome = true :=
  t.isSome_of_prefix ⟨rest, rfl⟩ h

def map (f : ε → ε') (t : FileTree ε) : FileTree ε' where
  entry path := (t.entry path).map f
  closed path name h := by
    rw [Option.isSome_map] at h ⊢
    exact t.closed path name h

/-- The parent of a new entry is there, or the entry is the directory itself. -/
def hasParent (path : List String) : Bool :=
  path.isEmpty || (t.entry path.dropLast).isSome

/-- Add an entry. -/
def create (path : List String) (label : ε) (h : t.hasParent path = true) :
    FileTree ε where
  entry := Function.update t.entry path (some label)
  closed parent name hchild := by
    by_cases hparent : parent = path
    · subst hparent
      simp
    · rw [Function.update_of_ne hparent]
      by_cases hself : parent ++ [name] = path
      · subst hself
        rw [hasParent, List.dropLast_concat] at h
        simpa using h
      · rw [Function.update_of_ne hself] at hchild
        exact t.closed parent name hchild

/-- Remove the entries that are not to be kept. -/
def retain (keep : List String → Bool)
    (hkeep : ∀ path name, keep (path ++ [name]) = true → keep path = true) : FileTree ε where
  entry path := if keep path then t.entry path else none
  closed path name h := by
    split at h
    · rename_i hchild
      rw [if_pos (hkeep path name hchild)]
      exact t.closed path name h
    · cases h

/-- Remove an entry with all below it. -/
def remove (path : List String) : FileTree ε :=
  t.retain (fun q => !path.isPrefixOf q) fun q name h => by
    simp only [Bool.not_eq_true', ← Bool.not_eq_true, List.isPrefixOf_iff_prefix] at h ⊢
    exact fun hbelow => h (hbelow.trans (List.prefix_append q [name]))

@[simp] theorem create_self (path : List String) (label : ε)
    (h : t.hasParent path = true) : (t.create path label h).entry path = some label := by
  simp [create]

theorem create_of_ne {path : List String} (label : ε)
    (h : t.hasParent path = true) (hne : q ≠ path) :
    (t.create path label h).entry q = t.entry q := by
  simp [create, hne]

end

variable {t : FileTree ε} {label : ε}

theorem retain_eq_some {keep : List String → Bool}
    {hkeep : ∀ path name, keep (path ++ [name]) = true → keep path = true} {path : List String} :
    (t.retain keep hkeep).entry path = some label ↔
      keep path = true ∧ t.entry path = some label := by
  simp only [retain]
  cases hpath : keep path <;> simp

theorem retain_eq_none {keep : List String → Bool}
    {hkeep : ∀ path name, keep (path ++ [name]) = true → keep path = true} {path : List String} (h : t.entry path = some label) :
    (t.retain keep hkeep).entry path = none ↔ keep path = false := by
  simp only [retain]
  cases hpath : keep path <;> simp [h]

theorem entry_of_remove {path : List String}
    (h : (t.remove path).entry q = some label) : t.entry q = some label :=
  (retain_eq_some.mp h).2

end FileTree
