import SkyClaw.Lib.PyRe

/-!
# Paths of Python's `pathlib`

Paths as `pathlib` reads, joins and resolves them, for POSIX and for Windows syntax.  Symbolic
links are left out, so a path is resolved by its text alone.  A `Location` is a path that has
been resolved: it is absolute and has no `..` left in it.
-/

/-- The two syntaxes. -/
inductive Flavour where
  | posix
  | windows
deriving DecidableEq, Repr

namespace Flavour

def sep : Flavour → Char
  | posix => '/'
  | windows => '\\'

/-- `part.replace(altsep, sep)`. -/
def replaceAltsep : Flavour → List Char → List Char
  | posix, text => text
  | windows, text => text.map fun c => if c = '/' then '\\' else c

def casefold (u : UnicodeText) : Flavour → List Char → List Char
  | posix, text => text
  | windows, text => u.lower text

end Flavour

/-- The components of a path; the anchor is not among the parts. -/
structure PurePath (fl : Flavour) where
  drive : List Char
  root : List Char
  parts : List (List Char)
  drive_posix : fl = .posix → drive = []
deriving DecidableEq, Repr

/-- The name of the parent directory. -/
def parentName : List Char := ['.', '.']

/-- An absolute path without `..`. -/
structure Location (fl : Flavour) where
  drive : List Char
  parts : List (List Char)
  drive_eq_nil : drive = [] ↔ fl = .posix
  resolved : parentName ∉ parts
deriving DecidableEq, Repr

namespace PurePath

open PyStr (partition)

theorem posix_drive : ([] : List Char) = [] ↔ Flavour.posix = .posix := iff_of_true rfl rfl

theorem parentName_not_mem_nil : parentName ∉ ([] : List (List Char)) := List.not_mem_nil

/-! ## Reading a path -/

/-- `_split_extended_path`. -/
def splitExtended (text : List Char) : List Char × List Char :=
  if "\\\\?\\".toList.isPrefixOf text then
    if "UNC\\".toList.isPrefixOf (text.drop 4) then (text.take 7, '\\' :: text.drop 7)
    else (text.take 4, text.drop 4)
  else ([], text)

/-- The drive and the rest of `\\machine\share\rest`. -/
def splitShare : List Char → Option (List Char × List Char)
  | '\\' :: '\\' :: text =>
      match partition '\\' text with
      | (machine, some rest) =>
          if machine = [] then none
          else
            match partition '\\' rest with
            | ([], some _) => none
            | (share, after) => some ("\\\\".toList ++ machine ++ '\\' :: share, after.getD [])
      | (_, none) => none
  | _ => none

/-- The drive letter and the rest. -/
def splitLetter : List Char → List Char × List Char
  | letter :: ':' :: text =>
      if letter.isAlpha then ([letter, ':'], text) else ([], letter :: ':' :: text)
  | text => ([], text)

/-- `splitroot`: the drive, the root and what is relative to them. -/
def splitRoot : Flavour → List Char → List Char × List Char × List Char
  | .posix, text =>
      let rest := text.dropWhile (· = '/')
      if text.length - rest.length = 2 then ([], "//".toList, rest)
      else (([], if text.head? = some '/' then ['/'] else [], rest))
  | .windows, text =>
      let (extended, text) :=
        if "\\\\".toList.isPrefixOf text then splitExtended text else ([], text)
      match splitShare text with
      | some (share, rest) =>
          (if extended = [] then share else extended ++ share.drop 1, ['\\'], rest)
      | none =>
          let (letter, rest) := splitLetter text
          if rest.head? = some '\\' then (extended ++ letter, ['\\'], rest.dropWhile (· = '\\'))
          else (extended ++ letter, [], rest)

theorem splitRoot_posix (text : List Char) : (splitRoot .posix text).1 = [] := by
  unfold splitRoot
  dsimp only
  split <;> rfl

/-- `PurePath(text)`. -/
def parse (fl : Flavour) (text : List Char) : PurePath fl where
  drive := (splitRoot fl (fl.replaceAltsep text)).1
  root := (splitRoot fl (fl.replaceAltsep text)).2.1
  parts := ((splitRoot fl (fl.replaceAltsep text)).2.2.splitOn fl.sep).filter fun part =>
    part ≠ [] ∧ part ≠ ['.']
  drive_posix hposix := by
    subst hposix
    exact splitRoot_posix _

/-- `str(path)`. -/
def toText {fl : Flavour} (path : PurePath fl) : List Char :=
  let text := path.drive ++ path.root ++ [fl.sep].intercalate path.parts
  if text = [] then ['.'] else text

/-- A path relative to a directory. -/
def relative (fl : Flavour) (parts : List (List Char)) : PurePath fl :=
  ⟨[], [], parts, fun _ => rfl⟩

/-- `base / path`. -/
def join {fl : Flavour} (u : UnicodeText) (base path : PurePath fl) : PurePath fl :=
  if path.root ≠ [] then
    if path.drive = [] then ⟨base.drive, path.root, path.parts, base.drive_posix⟩ else path
  else if path.drive = [] ∨ fl.casefold u path.drive = fl.casefold u base.drive then
    ⟨base.drive, base.root, base.parts ++ path.parts, base.drive_posix⟩
  else path

/-- A name that a directory can list. -/
def IsFileName (fl : Flavour) (name : List Char) : Prop :=
  name ≠ [] ∧ name ≠ ['.'] ∧ name ≠ parentName ∧ '/' ∉ name ∧
    (fl = .windows → '\\' ∉ name ∧ ':' ∉ name)

instance (fl : Flavour) (name : List Char) : Decidable (IsFileName fl name) :=
  inferInstanceAs (Decidable (_ ∧ _))

abbrev FileName (fl : Flavour) := { name : List Char // IsFileName fl name }

/-- A file name is read as one part. -/
theorem parse_fileName {fl : Flavour} {name : List Char} (h : IsFileName fl name) :
    parse fl name = relative fl [name] := by
  obtain ⟨hne, hdot, _, hslash, hwindows⟩ := h
  obtain ⟨c, rest, rfl⟩ := List.exists_cons_of_ne_nil hne
  have hparts : ([c :: rest].filter fun part => part ≠ [] ∧ part ≠ ['.']) = [c :: rest] := by
    simp [hdot]
  have hroot : splitRoot fl (fl.replaceAltsep (c :: rest)) = ([], [], c :: rest) ∧
      fl.sep ∉ c :: rest := by
    cases fl with
    | posix =>
        have hc : c ≠ '/' := fun heq => hslash (heq ▸ List.mem_cons_self)
        refine ⟨?_, hslash⟩
        simp [splitRoot, Flavour.replaceAltsep, hc]
    | windows =>
        obtain ⟨hback, hcolon⟩ := hwindows rfl
        have hc : c ≠ '\\' := fun heq => hback (heq ▸ List.mem_cons_self)
        refine ⟨?_, hback⟩
        have hkeep : (c :: rest).map (fun c => if c = '/' then '\\' else c) = c :: rest := by
          refine (List.map_congr_left fun d hd => ?_).trans (List.map_id _)
          exact if_neg fun (heq : d = '/') => hslash (heq ▸ hd)
        have hletter : splitLetter (c :: rest) = ([], c :: rest) := by
          cases rest with
          | nil => rfl
          | cons second rest =>
              have hsecond : second ≠ ':' := fun heq =>
                hcolon (heq ▸ List.mem_cons_of_mem c List.mem_cons_self)
              simp [splitLetter, hsecond]
        have hshare : splitShare (c :: rest) = none := by
          simp [splitShare, hc]
        have hplain : "\\\\".toList.isPrefixOf (c :: rest) = false := by
          simp [List.isPrefixOf, Ne.symm hc]
        simp only [Flavour.replaceAltsep, hkeep, splitRoot, hplain, Bool.false_eq_true, if_false,
          hshare, hletter, List.head?_cons, Option.some.injEq, hc, List.append_nil]
  unfold parse relative
  simp only [hroot.1, List.splitOn_eq_singleton hroot.2, hparts]

/-! ## Resolving a path -/

/-- Go down one part, or up. -/
def enter (parts : List (List Char)) (part : List Char) : List (List Char) :=
  if part = parentName then parts.dropLast else parts ++ [part]

/-- The parts without `..`; above the root there is nothing. -/
def collapse (base parts : List (List Char)) : List (List Char) := parts.foldl enter base

theorem not_mem_collapse {base parts : List (List Char)} (h : parentName ∉ base) :
    parentName ∉ collapse base parts := by
  induction parts generalizing base with
  | nil => exact h
  | cons part rest ih =>
      apply ih
      unfold enter
      split
      · exact fun hmem => h (List.dropLast_subset base hmem)
      · next hne =>
          intro hmem
          rcases List.mem_append.mp hmem with hmem | hmem
          · exact h hmem
          · exact hne (List.mem_singleton.mp hmem).symm

theorem collapse_of_clean {base parts : List (List Char)} (h : parentName ∉ parts) :
    collapse base parts = base ++ parts := by
  induction parts generalizing base with
  | nil => exact (List.append_nil base).symm
  | cons part rest ih =>
      have hpart : part ≠ parentName := fun heq => h (heq ▸ List.mem_cons_self)
      show collapse (enter base part) rest = _
      rw [ih fun hmem => h (List.mem_cons_of_mem part hmem), enter, if_neg hpart, List.append_assoc]
      rfl

end PurePath

namespace Location

open PurePath

variable {fl : Flavour}

def toPath (location : Location fl) : PurePath fl :=
  ⟨location.drive, [fl.sep], location.parts, location.drive_eq_nil.mpr⟩

/-- What lies below a location. -/
def append (location : Location fl) (parts : List (List Char)) (h : parentName ∉ parts) :
    Location fl :=
  ⟨location.drive, location.parts ++ parts, location.drive_eq_nil, fun hmem =>
    (List.mem_append.mp hmem).elim location.resolved h⟩

/-- `path.resolve()`, with the current directory of each drive. -/
def resolve (cwd : List Char → Location fl) (path : PurePath fl) : Location fl :=
  if path.root = [] then
    { drive := (cwd path.drive).drive
      parts := collapse (cwd path.drive).parts path.parts
      drive_eq_nil := (cwd path.drive).drive_eq_nil
      resolved := not_mem_collapse (cwd path.drive).resolved }
  else if hdrive : path.drive = [] then
    { drive := (cwd []).drive
      parts := collapse [] path.parts
      drive_eq_nil := (cwd []).drive_eq_nil
      resolved := not_mem_collapse List.not_mem_nil }
  else
    { drive := path.drive
      parts := collapse [] path.parts
      drive_eq_nil := iff_of_false hdrive fun hposix => hdrive (path.drive_posix hposix)
      resolved := not_mem_collapse List.not_mem_nil }

variable (u : UnicodeText)

/-- `location.is_relative_to(root)`. -/
def IsRelativeTo (location root : Location fl) : Prop :=
  fl.casefold u root.drive = fl.casefold u location.drive ∧
    root.parts.map (fl.casefold u) <+: location.parts.map (fl.casefold u)

instance (location root : Location fl) : Decidable (IsRelativeTo u location root) :=
  inferInstanceAs (Decidable (_ ∧ _))

/-- Inside a directory, and not the directory itself. -/
def StrictlyBelow (location root : Location fl) : Prop :=
  IsRelativeTo u location root ∧ root.parts.length < location.parts.length

instance (location root : Location fl) : Decidable (StrictlyBelow u location root) :=
  inferInstanceAs (Decidable (_ ∧ _))

variable {u}

variable {parts : List (List Char)}

theorem isRelativeTo_append (location : Location fl)
    (h : parentName ∉ parts) : IsRelativeTo u (location.append parts h) location := by
  refine ⟨rfl, ?_⟩
  show _ <+: (location.parts ++ parts).map _
  rw [List.map_append]
  exact List.prefix_append _ _

theorem IsRelativeTo.trans {a b c : Location fl} (hab : IsRelativeTo u a b)
    (hbc : IsRelativeTo u b c) : IsRelativeTo u a c :=
  ⟨hbc.1.trans hab.1, hbc.2.trans hab.2⟩

theorem IsRelativeTo.length_le {location root : Location fl} (h : IsRelativeTo u location root) :
    root.parts.length ≤ location.parts.length := by
  have hlength := h.2.length_le
  rwa [List.length_map, List.length_map] at hlength

theorem StrictlyBelow.append {location root : Location fl} (h : StrictlyBelow u location root) (hparts : parentName ∉ parts) :
    StrictlyBelow u (location.append parts hparts) root := by
  refine ⟨(isRelativeTo_append location hparts).trans h.1, ?_⟩
  show _ < (location.parts ++ parts).length
  rw [List.length_append]
  exact Nat.lt_add_right _ h.2

theorem resolve_toPath (cwd : List Char → Location fl) (location : Location fl) :
    resolve cwd location.toPath = location := by
  have hcollapse : collapse [] location.parts = location.parts :=
    collapse_of_clean location.resolved
  have hroot : location.toPath.root ≠ [] := List.cons_ne_nil fl.sep []
  unfold resolve
  rw [if_neg hroot]
  by_cases hdrive : location.drive = []
  · have hcwd : (cwd []).drive = location.drive := by
      rw [hdrive, (cwd []).drive_eq_nil]
      exact location.drive_eq_nil.mp hdrive
    rw [dif_pos (show location.toPath.drive = [] from hdrive)]
    show Location.mk (cwd []).drive (collapse [] location.parts) _ _ = _
    simp only [hcwd, hcollapse]
  · rw [dif_neg (show ¬location.toPath.drive = [] from hdrive)]
    show Location.mk location.drive (collapse [] location.parts) _ _ = _
    simp only [hcollapse]

theorem resolve_join_relative (cwd : List Char → Location fl) (location : Location fl) (h : parentName ∉ parts) :
    resolve cwd (join u location.toPath (relative fl parts)) = location.append parts h :=
  resolve_toPath cwd (location.append parts h)

end Location
