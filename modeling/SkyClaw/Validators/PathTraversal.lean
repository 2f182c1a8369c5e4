import SkyClaw.Lib.Checks
import SkyClaw.Lib.PathSegments
import SkyClaw.Lib.Unquote

/-!
# The path traversal validator

`PathTraversalValidator.validate` and `validate_path_strict`, for a validator that runs on POSIX or on
Windows.  What is checked is the text as it came, but the separators and the dot components in front
of the accepted path are changed afterwards, and null characters are looked for before anything is
decoded: `safe_iff`.
-/

namespace SkyClaw.Validators.PathTraversal

open Checks PurePath
open PyRe (anyOf literal)
open Regex (alt char contains sequence star)
open Unquote (unquote)

/-! ## The tables -/

def slashOrBackslash : Regex Char := char (anyOf "/\\")

/-- `(?:^|[/\\])\.\.(?:[/\\]|$)` -/
def parentComponent : Regex Char :=
  sequence [alt PyRe.atStart slashOrBackslash, literal "..", alt slashOrBackslash PyRe.atEnd]

/-- `%2[eE]` -/
def encodedDot : Regex Char := sequence [literal "%2", char (anyOf "eE")]

def pathTraversalPatterns : List (Regex Char) :=
  [literal "../", literal "..\\", sequence [literal "..%2", char (anyOf "fF")],
    sequence [literal "..%5", char (anyOf "cC")], parentComponent,
    sequence [encodedDot, encodedDot], sequence [encodedDot, literal "."],
    sequence [literal ".", encodedDot], sequence [literal "%252", char (anyOf "eE")],
    sequence [literal "%", char (anyOf "cC"), literal "0%", char (anyOf "aA"), char (anyOf "fF")],
    sequence [literal "%", char (anyOf "cC"), literal "1%9", char (anyOf "cC")]]

def nullBytePatterns : List (Regex Char) := [literal "%00", literal "\\x00", literal "\x00"]

def dangerousPrefixes : List (List Char) := ["/".toList, "\\\\".toList]

/-- `^[a-zA-Z]:` -/
def driveLetter : Regex Char := sequence [PyRe.atStart, char Char.isAlpha, literal ":"]

def dangerousWindowsPatterns : List (Regex Char) :=
  [driveLetter, sequence [literal ":", star (char (· ≠ '\n')), literal ":"]]

structure PathValidationResult where
  isValid : Bool
  normalizedPath : Option (List Char)
  errorMessage : Option (List Char)
  isAbsolute : Bool
deriving DecidableEq, Repr

structure PathTraversalValidator (fl : Flavour) where
  allowedRoots : List (PurePath fl)
  allowAbsolute : Bool

def refused (message : String) (isAbsolute : Bool) : PathValidationResult :=
  ⟨false, none, some message.toList, isAbsolute⟩

def hasPattern (patterns : List (Regex Char)) (text : List Char) : Bool :=
  patterns.any fun pattern => contains pattern text

def hasPrefix (text : List Char) : Bool := dangerousPrefixes.any fun start => start.isPrefixOf text

/-! ## The validator -/

/-- `not path or not path.strip()` -/
def blank (path : List Char) : Bool := path.all PyStr.isSpace

/-- What the path is decoded to, where that changes it. -/
def candidates (path : List Char) : List (List Char) :=
  let once := unquote path
  let twice := unquote once
  (if once ≠ path then [once] else []) ++ (if twice ≠ once then [twice] else [])

def checkDecoded (decoded : List Char) : Except PathValidationResult Unit := do
  raiseIf (hasPattern pathTraversalPatterns decoded)
    (refused "Secuencia de path traversal detectada (codificada)" false)
  raiseIf (hasPrefix decoded) (refused "Ruta absoluta detectada en path codificado" true)
  raiseIf (hasPattern dangerousWindowsPatterns decoded)
    (refused "Patrón de path Windows detectado en path codificado" true)

/-- Steps 1 to 2b. -/
def checkText (path : List Char) : Except PathValidationResult Unit := do
  raiseIf (blank path) (refused "Path vacío" false)
  raiseIf (hasPattern nullBytePatterns path) (refused "Byte nulo detectado en path" false)
  raiseIf (path.contains '\x00') (refused "Byte nulo literal detectado en path" false)
  raiseIf (hasPattern pathTraversalPatterns path)
    (refused "Secuencia de path traversal detectada" false)
  (candidates path).forM checkDecoded

/-- `is_absolute or is_windows_absolute` -/
def looksAbsolute (path : List Char) : Bool :=
  hasPrefix path || hasPattern dangerousWindowsPatterns path

/-- `str(normalized).replace("\\", "/")` -/
def normalizedText {fl : Flavour} (path : PurePath fl) : List Char :=
  path.toText.map fun c => if c = '\\' then '/' else c

variable {fl : Flavour} (u : UnicodeText) (cwd : List Char → Location fl)

/-- Step 5. -/
def checkRoots (validator : PathTraversalValidator fl) (path : List Char) :
    Except PathValidationResult Unit :=
  let resolved := Location.resolve cwd (parse fl path)
  raiseIf (looksAbsolute path && !validator.allowedRoots.isEmpty &&
      !validator.allowedRoots.any fun root =>
        decide (Location.IsRelativeTo u resolved (Location.resolve cwd root)))
    (refused "Path absoluto fuera de directorios permitidos" true)

def checked (validator : PathTraversalValidator fl) (path : List Char) :
    Except PathValidationResult Unit := do
  checkText path
  raiseIf (looksAbsolute path && !validator.allowAbsolute)
    (refused "Rutas absolutas no permitidas" true)
  checkRoots u cwd validator path

def validate (validator : PathTraversalValidator fl) (path : List Char) : PathValidationResult :=
  match checked u cwd validator path with
  | .error result => result
  | .ok () => ⟨true, some (normalizedText (parse fl path)), none, looksAbsolute path⟩

/-- `validate_path_strict`; the error is the text of the `ValueError`. -/
def validatePathStrict (path : List Char) : Except (List Char) (List Char) :=
  let result := validate u cwd ⟨[], false⟩ path
  if result.isValid then .ok (result.normalizedPath.getD [])
  else .error ("Validación de path fallida: ".toList ++ result.errorMessage.getD [])

/-- Neither a null character nor a segment `..`. -/
def CleanText (text : List Char) : Prop := '\x00' ∉ text ∧ parentName ∉ segments text

/-- **A string that is accepted stays inside of every directory**, and so does the path that is
returned for it, and what it decodes to is clean. -/
def Safe (path : List Char) : Prop :=
  ∀ accepted, validatePathStrict u cwd path = .ok accepted →
    InsideEverywhere u path ∧ InsideEverywhere u accepted ∧ CleanText path ∧
      CleanText (unquote path) ∧ CleanText (unquote (unquote path))

/-- All that is asked of a string. -/
structure Passes (path : List Char) : Prop where
  blank : blank path = false
  nullBytes : hasPattern nullBytePatterns path = false
  traversal : hasPattern pathTraversalPatterns path = false
  decoded : ∀ text ∈ candidates path, hasPattern pathTraversalPatterns text = false ∧
    hasPrefix text = false ∧ hasPattern dangerousWindowsPatterns text = false
  relative : looksAbsolute path = false

/-- Neither a backslash nor a drive letter is left in front when the path is normalized, and decoding
brings up no escape of the null character. -/
structure Harmless (fl : Flavour) (path : List Char) : Prop where
  backslash : path.head? ≠ some '\\'
  component : ∀ part ∈ (parse fl path).parts.head?,
    part.head? ≠ some '\\' ∧ (splitLetter part).1 = []
  nullBytes : ¬ "%00".toList <:+: unquote path

/-! ## What the patterns find -/

variable {r : Regex Char}

theorem contains_of_matches {k : Regex.Cursor Char} (before rest : List Char)
    (h : Regex.Matches r ⟨Regex.lastOr none before, rest⟩ k) : contains r (before ++ rest) = true :=
  Regex.containsFrom_iff.mpr ⟨before, rest, rfl, Regex.startsAt_iff.mpr ⟨k, h⟩⟩

/-- A segment `..` is found wherever it stands. -/
theorem parentComponent_of_mem_segments {text : List Char} (h : parentName ∈ segments text) :
    contains parentComponent text = true := by
  obtain ⟨before, after, rfl, hbefore, hafter⟩ := exists_of_mem_splitOnP h
  have hsep : ∀ c, isSep c = true → anyOf "/\\" c = true := by
    intro c hc
    simp only [isSep, Bool.or_eq_true, beq_iff_eq] at hc
    rcases hc with rfl | rfl <;> decide
  -- from the dots on
  have hdots : ∀ prev : Option Char, ∃ k, Regex.Matches
      (sequence [literal "..", alt slashOrBackslash PyRe.atEnd]) ⟨prev, parentName ++ after⟩ k := by
    intro prev
    have htext : Regex.Matches (literal "..") ⟨prev, parentName ++ after⟩
        ⟨Regex.lastOr prev parentName, after⟩ := PyRe.matches_chars_iff.mpr ⟨rfl, rfl⟩
    cases after with
    | nil => exact ⟨⟨some '.', []⟩, _, htext, ⟨some '.', []⟩, .inr (.inl ⟨rfl, rfl⟩), rfl⟩
    | cons c rest =>
        exact ⟨⟨some c, rest⟩, _, htext, ⟨some c, rest⟩,
          .inl ⟨c, hsep c (hafter c rfl), rfl, rfl⟩, rfl⟩
  rcases List.eq_nil_or_concat before with rfl | ⟨front, c, rfl⟩
  · obtain ⟨k, hk⟩ := hdots none
    exact contains_of_matches [] _ ⟨_, .inl ⟨rfl, rfl⟩, hk⟩
  · obtain ⟨k, hk⟩ := hdots (some c)
    have hc : isSep c = true := hbefore c (by simp)
    rw [List.concat_eq_append, List.append_assoc]
    refine contains_of_matches front _ ⟨⟨some c, parentName ++ after⟩, .inr ?_, hk⟩
    exact ⟨c, hsep c hc, rfl, rfl⟩

theorem driveLetter_of_splitLetter {text : List Char} (h : (splitLetter text).1 ≠ []) :
    contains driveLetter text = true := by
  unfold splitLetter at h
  split at h
  · next letter rest =>
      by_cases halpha : letter.isAlpha = true
      · have hcolon : Regex.Matches (literal ":") ⟨some letter, ':' :: rest⟩ ⟨some ':', rest⟩ :=
          PyRe.matches_chars_iff.mpr ⟨rfl, rfl⟩
        refine contains_of_matches (k := ⟨some ':', rest⟩) [] _ ?_
        exact ⟨_, ⟨rfl, rfl⟩, _, ⟨letter, halpha, rfl, rfl⟩, _, hcolon, rfl⟩
      · rw [if_neg halpha] at h
        exact absurd rfl h
  · exact absurd rfl h

theorem not_contains_of_hasPattern {patterns : List (Regex Char)} {text : List Char}
    (h : hasPattern patterns text = false) (hr : r ∈ patterns) :
    ¬ contains r text = true := by
  intro hfound
  have hany : hasPattern patterns text = true := List.any_eq_true.mpr ⟨r, hr, hfound⟩
  rw [h] at hany
  cases hany

theorem nul_not_mem_of_hasPattern {text : List Char} (h : hasPattern nullBytePatterns text = false) :
    '\x00' ∉ text := by
  intro hmem
  obtain ⟨before, after, rfl⟩ := List.append_of_mem hmem
  exact not_contains_of_hasPattern h (r := literal "\x00") (by simp [nullBytePatterns])
    (PyRe.contains_literal_iff.mpr ⟨before, after, by simp⟩)

variable {u cwd}

theorem checkDecoded_eq_ok_iff {text : List Char} :
    checkDecoded text = .ok () ↔ hasPattern pathTraversalPatterns text = false ∧
      hasPrefix text = false ∧ hasPattern dangerousWindowsPatterns text = false := by
  unfold checkDecoded
  rw [check_bind_eq_ok_iff, check_bind_eq_ok_iff, raiseIf_eq_ok_iff, raiseIf_eq_ok_iff,
    raiseIf_eq_ok_iff]

theorem isValid_of_checked_error {validator : PathTraversalValidator fl} {path : List Char} :
    ∀ result, checked u cwd validator path = .error result → result.isValid = false := by
  have hraise : ∀ {condition : Bool} {message : String} {isAbsolute : Bool} result,
      raiseIf condition (refused message isAbsolute) = .error result → result.isValid = false :=
    fun result h => by rw [raiseIf_eq_error h]; rfl
  have hdecoded : ∀ text result, checkDecoded text = .error result → result.isValid = false := by
    intro text
    exact bind_error hraise fun _ => bind_error hraise fun _ => hraise
  unfold checked
  refine bind_error ?_ fun _ => bind_error hraise fun _ => hraise
  refine bind_error hraise fun _ => bind_error hraise fun _ => bind_error hraise fun _ => ?_
  exact bind_error hraise fun _ => forM_error hdecoded

theorem checked_strict_eq_ok_iff {path : List Char} :
    checked u cwd ⟨[], false⟩ path = .ok () ↔ Passes path := by
  have hnul : hasPattern nullBytePatterns path = false → path.contains '\x00' = false := by
    intro h
    have hmem := nul_not_mem_of_hasPattern h
    simpa using hmem
  unfold checked checkText checkRoots
  simp only [check_bind_eq_ok_iff, raiseIf_eq_ok_iff, forM_eq_ok_iff, checkDecoded_eq_ok_iff,
    List.isEmpty_nil, Bool.not_true, Bool.and_false, Bool.false_and, Bool.not_false, Bool.and_true]
  constructor
  · rintro ⟨⟨hblank, hnull, _, htraversal, hdecoded⟩, habsolute, _⟩
    exact ⟨hblank, hnull, htraversal, hdecoded, habsolute⟩
  · rintro ⟨hblank, hnull, htraversal, hdecoded, habsolute⟩
    exact ⟨⟨hblank, hnull, hnul hnull, htraversal, hdecoded⟩, habsolute, trivial⟩

/-- **When a string is accepted, and for what path.** -/
theorem validatePathStrict_eq_ok_iff {path accepted : List Char} :
    validatePathStrict u cwd path = .ok accepted ↔
      Passes path ∧ accepted = normalizedText (parse fl path) := by
  have hpasses : checked u cwd ⟨[], false⟩ path = .ok () ↔ Passes path := checked_strict_eq_ok_iff
  rw [← hpasses]
  unfold validatePathStrict validate
  cases hchecked : checked u cwd ⟨[], false⟩ path with
  | ok a =>
      show (.ok (normalizedText (parse fl path)) : Except (List Char) (List Char)) = .ok accepted ↔ _
      rw [Except.ok.injEq]
      exact ⟨fun h => ⟨rfl, h.symm⟩, fun h => h.2.symm⟩
  | error result =>
      refine iff_of_false (fun h => ?_) fun h => by cases h.1
      simp only [isValid_of_checked_error _ hchecked, Bool.false_eq_true, if_false] at h
      cases h

/-! ## The texts of a string that passes -/

theorem parentName_not_mem_of_hasPattern {text : List Char}
    (h : hasPattern pathTraversalPatterns text = false) : parentName ∉ segments text := by
  exact fun hmem => not_contains_of_hasPattern h (by simp [pathTraversalPatterns])
    (parentComponent_of_mem_segments hmem)

namespace Passes

variable {path : List Char}

theorem parentName_not_mem_unquote (h : Passes path) :
    parentName ∉ segments path ∧ parentName ∉ segments (unquote path) ∧
      parentName ∉ segments (unquote (unquote path)) := by
  have hpath := parentName_not_mem_of_hasPattern h.traversal
  have honce : parentName ∉ segments (unquote path) := by
    by_cases heq : unquote path = path
    · rw [heq]
      exact hpath
    · exact parentName_not_mem_of_hasPattern (h.decoded _ (by simp [candidates, heq])).1
  refine ⟨hpath, honce, ?_⟩
  by_cases heq : unquote (unquote path) = unquote path
  · rw [heq]
    exact honce
  · exact parentName_not_mem_of_hasPattern (h.decoded _ (by simp [candidates, heq])).1

theorem nul_not_mem (h : Passes path) : '\x00' ∉ path ∧ '\x00' ∉ unquote path := by
  have hescape : ¬ "%00".toList <:+: path := fun hinfix =>
    not_contains_of_hasPattern h.nullBytes (by simp [nullBytePatterns])
      (PyRe.contains_literal_iff.mpr hinfix)
  have hnul : '\x00' ∉ path := nul_not_mem_of_hasPattern h.nullBytes
  exact ⟨hnul, fun hmem => (Unquote.nul_mem_unquote_iff.mp hmem).elim hnul hescape⟩

theorem unanchored_iff (h : Passes path) : Unanchored path ↔ path.head? ≠ some '\\' := by
  obtain ⟨hstart, hwindows⟩ := Bool.or_eq_false_iff.mp h.relative
  have hletter : (splitLetter path).1 = [] := by
    by_contra hne
    exact not_contains_of_hasPattern hwindows (by simp [dangerousWindowsPatterns])
      (driveLetter_of_splitLetter hne)
  have hslash : path.head? ≠ some '/' := by
    intro hhead
    obtain ⟨rest, rfl⟩ := List.head?_eq_some_iff.mp hhead
    cases hstart
  constructor
  · intro hanchor hback
    exact absurd (hanchor.1 '\\' hback) (by decide)
  · intro hback
    refine ⟨fun c hc => ?_, hletter⟩
    by_contra hsep
    rw [Bool.not_eq_false, isSep, Bool.or_eq_true, beq_iff_eq, beq_iff_eq] at hsep
    rcases hsep with rfl | rfl
    · exact hslash hc
    · exact hback hc

end Passes

theorem toText_eq {path : PurePath fl} (hdrive : path.drive = []) (hroot : path.root = []) :
    path.toText =
      if [fl.sep].intercalate path.parts = [] then ['.'] else [fl.sep].intercalate path.parts := by
  unfold toText
  rw [hdrive, hroot]
  rfl

/-- The path that is returned has the segments of the string. -/
theorem parentName_not_mem_normalizedText {path : List Char} (hanchor : Unanchored path)
    (h : parentName ∉ segments path) :
    parentName ∉ segments (normalizedText (parse fl path)) := by
  have hanchorless : (parse fl path).drive = [] ∧ (parse fl path).root = [] :=
    anchorless_of_unanchored hanchor
  obtain ⟨hdrive, hroot⟩ := hanchorless
  have hslash : segments (normalizedText (parse fl path)) = segments (parse fl path).toText := by
    refine segments_map (fun c => ?_) (fun c hc => ?_) _
    · by_cases hc : c = '\\'
      · subst hc
        rfl
      · rw [if_neg hc]
    · exact if_neg fun hback => by rw [hback] at hc; cases hc
  rw [hslash, toText_eq hdrive hroot]
  split
  · decide
  · next hne =>
      have hparts : (parse fl path).parts ≠ [] := fun hnil => hne (by rw [hnil]; rfl)
      rw [segments_intercalate (isSep_sep fl) hparts]
      intro hmem
      obtain ⟨part, hpart, hsegment⟩ := List.mem_flatMap.mp hmem
      have hpiece := List.mem_of_mem_filter hpart
      rw [splitRoot_rest hdrive hroot] at hpiece
      have hsubset := segments_subset_of_mem_splitOn (isSep_sep fl) hpiece
      rw [segments_replaceAltsep] at hsubset
      exact h (hsubset hsegment)

theorem unanchored_normalizedText_iff {path : List Char} (hanchor : Unanchored path) :
    Unanchored (normalizedText (parse fl path)) ↔
      ∀ part ∈ (parse fl path).parts.head?, part.head? ≠ some '\\' ∧ (splitLetter part).1 = [] := by
  have hanchorless : (parse fl path).drive = [] ∧ (parse fl path).root = [] :=
    anchorless_of_unanchored hanchor
  obtain ⟨hdrive, hroot⟩ := hanchorless
  have hkept : ∀ part ∈ (parse fl path).parts, part ≠ [] ∧ '/' ∉ part := fun part hpart =>
    slash_not_mem_part hdrive hroot hpart
  unfold normalizedText
  rw [toText_eq hdrive hroot]
  generalize (parse fl path).parts = parts at hkept
  cases parts with
  | nil =>
      refine iff_of_true ⟨?_, rfl⟩ fun part hpart => by cases hpart
      rintro c hc
      cases hc
      rfl
  | cons part parts =>
      obtain ⟨rest, hcut, hrest⟩ := exists_intercalate_cons fl.sep part parts
      obtain ⟨hne, hslash⟩ := hkept part List.mem_cons_self
      have hcolon : ':' ∉ rest.head? := fun hmem => by
        have hsep := isSep_sep fl
        rw [← hrest ':' hmem] at hsep
        cases hsep
      have hletter : (splitLetter ((part ++ rest).map fun c => if c = '\\' then '/' else c)).1 = [] ↔
          (splitLetter part).1 = [] :=
        (splitLetter_sep_eq_nil_iff rfl rfl _).trans (splitLetter_append_eq_nil_iff hne hcolon)
      obtain ⟨c, part, rfl⟩ := List.exists_cons_of_ne_nil hne
      have hc : c ≠ '/' := fun heq => hslash (by rw [heq]; exact List.mem_cons_self)
      have hhead : isSep (if c = '\\' then '/' else c) = false ↔ c ≠ '\\' := by
        by_cases hback : c = '\\'
        · simp [hback, isSep]
        · simp [hback, isSep, hc]
      rw [hcut, if_neg (show ¬ (c :: part ++ rest = []) from List.cons_ne_nil _ _)]
      unfold Unanchored
      rw [hletter]
      simp only [List.cons_append, List.map_cons, List.head?_cons, Option.mem_def,
        Option.some.injEq, forall_eq', hhead, ne_eq]

/-- A string is treated safely exactly if it is refused or harmless. -/
theorem safe_iff (u : UnicodeText) (cwd : List Char → Location fl) (path : List Char) :
    Safe u cwd path ↔ (Passes path → Harmless fl path) := by
  constructor
  · intro hsafe hpasses
    obtain ⟨hinside, haccepted, _, _, htwice⟩ :=
      hsafe _ (validatePathStrict_eq_ok_iff.mpr ⟨hpasses, rfl⟩)
    obtain ⟨hpath, _, _⟩ := hpasses.parentName_not_mem_unquote
    have hanchor := (insideEverywhere_iff hpath).mp hinside
    have hnormalized := (insideEverywhere_iff (parentName_not_mem_normalizedText hanchor hpath)).mp
      haccepted
    refine ⟨hpasses.unanchored_iff.mp hanchor, (unanchored_normalizedText_iff hanchor).mp
      hnormalized, fun hescape => ?_⟩
    exact htwice.1 (Unquote.nul_mem_unquote_iff.mpr (Or.inr hescape))
  · intro hharmless accepted hvalid
    obtain ⟨hpasses, rfl⟩ := validatePathStrict_eq_ok_iff.mp hvalid
    obtain ⟨hbackslash, hcomponent, hnull⟩ := hharmless hpasses
    obtain ⟨hpath, honce, htwice⟩ := hpasses.parentName_not_mem_unquote
    obtain ⟨hnul, hnulOnce⟩ := hpasses.nul_not_mem
    have hanchor := hpasses.unanchored_iff.mpr hbackslash
    refine ⟨(insideEverywhere_iff hpath).mpr hanchor, ?_, ⟨hnul, hpath⟩, ⟨hnulOnce, honce⟩, ?_,
      htwice⟩
    · exact (insideEverywhere_iff (parentName_not_mem_normalizedText hanchor hpath)).mpr
        ((unanchored_normalizedText_iff hanchor).mpr hcomponent)
    · exact fun hmem => (Unquote.nul_mem_unquote_iff.mp hmem).elim hnulOnce hnull

/-- A sandbox on the drive C. -/
def sandbox : Location .windows where
  drive := "C:".toList
  parts := ["sandbox".toList]
  drive_eq_nil := iff_of_false (List.cons_ne_nil _ _) (by decide)
  resolved := by decide

/-- A rooted name is accepted if it is written with one backslash. -/
theorem safe_counterexample : ¬ Safe .basic (fun _ => sandbox) "\\Windows".toList := by
  intro hsafe
  have haccepted : validatePathStrict .basic (fun _ => sandbox) "\\Windows".toList =
      .ok "/Windows".toList := by
    decide +kernel
  obtain ⟨_, hinside, _⟩ := hsafe _ haccepted
  obtain ⟨_, hbelow⟩ := hinside .windows sandbox
  exact absurd hbelow (by decide +kernel)

end SkyClaw.Validators.PathTraversal
