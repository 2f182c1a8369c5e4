import SkyClaw.Mo2.Modlist

/-!
# The mod list of the conflict detector

`AssetConflictDetector.parse_modlist` reads the file that `MO2Controller` reads and writes, with
an encoding and rules of its own.  `readersAgree_iff` says for which files both find the same
enabled mods.
-/

namespace SkyClaw.Assets

open PyStr (trim isSpace isNewline fileLines Newline)
open Mo2 (withoutBom parseLine readModlist)

/-! ## The two files -/

/-- A line of `parse_modlist`, with the name if it is enabled. -/
def modName (line : List Char) : Option (List Char) :=
  match trim line with
  | [] => none
  | sign :: name =>
      if sign = '+' then some name
      -- disabled, or no entry
      else none

/-- `parse_modlist`, for the text of the file: `encoding="utf-8"` leaves a byte order mark in it,
and the last line comes first. -/
def parseModlist (text : List Char) : List (List Char) :=
  (fileLines text).reverse.filterMap modName

/-- A line of `_write_modlist_atomic`, ended. -/
def normalised (line : List Char) : List Char :=
  if line.getLast? = some '\n' then line else line.rdropWhile isNewline ++ ['\n']

/-- What text mode makes of the line ends that are written. -/
def translate (newline : Newline) (text : List Char) : List Char :=
  text.flatMap fun c => if c = '\n' then newline.chars else [c]

/-- `_write_modlist_atomic`, for the text of the file: the encoder puts the mark before the first
line. -/
def writeModlistAtomic (newline : Newline) (lines : List (List Char)) : List Char :=
  if lines = [] then [] else '\uFEFF' :: translate newline (lines.flatMap normalised)

/-! ## One line -/

/-- The name of an enabled entry of `read_modlist`. -/
def enabledName (line : List Char) : Option (List Char) :=
  (parseLine line).bind fun entry => if entry.2 then some entry.1 else none

/-- What `read_modlist` makes of a name. -/
def keptName (name : List Char) : Option (List Char) :=
  if trim name = [] then none else some (trim name)

theorem enabledName_eq (line : List Char) : enabledName line = (modName line).bind keptName := by
  unfold enabledName modName parseLine
  cases trim line with
  | nil => rfl
  | cons sign rest =>
      by_cases hplus : sign = '+'
      · subst hplus
        by_cases hrest : trim rest = []
        · simp [keptName, hrest]
        · simp [keptName, hrest]
      · simp only [if_neg hplus, Option.bind_none]
        split_ifs <;> simp [hplus]

/-- The names of the enabled entries that `read_modlist` yields. -/
def enabledNames (text : List Char) : List (List Char) :=
  ((readModlist text).filter (·.2)).map (·.1)

theorem enabledNames_eq (text : List Char) :
    enabledNames text = (fileLines (withoutBom text)).filterMap enabledName := by
  unfold enabledNames readModlist enabledName
  rw [← List.filterMap_eq_map, ← List.filterMap_eq_filter, List.filterMap_filterMap,
    List.filterMap_filterMap]
  apply List.filterMap_congr
  intro line _
  cases parseLine line with
  | none => rfl
  | some entry =>
      obtain ⟨name, enabled⟩ := entry
      cases enabled <;> simp [Option.guard]

variable {name : List Char}

theorem keptName_eq_self_iff :
    keptName name = some name ↔ name ≠ [] ∧ trim name = name := by
  unfold keptName
  split
  · next hnil =>
      refine iff_of_false nofun fun h => ?_
      rw [hnil] at h
      exact h.1 h.2.symm
  · next hne =>
      rw [Option.some.injEq]
      constructor
      · intro h
        rw [h] at hne
        exact ⟨hne, h⟩
      · exact And.right

theorem fileLines_bom (text : List Char) :
    fileLines ('\uFEFF' :: text) =
      ('\uFEFF' :: (fileLines text).headD []) :: (fileLines text).tail := by
  unfold fileLines
  rw [PyStr.cut, if_pos (by decide)]
  generalize PyStr.cut isNewline text = cut
  obtain ⟨ended, rest⟩ := cut
  unfold PyStr.Cut.all
  cases ended with
  | nil | cons =>
      by_cases hrest : rest = []
      · simp [hrest, PyStr.Cut.push]
      · simp [hrest, PyStr.Cut.push]

theorem modName_bom (line : List Char) : modName ('\uFEFF' :: line) = none := by
  have hhead : isSpace '\uFEFF' = false := by decide
  have htrim : trim ('\uFEFF' :: line) = '\uFEFF' :: line.rdropWhile isSpace :=
    PyStr.trim_append_cons hhead [] line
  unfold modName
  simp only [htrim]
  exact if_neg (by decide)

/-! ## When the readers agree -/

/-- **The readers agree** on a file. -/
def ReadersAgree (text : List Char) : Prop := parseModlist text = (enabledNames text).reverse

/-- A name after a plus that is not empty and has no outer blanks. -/
def PlainName (line : List Char) : Prop :=
  ∀ name, trim line = '+' :: name → name ≠ [] ∧ trim name = name

/-- A mark, and an enabled entry in the line behind it. -/
def HidesFirst (text : List Char) : Prop :=
  text.head? = some '\uFEFF' ∧
    ∃ name, (fileLines (withoutBom text)).head?.bind parseLine = some (name, true)

theorem modName_eq_some_iff {line : List Char} :
    modName line = some name ↔ trim line = '+' :: name := by
  unfold modName
  cases trim line with
  | nil => simp
  | cons sign rest =>
      simp only [List.cons.injEq]
      by_cases hplus : sign = '+'
      · simp [hplus]
      · simp [hplus]

/-- A list is what is kept of it exactly if everything is kept. -/
theorem filterMap_eq_self_iff {α : Type*} {f : α → Option α} {l : List α} :
    l.filterMap f = l ↔ ∀ a ∈ l, f a = some a := by
  constructor
  · intro h
    have hlength : (l.filterMap f).length = l.length := congrArg List.length h
    induction l with
    | nil => simp
    | cons a l ih =>
        rw [List.filterMap_cons] at h hlength
        cases ha : f a with
        | none =>
            rw [ha] at hlength
            have hle := List.length_filterMap_le f l
            rw [List.length_cons] at hlength
            simp only at hlength
            omega
        | some b =>
            simp only [ha, List.cons.injEq] at h
            obtain ⟨rfl, htail⟩ := h
            exact List.forall_mem_cons.mpr ⟨ha, ih htail (congrArg List.length htail)⟩
  · intro h
    rw [List.filterMap_congr h, List.filterMap_some]

theorem keptName_of_mem {names : List (List Char)}
    (h : name ∈ names.filterMap keptName) : keptName name = some name := by
  obtain ⟨raw, _, hraw⟩ := List.mem_filterMap.mp h
  unfold keptName at hraw
  split at hraw
  · cases hraw
  · next hne =>
      cases hraw
      rw [keptName_eq_self_iff, PyStr.trim_trim]
      exact ⟨hne, rfl⟩

theorem plainName_iff {line : List Char} :
    PlainName line ↔ ∀ name, modName line = some name → keptName name = some name := by
  unfold PlainName
  simp only [modName_eq_some_iff, keptName_eq_self_iff]

theorem filterMap_enabledName (lines : List (List Char)) :
    lines.filterMap enabledName = (lines.filterMap modName).filterMap keptName := by
  rw [List.filterMap_filterMap]
  exact List.filterMap_congr fun line _ => enabledName_eq line

/-- **The readers, line by line**: without the mark. -/
theorem filterMap_modName_iff (lines : List (List Char)) :
    lines.filterMap modName = lines.filterMap enabledName ↔ ∀ line ∈ lines, PlainName line := by
  rw [filterMap_enabledName, eq_comm, filterMap_eq_self_iff]
  simp only [plainName_iff, List.mem_filterMap, forall_exists_index, and_imp]
  constructor
  · intro h line hline name hname
    exact h name line hline hname
  · intro h name line hline hname
    exact h line hline name hname

theorem cons_filterMap_ne {names : List (List Char)}
    (hname : keptName name = some name) : names ≠ name :: names.filterMap keptName := by
  intro h
  have hall : ∀ other ∈ names, keptName other = some other := by
    intro other hother
    rw [h] at hother
    rcases List.mem_cons.mp hother with rfl | hmem
    · exact hname
    · exact keptName_of_mem hmem
  rw [filterMap_eq_self_iff.mpr hall] at h
  have hlength := congrArg List.length h
  rw [List.length_cons] at hlength
  omega

theorem enabledName_eq_some_iff {line : List Char} :
    enabledName line = some name ↔ parseLine line = some (name, true) := by
  unfold enabledName
  cases parseLine line with
  | none => simp
  | some entry =>
      obtain ⟨other, enabled⟩ := entry
      cases enabled
      · simp
      · simp

theorem plainName_bom (line : List Char) : PlainName ('\uFEFF' :: line) := by
  rw [plainName_iff, modName_bom]
  exact nofun

/-- **Behind a mark** the first line is lost. -/
theorem readersAgree_bom_iff {first : List Char} {lines : List (List Char)} :
    lines.filterMap modName = (first :: lines).filterMap enabledName ↔
      (∀ line ∈ lines, PlainName line) ∧ ∀ name, parseLine first ≠ some (name, true) := by
  simp only [ne_eq, ← enabledName_eq_some_iff, List.filterMap_cons]
  cases hfirst : enabledName first with
  | none =>
      rw [filterMap_modName_iff]
      simp
  | some name =>
      have hname : keptName name = some name := by
        have hmem : name ∈ [first].filterMap enabledName := by simp [hfirst]
        rw [filterMap_enabledName] at hmem
        exact keptName_of_mem hmem
      rw [filterMap_enabledName]
      refine iff_of_false (cons_filterMap_ne hname) fun h => h.2 name rfl

/-- **When the two readers agree**: every name after a plus is plain, and no mark hides the first
entry. -/
theorem readersAgree_iff (text : List Char) :
    ReadersAgree text ↔ (∀ line ∈ fileLines text, PlainName line) ∧ ¬HidesFirst text := by
  unfold ReadersAgree parseModlist HidesFirst
  rw [List.filterMap_reverse, List.reverse_inj, enabledNames_eq]
  by_cases hbom : text.head? = some '\uFEFF'
  · obtain ⟨rest, rfl⟩ : ∃ rest, text = '\uFEFF' :: rest := List.head?_eq_some_iff.mp hbom
    have hwithout : withoutBom ('\uFEFF' :: rest) = rest := rfl
    rw [hwithout, fileLines_bom, List.filterMap_cons, modName_bom, List.forall_mem_cons,
      and_iff_right (plainName_bom _)]
    simp only [List.head?_cons, true_and]
    cases hlines : fileLines rest with
    | nil => simp
    | cons first lines =>
        simp only [List.tail_cons, readersAgree_bom_iff, List.head?_cons, Option.bind_some,
          not_exists, ne_eq]
  · have hwithout : withoutBom text = text := if_neg hbom
    rw [hwithout, filterMap_modName_iff]
    simp [hbom]

/-- A file that the controller wrote back: its first mod is enabled, and lost. -/
theorem readersAgree_counterexample :
    ¬ReadersAgree (writeModlistAtomic .lf ["+Requiem\n".toList, "-SkyUI\n".toList]) := by
  unfold ReadersAgree
  decide

end SkyClaw.Assets
