import SkyClaw.Lib.PyLines
import SkyClaw.Scraper.NexusDownloader

/-!
# The mod list

`modlist.txt` of a profile of Mod Organizer 2: `read_modlist` reads its lines, and
`add_mod_to_modlist` writes one after the last of them.  `insertionLaw_iff` says for which files
and names the mod is an entry of its own afterwards.
-/

namespace SkyClaw.Mo2

open PyStr (trim isSpace isNewline fileLines Newline)
open Scraper (assertSafeComponent)

/-! ## The file -/

/-- `encoding="utf-8-sig"`: a byte order mark at the start is no part of the text. -/
def withoutBom (text : List Char) : List Char :=
  if text.head? = some '\uFEFF' then text.tail else text

/-- A line of `read_modlist`, with `(mod_name, enabled)` if it is an entry. -/
def parseLine (rawLine : List Char) : Option (List Char × Bool) :=
  match trim rawLine with
  | [] => none
  | sign :: rest =>
      -- comments, then what Mod Organizer does not manage, then what is no entry
      if sign = '#' then none
      else if sign = '*' then none
      else if sign ≠ '+' ∧ sign ≠ '-' then none
      else if trim rest = [] then none
      else some (trim rest, sign = '+')

/-- `read_modlist`, for the text of the file. -/
def readModlist (text : List Char) : List (List Char × Bool) :=
  (fileLines (withoutBom text)).filterMap parseLine

/-- A line of the search for present names. -/
def lineName (rawLine : List Char) : Option (List Char) :=
  match trim rawLine with
  | [] => none
  | sign :: rest => if sign = '+' ∨ sign = '-' then some (trim rest) else none

def existingNames (text : List Char) : List (List Char) :=
  (fileLines (withoutBom text)).filterMap lineName

/-- The line that is appended. -/
def entryLine (newline : Newline) (modName : List Char) : List Char :=
  '+' :: modName ++ newline.chars

/-- `add_mod_to_modlist`, for the text of the file, if there is one. -/
def addModToModlist (repr : String → String) (newline : Newline) (modName profile : String)
    (file : Option (List Char)) : Except String (Option (List Char)) :=
  match assertSafeComponent repr "mod_name" modName with
  | .error text => .error text
  | .ok () =>
      match assertSafeComponent repr "profile" profile with
      | .error text => .error text
      | .ok () =>
          if modName.toList ∈ (file.map existingNames).getD [] then .ok file
          -- the file is opened for appending, whatever it ends with
          else .ok (some (file.getD [] ++ entryLine newline modName.toList))

/-! ## Names -/

variable {repr : String → String}

/-- What the checks leave of a name. -/
theorem name_of_safe {field name : String}
    (h : assertSafeComponent repr field name = .ok ()) :
    name.toList ≠ [] ∧ ∀ c ∈ name.toList, isNewline c = false := by
  unfold assertSafeComponent at h
  split at h
  · cases h
  · next hne =>
      split at h
      · cases h
      · split at h
        · cases h
        · split at h
          · cases h
          · split at h
            · cases h
            · next hfind =>
                constructor
                · intro hnil
                  exact hne (String.toList_eq_nil_iff.mp hnil)
                · intro c hc
                  have hcontrol := List.find?_eq_none.mp hfind c hc
                  unfold isNewline
                  by_contra hnewline
                  rw [Bool.not_eq_false, Bool.or_eq_true, beq_iff_eq, beq_iff_eq] at hnewline
                  rcases hnewline with rfl | rfl
                  · exact hcontrol (by decide)
                  · exact hcontrol (by decide)

variable {name : List Char}

theorem lineName_of_parseLine {rawLine : List Char} {enabled : Bool}
    (h : parseLine rawLine = some (name, enabled)) : lineName rawLine = some name := by
  unfold parseLine at h
  unfold lineName
  cases htrim : trim rawLine with
  | nil =>
      rw [htrim] at h
      cases h
  | cons sign rest =>
      simp only [htrim] at h
      split_ifs at h with hcomment hskip hsign hname
      have hplus : sign = '+' ∨ sign = '-' := by tauto
      simp only [if_pos hplus]
      exact congrArg some (Prod.mk.inj (Option.some.inj h)).1

theorem parseLine_of_lineName {rawLine : List Char} (h : lineName rawLine = some name)
    (hne : name ≠ []) : ∃ enabled, parseLine rawLine = some (name, enabled) := by
  unfold lineName at h
  unfold parseLine
  cases htrim : trim rawLine with
  | nil =>
      rw [htrim] at h
      cases h
  | cons sign rest =>
      simp only [htrim] at h
      split_ifs at h with hsign
      cases h
      refine ⟨sign = '+', ?_⟩
      rcases hsign with rfl | rfl
      · simp [hne]
      · simp [hne]

/-- **The search finds the names of the entries.** -/
theorem mem_existingNames_iff {text : List Char} (hne : name ≠ []) :
    name ∈ existingNames text ↔ name ∈ (readModlist text).map Prod.fst := by
  unfold existingNames readModlist
  simp only [List.mem_filterMap, List.mem_map, Prod.exists, exists_and_right, exists_eq_right]
  constructor
  · rintro ⟨rawLine, hmem, hline⟩
    obtain ⟨enabled, hparse⟩ := parseLine_of_lineName hline hne
    exact ⟨enabled, rawLine, hmem, hparse⟩
  · rintro ⟨enabled, rawLine, hmem, hparse⟩
    exact ⟨rawLine, hmem, lineName_of_parseLine hparse⟩

/-! ## The line that is appended -/

/-- What is after the last line end of a file. -/
def openLine (text : List Char) : List Char := (PyStr.cut isNewline (withoutBom text)).rest

/-- The ended lines of a file. -/
def endedLines (text : List Char) : List (List Char) :=
  (PyStr.cut isNewline (withoutBom text)).lines

theorem parseLine_nil : parseLine [] = none := rfl

theorem readModlist_eq (text : List Char) :
    readModlist text =
      (endedLines text).filterMap parseLine ++ (parseLine (openLine text)).toList := by
  unfold readModlist fileLines PyStr.Cut.all endedLines openLine
  split
  · next hrest => rw [hrest, parseLine_nil, Option.toList_none, List.append_nil]
  · rw [List.filterMap_append]
    congr 1

theorem withoutBom_append (text : List Char) (newline : Newline) (modName : List Char) :
    withoutBom (text ++ entryLine newline modName) =
      withoutBom text ++ entryLine newline modName := by
  cases text with
  | nil => rfl
  | cons c text =>
      unfold withoutBom
      rw [List.cons_append, List.head?_cons, List.head?_cons]
      split <;> rfl

/-- **The line that is appended** goes on where the file ends. -/
theorem readModlist_append (text : List Char) (newline : Newline) {modName : List Char}
    (hname : ∀ c ∈ modName, isNewline c = false) :
    readModlist (text ++ entryLine newline modName) =
      (endedLines text).filterMap parseLine ++
        (parseLine (openLine text ++ '+' :: modName)).toList := by
  have hfree : ∀ c ∈ '+' :: modName, isNewline c = false :=
    List.forall_mem_cons.mpr ⟨rfl, hname⟩
  have hcut : PyStr.cut isNewline (withoutBom (text ++ entryLine newline modName)) =
      ⟨endedLines text ++ [openLine text ++ '+' :: modName], []⟩ := by
    rw [withoutBom_append, PyStr.cut_append _ (by simp [entryLine])]
    unfold entryLine
    rw [PyStr.cut_line newline rfl rfl hfree]
    rfl
  rw [readModlist_eq, endedLines, openLine, hcut, parseLine_nil, List.filterMap_append]
  simp only [Option.toList_none, List.append_nil]
  congr 1

theorem parseLine_of_blank {line modName : List Char} (hblank : trim line = []) :
    parseLine (line ++ '+' :: modName) =
      if trim (modName.rdropWhile isSpace) = [] then none
      else some (trim (modName.rdropWhile isSpace), true) := by
  have hdrop : line.dropWhile isSpace = [] :=
    List.dropWhile_eq_nil_iff.mpr (PyStr.trim_eq_nil_iff.mp hblank)
  unfold parseLine
  rw [PyStr.trim_append_cons rfl, hdrop]
  rfl

theorem trim_rdropWhile_eq_iff {modName : List Char} :
    trim (modName.rdropWhile isSpace) = modName ↔ trim modName = modName := by
  constructor
  · intro h
    rw [← h]
    exact PyStr.trim_trim _
  · intro h
    have hlast : modName.rdropWhile isSpace = modName := by
      rw [List.rdropWhile_eq_self_iff]
      intro hne
      have hnot := (PyStr.trim_eq_self_iff.mp h).2 _ (List.getLast?_eq_some_getLast hne)
      exact Bool.eq_false_iff.mp hnot
    rw [hlast, h]

theorem plus_rdropWhile_ne (modName : List Char) :
    '+' :: modName.rdropWhile isSpace ≠ modName := by
  intro hname
  have hself : modName.rdropWhile isSpace = modName := by
    rw [← hname]
    have hplus := PyStr.rdropWhile_append_cons (p := isSpace) (c := '+') rfl []
      (modName.rdropWhile isSpace)
    rwa [List.nil_append, List.nil_append, List.rdropWhile_idempotent] at hplus
  rw [hself] at hname
  have hlength := congrArg List.length hname
  rw [List.length_cons] at hlength
  omega

theorem blank_of_plus {line rest : List Char} (hdrop : line.dropWhile isSpace = '+' :: rest)
    (hnone : parseLine line = none) : ∀ c ∈ rest, isSpace c = true := by
  have htrim : trim line = '+' :: rest.rdropWhile isSpace := by
    rw [trim, hdrop]
    exact PyStr.rdropWhile_append_cons rfl [] rest
  unfold parseLine at hnone
  rw [htrim] at hnone
  have hnil : trim (rest.rdropWhile isSpace) = [] := by
    by_contra hne
    simp [hne] at hnone
  rw [← List.rdropWhile_eq_nil_iff]
  by_contra hne
  have hlast := List.rdropWhile_last_not isSpace rest hne
  exact hlast (PyStr.trim_eq_nil_iff.mp hnil _ (List.getLast_mem hne))

theorem parseLine_ne_of_none {line modName : List Char} (hblank : trim line ≠ [])
    (hnone : parseLine line = none) :
    parseLine (line ++ '+' :: modName) ≠ some (modName, true) := by
  intro hafter
  cases hdrop : line.dropWhile isSpace with
  | nil =>
      apply hblank
      rw [trim, hdrop]
      rfl
  | cons sign rest =>
      unfold parseLine at hafter
      rw [PyStr.trim_append_cons rfl, hdrop] at hafter
      simp only [List.cons_append] at hafter
      split_ifs at hafter
      obtain ⟨hname, hplus⟩ := Prod.mk.inj (Option.some.inj hafter)
      obtain rfl := of_decide_eq_true hplus
      rw [PyStr.trim_append_cons rfl, List.dropWhile_eq_nil_iff.mpr (blank_of_plus hdrop hnone),
        List.rdropWhile_idempotent, List.nil_append] at hname
      exact plus_rdropWhile_ne modName hname

/-- **A line that is not blank**, continued, does not become the entry that was to be added. -/
theorem parseLine_of_not_blank {line modName : List Char} (hblank : trim line ≠ []) :
    (parseLine (line ++ '+' :: modName)).toList ≠
      (parseLine line).toList ++ [(modName, true)] := by
  intro heq
  cases hbefore : parseLine line with
  | some entry =>
      -- one line is not read as two entries
      have hlength := congrArg List.length heq
      rw [hbefore, List.length_append] at hlength
      cases hafter : parseLine (line ++ '+' :: modName) with
      | none | some => simp [hafter] at hlength
  | none =>
      apply parseLine_ne_of_none hblank hbefore
      rw [hbefore] at heq
      exact Option.toList_eq_singleton_iff.mp heq

/-! ## The law -/

/-- **The insertion law**: a name that passes the checks is an entry of its own at the end, unless
it was present; adding it once more changes nothing. -/
def InsertionLaw (repr : String → String) (newline : Newline) (modName profile : String)
    (text : List Char) : Prop :=
  ∀ after, addModToModlist repr newline modName profile (some text) = .ok (some after) →
    (readModlist after =
      if modName.toList ∈ (readModlist text).map Prod.fst then readModlist text
      else readModlist text ++ [(modName.toList, true)]) ∧
    ∀ again, addModToModlist repr newline modName profile (some after) = .ok (some again) →
      readModlist again = readModlist after

variable {newline : Newline}

theorem addModToModlist_eq {modName profile : String}
    (hname : assertSafeComponent repr "mod_name" modName = .ok ())
    (hprofile : assertSafeComponent repr "profile" profile = .ok ()) (text : List Char) :
    addModToModlist repr newline modName profile (some text) =
      if modName.toList ∈ (readModlist text).map Prod.fst then .ok (some text)
      else .ok (some (text ++ entryLine newline modName.toList)) := by
  unfold addModToModlist
  simp only [hname, hprofile, Option.map_some, Option.getD_some,
    mem_existingNames_iff (name_of_safe hname).1]

theorem checks_of_added {modName profile : String}
    {file after : Option (List Char)}
    (h : addModToModlist repr newline modName profile file = .ok after) :
    assertSafeComponent repr "mod_name" modName = .ok () ∧
      assertSafeComponent repr "profile" profile = .ok () := by
  unfold addModToModlist at h
  cases hname : assertSafeComponent repr "mod_name" modName with
  | error text =>
      rw [hname] at h
      cases h
  | ok _ =>
      cases hprofile : assertSafeComponent repr "profile" profile with
      | error text =>
          rw [hname, hprofile] at h
          cases h
      | ok _ => exact ⟨rfl, rfl⟩

/-- **The line is the entry of the name** exactly if it stands alone and the name has no outer
blanks. -/
theorem readModlist_added_iff {text : List Char} {modName : List Char}
    (hne : modName ≠ []) (hfree : ∀ c ∈ modName, isNewline c = false) :
    readModlist (text ++ entryLine newline modName) = readModlist text ++ [(modName, true)] ↔
      trim (openLine text) = [] ∧ trim modName = modName := by
  rw [readModlist_append text newline hfree, readModlist_eq, List.append_assoc,
    List.append_right_inj]
  by_cases hblank : trim (openLine text) = []
  · have hnone : parseLine (openLine text) = none := by
      unfold parseLine
      rw [hblank]
    rw [and_iff_right hblank, hnone, parseLine_of_blank hblank, ← trim_rdropWhile_eq_iff]
    split
    · next hnil =>
        rw [hnil]
        exact iff_of_false (fun h => List.cons_ne_nil _ _ h.symm) (fun h => hne h.symm)
    · simp
  · exact iff_of_false (parseLine_of_not_blank hblank) fun h => hblank h.1

/-- **When the insertion law holds**: the checks fail, the name is present, or the file ends with
a blank line and the name has no outer blanks. -/
theorem insertionLaw_iff (repr : String → String) (newline : Newline) (modName profile : String)
    (text : List Char) :
    InsertionLaw repr newline modName profile text ↔
      (assertSafeComponent repr "mod_name" modName = .ok () →
        assertSafeComponent repr "profile" profile = .ok () →
          modName.toList ∈ (readModlist text).map Prod.fst ∨
            trim (openLine text) = [] ∧ trim modName.toList = modName.toList) := by
  constructor
  · intro hlaw hname hprofile
    by_cases hpresent : modName.toList ∈ (readModlist text).map Prod.fst
    · exact Or.inl hpresent
    · obtain ⟨hne, hfree⟩ := name_of_safe hname
      have hadded : addModToModlist repr newline modName profile (some text) = _ :=
        addModToModlist_eq hname hprofile text
      rw [if_neg hpresent] at hadded
      have hread := (hlaw _ hadded).1
      rw [if_neg hpresent] at hread
      exact Or.inr ((readModlist_added_iff hne hfree).mp hread)
  · intro hcondition after hafter
    obtain ⟨hname, hprofile⟩ := checks_of_added hafter
    obtain ⟨hne, hfree⟩ := name_of_safe hname
    rw [addModToModlist_eq hname hprofile] at hafter
    by_cases hpresent : modName.toList ∈ (readModlist text).map Prod.fst
    · rw [if_pos hpresent] at hafter ⊢
      obtain rfl := Option.some.inj (Except.ok.inj hafter)
      refine ⟨rfl, fun again hagain => ?_⟩
      rw [addModToModlist_eq hname hprofile, if_pos hpresent] at hagain
      rw [Option.some.inj (Except.ok.inj hagain)]
    · rw [if_neg hpresent] at hafter ⊢
      obtain rfl := Option.some.inj (Except.ok.inj hafter)
      have halone := (hcondition hname hprofile).resolve_left hpresent
      have hread : readModlist (text ++ entryLine newline modName.toList) = _ :=
        (readModlist_added_iff hne hfree).mpr halone
      refine ⟨hread, fun again hagain => ?_⟩
      rw [addModToModlist_eq hname hprofile, hread, if_pos (by simp)] at hagain
      rw [Option.some.inj (Except.ok.inj hagain)]

/-- The file ends without a line end, and the new name is joined to the last. -/
theorem insertionLaw_counterexample :
    ¬InsertionLaw id .lf "SkyUI" "Default" "+Requiem".toList := by
  intro hlaw
  have hread := (hlaw "+Requiem+SkyUI\n".toList (by decide)).1
  exact absurd hread (by decide)

end SkyClaw.Mo2
