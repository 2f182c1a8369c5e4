import SkyClaw.Assets.AssetScanner

/-!
# Changes of the mod list

`toggle_mod_in_modlist` and `remove_mod_from_modlist`, with `_write_modlist_atomic`: the file is read line
by line, and written again if a line of the mod is to change.  `changesOnly`: whatever the file
and the name, the other lines stay, and `read_modlist` sees the change of the mod alone.
-/

namespace SkyClaw.Mo2

open PyStr (trim isSpace isNewline fileLines Newline)
open Scraper (assertSafeComponent)
open Assets (writeModlistAtomic normalised translate)

/-! ## The file -/

/-- The test for a line of the mod. -/
def isLineOf (modName rawLine : List Char) : Bool :=
  match trim rawLine with
  | [] => false
  | sign :: rest => trim rest = modName ∧ (sign = '+' ∨ sign = '-')

def targetPrefix (enable : Bool) : Char := if enable then '+' else '-'

/-- What becomes of a line, and whether it is another one. -/
def toggleLine (modName : List Char) (enable : Bool) (rawLine : List Char) : List Char × Bool :=
  if isLineOf modName rawLine ∧ (trim rawLine).head? ≠ some (targetPrefix enable) then
    (targetPrefix enable :: modName, true)
  else (rawLine, false)

/-- The checks of the two names, before the file is opened. -/
def ifSafe {α : Type} (repr : String → String) (modName profile : String) (rest : Except String α) :
    Except String α :=
  match assertSafeComponent repr "mod_name" modName with
  | .error text => .error text
  | .ok () =>
      match assertSafeComponent repr "profile" profile with
      | .error text => .error text
      | .ok () => rest

variable (repr : String → String) (newline : Newline) (modName profile : String)

/-- `toggle_mod_in_modlist`, for the text of the file, if there is one. -/
def toggleModInModlist (enable : Bool) (file : Option (List Char)) : Except String (Option (List Char)) :=
  ifSafe repr modName profile <| .ok <| file.map fun text =>
    let lines := (fileLines (withoutBom text)).map (toggleLine modName.toList enable)
    if lines.any (·.2) then writeModlistAtomic newline (lines.map (·.1)) else text

def removeModFromModlist (file : Option (List Char)) : Except String (Option (List Char)) :=
  ifSafe repr modName profile <| .ok <| file.map fun text =>
    let lines := fileLines (withoutBom text)
    if lines.any (isLineOf modName.toList) then
      writeModlistAtomic newline (lines.filter fun line => !isLineOf modName.toList line)
    else text

/-- The two operations. -/
inductive Change where
  | toggle (enable : Bool)
  | remove

def Change.apply : Change → Option (List Char) → Except String (Option (List Char))
  | .toggle enable => toggleModInModlist repr newline modName profile enable
  | .remove => removeModFromModlist repr newline modName profile

/-- What the change is to do with the entries. -/
def Change.entries (modName : List Char) : Change → List (List Char × Bool) → List (List Char × Bool)
  | .toggle enable, entries => entries.map fun entry => if entry.1 = modName then (entry.1, enable) else entry
  | .remove, entries => entries.filter fun entry => entry.1 ≠ modName

/-- **The change is one of the mod alone**: lines that are not of the mod stay where they are, the entries
are changed as they should be, and the change is not made twice. -/
def ChangesOnly (change : Change) (text : List Char) : Prop :=
  ∀ after, change.apply repr newline modName profile (some text) = .ok (some after) →
    (∃ rewrite : List Char → Option (List Char),
      (∀ line, lineName line ≠ some modName.toList → rewrite line = some line) ∧
        fileLines (withoutBom after) = (fileLines (withoutBom text)).filterMap rewrite) ∧
    readModlist after = change.entries modName.toList (readModlist text) ∧
    change.apply repr newline modName profile (some after) = .ok (some after)

/-! ## Lines -/

section Lines

variable {repr newline} {name line : List Char} {enable : Bool}

theorem translate_normalised (hfree : ∀ c ∈ line, isNewline c = false) :
    translate newline (normalised line) = line ++ newline.chars := by
  have hlast : line.getLast? ≠ some '\n' := fun h =>
    absurd (hfree _ (List.mem_of_getLast? h)) (by decide)
  have hdrop : line.rdropWhile isNewline = line := by
    rw [List.rdropWhile_eq_self_iff]
    exact fun hne => Bool.eq_false_iff.mp (hfree _ (List.getLast_mem hne))
  have hplain : line.flatMap (fun c => if c = '\n' then newline.chars else [c]) = line.flatMap ([·]) := by
    refine List.flatMap_congr fun c hc => if_neg ?_
    rintro rfl
    exact absurd (hfree _ hc) (by decide)
  rw [normalised, if_neg hlast, hdrop, Assets.translate, List.flatMap_append, hplain, List.flatMap_singleton']
  simp

theorem fileLines_writeModlistAtomic {lines : List (List Char)}
    (hfree : ∀ line ∈ lines, ∀ c ∈ line, isNewline c = false) :
    fileLines (withoutBom (writeModlistAtomic newline lines)) = lines := by
  have htext : withoutBom (writeModlistAtomic newline lines) = lines.flatMap (· ++ newline.chars) := by
    unfold writeModlistAtomic
    split
    · next hnil =>
        subst hnil
        rfl
    · change translate newline (lines.flatMap normalised) = _
      rw [Assets.translate, List.flatMap_assoc]
      exact List.flatMap_congr fun line hline => translate_normalised (hfree line hline)
  rw [htext]
  exact PyStr.fileLines_lines newline hfree

theorem isLineOf_iff : isLineOf name line = true ↔ lineName line = some name := by
  unfold isLineOf lineName
  cases trim line with
  | nil => simp
  | cons sign rest => simp [and_comm]

theorem trim_of_isLineOf (h : isLineOf name line = true) :
    ∃ listed rest, trim line = targetPrefix listed :: rest ∧ trim rest = name := by
  unfold isLineOf at h
  split at h
  · cases h
  · next sign rest htrim =>
      obtain ⟨hname, rfl | rfl⟩ := of_decide_eq_true h
      · exact ⟨true, rest, htrim, hname⟩
      · exact ⟨false, rest, htrim, hname⟩

theorem parseLine_of_trim {rest : List Char} (h : trim line = targetPrefix enable :: rest)
    (hname : trim rest = name) (hne : name ≠ []) : parseLine line = some (name, enable) := by
  unfold parseLine
  rw [h]
  cases enable with
  | true | false => simp [targetPrefix, hname, hne]

theorem trim_entry (h : trim name = name) :
    trim (targetPrefix enable :: name) = targetPrefix enable :: name := by
  have hsign : isSpace (targetPrefix enable) = false := by
    cases enable <;> decide
  have htrim := PyStr.trim_append_cons hsign [] name
  have hlast : name.rdropWhile isSpace = name := by
    rw [List.rdropWhile_eq_self_iff]
    intro hne
    exact Bool.eq_false_iff.mp ((PyStr.trim_eq_self_iff.mp h).2 _ (List.getLast?_eq_some_getLast hne))
  rwa [hlast] at htrim

/-- What a line becomes is of the mod if it was, and then has its sign. -/
theorem toggleLine_spec (name : List Char) (enable : Bool) (line : List Char) :
    (isLineOf name line = false ∧ toggleLine name enable line = (line, false)) ∨
      ∃ rest, trim (toggleLine name enable line).1 = targetPrefix enable :: rest ∧ trim rest = name ∧
        isLineOf name line = true ∧
        ((toggleLine name enable line).1 = targetPrefix enable :: name ∨
          toggleLine name enable line = (line, false)) := by
  by_cases hof : isLineOf name line = true
  · obtain ⟨listed, rest, htrim, hname⟩ := trim_of_isLineOf hof
    right
    unfold toggleLine
    by_cases hsign : (trim line).head? = some (targetPrefix enable)
    · rw [if_neg fun h => h.2 hsign]
      rw [htrim] at hsign
      exact ⟨rest, by rw [htrim, Option.some.inj hsign], hname, hof, .inr rfl⟩
    · rw [if_pos ⟨hof, hsign⟩]
      have htrimmed : trim name = name := by
        rw [← hname]
        exact PyStr.trim_trim rest
      exact ⟨name, trim_entry htrimmed, htrimmed, hof, .inl rfl⟩
  · refine .inl ⟨Bool.eq_false_iff.mpr hof, ?_⟩
    rw [toggleLine, if_neg fun h => hof h.1]

theorem parseLine_toggleLine (hne : name ≠ []) (line : List Char) :
    parseLine (toggleLine name enable line).1 =
      (parseLine line).map fun entry => if entry.1 = name then (entry.1, enable) else entry := by
  rcases toggleLine_spec name enable line with ⟨hof, hline⟩ | ⟨rest, htrim, hname, hof, -⟩
  · rw [hline]
    cases hparse : parseLine line with
    | none => rfl
    | some entry =>
        have hother : entry.1 ≠ name := by
          rintro rfl
          exact Bool.eq_false_iff.mp hof (isLineOf_iff.mpr (lineName_of_parseLine hparse))
        rw [Option.map_some, if_neg hother]
  · obtain ⟨listed, before, hbefore, hold⟩ := trim_of_isLineOf hof
    rw [parseLine_of_trim htrim hname hne, parseLine_of_trim hbefore hold hne, Option.map_some, if_pos rfl]

theorem toggleLine_again (name : List Char) (enable : Bool) (line : List Char) :
    (toggleLine name enable (toggleLine name enable line).1).2 = false := by
  rcases toggleLine_spec name enable line with ⟨_, hline⟩ | ⟨rest, htrim, _, _, _⟩
  · rw [hline, hline]
  · have hsign : (trim (toggleLine name enable line).1).head? = some (targetPrefix enable) := by
      rw [htrim]
      rfl
    rw [toggleLine.eq_def name enable (toggleLine name enable line).1, if_neg fun h => h.2 hsign]

theorem toggleLine_fst (h : (toggleLine name enable line).2 = false) :
    (toggleLine name enable line).1 = line := by
  unfold toggleLine at h ⊢
  split at h
  · cases h
  · rw [if_neg ‹_›]

theorem toggleLine_free (hname : ∀ c ∈ name, isNewline c = false)
    (hline : ∀ c ∈ line, isNewline c = false) :
    ∀ c ∈ (toggleLine name enable line).1, isNewline c = false := by
  unfold toggleLine
  split
  · refine List.forall_mem_cons.mpr ⟨?_, hname⟩
    cases enable <;> rfl
  · exact hline

end Lines

/-! ## Files -/

variable {repr newline modName profile}

theorem ifSafe_eq_ok {α : Type} {rest : Except String α} {a : α}
    (h : ifSafe repr modName profile rest = .ok a) :
    (modName.toList ≠ [] ∧ ∀ c ∈ modName.toList, isNewline c = false) ∧ rest = .ok a ∧
      ∀ other : Except String α, ifSafe repr modName profile other = other := by
  unfold ifSafe at h ⊢
  cases hname : assertSafeComponent repr "mod_name" modName with
  | error text =>
      rw [hname] at h
      cases h
  | ok _ =>
      cases hprofile : assertSafeComponent repr "profile" profile with
      | error text =>
          rw [hname, hprofile] at h
          cases h
      | ok _ =>
          rw [hname, hprofile] at h
          exact ⟨name_of_safe hname, h, fun _ => rfl⟩

theorem lines_toggled {enable : Bool} {name : List Char} (hname : ∀ c ∈ name, isNewline c = false)
    (text : List Char) :
    fileLines (withoutBom
        (if ((fileLines (withoutBom text)).map (toggleLine name enable)).any (·.2) then
          writeModlistAtomic newline (((fileLines (withoutBom text)).map (toggleLine name enable)).map (·.1))
        else text)) =
      (fileLines (withoutBom text)).map fun line => (toggleLine name enable line).1 := by
  split
  · rw [fileLines_writeModlistAtomic, List.map_map]
    · rfl
    · intro line hline
      rw [List.map_map, List.mem_map] at hline
      obtain ⟨old, hold, rfl⟩ := hline
      exact toggleLine_free hname (PyStr.free_of_mem_all hold)
  · next hnone =>
      have hsame : ∀ line ∈ fileLines (withoutBom text), (toggleLine name enable line).1 = id line := by
        intro line hline
        refine toggleLine_fst (Bool.eq_false_iff.mpr fun hchanged => hnone ?_)
        exact List.any_eq_true.mpr ⟨_, List.mem_map_of_mem hline, hchanged⟩
      rw [List.map_congr_left hsame, List.map_id]

theorem changesOnly_toggle (enable : Bool) (text : List Char) :
    ChangesOnly repr newline modName profile (.toggle enable) text := by
  intro after h
  obtain ⟨⟨hne, hname⟩, hafter, hsafe⟩ := ifSafe_eq_ok h
  have hlines := @lines_toggled newline enable _ hname text
  have htext := Option.some.inj (Except.ok.inj hafter)
  dsimp only at htext
  rw [htext] at hlines
  refine ⟨⟨fun line => some (toggleLine modName.toList enable line).1, ?_, ?_⟩, ?_, ?_⟩
  · intro line hline
    rcases toggleLine_spec modName.toList enable line with ⟨_, hkept⟩ | ⟨_, _, _, hof, _⟩
    · exact congrArg (fun entry => some entry.1) hkept
    · exact absurd (isLineOf_iff.mp hof) hline
  · rw [hlines, List.filterMap_eq_map']
  · rw [readModlist, hlines, List.filterMap_map]
    have hparse : parseLine ∘ (fun line => (toggleLine modName.toList enable line).1) =
        fun line => (parseLine line).map fun entry =>
          if entry.1 = modName.toList then (entry.1, enable) else entry := by
      funext line
      exact parseLine_toggleLine hne line
    rw [hparse, ← List.map_filterMap]
    rfl
  · refine (hsafe _).trans (congrArg (fun file => Except.ok (some file)) (if_neg ?_))
    rw [hlines, List.map_map, Bool.not_eq_true, List.any_eq_false]
    intro entry hentry
    obtain ⟨line, -, rfl⟩ := List.mem_map.mp hentry
    exact Bool.eq_false_iff.mp (toggleLine_again modName.toList enable line)

theorem lines_removed (name text : List Char) :
    fileLines (withoutBom
        (if (fileLines (withoutBom text)).any (isLineOf name) then
          writeModlistAtomic newline ((fileLines (withoutBom text)).filter fun line => !isLineOf name line)
        else text)) =
      (fileLines (withoutBom text)).filter fun line => !isLineOf name line := by
  split
  · refine fileLines_writeModlistAtomic fun line hline => ?_
    exact PyStr.free_of_mem_all (List.mem_filter.mp hline).1
  · next hnone =>
      rw [eq_comm, List.filter_eq_self]
      intro line hline
      rw [Bool.not_eq_true', ← Bool.not_eq_true]
      exact fun hof => hnone (List.any_eq_true.mpr ⟨line, hline, hof⟩)

theorem changesOnly_remove (text : List Char) :
    ChangesOnly repr newline modName profile .remove text := by
  intro after h
  obtain ⟨⟨hne, -⟩, hafter, hsafe⟩ := ifSafe_eq_ok h
  have hlines := @lines_removed newline modName.toList text
  have htext := Option.some.inj (Except.ok.inj hafter)
  dsimp only at htext
  rw [htext] at hlines
  refine ⟨⟨Option.guard fun line => !isLineOf modName.toList line, ?_, ?_⟩, ?_, ?_⟩
  · intro line hline
    have hof : isLineOf modName.toList line = false :=
      Bool.eq_false_iff.mpr fun h => hline (isLineOf_iff.mp h)
    simp [Option.guard, hof]
  · rw [hlines, List.filterMap_eq_filter]
  · rw [readModlist, hlines, Change.entries, readModlist, List.filter_filterMap, List.filterMap_filter]
    refine List.filterMap_congr fun line _ => ?_
    cases hparse : parseLine line with
    | none => simp
    | some entry =>
        have hiff : isLineOf modName.toList line = true ↔ entry.1 = modName.toList := by
          rw [isLineOf_iff, lineName_of_parseLine hparse, Option.some.injEq]
        by_cases hentry : entry.1 = modName.toList
        · simp [hiff.mpr hentry, Option.filter, hentry]
        · simp [Bool.eq_false_iff.mpr fun h => hentry (hiff.mp h), Option.filter, hentry]
  · refine (hsafe _).trans (congrArg (fun file => Except.ok (some file)) (if_neg ?_))
    rw [hlines, Bool.not_eq_true, List.any_eq_false]
    intro line hline
    simpa using (List.mem_filter.mp hline).2

/-- **Enabling, disabling and removing a mod** change the mod alone. -/
theorem changesOnly (repr : String → String) (newline : Newline) (modName profile : String)
    (change : Change) (text : List Char) : ChangesOnly repr newline modName profile change text := by
  cases change with
  | toggle enable => exact changesOnly_toggle enable text
  | remove => exact changesOnly_remove text

end SkyClaw.Mo2
