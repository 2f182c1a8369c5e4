import SkyClaw.Assets.AssetScanner
import SkyClaw.Lib.KeyedTable
import SkyClaw.Lib.PyRe
import Mathlib.Data.List.Perm.Subperm

/-!
# Conflicts of assets

`scan_mod_directory` and `detect_conflicts` of `AssetConflictDetector`.  The files of the mods are given;
the mods come in the order of `parse_modlist`, the highest priority first.  `reportsConflicts_iff`:
the reports are right unless a mod with files stands in the list twice, for then it is in
conflict with itself.
-/

namespace SkyClaw.Assets

/-! ## The scan -/

inductive AssetType where
  | mesh
  | texture
  | script
  | config
  | sound
  | animation
  | unknown
deriving DecidableEq, Repr

def assetExtensions : List (AssetType × List (List Char)) :=
  [(.mesh, [".nif".toList]),
    (.texture, [".dds".toList, ".png".toList, ".jpg".toList, ".jpeg".toList, ".tga".toList]),
    (.script, [".pex".toList, ".psc".toList]),
    (.config, [".ini".toList, ".json".toList, ".xml".toList]),
    (.sound, [".wav".toList, ".xwm".toList, ".fuz".toList]),
    (.animation, [".hkx".toList, ".anim".toList])]

/-- A file below the directory of a mod. -/
structure ModFile where
  /-- `str(file_path.relative_to(mod_dir))` -/
  relativePath : List Char
  suffix : List Char

/-- `AssetInfo`, as far as the detector reads it. -/
structure AssetInfo where
  relativePath : List Char
  assetType : AssetType
  modName : List Char
deriving DecidableEq, Repr

structure AssetConflictReport where
  filePath : List Char
  winnerMod : List Char
  overwrittenMods : List (List Char)
  assetType : AssetType
deriving DecidableEq, Repr

variable (u : UnicodeText) (files : List Char → List ModFile)

def getAssetType (suffix : List Char) : AssetType :=
  ((assetExtensions.find? fun entry => u.lower suffix ∈ entry.2).map Prod.fst).getD .unknown

def relativePathStr (file : ModFile) : List Char :=
  u.lower (file.relativePath.map fun c => if c = '\\' then '/' else c)

def assetInfo (modName : List Char) (file : ModFile) : AssetInfo :=
  ⟨relativePathStr u file, getAssetType u file.suffix, modName⟩

/-- The infos of a mod, by their paths. -/
abbrev Scan := KeyedTable AssetInfo.relativePath

open KeyedTable

/-- `scan_mod_directory`; a directory that does not exist has no files. -/
def scanModDirectory (modName : List Char) : Scan :=
  (files modName).foldl (fun assets file => assets.setItem (assetInfo u modName file)) (empty _)

abbrev AssetMap := KeyedTable (Prod.fst : List Char × List AssetInfo → List Char)

/-- `asset_map[relative_path]`, empty if there is none. -/
def AssetMap.infos (assetMap : AssetMap) (path : List Char) : List AssetInfo :=
  ((assetMap.lookup path).map Prod.snd).getD []

def AssetMap.append (assetMap : AssetMap) (info : AssetInfo) : AssetMap :=
  assetMap.setItem (info.relativePath, AssetMap.infos assetMap info.relativePath ++ [info])

def mapAssets (modList : List (List Char)) : AssetMap :=
  modList.foldl (fun assetMap modName => (scanModDirectory u files modName).rows.foldl AssetMap.append assetMap)
    (empty _)

/-- The report for a path that more than one info has. -/
def reportOf (row : List Char × List AssetInfo) : Option AssetConflictReport :=
  match row.2 with
  | winner :: other :: others =>
      some ⟨row.1, winner.modName, (other :: others).map (·.modName), winner.assetType⟩
  | _ => none

/-- `detect_conflicts`; `none` is a list that could not be found. -/
def detectConflicts : Option (List (List Char)) → List AssetConflictReport
  | none => []
  | some modList => (mapAssets u files modList).rows.filterMap reportOf

/-! ## What is reported -/

def Contains (path modName : List Char) : Prop := ∃ file ∈ files modName, relativePathStr u file = path

/-- **The conflicts are reported**, each once: the paths that two mods have, with all mods that have
them, in the order of the list. -/
structure ReportsConflicts (modList : List (List Char)) : Prop where
  complete : ∀ path, (∃ report ∈ detectConflicts u files (some modList), report.filePath = path) ↔
    ∃ first ∈ modList, ∃ second ∈ modList, first ≠ second ∧ Contains u files path first ∧
      Contains u files path second
  once : ((detectConflicts u files (some modList)).map (·.filePath)).Nodup
  distinct : ∀ report ∈ detectConflicts u files (some modList),
    (report.winnerMod :: report.overwrittenMods).Nodup
  mods : ∀ report ∈ detectConflicts u files (some modList), ∀ modName,
    modName ∈ report.winnerMod :: report.overwrittenMods ↔
      modName ∈ modList ∧ Contains u files report.filePath modName
  order : ∀ report ∈ detectConflicts u files (some modList),
    (report.winnerMod :: report.overwrittenMods).Sublist modList

variable {u files} {path modName : List Char}

theorem lookup_scan (files : List ModFile) (assets : Scan) :
    (files.foldl (fun assets file => assets.setItem (assetInfo u modName file)) assets).lookup path =
        assets.lookup path ∧ (∀ file ∈ files, relativePathStr u file ≠ path) ∨
      ∃ file ∈ files, relativePathStr u file = path ∧
        (files.foldl (fun assets file => assets.setItem (assetInfo u modName file)) assets).lookup path =
          some (assetInfo u modName file) := by
  induction files generalizing assets with
  | nil => exact .inl ⟨rfl, fun _ h => absurd h List.not_mem_nil⟩
  | cons file files ih =>
      rw [List.foldl_cons]
      rcases ih (assets.setItem (assetInfo u modName file)) with ⟨hlookup, hnone⟩ | ⟨other, hmem, hpath, hlookup⟩
      · by_cases hpath : relativePathStr u file = path
        · refine .inr ⟨file, List.mem_cons_self, hpath, ?_⟩
          rw [hlookup, lookup_setItem]
          exact if_pos hpath
        · refine .inl ⟨?_, List.forall_mem_cons.mpr ⟨hpath, hnone⟩⟩
          rw [hlookup, lookup_setItem]
          exact if_neg hpath
      · exact .inr ⟨other, List.mem_cons_of_mem _ hmem, hpath, hlookup⟩

theorem modNames_scan (path modName : List Char) [Decidable (Contains u files path modName)] :
    ((scanModDirectory u files modName).rows.filter fun info => info.relativePath = path).map (·.modName) =
      if Contains u files path modName then [modName] else [] := by
  rw [filter_rows]
  rcases @lookup_scan u path modName (files modName) (empty _) with ⟨hlookup, hnone⟩ | ⟨file, hmem, hpath, hlookup⟩
  · rw [if_neg fun ⟨file, hmem, hpath⟩ => hnone file hmem hpath, scanModDirectory, hlookup]
    rfl
  · rw [if_pos ⟨file, hmem, hpath⟩, scanModDirectory, hlookup]
    rfl

theorem infos_append (assetMap : AssetMap) (info : AssetInfo) :
    (assetMap.append info).infos path =
      assetMap.infos path ++ if info.relativePath = path then [info] else [] := by
  rw [AssetMap.infos, AssetMap.append, lookup_setItem]
  by_cases hpath : info.relativePath = path
  · rw [if_pos hpath, if_pos hpath, ← hpath]
    rfl
  · rw [if_neg hpath, if_neg hpath, List.append_nil]
    rfl

theorem infos_foldl (infos : List AssetInfo) (assetMap : AssetMap) :
    (infos.foldl AssetMap.append assetMap).infos path =
      assetMap.infos path ++ infos.filter fun info => info.relativePath = path := by
  induction infos generalizing assetMap with
  | nil => simp
  | cons info infos ih =>
      rw [List.foldl_cons, ih, infos_append, List.filter_cons]
      by_cases hpath : info.relativePath = path
      · simp [hpath]
      · simp [hpath]

/-- **The mods of a path**, in the order of the list. -/
theorem modNames_mapAssets (modList : List (List Char)) [DecidablePred (Contains u files path)] :
    ((mapAssets u files modList).infos path).map (·.modName) = modList.filter (Contains u files path) := by
  have hfold : ∀ assetMap : AssetMap, ((modList.foldl (fun assetMap modName =>
      (scanModDirectory u files modName).rows.foldl AssetMap.append assetMap) assetMap).infos path).map
        (·.modName) = (assetMap.infos path).map (·.modName) ++ modList.filter (Contains u files path) := by
    induction modList with
    | nil => simp
    | cons modName modList ih =>
        intro assetMap
        rw [List.foldl_cons, ih, infos_foldl, List.map_append, modNames_scan, List.filter_cons]
        by_cases hcontains : Contains u files path modName
        · simp [hcontains]
        · simp [hcontains]
  exact hfold (empty _)

/-! ## The reports -/

theorem mem_detectConflicts {modList : List (List Char)} {report : AssetConflictReport}
    [DecidablePred (Contains u files report.filePath)]
    (h : report ∈ detectConflicts u files (some modList)) :
    report.winnerMod :: report.overwrittenMods = modList.filter (Contains u files report.filePath) ∧
      report.overwrittenMods ≠ [] := by
  obtain ⟨⟨path, infos⟩, hmem, hreport⟩ := List.mem_filterMap.mp h
  have hlookup : (mapAssets u files modList).lookup path = some (path, infos) :=
    lookup_eq_some_iff.mpr ⟨hmem, rfl⟩
  match infos, hreport with
  | winner :: other :: others, hreport =>
      cases hreport
      rw [← modNames_mapAssets, AssetMap.infos, hlookup]
      exact ⟨rfl, List.cons_ne_nil _ _⟩

theorem exists_report_iff (modList : List (List Char)) [DecidablePred (Contains u files path)] :
    (∃ report ∈ detectConflicts u files (some modList), report.filePath = path) ↔
      1 < (modList.filter (Contains u files path)).length := by
  constructor
  · rintro ⟨report, hmem, rfl⟩
    obtain ⟨hmods, hother⟩ := mem_detectConflicts hmem
    rw [← hmods, List.length_cons]
    exact Nat.succ_lt_succ (List.length_pos_of_ne_nil hother)
  · intro hlength
    rw [← modNames_mapAssets, List.length_map, AssetMap.infos] at hlength
    cases hlookup : (mapAssets u files modList).lookup path with
    | none =>
        rw [hlookup] at hlength
        exact absurd hlength (by decide)
    | some row =>
        obtain ⟨key, infos⟩ := row
        obtain ⟨hmem, rfl⟩ := lookup_eq_some_iff.mp hlookup
        rw [hlookup] at hlength
        match infos, hlength with
        | winner :: other :: others, _ => exact ⟨_, List.mem_filterMap.mpr ⟨_, hmem, rfl⟩, rfl⟩

theorem once_detectConflicts (modList : List (List Char)) :
    ((detectConflicts u files (some modList)).map (·.filePath)).Nodup := by
  refine (mapAssets u files modList).nodup.sublist ?_
  have hsublist : ∀ rows : List (List Char × List AssetInfo),
      ((rows.filterMap reportOf).map (·.filePath)).Sublist (rows.map Prod.fst) := by
    intro rows
    induction rows with
    | nil => exact List.Sublist.slnil
    | cons row rows ih =>
        obtain ⟨key, infos⟩ := row
        match infos with
        | [] | [_] => exact ih.cons _
        | winner :: other :: others => exact ih.cons_cons key
  exact hsublist _

/-- **Exactly when the conflicts are reported**: no mod with a file stands in the list twice. -/
theorem reportsConflicts_iff (u : UnicodeText) (files : List Char → List ModFile)
    (modList : List (List Char)) :
    ReportsConflicts u files modList ↔
      ∀ modName ∈ modList, 1 < modList.count modName → files modName = [] := by
  classical
  constructor
  · intro h modName _ htwice
    by_contra hfiles
    obtain ⟨file, hfile⟩ := List.exists_mem_of_ne_nil _ hfiles
    -- the mod is in conflict with itself over this file
    have hcount : 1 < (modList.filter (Contains u files (relativePathStr u file))).count modName := by
      rw [List.count_filter]
      · exact htwice
      · exact decide_eq_true ⟨file, hfile, rfl⟩
    obtain ⟨report, hmem, hpath⟩ :=
      (exists_report_iff modList).mpr (hcount.trans_le List.count_le_length)
    have hnodup := h.distinct report hmem
    rw [(mem_detectConflicts hmem).1, hpath] at hnodup
    exact absurd (List.nodup_iff_count_le_one.mp hnodup modName) (Nat.not_le.mpr hcount)
  · intro honce
    have hnodup : ∀ path, (modList.filter (Contains u files path)).Nodup := by
      intro path
      refine List.nodup_iff_count_le_one.mpr fun modName => ?_
      by_contra hcount
      rw [Nat.not_le] at hcount
      have hmem := List.mem_filter.mp (List.count_pos_iff.mp (Nat.zero_lt_of_lt hcount))
      obtain ⟨file, hfile, -⟩ := of_decide_eq_true hmem.2
      rw [honce modName hmem.1 (hcount.trans_le (List.filter_sublist.count_le _))] at hfile
      exact absurd hfile List.not_mem_nil
    refine ⟨fun path => ?_, once_detectConflicts modList, ?_, ?_, ?_⟩
    · rw [exists_report_iff]
      constructor
      · intro hlength
        have hfirst := List.mem_filter.mp (List.getElem_mem (Nat.zero_lt_of_lt hlength))
        have hsecond := List.mem_filter.mp (List.getElem_mem hlength)
        refine ⟨_, hfirst.1, _, hsecond.1, ?_, of_decide_eq_true hfirst.2, of_decide_eq_true hsecond.2⟩
        rw [Ne, (hnodup path).getElem_inj_iff]
        exact Nat.zero_ne_one
      · rintro ⟨first, hfirst, second, hsecond, hne, hleft, hright⟩
        have hsublist : [first, second] ⊆ modList.filter (Contains u files path) := by
          simp [hfirst, hsecond, hleft, hright]
        have hpair : [first, second].Nodup := by simp [hne]
        exact (hpair.subperm hsublist).length_le
    · intro report hmem
      rw [(mem_detectConflicts hmem).1]
      exact hnodup _
    · intro report hmem modName
      rw [(mem_detectConflicts hmem).1, List.mem_filter, decide_eq_true_iff]
    · intro report hmem
      rw [(mem_detectConflicts hmem).1]
      exact List.filter_sublist

/-- A mod that stands in the list twice is in conflict with itself. -/
theorem not_reportsConflicts_twice : ¬ ReportsConflicts UnicodeText.basic
    (fun _ => [⟨"meshes/a.nif".toList, ".nif".toList⟩]) ["A".toList, "A".toList] := by
  intro h
  have hmods := h.distinct ⟨"meshes/a.nif".toList, "A".toList, ["A".toList], .mesh⟩ (by decide)
  exact absurd hmods (by decide)

end SkyClaw.Assets
