import SkyClaw.Tools.SynthesisOutput

/-!
# The mods that a DynDOLOD run reports

`DynDOLODRunner.run_full_pipeline`: TexGen, its package, DynDOLOD, its package, on the output
folders that the two tools write to.

The runner takes the first folder of the right name that is not empty, whoever has filled it, and
the package of TexGen has no part in the success.  `success_truthful_iff` says when the
reports of both pipelines are true.
-/

namespace SkyClaw.Tools
namespace DynDOLOD

/-! ## Tools and folders -/

/-- The entries of a folder. -/
abbrev Entries := List (OutputFile Unit)

/-- The folders by their path, and the mods below `mo2_mods_path` by their name. -/
structure Disk where
  outputs : String → Option Entries
  mods : String → Option Entries

/-- What a tool does with a folder: whether there is one afterwards, and what it changes in it. -/
structure FolderEffect where
  leaves : Bool
  changes : FolderChanges Unit

/-- The folder afterwards. -/
def FolderEffect.apply (effect : FolderEffect) (folder : Option Entries) : Option Entries :=
  if effect.leaves then some (effect.changes.apply (folder.getD [])) else none

/-- A run of a tool. -/
structure LodTool where
  effect : String → FolderEffect
  ends : ProcessEnd

/-- The folders after a tool. -/
def LodTool.run (tool : LodTool) (disk : Disk) : Disk :=
  { disk with outputs := fun path => (tool.effect path).apply (disk.outputs path) }

/-- Where the runner looks for output folders, and whether it has a path to TexGen. -/
structure Config where
  mo2Path : String
  exeParent : String
  cwd : String
  texgenConfigured : Bool

/-- How a package is made: completely, or it raises and leaves what it has made. -/
inductive PackageEnd
  | done
  | failsValidation (message : String) (left : Option Entries)
  | raises (exc : Exc) (left : Option Entries)

/-! ## The runner -/

/-- `ToolExecutionResult`, as far as the pipeline reads it. -/
structure ToolExecutionResult where
  success : Bool
  outputPath : Option String
  errors : List String
deriving DecidableEq, Repr

/-- `_ERROR_PATTERN` -/
def errorWords : List String := ["ERROR", "Error", "FAIL", "Exception", "Critical", "FATAL"]

/-- The errors of `_parse_output`. -/
def parseErrors (stdout stderr : String) : List String := parseMessages errorWords stdout stderr

section

variable (config : Config)

def searchPaths (outputName : String) : List String :=
  [config.mo2Path, config.exeParent, config.cwd].map fun parent => parent ++ "/" ++ outputName

/-- `_find_texgen_output` and `_find_dyndolod_output`: the first folder that is not empty. -/
def findOutput (outputName : String) (disk : Disk) : Option String :=
  (searchPaths config outputName).find? fun path => (disk.outputs path).any fun entries =>
    !entries.isEmpty

/-- The names that belong to a tool. -/
structure Names where
  tool : String
  output : String
  mod : String

def texgenNames : Names := ⟨"TexGen", "TexGen_Output", "TexGen Output"⟩

def dyndolodNames : Names := ⟨"DynDOLOD", "DynDOLOD_Output", "DynDOLOD Output"⟩

/-- `run_texgen` and `run_dyndolod`, from `_execute_process` on. -/
def runTool (names : Names) (tool : LodTool) : Proc Disk Exc ToolExecutionResult :=
  fun disk =>
    let disk := tool.run disk
    match tool.ends with
    | .raises exc => (.error exc, disk)
    | .fails message => (.ok { success := false, outputPath := none, errors := [message] }, disk)
    | .exits stdout stderr returnCode =>
        let errors := parseErrors stdout stderr
        (.ok {
          success := returnCode == 0 && errors.isEmpty
          outputPath := findOutput config names.output disk
          errors := errors }, disk)

def runTexgen (tool : LodTool) : Proc Disk Exc ToolExecutionResult :=
  if config.texgenConfigured then runTool config texgenNames tool
  else pure {
    success := false
    outputPath := none
    errors := ["TexGen executable path not provided in configuration"] }

/-- What a package has of a folder: `meta.ini` is the runner's own. -/
def packaged (entries : Entries) : Entries :=
  entries.filter (fun entry => entry.name ≠ "meta.ini") ++ [⟨"meta.ini", (), true⟩]

/-- The folder of a mod is replaced. -/
def Disk.putMod (disk : Disk) (modName : String) (entries : Option Entries) : Disk :=
  { disk with mods := Function.update disk.mods modName entries }

def packageOutputAsMod (ending : PackageEnd) (path modName : String) : Proc Disk Exc String :=
  fun disk =>
    match disk.outputs path with
    | none => (.error (.domain ("Output directory does not exist: " ++ path)), disk)
    | some [] => (.error (.domain ("Output directory is empty: " ++ path)), disk)
    | some (entry :: entries) =>
        match ending with
        | .done => (.ok modName, disk.putMod modName (some (packaged (entry :: entries))))
        | .failsValidation message left => (.error (.domain message), disk.putMod modName left)
        | .raises exc left => (.error exc, disk.putMod modName left)

/-- A tool and its package: the result, the mod and the errors. -/
structure Packaged where
  result : ToolExecutionResult
  modPath : Option String
  errors : List String
deriving DecidableEq, Repr

/-- The package of a successful result. -/
def packageResult (names : Names) (ending : PackageEnd) (result : ToolExecutionResult) :
    Proc Disk Exc Packaged :=
  match result.success, result.outputPath with
  | true, some path => do
      match ← (packageOutputAsMod ending path names.mod).attempt with
      | .ok modPath => pure ⟨result, some modPath, []⟩
      | .error (.domain message) =>
          pure ⟨result, none, ["Failed to package " ++ names.tool ++ " output: " ++ message]⟩
      | .error exc => .raise exc
  | true, none => pure ⟨result, none, []⟩
  | false, _ => pure ⟨result, none, result.errors⟩

/-- One of the two steps of `run_full_pipeline`. -/
def runAndPackage (names : Names) (ending : PackageEnd) (run : Proc Disk Exc ToolExecutionResult) :
    Proc Disk Exc Packaged := do
  match ← run.attempt with
  | .ok result => packageResult names ending result
  | .error (.domain message) =>
      pure ⟨{ success := false, outputPath := none, errors := [message] }, none,
        [names.tool ++ " execution failed: " ++ message]⟩
  | .error exc => .raise exc

/-- `DynDOLODPipelineResult` -/
structure PipelineResult where
  success : Bool
  texgenResult : Option ToolExecutionResult
  dyndolodResult : ToolExecutionResult
  texgenModPath : Option String
  dyndolodModPath : Option String
  errors : List String
deriving DecidableEq, Repr

/-- What the outside does in a run of the pipeline. -/
structure LodRun where
  texgen : LodTool
  texgenPackage : PackageEnd
  dyndolod : LodTool
  dyndolodPackage : PackageEnd

/-- The first step, if it is asked for. -/
def texgenStep (run : LodRun) (withTexgen : Bool) :
    Proc Disk Exc (Option Packaged) :=
  if withTexgen then do
    let step ← runAndPackage texgenNames run.texgenPackage (runTexgen config run.texgen)
    pure (some step)
  else pure none

def runFullPipeline (run : LodRun) (withTexgen : Bool) :
    Proc Disk Exc PipelineResult := do
  let texgen ← texgenStep config run withTexgen
  let dyndolod ← runAndPackage dyndolodNames run.dyndolodPackage
    (runTool config dyndolodNames run.dyndolod)
  pure {
    success := dyndolod.result.success && dyndolod.modPath.isSome &&
      (!withTexgen || texgen.any fun step => step.result.success)
    texgenResult := texgen.map Packaged.result
    dyndolodResult := dyndolod.result
    texgenModPath := texgen.bind Packaged.modPath
    dyndolodModPath := dyndolod.modPath
    errors := (texgen.elim [] Packaged.errors) ++ dyndolod.errors }

/-- The disk before a run: what is there is of earlier runs. -/
def Disk.before (outputs mods : String → Option (List String)) : Disk where
  outputs path := (outputs path).map fun names => stale (names.map fun name => (name, ()))
  mods name := (mods name).map fun names => stale (names.map fun name => (name, ()))

/-- There is a mod of the name, and this run's tools and the runner have made all of it. -/
def MadeByRun (disk : Disk) (modName : String) : Prop :=
  ∃ entries, disk.mods modName = some entries ∧ entries ≠ [] ∧
    ∀ entry ∈ entries, entry.fresh = true

/-- The promise: where the result is a success there are no errors, and every mod that was asked
for was made by this run. -/
def LodTruthful (run : LodRun) (withTexgen : Bool) (disk : Disk) : Prop :=
  ∀ result left, runFullPipeline config run withTexgen disk = (.ok result, left) →
    result.success = true →
      result.errors = [] ∧ MadeByRun left dyndolodNames.mod ∧
        (withTexgen = true → MadeByRun left texgenNames.mod)

/-- A tool exits with 0 and prints no error. -/
def LodTool.succeeds (tool : LodTool) : Bool :=
  match tool.ends with
  | .exits stdout stderr returnCode => returnCode == 0 && (parseErrors stdout stderr).isEmpty
  | _ => false

/-- All that a package takes from a folder was written in this run. -/
def AllFresh (disk : Disk) (path : String) : Prop :=
  ∀ entries ∈ disk.outputs path, ∀ entry ∈ entries, entry.name ≠ "meta.ini" → entry.fresh = true

/-- The disk after TexGen. -/
def LodRun.afterTexgen (run : LodRun) (withTexgen : Bool) (disk : Disk) : Disk :=
  if withTexgen then run.texgen.run disk else disk

/-- The package of TexGen raises what the pipeline does not catch. -/
def LodRun.abandoned (run : LodRun) (disk : Disk) : Prop :=
  (findOutput config texgenNames.output disk).isSome = true ∧
    ∃ exc left, run.texgenPackage = .raises exc left ∧ ∀ message, exc ≠ .domain message

/-- When it is kept: if DynDOLOD succeeds with an output that can be packaged, and TexGen, where it
is asked for, succeeds as well, then the output of DynDOLOD was all written in this run, and there
is one of TexGen that can be packaged and was all written in this run. -/
def WritesMods (run : LodRun) (withTexgen : Bool) (disk : Disk) : Prop :=
  let afterTexgen := run.afterTexgen withTexgen disk
  let afterDyndolod := run.dyndolod.run afterTexgen
  run.dyndolod.succeeds = true → run.dyndolodPackage = .done →
    (withTexgen = true → config.texgenConfigured = true ∧ run.texgen.succeeds = true ∧
      ¬ run.abandoned config afterTexgen) →
    ∀ path ∈ findOutput config dyndolodNames.output afterDyndolod,
      AllFresh afterDyndolod path ∧
        (withTexgen = true → run.texgenPackage = .done ∧
          ∃ texgenPath ∈ findOutput config texgenNames.output afterTexgen,
            AllFresh afterTexgen texgenPath)

end

/-! ## The two steps -/

variable {config : Config} {names : Names} {tool : LodTool} {ending : PackageEnd} {disk left : Disk}

/-- A successful run of a tool has no errors, and its output is what is found afterwards. -/
theorem runTool_success_iff {result : ToolExecutionResult} :
    (runTool config names tool disk = (.ok result, left) ∧ result.success = true) ↔
      tool.succeeds = true ∧ left = tool.run disk ∧
        result = ⟨true, findOutput config names.output (tool.run disk), []⟩ := by
  unfold runTool LodTool.succeeds
  cases tool.ends with
  | raises exc => simp
  | fails message =>
      refine iff_of_false ?_ (by simp)
      rintro ⟨h, hsuccess⟩
      obtain ⟨hresult, -⟩ := Prod.mk.inj h
      cases hresult
      cases hsuccess
  | exits stdout stderr returnCode =>
      simp only [Prod.mk.injEq, Except.ok.injEq]
      constructor
      · rintro ⟨⟨rfl, rfl⟩, hsuccess⟩
        have herrors : parseErrors stdout stderr = [] := by
          simp only [Bool.and_eq_true, List.isEmpty_iff] at hsuccess
          exact hsuccess.2
        exact ⟨hsuccess, rfl, by rw [← hsuccess, herrors]⟩
      · rintro ⟨hsuccess, rfl, rfl⟩
        have herrors : parseErrors stdout stderr = [] := by
          simp only [Bool.and_eq_true, List.isEmpty_iff] at hsuccess
          exact hsuccess.2
        exact ⟨⟨by rw [← hsuccess, herrors], rfl⟩, rfl⟩

theorem runTexgen_success_iff {result : ToolExecutionResult} :
    (runTexgen config tool disk = (.ok result, left) ∧ result.success = true) ↔
      (config.texgenConfigured = true ∧ tool.succeeds = true) ∧ left = tool.run disk ∧
        result = ⟨true, findOutput config texgenNames.output (tool.run disk), []⟩ := by
  unfold runTexgen
  split
  · rename_i hconfigured
    rw [runTool_success_iff, hconfigured]
    simp
  · rename_i hconfigured
    refine iff_of_false ?_ fun h => hconfigured h.1.1
    rintro ⟨h, hsuccess⟩
    obtain ⟨hresult, -⟩ := Prod.mk.inj h
    cases hresult
    cases hsuccess

theorem exists_of_findOutput {outputName path : String}
    (h : findOutput config outputName disk = some path) :
    ∃ entry entries, disk.outputs path = some (entry :: entries) := by
  unfold findOutput at h
  have hany := List.find?_some h
  obtain ⟨entries, hentries, hne⟩ := Option.any_eq_true _ _ |>.mp hany
  cases entries with
  | nil => cases hne
  | cons entry entries => exact ⟨entry, entries, hentries⟩

theorem packageResult_none {errors : List String} :
    packageResult names ending ⟨true, none, errors⟩ disk =
      (.ok ⟨⟨true, none, errors⟩, none, []⟩, disk) := rfl

theorem packageOutputAsMod_of_entries {path modName : String} {entry : OutputFile Unit}
    {entries : Entries} (h : disk.outputs path = some (entry :: entries)) :
    packageOutputAsMod ending path modName disk =
      match ending with
      | .done => (.ok modName, disk.putMod modName (some (packaged (entry :: entries))))
      | .failsValidation message left => (.error (.domain message), disk.putMod modName left)
      | .raises exc left => (.error exc, disk.putMod modName left) := by
  unfold packageOutputAsMod
  rw [h]

open Proc

/-- The package of a successful tool: there is a mod exactly when there are an output and a complete
package, and no error exactly when there is a mod or no output. -/
theorem packageResult_eq_ok {step : Packaged} {result : ToolExecutionResult}
    (hsuccess : result.success = true)
    (houtput : ∀ path ∈ result.outputPath, ∃ entry entries,
      disk.outputs path = some (entry :: entries))
    (h : packageResult names ending result disk = (.ok step, left)) :
    (result.outputPath = none ∧ step.modPath = none ∧ step.errors = [] ∧ left = disk) ∨
      (∃ path ∈ result.outputPath, ∃ entries ∈ disk.outputs path, ending = .done ∧
        step.modPath = some names.mod ∧ step.errors = [] ∧
        left = disk.putMod names.mod (some (packaged entries))) ∨
      (result.outputPath.isSome = true ∧ ending ≠ .done ∧ step.modPath = none ∧ step.errors ≠ [] ∧
        (∀ exc mod, ending = .raises exc mod → ∃ message, exc = .domain message) ∧
        ∃ mod, left = disk.putMod names.mod mod) := by
  obtain ⟨success, outputPath, errors⟩ := result
  obtain rfl : success = true := hsuccess
  cases outputPath with
  | none =>
      rw [packageResult_none] at h
      obtain ⟨hstep, rfl⟩ := Prod.mk.inj h
      cases hstep
      exact .inl ⟨rfl, rfl, rfl, rfl⟩
  | some path =>
      obtain ⟨entry, entries, hentries⟩ := houtput path rfl
      have hpackage := @packageOutputAsMod_of_entries ending disk path names.mod entry entries hentries
      simp only [packageResult] at h
      rw [bind_of_ok (attempt_apply _ disk), hpackage] at h
      cases ending with
      | done =>
          obtain ⟨hstep, rfl⟩ := Prod.mk.inj h
          cases hstep
          exact .inr (.inl ⟨path, rfl, _, hentries, rfl, rfl, rfl, rfl⟩)
      | failsValidation message mod =>
          obtain ⟨hstep, rfl⟩ := Prod.mk.inj h
          cases hstep
          exact .inr (.inr ⟨rfl, nofun, rfl, nofun, nofun, mod, rfl⟩)
      | raises exc mod =>
          cases exc with
          | domain message =>
              obtain ⟨hstep, rfl⟩ := Prod.mk.inj h
              cases hstep
              refine .inr (.inr ⟨rfl, nofun, rfl, nofun, ?_, mod, rfl⟩)
              rintro exc mod ⟨rfl, rfl⟩
              exact ⟨message, rfl⟩
          | _ => cases h

theorem runAndPackage_of_ok {run : Proc Disk Exc ToolExecutionResult} {result : ToolExecutionResult}
    (h : run disk = (.ok result, left)) :
    runAndPackage names ending run disk = packageResult names ending result left := by
  unfold runAndPackage
  rw [bind_of_ok (attempt_apply run disk), h]

theorem packageResult_result {step : Packaged} {result : ToolExecutionResult}
    (h : packageResult names ending result disk = (.ok step, left)) : step.result = result := by
  obtain ⟨success, outputPath, errors⟩ := result
  cases success with
  | false =>
      obtain ⟨hstep, -⟩ := Prod.mk.inj h
      rw [← Except.ok.inj hstep]
  | true =>
      cases outputPath with
      | none =>
          obtain ⟨hstep, -⟩ := Prod.mk.inj h
          rw [← Except.ok.inj hstep]
      | some path =>
          simp only [packageResult] at h
          obtain ⟨made, mid, -, hrest⟩ := bind_eq_ok_iff.mp h
          cases made with
          | ok modPath =>
              obtain ⟨hstep, -⟩ := Prod.mk.inj hrest
              rw [← Except.ok.inj hstep]
          | error exc =>
              cases exc with
              | domain message =>
                  obtain ⟨hstep, -⟩ := Prod.mk.inj hrest
                  rw [← Except.ok.inj hstep]
              | _ => cases hrest

theorem runAndPackage_success {run : Proc Disk Exc ToolExecutionResult} {step : Packaged}
    (h : runAndPackage names ending run disk = (.ok step, left))
    (hsuccess : step.result.success = true) :
    ∃ mid, run disk = (.ok step.result, mid) ∧
      packageResult names ending step.result mid = (.ok step, left) := by
  rcases hrun : run disk with ⟨exc | result, mid⟩
  · unfold runAndPackage at h
    rw [bind_of_ok (attempt_apply run disk), hrun] at h
    cases exc with
    | domain message =>
        obtain ⟨hstep, -⟩ := Prod.mk.inj h
        cases hstep
        cases hsuccess
    | _ => cases h
  · rw [runAndPackage_of_ok hrun] at h
    rw [packageResult_result h]
    exact ⟨mid, rfl, h⟩

theorem packaged_fresh_iff {entries : Entries} :
    (∀ entry ∈ packaged entries, entry.fresh = true) ↔
      ∀ entry ∈ entries, entry.name ≠ "meta.ini" → entry.fresh = true := by
  unfold packaged
  constructor
  · intro h entry hentry hname
    refine h entry (List.mem_append_left _ (List.mem_filter.mpr ⟨hentry, ?_⟩))
    exact decide_eq_true hname
  · intro h entry hentry
    rcases List.mem_append.mp hentry with hcopied | hmeta
    · obtain ⟨hfrom, hname⟩ := List.mem_filter.mp hcopied
      exact h entry hfrom (of_decide_eq_true hname)
    · rw [List.mem_singleton.mp hmeta]

variable {source : Disk}

theorem madeByRun_putMod {modName path : String} {entries : Entries}
    (h : source.outputs path = some entries) :
    MadeByRun (disk.putMod modName (some (packaged entries))) modName ↔ AllFresh source path := by
  unfold MadeByRun AllFresh Disk.putMod
  simp only [Function.update_self, Option.some.injEq, h, Option.mem_some_iff, forall_eq',
    exists_eq_left']
  rw [packaged_fresh_iff]
  exact and_iff_right (by simp [packaged])

theorem madeByRun_putMod_of_ne {modName other : String} {entries : Option Entries}
    (h : other ≠ modName) :
    MadeByRun (disk.putMod modName entries) other ↔ MadeByRun disk other := by
  unfold MadeByRun Disk.putMod
  simp only [Function.update_of_ne h]

theorem not_madeByRun_before (outputs mods : String → Option (List String))
    (h : source.mods = (Disk.before outputs mods).mods) (modName : String) :
    ¬ MadeByRun source modName := by
  rintro ⟨entries, hentries, hne, hfresh⟩
  rw [h] at hentries
  obtain ⟨names, -, rfl⟩ := Option.map_eq_some_iff.mp hentries
  cases names with
  | nil => exact hne rfl
  | cons name names => exact absurd (hfresh _ List.mem_cons_self) Bool.false_ne_true

/-- When the second step gives the pipeline a mod. -/
theorem dyndolodStep_iff {step : Packaged} :
    (runAndPackage names ending (runTool config names tool) disk = (.ok step, left) ∧
        step.result.success = true ∧ step.modPath.isSome = true) ↔
      tool.succeeds = true ∧ ending = .done ∧
        ∃ path ∈ findOutput config names.output (tool.run disk),
          ∃ entries ∈ (tool.run disk).outputs path,
            step = ⟨⟨true, some path, []⟩, some names.mod, []⟩ ∧
              left = (tool.run disk).putMod names.mod (some (packaged entries)) := by
  constructor
  · rintro ⟨hstep, hsuccess, hmod⟩
    obtain ⟨mid, hrun, hpackage⟩ := runAndPackage_success hstep hsuccess
    obtain ⟨hsucceeds, rfl, hresult⟩ := runTool_success_iff.mp ⟨hrun, hsuccess⟩
    have hfound : ∀ path ∈ step.result.outputPath, ∃ entry entries,
        (tool.run disk).outputs path = some (entry :: entries) := by
      rw [hresult]
      exact fun path hpath => exists_of_findOutput hpath
    rcases packageResult_eq_ok hsuccess hfound hpackage with
      ⟨-, hnone, -⟩ | ⟨path, hpath, entries, hentries, hdone, hmodPath, herrors, hleft⟩ |
        ⟨-, -, hnone, -⟩
    · rw [hnone] at hmod
      cases hmod
    · rw [hresult] at hpath
      refine ⟨hsucceeds, hdone, path, hpath, entries, hentries, ?_, hleft⟩
      have hfind : findOutput config names.output (tool.run disk) = some path := hpath
      obtain ⟨result, modPath, errors⟩ := step
      simp only at hresult hmodPath herrors
      rw [hresult, hmodPath, herrors, hfind]
    · rw [hnone] at hmod
      cases hmod
  · rintro ⟨hsucceeds, rfl, path, hpath, entries, hentries, rfl, rfl⟩
    have hrun := (@runTool_success_iff config names tool disk _ _).mpr ⟨hsucceeds, rfl, rfl⟩
    obtain ⟨entry, others, hothers⟩ := exists_of_findOutput hpath
    cases hentries.symm.trans hothers
    rw [runAndPackage_of_ok hrun.1, show findOutput config names.output (tool.run disk) = some path
      from hpath]
    refine ⟨?_, rfl, rfl⟩
    simp only [packageResult]
    rw [bind_of_ok (attempt_apply _ _), packageOutputAsMod_of_entries hothers]
    rfl

variable {run : LodRun}

theorem texgenStep_iff {step : Packaged} :
    (runAndPackage texgenNames run.texgenPackage (runTexgen config run.texgen) disk =
        (.ok step, left) ∧ step.result.success = true) ↔
      (config.texgenConfigured = true ∧ run.texgen.succeeds = true) ∧
        packageResult texgenNames run.texgenPackage
          ⟨true, findOutput config texgenNames.output (run.texgen.run disk), []⟩
          (run.texgen.run disk) = (.ok step, left) := by
  constructor
  · rintro ⟨h, hsuccess⟩
    obtain ⟨mid, hrun, hpackage⟩ := runAndPackage_success h hsuccess
    obtain ⟨hready, rfl, hresult⟩ := runTexgen_success_iff.mp ⟨hrun, hsuccess⟩
    rw [hresult] at hpackage
    exact ⟨hready, hpackage⟩
  · rintro ⟨hready, hpackage⟩
    have hrun := (@runTexgen_success_iff config run.texgen disk _ _).mpr ⟨hready, rfl, rfl⟩
    rw [runAndPackage_of_ok hrun.1, packageResult_result hpackage]
    exact ⟨hpackage, rfl⟩

theorem texgenStep_left {step : Packaged}
    (h : packageResult texgenNames run.texgenPackage
        ⟨true, findOutput config texgenNames.output disk, []⟩ disk = (.ok step, left)) :
    left.outputs = disk.outputs := by
  have hfound : ∀ path ∈ findOutput config texgenNames.output disk, ∃ entry entries,
      disk.outputs path = some (entry :: entries) := fun path hpath => exists_of_findOutput hpath
  rcases packageResult_eq_ok rfl hfound h with
    ⟨-, -, -, rfl⟩ | ⟨-, -, -, -, -, -, -, rfl⟩ | ⟨-, -, -, -, -, mod, rfl⟩ <;> rfl

theorem runFullPipeline_without {result : PipelineResult} :
    (runFullPipeline config run false disk = (.ok result, left) ∧ result.success = true) ↔
      ∃ step, (runAndPackage dyndolodNames run.dyndolodPackage
          (runTool config dyndolodNames run.dyndolod) disk = (.ok step, left) ∧
        step.result.success = true ∧ step.modPath.isSome = true) ∧
        result = ⟨true, none, step.result, none, step.modPath, step.errors⟩ := by
  unfold runFullPipeline texgenStep
  rw [show (if false = true then _ else (pure none : Proc Disk Exc (Option Packaged))) = pure none
    from rfl, pure_bind]
  constructor
  · rintro ⟨hrun, hsuccess⟩
    obtain ⟨step, mid, hstep, hpure⟩ := bind_eq_ok_iff.mp hrun
    obtain ⟨hresult, rfl⟩ := Prod.mk.inj hpure
    cases hresult
    simp only [Bool.not_false, Bool.true_or, Bool.and_true, Bool.and_eq_true] at hsuccess
    refine ⟨step, ⟨hstep, hsuccess.1, hsuccess.2⟩, ?_⟩
    simp [hsuccess.1, hsuccess.2]
  · rintro ⟨step, ⟨hstep, hsuccess, hmod⟩, rfl⟩
    rw [bind_of_ok hstep]
    simp [hsuccess, hmod]

/-- The same with TexGen. -/
theorem runFullPipeline_with {result : PipelineResult} :
    (runFullPipeline config run true disk = (.ok result, left) ∧ result.success = true) ↔
      ∃ texgen mid step,
        (runAndPackage texgenNames run.texgenPackage (runTexgen config run.texgen) disk =
            (.ok texgen, mid) ∧ texgen.result.success = true) ∧
        (runAndPackage dyndolodNames run.dyndolodPackage
          (runTool config dyndolodNames run.dyndolod) mid = (.ok step, left) ∧
        step.result.success = true ∧ step.modPath.isSome = true) ∧
        result = ⟨true, some texgen.result, step.result, texgen.modPath, step.modPath,
          texgen.errors ++ step.errors⟩ := by
  unfold runFullPipeline texgenStep
  rw [if_pos rfl, bind_assoc]
  constructor
  · rintro ⟨hrun, hsuccess⟩
    obtain ⟨texgen, mid, htexgen, hrest⟩ := bind_eq_ok_iff.mp hrun
    rw [pure_bind] at hrest
    obtain ⟨step, end_, hstep, hpure⟩ := bind_eq_ok_iff.mp hrest
    obtain ⟨hresult, rfl⟩ := Prod.mk.inj hpure
    cases hresult
    simp only [Bool.not_true, Bool.false_or, Bool.and_eq_true, Option.any_some] at hsuccess
    obtain ⟨⟨hdyndolod, hmod⟩, htexgenSuccess⟩ := hsuccess
    refine ⟨texgen, mid, step, ⟨htexgen, htexgenSuccess⟩, ⟨hstep, hdyndolod, hmod⟩, ?_⟩
    simp [hdyndolod, hmod, htexgenSuccess]
  · rintro ⟨texgen, mid, step, ⟨htexgen, htexgenSuccess⟩, ⟨hstep, hsuccess, hmod⟩, rfl⟩
    rw [bind_of_ok htexgen, pure_bind, bind_of_ok hstep]
    simp [hsuccess, hmod, htexgenSuccess]

theorem exists_packageResult (h : ¬ run.abandoned config disk) :
    ∃ step left, packageResult texgenNames run.texgenPackage
      ⟨true, findOutput config texgenNames.output disk, []⟩ disk = (.ok step, left) := by
  cases hfind : findOutput config texgenNames.output disk with
  | none => exact ⟨_, _, rfl⟩
  | some path =>
      obtain ⟨entry, entries, hentries⟩ := exists_of_findOutput hfind
      simp only [packageResult]
      rw [bind_of_ok (attempt_apply _ _), packageOutputAsMod_of_entries hentries]
      cases hending : run.texgenPackage with
      | done | failsValidation => exact ⟨_, _, rfl⟩
      | raises exc mod =>
          by_cases hdomain : ∃ message, exc = .domain message
          · obtain ⟨message, rfl⟩ := hdomain
            exact ⟨_, _, rfl⟩
          · refine absurd ⟨by rw [hfind]; rfl, exc, mod, hending, fun message heq => ?_⟩ h
            exact hdomain ⟨message, heq⟩

theorem not_abandoned {step : Packaged}
    (h : packageResult texgenNames run.texgenPackage
        ⟨true, findOutput config texgenNames.output disk, []⟩ disk = (.ok step, left)) :
    ¬ run.abandoned config disk := by
  rintro ⟨hfound, exc, mod, hending, hnot⟩
  have hentries : ∀ path ∈ findOutput config texgenNames.output disk, ∃ entry entries,
      disk.outputs path = some (entry :: entries) := fun path hpath => exists_of_findOutput hpath
  rcases packageResult_eq_ok rfl hentries h with
    ⟨hnone, -⟩ | ⟨-, -, -, -, hdone, -⟩ | ⟨-, -, -, -, hcaught, -⟩
  · rw [show findOutput config texgenNames.output disk = none from hnone] at hfound
    cases hfound
  · rw [hending] at hdone
    cases hdone
  · obtain ⟨message, heq⟩ := hcaught exc mod hending
    exact hnot message heq

theorem run_congr {other : Disk} (h : disk.outputs = other.outputs) (tool : LodTool) :
    (tool.run disk).outputs = (tool.run other).outputs := by
  unfold LodTool.run
  simp only [h]

theorem findOutput_congr {other : Disk} (h : disk.outputs = other.outputs) (outputName : String) :
    findOutput config outputName disk = findOutput config outputName other := by
  unfold findOutput
  rw [h]

theorem allFresh_congr {other : Disk} (h : disk.outputs = other.outputs) (path : String) :
    AllFresh disk path ↔ AllFresh other path := by
  unfold AllFresh
  rw [h]

theorem lodTruthful_without_iff :
    LodTruthful config run false disk ↔ WritesMods config run false disk := by
  constructor
  · intro h hsucceeds hdone _ path hpath
    obtain ⟨entry, entries, hentries⟩ := exists_of_findOutput hpath
    obtain ⟨hrun, hsuccess⟩ := runFullPipeline_without.mpr
      ⟨_, dyndolodStep_iff.mpr ⟨hsucceeds, hdone, path, hpath, _, hentries, rfl, rfl⟩, rfl⟩
    obtain ⟨-, hmade, -⟩ := h _ _ hrun hsuccess
    exact ⟨(madeByRun_putMod hentries).mp hmade, fun hfalse => by cases hfalse⟩
  · intro h result left hrun hsuccess
    obtain ⟨step, hstep, rfl⟩ := runFullPipeline_without.mp ⟨hrun, hsuccess⟩
    obtain ⟨hsucceeds, hdone, path, hpath, entries, hentries, rfl, rfl⟩ := dyndolodStep_iff.mp hstep
    obtain ⟨hfresh, -⟩ := h hsucceeds hdone nofun path hpath
    exact ⟨rfl, (madeByRun_putMod hentries).mpr hfresh, fun hfalse => by cases hfalse⟩

theorem exists_of_texgen (disk : Disk) : ∀ path ∈ findOutput config texgenNames.output
    (run.texgen.run disk), ∃ entry entries,
      (run.texgen.run disk).outputs path = some (entry :: entries) :=
  fun _ hpath => exists_of_findOutput hpath

theorem writesMods_of_truthful {outputs mods : String → Option (List String)}
    (h : LodTruthful config run true (Disk.before outputs mods)) :
    WritesMods config run true (Disk.before outputs mods) := by
  intro hsucceeds hdone hready path hpath
  obtain ⟨hconfigured, htexgen, hgoesOn⟩ := hready rfl
  obtain ⟨texgen, mid, hpackage⟩ := exists_packageResult hgoesOn
  have hsame := run_congr (texgenStep_left hpackage) run.dyndolod
  rw [← findOutput_congr hsame] at hpath
  obtain ⟨entry, entries, hentries⟩ := exists_of_findOutput hpath
  obtain ⟨hrun, hsuccess⟩ := runFullPipeline_with.mpr ⟨texgen, mid, _,
    texgenStep_iff.mpr ⟨⟨hconfigured, htexgen⟩, hpackage⟩,
    dyndolodStep_iff.mpr ⟨hsucceeds, hdone, path, hpath, _, hentries, rfl, rfl⟩, rfl⟩
  obtain ⟨herrors, hmade, hmadeTexgen⟩ := h _ _ hrun hsuccess
  refine ⟨(allFresh_congr hsame path).mp ((madeByRun_putMod hentries).mp hmade), fun _ => ?_⟩
  have hleft : MadeByRun mid texgenNames.mod :=
    (madeByRun_putMod_of_ne (by decide)).mp (hmadeTexgen rfl)
  rcases packageResult_eq_ok rfl (exists_of_texgen _) hpackage with
    ⟨-, -, -, rfl⟩ | ⟨texgenPath, hfind, texgenEntries, htexgenEntries, hpackaged, -, -, rfl⟩ |
      ⟨-, -, -, hfailed, -⟩
  · -- nothing was packaged, and what is there is of an earlier run
    exact absurd hleft (not_madeByRun_before outputs mods rfl _)
  · exact ⟨hpackaged, texgenPath, hfind, (madeByRun_putMod htexgenEntries).mp hleft⟩
  · exact absurd (List.append_eq_nil_iff.mp herrors).1 hfailed

theorem truthful_of_writesMods (h : WritesMods config run true disk) :
    LodTruthful config run true disk := by
  intro result left hrun hsuccess
  obtain ⟨texgen, mid, step, htexgen, hstep, rfl⟩ := runFullPipeline_with.mp ⟨hrun, hsuccess⟩
  obtain ⟨⟨hconfigured, hsucceedsTexgen⟩, hpackage⟩ := texgenStep_iff.mp htexgen
  have hsame := run_congr (texgenStep_left hpackage) run.dyndolod
  obtain ⟨hsucceeds, hdone, path, hpath, entries, hentries, rfl, rfl⟩ := dyndolodStep_iff.mp hstep
  have hpathAfter := hpath
  rw [findOutput_congr hsame] at hpathAfter
  obtain ⟨hfresh, htexgenFresh⟩ := h hsucceeds hdone
    (fun _ => ⟨hconfigured, hsucceedsTexgen, not_abandoned hpackage⟩) path hpathAfter
  obtain ⟨hpackaged, texgenPath, hfind, hfreshTexgen⟩ := htexgenFresh rfl
  have hmade : MadeByRun ((run.dyndolod.run mid).putMod dyndolodNames.mod (some (packaged entries)))
      dyndolodNames.mod :=
    (madeByRun_putMod hentries).mpr ((allFresh_congr hsame path).mpr hfresh)
  rcases packageResult_eq_ok rfl (exists_of_texgen _) hpackage with
    ⟨hnone, -⟩ | ⟨other, hother, texgenEntries, htexgenEntries, -, -, herrors, rfl⟩ |
      ⟨-, hnotDone, -⟩
  · cases hnone.symm.trans hfind
  · cases hother.symm.trans hfind
    refine ⟨by rw [herrors]; rfl, hmade, fun _ => ?_⟩
    have hmadeTexgen : MadeByRun ((run.texgen.run disk).putMod
        texgenNames.mod (some (packaged texgenEntries))) texgenNames.mod :=
      (madeByRun_putMod htexgenEntries).mpr hfreshTexgen
    exact (madeByRun_putMod_of_ne (by decide)).mpr hmadeTexgen
  · exact absurd hpackaged hnotDone

/-- **The mods of a DynDOLOD run.**  Every success of `run_full_pipeline` has no errors and the
mods that were asked for, made by this run, if and only if the tools, when they succeed, have
written all that the runner finds. -/
theorem lodTruthful_iff (config : Config) (run : LodRun) (withTexgen : Bool)
    (outputs mods : String → Option (List String)) :
    LodTruthful config run withTexgen (Disk.before outputs mods) ↔
      WritesMods config run withTexgen (Disk.before outputs mods) := by
  cases withTexgen with
  | false => exact lodTruthful_without_iff
  | true => exact ⟨writesMods_of_truthful, truthful_of_writesMods⟩

end DynDOLOD

/-! ## The two pipelines -/

open DynDOLOD

/-- **The successes of the pipelines.**  A success of the Synthesis pipeline has a valid plugin of
this run, and one of the DynDOLOD pipeline has every mod that was asked for, made in this run, and
no errors, if and only if the tools, where they succeed, have written what the runners find. -/
theorem success_truthful_iff (listing : Listing) (tool : SynthesisTool)
    (before : List (String × PluginFile)) (config : Config) (run : LodRun) (withTexgen : Bool)
    (outputs mods : String → Option (List String)) :
    (SynthesisTruthful listing tool before ↔ WritesOutput listing tool before) ∧
      (LodTruthful config run withTexgen (Disk.before outputs mods) ↔
        WritesMods config run withTexgen (Disk.before outputs mods)) :=
  ⟨synthesisTruthful_iff listing tool before,
    lodTruthful_iff config run withTexgen outputs mods⟩

/-- A Synthesis run that prints its success and writes nothing. -/
def idleSynthesis : SynthesisTool where
  changes := ⟨[], []⟩
  ends := .exits "Generated patch" "" 0

/-- TexGen exits with 0 and leaves nothing, DynDOLOD writes its plugin. -/
def idleTexgen : LodRun where
  texgen := ⟨fun _ => ⟨false, ⟨[], []⟩⟩, .exits "" "" 0⟩
  texgenPackage := .done
  dyndolod := ⟨fun path => if path = "C:/MO2/DynDOLOD_Output" then ⟨true, ⟨[], [("DynDOLOD.esp", ())]⟩⟩
    else ⟨false, ⟨[], []⟩⟩, .exits "" "" 0⟩
  dyndolodPackage := .done

/-- The plugin of an earlier run passes for that of this one, and the pipeline without a mod of
TexGen is a success. -/
theorem success_truthful_counterexample :
    (¬ ∀ (listing : Listing) (tool : SynthesisTool) (before : List (String × PluginFile)),
      SynthesisTruthful listing tool before) ∧
    ¬ ∀ (config : Config) (run : LodRun) (withTexgen : Bool)
      (outputs mods : String → Option (List String)),
      LodTruthful config run withTexgen (Disk.before outputs mods) := by
  constructor
  · intro h
    have hwrites := (synthesisTruthful_iff ⟨fun _ => false, fun _ => 0⟩ idleSynthesis
      [("Synthesis.esp", ⟨100, some [0x54, 0x45, 0x53, 0x34]⟩)]).mp (h _ _ _)
    obtain ⟨name, hname, hwritten⟩ := hwrites rfl (by decide)
    obtain rfl : "Synthesis.esp" = name := Option.some.inj hname
    exact absurd (hwritten _ rfl rfl) List.not_mem_nil
  · intro h
    have hwrites := (lodTruthful_iff ⟨"C:/MO2", "C:/DynDOLOD", "C:/", true⟩ idleTexgen true
      (fun _ => none) fun _ => none).mp (h _ _ _ _ _)
    have hnone : findOutput ⟨"C:/MO2", "C:/DynDOLOD", "C:/", true⟩ texgenNames.output
        (idleTexgen.afterTexgen true (Disk.before (fun _ => none) fun _ => none)) = none := by decide
    have hnotAbandoned : ¬ idleTexgen.abandoned ⟨"C:/MO2", "C:/DynDOLOD", "C:/", true⟩
        (idleTexgen.afterTexgen true (Disk.before (fun _ => none) fun _ => none)) := by
      rintro ⟨hfound, -⟩
      rw [hnone] at hfound
      cases hfound
    obtain ⟨-, hfound⟩ := hwrites (by decide) rfl
      (fun _ => ⟨rfl, by decide, hnotAbandoned⟩) "C:/MO2/DynDOLOD_Output" (by decide)
    obtain ⟨-, texgenPath, hpath, -⟩ := hfound rfl
    rw [hnone] at hpath
    cases hpath

end SkyClaw.Tools
