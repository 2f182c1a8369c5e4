import SkyClaw.Lib.PurePath
import SkyClaw.Xedit.ConflictAnalyzer
import Mathlib.Data.List.Dedup

/-!
# The patch orchestrator

`PatchOrchestrator.resolve`: the strategy that handles the most conflicts makes a plan for them.
-/

namespace SkyClaw.Xedit

open PurePath

inductive PatchStrategyType where
  | createMergedPatch
  | executeXeditScript
  | forwardDeclaration
deriving DecidableEq, Repr

structure PatchPlan (fl : Flavour) where
  strategyType : PatchStrategyType
  targetPlugins : List (List Char)
  outputPlugin : List Char
  formIds : List (List Char)
  estimatedRecords : Nat
  requiresHitl : Bool
  scriptPath : Option (PurePath fl) := none

structure PatchResult (fl : Flavour) where
  success : Bool
  outputPath : Option (PurePath fl)
  recordsPatched : Nat
  conflictsResolved : Nat
  xeditExitCode : Int
  warnings : List String := []
  error : Option String := none

/-- `PatchingError` and its subclasses, with their texts. -/
inductive PatchingError where
  | strategySelection (text : String)
  | scriptGeneration (text : String)
  | other (text : String)
deriving DecidableEq, Repr

/-- A `PatchStrategy`. -/
structure PatchStrategy (fl : Flavour) where
  /-- `strategy.__class__.__name__`. -/
  className : String
  canHandle : RecordConflict → Bool
  createPlan : List RecordConflict → Except PatchingError (PatchPlan fl)
  priority : Int

/-! ## The strategies -/

/-- `sorted(plugins)`, for a set of plugins. -/
def sortedSet (plugins : List (List Char)) : List (List Char) :=
  plugins.dedup.insertionSort fun a b => ¬b < a

/-- The plugins of conflicts: winners and losers. -/
def targetPlugins (conflicts : List RecordConflict) : List (List Char) :=
  sortedSet (conflicts.flatMap fun conflict => conflict.winner :: conflict.losers)

section Strategies

variable {fl : Flavour} (u : UnicodeText)

def handledTypes : List (List Char) := ["LVLI", "LVLN", "LVSP"].map String.toList

/-- A conflict of leveled lists. -/
def isLeveled (conflict : RecordConflict) : Bool := u.upper conflict.recordType ∈ handledTypes

def isCritical (conflict : RecordConflict) : Bool := conflict.severity = .critical

def CreateMergedPatch : PatchStrategy fl where
  className := "CreateMergedPatch"
  canHandle := isLeveled u
  createPlan conflicts :=
    let valid := conflicts.filter (isLeveled u)
    if conflicts = [] then .error (.scriptGeneration "Cannot create plan: no conflicts provided")
    else if valid = [] then
      .error (.scriptGeneration "No leveled list conflicts found in provided list")
    else .ok {
      strategyType := .createMergedPatch
      targetPlugins := targetPlugins valid
      outputPlugin := "SkyClaw_MergedPatch.esp".toList
      formIds := valid.map (·.formId)
      estimatedRecords := valid.length
      requiresHitl := 3 < (valid.map (·.winner)).dedup.length }
  priority := 10

def selectScriptForConflicts (conflicts : List RecordConflict) : String :=
  let recordTypes := conflicts.map fun conflict => u.upper conflict.recordType
  if "NPC_".toList ∈ recordTypes then "fix_npc_conflicts.pas"
  else if "QUST".toList ∈ recordTypes then "fix_quest_conflicts.pas"
  else if "SCPT".toList ∈ recordTypes then "fix_script_conflicts.pas"
  else "fix_critical_conflicts.pas"

def ExecuteXEditScript (scriptsDir : PurePath fl) : PatchStrategy fl where
  className := "ExecuteXEditScript"
  canHandle := isCritical
  createPlan conflicts :=
    let critical := conflicts.filter isCritical
    if conflicts = [] then .error (.scriptGeneration "Cannot create plan: no conflicts provided")
    else if critical = [] then
      .error (.scriptGeneration "No critical conflicts found in provided list")
    else .ok {
      strategyType := .executeXeditScript
      targetPlugins := targetPlugins critical
      outputPlugin := "SkyClaw_CriticalPatch.esp".toList
      formIds := critical.map (·.formId)
      estimatedRecords := critical.length
      requiresHitl := true
      scriptPath :=
        some (join u scriptsDir (parse fl (selectScriptForConflicts u critical).toList)) }
  priority := 20

end Strategies

/-! ## The orchestrator -/

/-- The strategies, the highest priority first. -/
structure PatchOrchestrator (fl : Flavour) where
  strategies : List (PatchStrategy fl)
  sorted : strategies.Pairwise fun a b => b.priority ≤ a.priority

namespace PatchOrchestrator

variable {fl : Flavour} (u : UnicodeText)

/-- `sort(key=get_priority, reverse=True)`. -/
def byPriority (strategies : List (PatchStrategy fl)) : PatchOrchestrator fl where
  strategies := strategies.insertionSort fun a b => b.priority ≤ a.priority
  sorted := by
    have : Std.Total fun a b : PatchStrategy fl => b.priority ≤ a.priority :=
      ⟨fun a b => le_total b.priority a.priority⟩
    have : IsTrans (PatchStrategy fl) fun a b => b.priority ≤ a.priority :=
      ⟨fun _ _ _ hab hbc => hbc.trans hab⟩
    exact List.pairwise_insertionSort _ strategies

def defaultStrategies : List (PatchStrategy fl) :=
  [ExecuteXEditScript u (parse fl ".".toList), CreateMergedPatch u]

/-- An orchestrator that is made without strategies. -/
def default : PatchOrchestrator fl := byPriority (defaultStrategies u)

/-- How many conflicts a strategy can handle. -/
def score (conflicts : List RecordConflict) (strategy : PatchStrategy fl) : Nat :=
  conflicts.countP strategy.canHandle

/-- `strategy_scores[name][1]`: the last strategy of a name has its place. -/
def scoreOf (strategies : List (PatchStrategy fl)) (conflicts : List RecordConflict)
    (name : String) : Nat :=
  ((strategies.filter (·.className = name)).getLast?.map (score conflicts)).getD 0

/-- The loop for the best strategy: a later one must have a higher score. -/
def pickBest (scoreOf : String → Nat) (best : Option (PatchStrategy fl) × Nat) :
    List (PatchStrategy fl) → Option (PatchStrategy fl) × Nat
  | [] => best
  | strategy :: rest =>
      if best.2 < scoreOf strategy.className then
        pickBest scoreOf (some strategy, scoreOf strategy.className) rest
      else pickBest scoreOf best rest

def selectBestStrategy (orchestrator : PatchOrchestrator fl) (conflicts : List RecordConflict) :
    Except PatchingError (PatchStrategy fl) :=
  if conflicts = [] then .error (.strategySelection "No conflicts provided")
  else
    match pickBest (scoreOf orchestrator.strategies conflicts) (none, 0) orchestrator.strategies with
    | (some strategy, _) => .ok strategy
    | (none, _) =>
        .error (.strategySelection
          ("No strategy can handle any of the " ++ toString conflicts.length ++ " conflicts"))

end PatchOrchestrator

/-- The conflicts of the pairs of a report, one pair after the other. -/
def ConflictReport.allConflicts (report : ConflictReport) : List RecordConflict :=
  report.pluginPairs.flatMap (·.conflicts)

section Resolve

variable {fl : Flavour} (orchestrator : PatchOrchestrator fl)

/-- The plan that `resolve` makes for the conflicts of a report. -/
def createPlan (conflicts : List RecordConflict) : Except PatchingError (PatchPlan fl) := do
  let strategy ← orchestrator.selectBestStrategy conflicts
  strategy.createPlan conflicts

/-- What `resolve` returns for an error. -/
def failedResult (text : String) : PatchResult fl where
  success := false
  outputPath := none
  recordsPatched := 0
  conflictsResolved := 0
  xeditExitCode := -1
  error := some text

def resolve (report : ConflictReport) : PatchResult fl :=
  if report.totalConflicts = 0 then {
    success := true
    outputPath := none
    recordsPatched := 0
    conflictsResolved := 0
    xeditExitCode := 0
    warnings := ["No conflicts to resolve"] }
  else
    match createPlan orchestrator report.allConflicts with
    -- every conflict of the report is counted, planned or not
    | .ok plan => {
        success := true
        outputPath := some (parse fl plan.outputPlugin)
        recordsPatched := plan.estimatedRecords
        conflictsResolved := report.allConflicts.length
        xeditExitCode := 0
        warnings := if plan.requiresHitl then ["Requires Human-in-the-Loop review"] else [] }
    | .error (.strategySelection text) => failedResult ("Strategy selection error: " ++ text)
    | .error (.scriptGeneration text) => failedResult ("Script generation error: " ++ text)
    | .error (.other text) => failedResult ("Patching error: " ++ text)

/-- The plan behind a result of `resolve`, if one is made. -/
def resolvedPlan (report : ConflictReport) : Option (PatchPlan fl) :=
  if report.totalConflicts = 0 then none
  else (createPlan orchestrator report.allConflicts).toOption

end Resolve

end SkyClaw.Xedit
