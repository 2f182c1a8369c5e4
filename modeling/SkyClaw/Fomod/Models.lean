import Mathlib.Data.List.Sort
import Mathlib.Data.List.Dedup

/-!
# FOMOD configurations

The models of a FOMOD `ModuleConfig.xml`, and `FomodResolver`, which turns selections into the
list of files to install.
-/

namespace SkyClaw.Fomod

inductive GroupType where
  | selectExactlyOne
  | selectAtMostOne
  | selectAtLeastOne
  | selectAll
  | selectAny
deriving DecidableEq, Repr

inductive FileState where
  | active
  | inactive
  | missing
deriving DecidableEq, Repr

structure FlagDependency where
  flag : String
  value : String
deriving DecidableEq, Repr

structure FileDependency where
  file : String
  state : FileState
deriving DecidableEq, Repr

inductive Operator where
  | and
  | or
deriving DecidableEq, Repr

inductive CompositeDependency where
  | mk (operator : Operator) (flagDeps : List FlagDependency) (fileDeps : List FileDependency)
      (nested : List CompositeDependency)
deriving Repr

/-- `CompositeDependency()`. -/
def CompositeDependency.empty : CompositeDependency := .mk .and [] [] []

structure FileInstall where
  source : String
  destination : String
  priority : Int
deriving DecidableEq, Repr

structure ConditionFlag where
  name : String
  value : String
deriving DecidableEq, Repr

structure Plugin where
  name : String
  conditionFlags : List ConditionFlag
  files : List FileInstall
deriving DecidableEq, Repr

structure Group where
  name : String
  groupType : GroupType
  plugins : List Plugin
deriving DecidableEq, Repr

structure InstallStep where
  name : String
  visibility : Option CompositeDependency
  groups : List Group
deriving Repr

structure ConditionalPattern where
  conditions : CompositeDependency
  files : List FileInstall
deriving Repr

structure FomodConfig where
  moduleName : String
  requiredFiles : List FileInstall
  installSteps : List InstallStep
  conditionalInstalls : List ConditionalPattern
deriving Repr

/-! ## The resolver -/

/-- The dict of flags. -/
abbrev Flags := String → Option String

/-- The selections: for each step the names of the plugins selected. -/
abbrev Selections := String → Option (List String)

structure ResolveResult where
  files : List FileInstall
  pendingDecisions : List String
  flags : Flags

mutual

/-- `_evaluate_conditions`.  File dependencies count as true. -/
def evaluateConditions (flags : Flags) : CompositeDependency → Bool
  | .mk operator flagDeps fileDeps nested =>
      let results := flagDeps.map (fun fd => (flags fd.flag).getD "" == fd.value) ++
        fileDeps.map (fun _ => true) ++ evaluateNested flags nested
      if results.isEmpty then true
      else
        match operator with
        | .and => results.all id
        | .or => results.any id

/-- The results of the nested conditions. -/
def evaluateNested (flags : Flags) : List CompositeDependency → List Bool
  | [] => []
  | conditions :: rest => evaluateConditions flags conditions :: evaluateNested flags rest

end

def isStepVisible (flags : Flags) (step : InstallStep) : Bool :=
  match step.visibility with
  | none => true
  | some conditions => evaluateConditions flags conditions

/-- `_resolve_group`: the plugins selected, and the decisions it adds. -/
def resolveGroup (stepName : String) (group : Group) (stepSelections : List String) :
    List String × List String :=
  let pluginNames := (group.plugins.map Plugin.name).dedup
  let selected := (stepSelections.filter (· ∈ pluginNames)).dedup
  let label := stepName ++ "/" ++ group.name
  match group.groupType with
  | .selectAll => (pluginNames, [])
  | .selectExactlyOne =>
      (selected, if selected.isEmpty then [label ++ ": must select exactly one"] else [])
  | .selectAtLeastOne =>
      (selected, if selected.isEmpty then [label ++ ": must select at least one"] else [])
  | .selectAtMostOne => (selected, [])
  | .selectAny => (selected, [])

/-- The loop over the plugins of a group. -/
def takePlugins (selected : List String) (result : ResolveResult) (plugins : List Plugin) :
    ResolveResult :=
  plugins.foldl
    (fun result plugin =>
      if plugin.name ∈ selected then
        { result with
          files := result.files ++ plugin.files
          flags := plugin.conditionFlags.foldl
            (fun flags cf name => if name = cf.name then some cf.value else flags name) result.flags }
      else result)
    result

def takeGroup (stepName : String) (stepSelections : List String) (result : ResolveResult)
    (group : Group) : ResolveResult :=
  let (selected, decisions) := resolveGroup stepName group stepSelections
  takePlugins selected
    { result with pendingDecisions := result.pendingDecisions ++ decisions } group.plugins

def takeStep (selections : Selections) (result : ResolveResult) (step : InstallStep) :
    ResolveResult :=
  if isStepVisible result.flags step then
    step.groups.foldl (takeGroup step.name ((selections step.name).getD [])) result
  else result

def resolve (config : FomodConfig) (selections : Selections) : ResolveResult :=
  let result := config.installSteps.foldl (takeStep selections)
    ⟨config.requiredFiles, [], fun _ => none⟩
  let conditional := config.conditionalInstalls.flatMap fun pattern =>
    if evaluateConditions result.flags pattern.conditions then pattern.files else []
  -- the sort keeps the order of entries with the same priority
  { result with
    files := (result.files ++ conditional).insertionSort fun f g => f.priority ≤ g.priority }

end SkyClaw.Fomod
