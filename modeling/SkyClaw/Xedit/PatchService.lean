import SkyClaw.Xedit.PatchPlans

/-!
# The patch that is executed

The plan that `XEditPipelineService.execute_patch` makes of a result of the orchestrator, and the
script that `ScriptGenerator` makes of a plan.  `executesPlanned_iff` says when the plan that is
executed is the one that was made.
-/

namespace SkyClaw.Xedit

open PurePath

/-! ## Scripts -/

/-- A line of the record filter of a patch script. -/
inductive RecordFilter where
  | formId (formId : List Char)
  | all
deriving DecidableEq, Repr

/-- What is put into the templates of `ScriptGenerator`. -/
inductive PascalScript where
  | forward (formId source target : List Char)
  | merge (outputPlugin recordTypes : List Char)
  | patch (outputPlugin : List Char) (recordFilter : List RecordFilter)
deriving DecidableEq, Repr

/-- The records that `Process` of a script works on. -/
def PascalScript.Touches (script : PascalScript) (recordSig formId : List Char) : Prop :=
  match script with
  | forward wanted _ _ => formId = wanted ∨ formId ≠ [] ∧ formId <:+: wanted
  | merge _ recordTypes => recordSig ∈ handledTypes ∧ recordSig <:+: recordTypes
  | patch _ recordFilter => .formId formId ∈ recordFilter ∨ .all ∈ recordFilter

/-- The causes of an `XEditScriptError`. -/
inductive ScriptError where
  | required (field : String)
  | invalidPluginName (name : List Char)
  | invalidFormId (formId : List Char)
  | formIdsRequired
deriving DecidableEq, Repr

/-- `$` also matches before a line feed at the end. -/
def withoutFinalNewline (text : List Char) : List Char :=
  if text.getLast? = some '\n' then text.dropLast else text

/-- `_SAFE_PLUGIN_NAME.match(name)`. -/
def isSafePluginName (name : List Char) : Bool :=
  let body := withoutFinalNewline name
  let stem := body.take (body.length - 4)
  body.drop (body.length - 4) ∈ [".esp", ".esm", ".esl"].map String.toList ∧
    1 ≤ stem.length ∧ stem.length ≤ 255 ∧
    stem.all (fun c => PyRe.asciiAlnum c || PyRe.anyOf "_- ." c) = true

/-- `_SAFE_FORM_ID.match(form_id)`. -/
def isSafeFormId (formId : List Char) : Bool :=
  let body := withoutFinalNewline formId
  let digits := if body[6]? = some ':' then body.take 6 ++ body.drop 7 else body
  digits.length = 8 ∧ digits.all isHexDigit = true

def generateForwardScript (formId source target : List Char) : Except ScriptError PascalScript :=
  if formId = [] then .error (.required "form_id")
  else if source = [] then .error (.required "source plugin")
  else if target = [] then .error (.required "target plugin")
  else if ((formId.filter (· ≠ ':')).all isHexDigit) = false then .error (.invalidFormId formId)
  else .ok (.forward formId source target)

/-- `generate_merge_script`, for the leveled lists. -/
def generateMergeScript (outputPlugin : List Char) : Except ScriptError PascalScript :=
  if outputPlugin = [] then .error (.required "output_plugin")
  else if isSafePluginName outputPlugin = false then .error (.invalidPluginName outputPlugin)
  else .ok (.merge outputPlugin ([','].intercalate handledTypes))

/-- `generate_patch_script`, without record types: no form ids are all records. -/
def generatePatchScript (outputPlugin : List Char) (formIds : List (List Char)) :
    Except ScriptError PascalScript :=
  if outputPlugin = [] then .error (.required "output_plugin")
  else
    match formIds.find? fun formId => isSafeFormId formId = false with
    | some formId => .error (.invalidFormId formId)
    | none =>
        .ok (.patch outputPlugin
          (if formIds = [] then [.all] else formIds.map RecordFilter.formId))

variable {fl : Flavour}

def generateScriptFromPlan (plan : PatchPlan fl) : Except ScriptError PascalScript :=
  match plan.strategyType with
  | .forwardDeclaration =>
      match plan.formIds with
      | [] => .error .formIdsRequired
      | formId :: _ =>
          generateForwardScript formId (plan.targetPlugins.headD []) plan.outputPlugin
  | .createMergedPatch => generateMergeScript plan.outputPlugin
  | .executeXeditScript => generatePatchScript plan.outputPlugin plan.formIds

/-! ## The service -/

/-- The strategy type that `execute_patch` takes: by the name of the first strategy. -/
def serviceStrategyType (strategies : List (PatchStrategy fl)) : PatchStrategyType :=
  match strategies with
  | [] => .createMergedPatch
  | strategy :: _ =>
      if strategy.className = "ExecuteXEditScript" then .executeXeditScript
      else if strategy.className = "ForwardDeclaration" then .forwardDeclaration
      else .createMergedPatch

/-- The plan that `execute_patch` hands to the runner, if it has a runner and calls it. -/
def servicePlan (orchestrator : PatchOrchestrator fl) (hasRunner : Bool)
    (report : ConflictReport) : Option (PatchPlan fl) :=
  let result := resolve orchestrator report
  match result.outputPath with
  | some outputPath =>
      if result.success = true ∧ hasRunner = true then
        some {
          strategyType := serviceStrategyType orchestrator.strategies
          targetPlugins := (report.pluginPairs.take 1).map (·.pluginA)
          outputPlugin := toText outputPath
          -- neither the form ids nor the review are taken from a plan
          formIds := []
          estimatedRecords := result.recordsPatched
          requiresHitl := false }
      else none
  | none => none

/-- **What is executed is what was planned**: type, plugins, form ids and the review by a human
are those of the plan, and the script works on no record that was not planned. -/
def ExecutesPlanned (orchestrator : PatchOrchestrator fl) (hasRunner : Bool)
    (report : ConflictReport) : Prop :=
  ∀ plan handed, resolvedPlan orchestrator report = some plan →
    servicePlan orchestrator hasRunner report = some handed →
      handed.strategyType = plan.strategyType ∧ handed.targetPlugins = plan.targetPlugins ∧
      handed.formIds = plan.formIds ∧ handed.requiresHitl = plan.requiresHitl ∧
      ∀ script, generateScriptFromPlan handed = .ok script →
        ∀ recordSig formId, script.Touches recordSig formId → formId ∈ plan.formIds

/-- **When what is executed was planned**: only where nothing is executed, as there is no runner,
or where no plan is made. -/
theorem executesPlanned_iff (u : UnicodeText) (hasRunner : Bool) (report : ConflictReport) :
    ExecutesPlanned (PatchOrchestrator.default u : PatchOrchestrator fl) hasRunner report ↔
      hasRunner = false ∨ report.totalConflicts = 0 ∨
        ∀ c ∈ report.allConflicts, ¬CanHandle u c := by
  by_cases htotal : report.totalConflicts = 0
  · refine iff_of_true (fun plan _ hplan _ => ?_) (Or.inr (Or.inl htotal))
    rw [resolvedPlan, if_pos htotal] at hplan
    cases hplan
  · rcases @createPlan_default fl u report.allConflicts with
      ⟨⟨conflict, hmem, hhandle⟩, plan, hplan, _, hids⟩ | ⟨hnone, text, herror⟩
    · have hsome : ¬∀ c ∈ report.allConflicts, ¬CanHandle u c := fun h => h conflict hmem hhandle
      have hresolved : resolvedPlan (PatchOrchestrator.default u) report = some plan := by
        rw [resolvedPlan, if_neg htotal, hplan]
        rfl
      rw [or_iff_right htotal, or_iff_left hsome]
      cases hasRunner with
      | false =>
          refine iff_of_true (fun _ handed _ hhanded => ?_) rfl
          simp [servicePlan, resolve, htotal, hplan] at hhanded
      | true =>
          -- the form ids of the plan are some, and those handed to the runner are none
          refine iff_of_false (fun hexecutes => ?_) Bool.noConfusion
          have hhanded := hexecutes plan _ hresolved
            (by simp [servicePlan, resolve, htotal, hplan]; rfl)
          exact hids hhanded.2.2.1.symm
    · refine iff_of_true (fun plan _ hplan _ => ?_) (Or.inr (Or.inr hnone))
      rw [resolvedPlan, if_neg htotal, herror] at hplan
      cases hplan

/-- The plan for the actor asks for a review, and the service does not. -/
theorem executesPlanned_counterexample :
    ¬ExecutesPlanned (PatchOrchestrator.default .basic : PatchOrchestrator .windows) true
      twoPairs := by
  intro hexecutes
  have hplan : (resolvedPlan (PatchOrchestrator.default .basic : PatchOrchestrator .windows)
      twoPairs).map PatchPlan.requiresHitl = some true := by decide
  have hhanded : (servicePlan (PatchOrchestrator.default .basic : PatchOrchestrator .windows) true
      twoPairs).map PatchPlan.requiresHitl = some false := by decide
  obtain ⟨plan, hresolved, htrue⟩ := Option.map_eq_some_iff.mp hplan
  obtain ⟨handed, hservice, hfalse⟩ := Option.map_eq_some_iff.mp hhanded
  have hsame := (hexecutes plan handed hresolved hservice).2.2.2.1
  rw [htrue, hfalse] at hsame
  cases hsame

end SkyClaw.Xedit
