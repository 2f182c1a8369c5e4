import SkyClaw.Xedit.PatchOrchestrator

/-!
# The plans of the orchestrator

With its own strategies the orchestrator plans the critical conflicts of a report, or the leveled
lists where these are more.  `plansCover_iff` says for which reports the plan covers what
`resolve` counts as resolved.
-/

namespace SkyClaw.Xedit

open PurePath PatchOrchestrator

section Plans

variable {fl : Flavour} (u : UnicodeText)

/-- The conflicts that are planned: the critical ones, unless more of them are leveled lists. -/
def isPlanned (conflicts : List RecordConflict) (conflict : RecordConflict) : Bool :=
  if conflicts.countP (isLeveled u) ≤ conflicts.countP isCritical then isCritical conflict
  else isLeveled u conflict

/-- A conflict that one of the strategies can handle. -/
def CanHandle (conflict : RecordConflict) : Prop :=
  isCritical conflict = true ∨ isLeveled u conflict = true

open PatchOrchestrator

theorem default_strategies :
    (default u : PatchOrchestrator fl).strategies = defaultStrategies u := rfl

theorem pickBest_pair (score : String → Nat) (first second : PatchStrategy fl) :
    (pickBest score (none, 0) [first, second]).1 =
      if score second.className ≤ score first.className then
        if 0 < score first.className then some first else none
      else some second := by
  by_cases hfirst : 0 < score first.className
  · by_cases hsecond : score first.className < score second.className
    · simp [pickBest, hfirst, hsecond]
    · simp [pickBest, hfirst, hsecond, Nat.le_of_not_lt hsecond]
  · obtain hzero : score first.className = 0 := by omega
    by_cases hsecond : 0 < score second.className
    · simp [pickBest, hzero, hsecond]
      omega
    · simp [pickBest, hzero, hsecond]
      omega

variable {conflicts : List RecordConflict}

/-- The strategy that is selected. -/
theorem selectBestStrategy_default (hne : conflicts ≠ []) :
    (default u : PatchOrchestrator fl).selectBestStrategy conflicts =
      if conflicts.countP (isLeveled u) ≤ conflicts.countP isCritical then
        if 0 < conflicts.countP isCritical then
          .ok (ExecuteXEditScript u (parse fl ".".toList))
        else .error (.strategySelection
          ("No strategy can handle any of the " ++ toString conflicts.length ++ " conflicts"))
      else .ok (CreateMergedPatch u) := by
  have hpick : (pickBest (scoreOf (defaultStrategies u : List (PatchStrategy fl)) conflicts)
      (none, 0) (defaultStrategies u)).1 =
        if conflicts.countP (isLeveled u) ≤ conflicts.countP isCritical then
          if 0 < conflicts.countP isCritical then
            some (ExecuteXEditScript u (parse fl ".".toList))
          else none
        else some (CreateMergedPatch u) := pickBest_pair _ _ _
  unfold selectBestStrategy
  rw [if_neg hne, default_strategies]
  generalize pickBest (scoreOf (defaultStrategies u : List (PatchStrategy fl)) conflicts)
    (none, 0) (defaultStrategies u) = best at hpick ⊢
  obtain ⟨best, score⟩ := best
  subst hpick
  split_ifs <;> rfl

theorem plan_formIds {strategy : PatchStrategy fl}
    (hstrategy : strategy = ExecuteXEditScript u (parse fl ".".toList) ∨
      strategy = CreateMergedPatch u)
    (hhandles : 0 < conflicts.countP strategy.canHandle) :
    ∃ plan, strategy.createPlan conflicts = .ok plan ∧
      plan.formIds = (conflicts.filter strategy.canHandle).map (·.formId) ∧
        plan.formIds ≠ [] := by
  obtain ⟨conflict, hmem, hhandle⟩ := List.countP_pos_iff.mp hhandles
  have hne : conflicts ≠ [] := List.ne_nil_of_mem hmem
  have hfilter : conflicts.filter strategy.canHandle ≠ [] :=
    List.ne_nil_of_mem (List.mem_filter.mpr ⟨hmem, hhandle⟩)
  have hids : (conflicts.filter strategy.canHandle).map (·.formId) ≠ [] :=
    fun hnil => hfilter (List.map_eq_nil_iff.mp hnil)
  rcases hstrategy with rfl | rfl
  · exact ⟨_, (if_neg hne).trans (if_neg hfilter), rfl, hids⟩
  · exact ⟨_, (if_neg hne).trans (if_neg hfilter), rfl, hids⟩

/-- **What is planned**: if a strategy can handle something, there is a plan, and it has the form
ids of the conflicts that are planned. -/
theorem createPlan_default (conflicts : List RecordConflict) :
    (∃ c ∈ conflicts, CanHandle u c) ∧ (∃ plan : PatchPlan fl,
        createPlan (default u) conflicts = .ok plan ∧
          plan.formIds = (conflicts.filter (isPlanned u conflicts)).map (·.formId) ∧
            plan.formIds ≠ []) ∨
      (∀ c ∈ conflicts, ¬CanHandle u c) ∧ ∃ text,
        createPlan (default u : PatchOrchestrator fl) conflicts =
          .error (.strategySelection text) := by
  by_cases hne : conflicts = []
  · rw [hne]
    exact .inr ⟨fun _ h => absurd h List.not_mem_nil, "No conflicts provided", rfl⟩
  · have hselect : (default u : PatchOrchestrator fl).selectBestStrategy
        conflicts = _ := selectBestStrategy_default u hne
    unfold createPlan
    by_cases hle : conflicts.countP (isLeveled u) ≤ conflicts.countP isCritical
    · by_cases hpos : 0 < conflicts.countP isCritical
      · have hplanned : isPlanned u conflicts = isCritical := funext fun _ => if_pos hle
        obtain ⟨conflict, hmem, hcritical⟩ := List.countP_pos_iff.mp hpos
        rw [if_pos hle, if_pos hpos] at hselect
        rw [hselect, hplanned]
        exact .inl ⟨⟨conflict, hmem, .inl hcritical⟩, plan_formIds u (.inl rfl) hpos⟩
      · rw [if_pos hle, if_neg hpos] at hselect
        rw [hselect]
        refine .inr ⟨fun conflict hmem hhandle => ?_, _, rfl⟩
        rcases hhandle with hhandle | hhandle
        · exact hpos (List.countP_pos_iff.mpr ⟨conflict, hmem, hhandle⟩)
        · have hleveled := List.countP_pos_iff.mpr ⟨conflict, hmem, hhandle⟩
          omega
    · have hplanned : isPlanned u conflicts = isLeveled u := funext fun _ => if_neg hle
      have hpos : 0 < conflicts.countP (isLeveled u) := by omega
      obtain ⟨conflict, hmem, hleveled⟩ := List.countP_pos_iff.mp hpos
      rw [if_neg hle] at hselect
      rw [hselect, hplanned]
      exact .inl ⟨⟨conflict, hmem, .inr hleveled⟩, plan_formIds u (.inr rfl) hpos⟩

/-! ## What is counted as resolved -/

/-- The conflicts that `resolve` counts as resolved when it succeeds. -/
def countedConflicts (report : ConflictReport) : List RecordConflict :=
  if report.totalConflicts = 0 then [] else report.allConflicts

/-- The form ids of the plan that is made, if one is. -/
def plannedFormIds (orchestrator : PatchOrchestrator fl) (report : ConflictReport) :
    List (List Char) :=
  ((resolvedPlan orchestrator report).map PatchPlan.formIds).getD []

theorem conflictsResolved_eq {orchestrator : PatchOrchestrator fl} {report : ConflictReport}
    (h : (resolve orchestrator report).success = true) :
    (resolve orchestrator report).conflictsResolved = (countedConflicts report).length := by
  unfold resolve countedConflicts at *
  by_cases htotal : report.totalConflicts = 0
  · simp [htotal]
  · rw [if_neg htotal] at h ⊢
    rw [if_neg htotal]
    cases hplan : createPlan orchestrator report.allConflicts with
    | ok plan => rfl
    | error error =>
        rw [hplan] at h
        cases error <;> cases h

/-- **The plan covers what is counted**: each conflict once, by a form id that is planned once. -/
def PlanCovers (orchestrator : PatchOrchestrator fl) (report : ConflictReport) : Prop :=
  (resolve orchestrator report).success = true →
    (resolve orchestrator report).conflictsResolved =
        (report.allConflicts.dedup.filter
          (·.formId ∈ plannedFormIds orchestrator report)).length ∧
      (plannedFormIds orchestrator report).Nodup ∧
      ∀ conflict ∈ countedConflicts report, conflict.severity = .critical →
        conflict.formId ∈ plannedFormIds orchestrator report

/-- A selection of the distinct elements is as long as the list exactly if nothing is repeated
and everything is selected. -/
theorem length_dedup_filter_iff {α : Type} [DecidableEq α] {l : List α} {p : α → Bool} :
    l.length = (l.dedup.filter p).length ↔ l.Nodup ∧ ∀ a ∈ l, p a = true := by
  have hdedup : l.dedup.length ≤ l.length := (List.dedup_sublist l).length_le
  have hfilter : (l.dedup.filter p).length ≤ l.dedup.length := List.length_filter_le p l.dedup
  constructor
  · intro h
    have hsame : l.dedup = l := (List.dedup_sublist l).eq_of_length (by omega)
    have hall : l.dedup.filter p = l.dedup := List.filter_sublist.eq_of_length (by omega)
    rw [hsame] at hall
    exact ⟨List.dedup_eq_self.mp hsame, List.filter_eq_self.mp hall⟩
  · rintro ⟨hnodup, hall⟩
    rw [hnodup.dedup, List.filter_eq_self.mpr hall]

/-- **When a plan covers what is counted**: nothing is resolved, or no conflict stands twice in
the report, the conflicts planned have different form ids, and every other conflict has the form
id of one of them. -/
theorem planCovers_iff (report : ConflictReport) :
    PlanCovers (default u : PatchOrchestrator fl) report ↔
      report.totalConflicts = 0 ∨ (∀ c ∈ report.allConflicts, ¬CanHandle u c) ∨
        report.allConflicts.Nodup ∧
        ((report.allConflicts.filter (isPlanned u report.allConflicts)).map (·.formId)).Nodup ∧
        ∀ c ∈ report.allConflicts, ∃ planned ∈ report.allConflicts,
          isPlanned u report.allConflicts planned = true ∧ planned.formId = c.formId := by
  by_cases htotal : report.totalConflicts = 0
  · refine iff_of_true (fun _ => ?_) (Or.inl htotal)
    simp [resolve, plannedFormIds, resolvedPlan, countedConflicts, htotal]
  · rw [or_iff_right htotal]
    rcases @createPlan_default fl u report.allConflicts with
      ⟨⟨conflict, hmem, hhandle⟩, plan, hplan, hids, _⟩ | ⟨hnone, text, herror⟩
    · have hsome : ¬∀ c ∈ report.allConflicts, ¬CanHandle u c := fun h => h conflict hmem hhandle
      have hsuccess : (resolve (default u : PatchOrchestrator fl)
          report).success = true := by
        simp [resolve, htotal, hplan]
      have hplanned : plannedFormIds (default u : PatchOrchestrator fl) report =
          (report.allConflicts.filter (isPlanned u report.allConflicts)).map (·.formId) := by
        simp [plannedFormIds, resolvedPlan, htotal, hplan, hids, Except.toOption]
      have hcounted : countedConflicts report = report.allConflicts := if_neg htotal
      rw [or_iff_right hsome]
      unfold PlanCovers
      rw [conflictsResolved_eq hsuccess, hplanned, hcounted, length_dedup_filter_iff]
      simp only [decide_eq_true_eq, List.mem_map, List.mem_filter, and_assoc]
      constructor
      · intro h
        obtain ⟨hnodup, hall, hids, _⟩ := h hsuccess
        exact ⟨hnodup, hids, hall⟩
      · rintro ⟨hnodup, hids, hall⟩ _
        exact ⟨hnodup, hall, hids, fun c hc _ => hall c hc⟩
    · refine iff_of_true (fun hsuccess => ?_) (Or.inl hnone)
      simp [resolve, htotal, herror, failedResult] at hsuccess

end Plans

/-- An actor that two plugins lose. -/
def twoLosers : RecordConflict where
  formId := "0001A2B3".toList
  editorId := "Lydia".toList
  recordType := "NPC_".toList
  winner := "Patch.esp".toList
  losers := ["Hair.esp".toList, "Skyrim.esm".toList]
  severity := .critical

/-- The report that has it once for each of them. -/
def twoPairs : ConflictReport where
  totalConflicts := 1
  criticalConflicts := 1
  pluginPairs := groupByPair [twoLosers]
  summary := buildSummary 1 1 (groupByPair [twoLosers])

/-- Two conflicts are counted, and there is one. -/
theorem planCovers_counterexample :
    ¬PlanCovers (default .basic : PatchOrchestrator .windows) twoPairs := by
  intro hcovers
  exact absurd (hcovers (by decide)).1 (by decide)

end SkyClaw.Xedit
