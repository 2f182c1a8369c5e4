import SkyClaw.Fomod.Models

/-!
# What a resolution takes

`FomodResolver.resolve` as what it takes from the steps it visits: the files, flags and
pending decisions are those of the options taken, one visible step after the other.
`groupRules_iff` says when the options taken obey the types of their groups, and
`resolve_own_choices` that nothing but the own options of visible steps matters.
-/

namespace SkyClaw.Fomod

/-! ## The steps that are visited -/

section

variable (selections : Selections)

def Selections.of (step : InstallStep) : List String :=
  (selections step.name).getD []

/-- The options of a group that are taken. -/
def takenPlugins (stepName : String) (stepSelections : List String) (group : Group) : List Plugin :=
  group.plugins.filter fun plugin => plugin.name ∈ (resolveGroup stepName group stepSelections).1

/-- The decisions that a group leaves open. -/
def openDecisions (stepName : String) (stepSelections : List String) (group : Group) :
    List String :=
  (resolveGroup stepName group stepSelections).2

/-- The options that are taken in a step. -/
def stepPlugins (step : InstallStep) : List Plugin :=
  step.groups.flatMap (takenPlugins step.name (selections.of step))

/-- The decisions that a step leaves open. -/
def stepDecisions (step : InstallStep) : List String :=
  step.groups.flatMap (openDecisions step.name (selections.of step))

/-- `flags[cf.name] = cf.value` for the flags of an option. -/
def setFlags (flags : Flags) (plugin : Plugin) : Flags :=
  plugin.conditionFlags.foldl
    (fun flags cf name => if name = cf.name then some cf.value else flags name) flags

/-- The flags after the options of a step. -/
def flagsAfter (flags : Flags) (step : InstallStep) : Flags :=
  (stepPlugins selections step).foldl setFlags flags

/-- The steps that are visible when the resolver comes to them, of a list whose elements are
read as steps. -/
def visibleFrom {σ : Type} (toStep : σ → InstallStep) (selections : Selections) (flags : Flags) :
    List σ → List σ
  | [] => []
  | step :: rest =>
      if isStepVisible flags (toStep step) then
        step :: visibleFrom toStep selections (flagsAfter selections flags (toStep step)) rest
      else visibleFrom toStep selections flags rest

/-- The visible steps of a resolution. -/
def visibleSteps (config : FomodConfig) (selections : Selections) : List InstallStep :=
  visibleFrom id selections (fun _ => none) config.installSteps

/-- The files of a resolution before they are sorted. -/
def collectedFiles (config : FomodConfig) (selections : Selections) : List FileInstall :=
  config.requiredFiles ++
    ((visibleSteps config selections).flatMap (stepPlugins selections)).flatMap Plugin.files ++
    config.conditionalInstalls.flatMap fun pattern =>
      if evaluateConditions
          ((visibleSteps config selections).foldl (flagsAfter selections) fun _ => none)
          pattern.conditions then pattern.files
      else []

/-! ## The loops of the resolver -/

theorem takePlugins_eq (selected : List String) (result : ResolveResult) (plugins : List Plugin) :
    takePlugins selected result plugins =
      { files := result.files ++
          (plugins.filter fun plugin => plugin.name ∈ selected).flatMap Plugin.files
        pendingDecisions := result.pendingDecisions
        flags := (plugins.filter fun plugin => plugin.name ∈ selected).foldl setFlags
          result.flags } := by
  unfold takePlugins
  induction plugins generalizing result with
  | nil => simp
  | cons plugin rest ih =>
      rw [List.foldl_cons, ih]
      by_cases h : plugin.name ∈ selected
      · simp [h, setFlags]
      · simp [h]

theorem takeGroup_eq (stepName : String) (stepSelections : List String) (result : ResolveResult)
    (group : Group) :
    takeGroup stepName stepSelections result group =
      { files := result.files ++
          (takenPlugins stepName stepSelections group).flatMap Plugin.files
        pendingDecisions := result.pendingDecisions ++
          openDecisions stepName stepSelections group
        flags := (takenPlugins stepName stepSelections group).foldl setFlags result.flags } :=
  takePlugins_eq _ _ _

theorem takeGroups_eq (stepName : String) (stepSelections : List String) (result : ResolveResult)
    (groups : List Group) :
    groups.foldl (takeGroup stepName stepSelections) result =
      { files := result.files ++
          (groups.flatMap (takenPlugins stepName stepSelections)).flatMap Plugin.files
        pendingDecisions := result.pendingDecisions ++
          groups.flatMap (openDecisions stepName stepSelections)
        flags := (groups.flatMap (takenPlugins stepName stepSelections)).foldl setFlags
          result.flags } := by
  induction groups generalizing result with
  | nil => simp
  | cons group rest ih =>
      rw [List.foldl_cons, ih, takeGroup_eq]
      simp [List.foldl_append, List.flatMap_append]

theorem takeSteps_eq (result : ResolveResult) (steps : List InstallStep) :
    steps.foldl (takeStep selections) result =
      { files := result.files ++ ((visibleFrom id selections result.flags steps).flatMap
          (stepPlugins selections)).flatMap Plugin.files
        pendingDecisions := result.pendingDecisions ++
          (visibleFrom id selections result.flags steps).flatMap (stepDecisions selections)
        flags := (visibleFrom id selections result.flags steps).foldl (flagsAfter selections)
          result.flags } := by
  induction steps generalizing result with
  | nil => simp [visibleFrom]
  | cons step rest ih =>
      rw [List.foldl_cons, ih, takeStep, visibleFrom]
      by_cases hvisible : isStepVisible result.flags step = true
      · have hread : isStepVisible result.flags (id step) = true := hvisible
        rw [if_pos hvisible, if_pos hread, takeGroups_eq]
        simp [stepPlugins, stepDecisions, flagsAfter, Selections.of, List.flatMap_append]
      · have hread : ¬isStepVisible result.flags (id step) = true := hvisible
        rw [if_neg hvisible, if_neg hread]

end

/-- **A resolution** is what its visible steps give. -/
theorem resolve_eq (config : FomodConfig) (selections : Selections) :
    resolve config selections =
      { files := (collectedFiles config selections).insertionSort fun f g =>
          f.priority ≤ g.priority
        pendingDecisions := (visibleSteps config selections).flatMap (stepDecisions selections)
        flags := (visibleSteps config selections).foldl (flagsAfter selections)
          fun _ => none } := by
  unfold resolve
  rw [takeSteps_eq]
  simp only [List.nil_append]
  rfl

/-- The options of a group whose names are selected. -/
def chosenPlugins (stepSelections : List String) (group : Group) : List Plugin :=
  group.plugins.filter fun plugin => plugin.name ∈ stepSelections

variable {stepName : String} {stepSelections : List String}

theorem mem_resolveGroup {group : Group}
    {name : String} :
    name ∈ (resolveGroup stepName group stepSelections).1 ↔
      name ∈ group.plugins.map Plugin.name ∧
        (group.groupType = .selectAll ∨ name ∈ stepSelections) := by
  unfold resolveGroup
  cases htype : group.groupType <;> simp [and_comm]

theorem takenPlugins_eq (stepName : String) (stepSelections : List String) (group : Group) :
    takenPlugins stepName stepSelections group =
      if group.groupType = .selectAll then group.plugins
      else chosenPlugins stepSelections group := by
  have hname : ∀ plugin ∈ group.plugins, plugin.name ∈ group.plugins.map Plugin.name :=
    fun plugin hplugin => List.mem_map_of_mem hplugin
  split
  · next hall =>
      refine List.filter_eq_self.mpr fun plugin hplugin => decide_eq_true ?_
      exact mem_resolveGroup.mpr ⟨hname plugin hplugin, .inl hall⟩
  · next hsome =>
      refine List.filter_congr fun plugin hplugin => ?_
      rw [decide_eq_decide, mem_resolveGroup, and_iff_right (hname plugin hplugin),
        or_iff_right hsome]

theorem selected_eq_nil_iff (stepSelections : List String) (group : Group) :
    (stepSelections.filter (· ∈ (group.plugins.map Plugin.name).dedup)).dedup = [] ↔
      chosenPlugins stepSelections group = [] := by
  rw [List.dedup_eq_nil, List.filter_eq_nil_iff, chosenPlugins, List.filter_eq_nil_iff]
  constructor
  · intro h plugin hplugin hchosen
    exact h plugin.name (by simpa using hchosen) (by simpa using ⟨plugin, hplugin, rfl⟩)
  · intro h name hname hoption
    obtain ⟨plugin, hplugin, rfl⟩ : ∃ plugin ∈ group.plugins, plugin.name = name := by
      simpa using hoption
    exact h plugin hplugin (by simpa using hname)

/-- A group asks for a choice. -/
def GroupType.Asks (type : GroupType) : Prop :=
  type = .selectExactlyOne ∨ type = .selectAtLeastOne

theorem openDecisions_eq_nil_iff
    {group : Group} :
    openDecisions stepName stepSelections group = [] ↔
      (group.groupType.Asks → chosenPlugins stepSelections group ≠ []) := by
  have hempty := selected_eq_nil_iff stepSelections group
  unfold openDecisions resolveGroup GroupType.Asks
  cases htype : group.groupType <;> simp [← hempty]

/-! ## The rules of the groups -/

/-- What the type of a group allows, for the number of its options and of those taken. -/
def GroupType.Allows (options taken : Nat) : GroupType → Prop
  | .selectExactlyOne => taken = 1
  | .selectAtMostOne => taken ≤ 1
  | .selectAtLeastOne => 1 ≤ taken
  | .selectAll => taken = options
  | .selectAny => True

/-- If nothing is left to decide, the options taken obey the types of their groups. -/
def GroupRules (config : FomodConfig) (selections : Selections) : Prop :=
  (resolve config selections).pendingDecisions = [] →
    ∀ step ∈ visibleSteps config selections, ∀ group ∈ step.groups,
      group.groupType.Allows group.plugins.length
        (takenPlugins step.name (selections.of step) group).length

/-- A visible group that asks for a choice gets none. -/
def LeavesOpen (config : FomodConfig) (selections : Selections) : Prop :=
  ∃ step ∈ visibleSteps config selections, ∃ group ∈ step.groups,
    group.groupType.Asks ∧ chosenPlugins (selections.of step) group = []

/-- At most one option is chosen in the visible groups that allow one. -/
def ChoosesOne (config : FomodConfig) (selections : Selections) : Prop :=
  ∀ step ∈ visibleSteps config selections, ∀ group ∈ step.groups,
    group.groupType = .selectExactlyOne ∨ group.groupType = .selectAtMostOne →
      (chosenPlugins (selections.of step) group).length ≤ 1

theorem pendingDecisions_eq_nil_iff (config : FomodConfig) (selections : Selections) :
    (resolve config selections).pendingDecisions = [] ↔ ¬LeavesOpen config selections := by
  rw [resolve_eq]
  show (visibleSteps config selections).flatMap (stepDecisions selections) = [] ↔ _
  simp only [stepDecisions, List.flatMap_eq_nil_iff, openDecisions_eq_nil_iff, LeavesOpen,
    not_exists, not_and]

/-- One group: with the choice it asks for, it is obeyed when it does not get two. -/
theorem allows_iff {group : Group}
    (hasked : group.groupType.Asks → chosenPlugins stepSelections group ≠ []) :
    group.groupType.Allows group.plugins.length
        (takenPlugins stepName stepSelections group).length ↔
      (group.groupType = .selectExactlyOne ∨ group.groupType = .selectAtMostOne →
        (chosenPlugins stepSelections group).length ≤ 1) := by
  have hpos : group.groupType.Asks → 1 ≤ (chosenPlugins stepSelections group).length :=
    fun h => List.length_pos_iff.mpr (hasked h)
  rw [takenPlugins_eq]
  unfold GroupType.Asks at hpos
  cases htype : group.groupType with
  | selectExactlyOne =>
      have hone := hpos (.inl htype)
      simp [GroupType.Allows]
      omega
  | selectAtMostOne | selectAll | selectAny => simp [GroupType.Allows]
  | selectAtLeastOne =>
      have hone := hpos (.inr htype)
      simp [GroupType.Allows]
      omega

/-- **When the rules of the groups are obeyed.**  A resolution without pending decisions obeys
them exactly where no group that allows one option has two that are selected. -/
theorem groupRules_iff (config : FomodConfig) (selections : Selections) :
    GroupRules config selections ↔
      LeavesOpen config selections ∨ ChoosesOne config selections := by
  unfold GroupRules
  rw [pendingDecisions_eq_nil_iff]
  by_cases hopen : LeavesOpen config selections
  · exact iff_of_true (absurd hopen) (Or.inl hopen)
  · rw [or_iff_right hopen, imp_iff_right hopen]
    have hasked : ∀ step ∈ visibleSteps config selections, ∀ group ∈ step.groups,
        group.groupType.Asks → chosenPlugins (selections.of step) group ≠ [] :=
      fun step hstep group hgroup hasks hnone => hopen ⟨step, hstep, group, hgroup, hasks, hnone⟩
    refine forall₂_congr fun step hstep => forall₂_congr fun group hgroup => ?_
    exact allows_iff (hasked step hstep group hgroup)

/-- One step with one group of two options, of which one is to be selected. -/
def twoOptions : FomodConfig where
  moduleName := "Textures"
  requiredFiles := []
  installSteps :=
    [⟨"Resolution", none, [⟨"Size", .selectExactlyOne, [⟨"1K", [], []⟩, ⟨"2K", [], []⟩]⟩]⟩]
  conditionalInstalls := []

/-- Both of them are selected, and both are taken. -/
theorem groupRules_counterexample :
    ¬GroupRules twoOptions fun _ => some ["1K", "2K"] := by
  intro hrules
  have hone : (takenPlugins "Resolution" ["1K", "2K"]
      ⟨"Size", .selectExactlyOne, [⟨"1K", [], []⟩, ⟨"2K", [], []⟩]⟩).length = 1 :=
    hrules (by decide) _ (List.mem_singleton_self _) _ (List.mem_singleton_self _)
  exact absurd hone (by decide)

/-! ## Selections that do not matter -/

def InstallStep.optionNames (step : InstallStep) : List String :=
  step.groups.flatMap fun group => group.plugins.map Plugin.name

/-- Two selection maps have the same options of this step. -/
def SameChoices (selections selections' : Selections) (step : InstallStep) : Prop :=
  ∀ name ∈ step.optionNames, name ∈ selections.of step ↔ name ∈ selections'.of step

section SameChoices

variable {selections selections' : Selections} {step : InstallStep}

theorem chosenPlugins_congr (h : SameChoices selections selections' step) {group : Group}
    (hgroup : group ∈ step.groups) :
    chosenPlugins (selections.of step) group = chosenPlugins (selections'.of step) group := by
  refine List.filter_congr fun plugin hplugin => ?_
  rw [decide_eq_decide]
  exact h plugin.name
    (List.mem_flatMap.mpr ⟨group, hgroup, List.mem_map_of_mem hplugin⟩)

theorem stepPlugins_congr (h : SameChoices selections selections' step) :
    stepPlugins selections step = stepPlugins selections' step := by
  unfold stepPlugins
  refine List.flatMap_congr fun group hgroup => ?_
  rw [takenPlugins_eq, takenPlugins_eq, chosenPlugins_congr h hgroup]

theorem openDecisions_congr (h : SameChoices selections selections' step) {group : Group}
    (hgroup : group ∈ step.groups) :
    openDecisions step.name (selections.of step) group =
      openDecisions step.name (selections'.of step) group := by
  have hempty : (((selections.of step).filter
        (· ∈ (group.plugins.map Plugin.name).dedup)).dedup).isEmpty =
      (((selections'.of step).filter
        (· ∈ (group.plugins.map Plugin.name).dedup)).dedup).isEmpty := by
    rw [Bool.eq_iff_iff, List.isEmpty_iff, List.isEmpty_iff, selected_eq_nil_iff,
      selected_eq_nil_iff, chosenPlugins_congr h hgroup]
  unfold openDecisions resolveGroup
  cases group.groupType <;> simp only [hempty]

theorem stepDecisions_congr (h : SameChoices selections selections' step) :
    stepDecisions selections step = stepDecisions selections' step :=
  List.flatMap_congr fun _ hgroup => openDecisions_congr h hgroup

theorem flagsAfter_congr (h : SameChoices selections selections' step) (flags : Flags) :
    flagsAfter selections flags step = flagsAfter selections' flags step := by
  rw [flagsAfter, flagsAfter, stepPlugins_congr h]

end SameChoices

/-- Maps with the same options of the steps visible under the first see the same steps: the
flags stay equal from one step to the next. -/
theorem visibleFrom_congr {selections selections' : Selections} {flags : Flags}
    {steps : List InstallStep}
    (h : ∀ step ∈ visibleFrom id selections flags steps, SameChoices selections selections' step) :
    visibleFrom id selections flags steps = visibleFrom id selections' flags steps := by
  induction steps generalizing flags with
  | nil => rfl
  | cons step rest ih =>
      unfold visibleFrom at h ⊢
      split
      · -- both maps take the same options here, so the flags go on equal
        next hvisible =>
          rw [if_pos hvisible, List.forall_mem_cons] at h
          rw [ih h.2]
          show step :: visibleFrom id selections' (flagsAfter selections flags step) rest =
            step :: visibleFrom id selections' (flagsAfter selections' flags step) rest
          rw [flagsAfter_congr h.1]
      · next hhidden =>
          rw [if_neg hhidden] at h
          exact ih h

variable {config : FomodConfig}

theorem resolve_congr {selections selections' : Selections}
    (h : ∀ step ∈ visibleSteps config selections, SameChoices selections selections' step) :
    resolve config selections = resolve config selections' := by
  have hvisible : visibleSteps config selections = visibleSteps config selections' :=
    visibleFrom_congr h
  have hplugins : (visibleSteps config selections).flatMap (stepPlugins selections) =
      (visibleSteps config selections').flatMap (stepPlugins selections') := by
    rw [← hvisible]
    exact List.flatMap_congr fun step hstep => stepPlugins_congr (h step hstep)
  have hdecisions : (visibleSteps config selections).flatMap (stepDecisions selections) =
      (visibleSteps config selections').flatMap (stepDecisions selections') := by
    rw [← hvisible]
    exact List.flatMap_congr fun step hstep => stepDecisions_congr (h step hstep)
  have hflags : (visibleSteps config selections).foldl (flagsAfter selections) (fun _ => none) =
      (visibleSteps config selections').foldl (flagsAfter selections') fun _ => none := by
    rw [← hvisible]
    exact List.foldl_ext _ _ _ fun flags step hstep => flagsAfter_congr (h step hstep) flags
  rw [resolve_eq, resolve_eq, collectedFiles, collectedFiles, hplugins, hdecisions, hflags]

/-- The selections without those for hidden steps and without names that are not options. -/
def ownChoices (config : FomodConfig) (selections : Selections) : Selections := fun stepName =>
  let steps := (visibleSteps config selections).filter fun step => step.name = stepName
  if steps.isEmpty then none
  else some (((selections stepName).getD []).filter fun name =>
    steps.any fun step => name ∈ step.optionNames)

theorem sameChoices_ownChoices {selections : Selections}
    {step : InstallStep} (hstep : step ∈ visibleSteps config selections) :
    SameChoices selections (ownChoices config selections) step := by
  intro name hname
  have hmem : step ∈ (visibleSteps config selections).filter fun other =>
      other.name = step.name := by simpa using hstep
  have hnonempty : ((visibleSteps config selections).filter fun other =>
      other.name = step.name).isEmpty = false := by
    rw [Bool.eq_false_iff, Ne, List.isEmpty_iff]
    exact List.ne_nil_of_mem hmem
  have hany : (((visibleSteps config selections).filter fun other =>
      other.name = step.name).any fun other => name ∈ other.optionNames) = true :=
    List.any_eq_true.mpr ⟨step, hmem, decide_eq_true hname⟩
  have hof : (ownChoices config selections).of step = (selections.of step).filter fun name =>
      ((visibleSteps config selections).filter fun other => other.name = step.name).any
        fun other => name ∈ other.optionNames := by
    unfold Selections.of ownChoices
    simp only [hnonempty, Bool.false_eq_true, if_false, Option.getD_some]
  rw [hof, List.mem_filter]
  exact (and_iff_left hany).symm

/-- **Nothing but the own options of visible steps matters**: two selection maps that have the
same options of each step that is visible under the first resolve to the same files, flags and
decisions, and what is selected for hidden steps or under unknown names changes nothing. -/
theorem resolve_own_choices (config : FomodConfig) (selections : Selections) :
    (∀ selections', (∀ step ∈ visibleSteps config selections,
        SameChoices selections selections' step) →
      resolve config selections = resolve config selections') ∧
    resolve config selections = resolve config (ownChoices config selections) :=
  ⟨fun _ h => resolve_congr h, resolve_congr fun _ hstep => sameChoices_ownChoices hstep⟩

/-- An unknown name beside the option changes nothing. -/
theorem resolve_own_choices_unknown :
    resolve twoOptions (fun _ => some ["1K", "4K"]) = resolve twoOptions fun _ => some ["1K"] := by
  refine (resolve_own_choices twoOptions fun _ => some ["1K", "4K"]).1 _ fun step hstep => ?_
  obtain rfl := List.mem_singleton.mp hstep
  unfold SameChoices
  decide

end SkyClaw.Fomod
