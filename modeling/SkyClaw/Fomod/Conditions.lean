import SkyClaw.Fomod.Parser

/-!
# The meaning of FOMOD conditions

A dependency element is a tree of `And` and `Or` over flags and files.  What
`_parse_composite_dependency_direct` builds of it always evaluates to its value;
`parseComposite_means_iff` says for which elements and flags that is so of
`_parse_composite_dependency`, which reads a `<dependencies>` child in their place.
-/

namespace SkyClaw.Fomod

/-! ## The value of an element -/

/-- The value of conditions under an operator; without conditions there is nothing to fail. -/
def Operator.value : Operator → List Bool → Bool
  | .and, values => values.all id
  | .or, values => values.isEmpty || values.any id

/-- The value of a flag or file dependency, if the element is one: a flag has to have the value
given, files count as true. -/
def leafValue (flags : Flags) (el : Element) : Option Bool :=
  if el.tag = "flagDependency" ∧ el.get "flag" "" ≠ "" then
    some ((flags (el.get "flag" "")).getD "" == el.get "value" "")
  else if el.tag = "fileDependency" ∧ normPath (el.get "file" "") ≠ "" then some true
  else none

mutual

/-- The value of a dependency element: each child condition takes part under its operator. -/
def Element.value (flags : Flags) : Element → Bool
  | .mk tag attributes text children =>
      (parseOperator (.mk tag attributes text children)).value (childValues flags children)

/-- The values of the conditions among the children, in document order. -/
def childValues (flags : Flags) : List Element → List Bool
  | [] => []
  | child :: rest =>
      if child.tag = "dependencies" then child.value flags :: childValues flags rest
      else (leafValue flags child).toList ++ childValues flags rest

end

theorem Element.value_eq (flags : Flags) (el : Element) :
    el.value flags = (parseOperator el).value (childValues flags el.children) := by
  cases el with
  | mk tag attributes text children => rw [Element.value, Element.children]

theorem Operator.value_perm {operator : Operator} {values values' : List Bool}
    (h : values.Perm values') : operator.value values = operator.value values' := by
  have hempty : values.isEmpty = values'.isEmpty := by
    rw [Bool.eq_iff_iff, List.isEmpty_iff, List.isEmpty_iff]
    exact ⟨fun hnil => (hnil ▸ h).nil_eq.symm, fun hnil => (hnil ▸ h).eq_nil⟩
  cases operator with
  | and => exact h.all_eq
  | or =>
      show (values.isEmpty || values.any id) = (values'.isEmpty || values'.any id)
      rw [hempty, h.any_eq]

variable {flags : Flags}

theorem childValues_perm {children children' : List Element}
    (h : children.Perm children') :
    (childValues flags children).Perm (childValues flags children') := by
  induction h with
  | nil => exact List.Perm.refl _
  | cons child _ ih =>
      unfold childValues
      split
      · exact ih.cons _
      · exact ih.append_left _
  | swap first second rest =>
      simp only [childValues]
      split <;> split
      · exact List.Perm.swap _ _ _
      · exact List.perm_middle.symm
      · exact List.perm_middle
      · simp only [← List.append_assoc]
        exact List.perm_append_comm.append_right _
  | trans _ _ ih ih' => exact ih.trans ih'

/-! ## The direct parse -/

theorem evaluateConditions_mk (flags : Flags) (operator : Operator)
    (flagDeps : List FlagDependency) (fileDeps : List FileDependency)
    (nested : List CompositeDependency) :
    evaluateConditions flags (.mk operator flagDeps fileDeps nested) =
      operator.value (flagDeps.map (fun fd => (flags fd.flag).getD "" == fd.value) ++
        fileDeps.map (fun _ => true) ++ evaluateNested flags nested) := by
  unfold evaluateConditions
  dsimp only
  split
  · next hempty =>
      rw [List.isEmpty_iff] at hempty
      rw [hempty]
      cases operator <;> rfl
  · next hsome =>
      cases operator with
      | and => rfl
      | or => rw [Operator.value, Bool.eq_false_iff.mpr hsome, Bool.false_or]

/-- The values that the parse of a child adds to those of the flags, files and nested
dependencies. -/
theorem leafValue_toList (flags : Flags) (child : Element) :
    (parseFlagDeps [child]).map (fun fd => (flags fd.flag).getD "" == fd.value) ++
      (parseFileDeps [child]).map (fun _ => true) = (leafValue flags child).toList := by
  unfold parseFlagDeps parseFileDeps leafValue
  by_cases hflag : child.tag = "flagDependency"
  · have hfile : child.tag ≠ "fileDependency" := by rw [hflag]; decide
    by_cases hname : child.get "flag" "" = "" <;> simp [hflag, hname]
  · by_cases hfile : child.tag = "fileDependency" ∧ normPath (child.get "file" "") ≠ ""
    · simp [hfile]
    · simp [hflag, hfile]

theorem leafValue_of_dependencies {child : Element}
    (h : child.tag = "dependencies") : leafValue flags child = none := by
  simp [leafValue, h]

theorem perm_regroup (a b c f g n : List Bool) :
    (a ++ f ++ (b ++ g) ++ (c ++ n)).Perm (a ++ b ++ c ++ (f ++ g ++ n)) := by
  rw [List.perm_iff_count]
  intro value
  simp only [List.count_append]
  omega

mutual

/-- **What the direct parse builds** has the value of the element.  Parsing sorts the
conditions by their kind; the operators do not mind. -/
theorem evaluate_parseCompositeDirect (flags : Flags) : (el : Element) →
    evaluateConditions flags (parseCompositeDirect el) = el.value flags
  | .mk tag attributes text children => by
      rw [parseCompositeDirect, evaluateConditions_mk, Element.value]
      exact Operator.value_perm (parsedValues_perm flags children)

theorem parsedValues_perm (flags : Flags) : (children : List Element) →
    ((parseFlagDeps children).map (fun fd => (flags fd.flag).getD "" == fd.value) ++
      (parseFileDeps children).map (fun _ => true) ++
        evaluateNested flags (parseNestedDeps children)).Perm (childValues flags children)
  | [] => List.Perm.refl _
  | child :: rest => by
      have ih := parsedValues_perm flags rest
      have hchild := evaluate_parseCompositeDirect flags child
      have hflags : parseFlagDeps (child :: rest) = parseFlagDeps [child] ++ parseFlagDeps rest :=
        List.filterMap_append (l := [child])
      have hfiles : parseFileDeps (child :: rest) = parseFileDeps [child] ++ parseFileDeps rest :=
        List.filterMap_append (l := [child])
      have hleaf := leafValue_toList flags child
      unfold parseNestedDeps childValues
      rw [hflags, hfiles, List.map_append, List.map_append]
      by_cases hdeps : child.tag = "dependencies"
      · rw [leafValue_of_dependencies hdeps, Option.toList_none, List.append_eq_nil_iff] at hleaf
        rw [if_pos hdeps, if_pos hdeps, evaluateNested, hchild, hleaf.1, hleaf.2]
        exact (perm_regroup [] [] [child.value flags] _ _ _).trans (ih.cons _)
      · rw [if_neg hdeps, if_neg hdeps, ← hleaf]
        refine (perm_regroup _ _ [] _ _ _).trans ?_
        rw [List.append_nil]
        exact ih.append_left _

end

/-! ## The wrapper -/

/-- What `_parse_composite_dependency` builds of an element has the element's value, as what
`_parse_composite_dependency_direct` builds has. -/
def MeansElement (flags : Flags) (el : Element) : Prop :=
  ∀ conditions, parseComposite (some el) = some conditions →
    evaluateConditions flags conditions = el.value flags ∧
      evaluateConditions flags conditions = evaluateConditions flags (parseCompositeDirect el)

/-- The children beside the first `<dependencies>`. -/
def Element.siblings (el : Element) : List Element :=
  el.children.eraseP (·.tag = "dependencies")

/-- The first `<dependencies>` child decides the element alone: under `And` it fails or its
siblings hold, under `Or` it holds or its siblings fail. -/
def WrapperDecides (flags : Flags) (el : Element) : Prop :=
  ∀ deps, el.find "dependencies" = some deps →
    match parseOperator el with
    | .and => deps.value flags = false ∨ ∀ value ∈ childValues flags el.siblings, value = true
    | .or => deps.value flags = true ∨ ∀ value ∈ childValues flags el.siblings, value = false

variable {el deps : Element}

theorem children_perm (h : el.find "dependencies" = some deps) :
    el.children.Perm (deps :: el.siblings) := by
  obtain ⟨htag, before, after, hchildren, hbefore⟩ := List.find?_eq_some_iff_append.mp h
  have herase : el.siblings = before ++ after := by
    unfold Element.siblings
    rw [hchildren, List.eraseP_append_right _ (by simpa using hbefore)]
    simp [of_decide_eq_true htag]
  rw [herase, hchildren]
  exact List.perm_middle

theorem tag_of_find (h : el.find "dependencies" = some deps) :
    deps.tag = "dependencies" := of_decide_eq_true (List.find?_eq_some_iff_append.mp h).1

theorem value_of_find
    (h : el.find "dependencies" = some deps) :
    el.value flags =
      (parseOperator el).value (deps.value flags :: childValues flags el.siblings) := by
  rw [Element.value_eq, Operator.value_perm (childValues_perm (children_perm h)), childValues,
    if_pos (tag_of_find h)]

/-- **When the wrapper parse means the element.**  Exactly where the element has no
`<dependencies>` child, or the first of them decides its value alone. -/
theorem parseComposite_means_iff (flags : Flags) (el : Element) :
    MeansElement flags el ↔ WrapperDecides flags el := by
  have hmeans : MeansElement flags el ↔
      ((el.find "dependencies").getD el).value flags = el.value flags := by
    simp [MeansElement, parseComposite, evaluate_parseCompositeDirect]
  rw [hmeans]
  unfold WrapperDecides
  cases hfind : el.find "dependencies" with
  | none => exact iff_of_true rfl fun _ h => by cases h
  | some deps =>
      rw [value_of_find hfind, Option.getD_some]
      simp only [Option.some.injEq, forall_eq']
      cases parseOperator el with
      | and => cases deps.value flags <;> simp [Operator.value, List.all_eq_true]
      | or => cases deps.value flags <;> simp [Operator.value]

/-- A step that is visible with either of two flags, one of them in a `<dependencies>`. -/
def eitherFlag : Element :=
  .mk "visible" [("operator", "Or")] none
    [.mk "flagDependency" [("flag", "hd"), ("value", "On")] none [],
      .mk "dependencies" [] none [.mk "flagDependency" [("flag", "4k"), ("value", "On")] none []]]

theorem parseComposite_counterexample :
    ¬MeansElement (fun flag => if flag = "hd" then some "On" else none) eitherFlag := by
  intro hmeans
  obtain ⟨hvalue, _⟩ := hmeans _ rfl
  exact absurd hvalue (by decide)

end SkyClaw.Fomod
