import SkyClaw.Fomod.Models
import SkyClaw.Lib.PyStr

/-!
# The FOMOD parser

From the XML elements of a `ModuleConfig.xml` to the configuration.
-/

namespace SkyClaw.Fomod

/-- An element of `xml.etree.ElementTree`. -/
inductive Element where
  | mk (tag : String) (attributes : List (String × String)) (text : Option String)
      (children : List Element)
deriving Repr

namespace Element

def tag : Element → String
  | mk tag _ _ _ => tag

def text : Element → Option String
  | mk _ _ text _ => text

def children : Element → List Element
  | mk _ _ _ children => children

/-- `element.get(name, default)`. -/
def get (name default : String) : Element → String
  | mk _ attributes _ _ => (attributes.lookup name).getD default

/-- `element.findall(tag)`. -/
def findall (tag : String) (element : Element) : List Element :=
  element.children.filter (·.tag = tag)

/-- `element.find(tag)`. -/
def find (tag : String) (element : Element) : Option Element :=
  element.children.find? (·.tag = tag)

end Element

def normPath (path : String) : String := PyStr.replaceChar '\\' '/' path

/-- One `<file>` or `<folder>` element; one without a source or with a bad priority is skipped. -/
def parseFile (el : Element) : Option FileInstall :=
  let source := normPath (el.get "source" "")
  let dest := normPath (el.get "destination" "")
  match PyStr.int (el.get "priority" "0") with
  | none => none
  | some priority => if source = "" then none else some ⟨source, dest, priority⟩

/-- `_parse_file_list`: all files, then all folders. -/
def parseFileList : Option Element → List FileInstall
  | none => []
  | some element => (element.findall "file" ++ element.findall "folder").filterMap parseFile

/-- The operator of a dependency element. -/
def parseOperator (el : Element) : Operator :=
  if el.get "operator" "And" = "Or" then .or else .and

/-- `FileState(state_str)`, or `ACTIVE`. -/
def parseFileState (state : String) : FileState :=
  if state = "Inactive" then .inactive else if state = "Missing" then .missing else .active

/-- The flag dependencies among the children. -/
def parseFlagDeps (children : List Element) : List FlagDependency :=
  children.filterMap fun child =>
    if child.tag = "flagDependency" ∧ child.get "flag" "" ≠ "" then
      some ⟨child.get "flag" "", child.get "value" ""⟩
    else none

/-- The file dependencies among the children. -/
def parseFileDeps (children : List Element) : List FileDependency :=
  children.filterMap fun child =>
    if child.tag = "fileDependency" ∧ normPath (child.get "file" "") ≠ "" then
      some ⟨normPath (child.get "file" ""), parseFileState (child.get "state" "Active")⟩
    else none

mutual

/-- `_parse_composite_dependency_direct`. -/
def parseCompositeDirect : Element → CompositeDependency
  | .mk tag attributes text children =>
      .mk (parseOperator (.mk tag attributes text children)) (parseFlagDeps children)
        (parseFileDeps children) (parseNestedDeps children)

/-- The nested `<dependencies>` among the children. -/
def parseNestedDeps : List Element → List CompositeDependency
  | [] => []
  | child :: rest =>
      if child.tag = "dependencies" then parseCompositeDirect child :: parseNestedDeps rest
      else parseNestedDeps rest

end

/-- `_parse_composite_dependency`: the first `<dependencies>` child stands for the element. -/
def parseComposite (element : Option Element) : Option CompositeDependency :=
  element.map fun element => parseCompositeDirect ((element.find "dependencies").getD element)

def parseGroupType (type : String) : GroupType :=
  if type = "SelectExactlyOne" then .selectExactlyOne
  else if type = "SelectAtMostOne" then .selectAtMostOne
  else if type = "SelectAtLeastOne" then .selectAtLeastOne
  else if type = "SelectAll" then .selectAll
  else .selectAny

def parseConditionFlags : Option Element → List ConditionFlag
  | none => []
  | some element =>
      (element.findall "flag").filterMap fun el =>
        if el.get "name" "" = "" then none
        else some ⟨el.get "name" "", PyStr.strip (el.text.getD "")⟩

def parsePlugins : Option Element → List Plugin
  | none => []
  | some element =>
      (element.findall "plugin").map fun el =>
        { name := el.get "name" "Unnamed Plugin"
          conditionFlags := parseConditionFlags (el.find "conditionFlags")
          files := parseFileList (el.find "files") }

def parseGroups : Option Element → List Group
  | none => []
  | some element =>
      (element.findall "group").map fun el =>
        { name := el.get "name" "Unnamed Group"
          groupType := parseGroupType (el.get "type" "SelectAny")
          plugins := parsePlugins (el.find "plugins") }

def parseInstallSteps : Option Element → List InstallStep
  | none => []
  | some element =>
      (element.findall "installStep").map fun el =>
        { name := el.get "name" "Unnamed Step"
          visibility := parseComposite (el.find "visible")
          groups := parseGroups (el.find "optionalFileGroups") }

def parseConditionalInstalls (element : Option Element) : List ConditionalPattern :=
  match element.bind (·.find "patterns") with
  | none => []
  | some patterns =>
      (patterns.findall "pattern").map fun el =>
        { conditions := ((el.find "dependencies").map parseCompositeDirect).getD .empty
          files := parseFileList (el.find "files") }

/-- `parse_fomod`, once the XML has been read. -/
def parseFomod (root : Element) : FomodConfig where
  moduleName := PyStr.strip (((root.find "moduleName").bind Element.text).getD "")
  requiredFiles := parseFileList (root.find "requiredInstallFiles")
  installSteps := parseInstallSteps (root.find "installSteps")
  conditionalInstalls := parseConditionalInstalls (root.find "conditionalFileInstalls")

theorem source_ne_empty_of_mem {element : Option Element} {file : FileInstall}
    (h : file ∈ parseFileList element) : file.source ≠ "" := by
  cases element with
  | none => cases h
  | some element =>
      obtain ⟨el, _, hfile⟩ := List.mem_filterMap.mp h
      unfold parseFile at hfile
      dsimp only at hfile
      split at hfile
      · cases hfile
      · split at hfile
        · cases hfile
        · next hsource =>
            cases hfile
            exact hsource

end SkyClaw.Fomod
