import SkyClaw.Fomod.Choices
import SkyClaw.Fomod.InstallPaths
import SkyClaw.Lib.LastWins

/-!
# The order in which a FOMOD is installed

Where several entries have a file for one path, the one of the highest priority is to stay, and
of these the last in the document.  The parser reads all `<file>` elements of a list before its
`<folder>` elements; `installsInOrder_iff` says for which configurations that shows.
-/

namespace SkyClaw.Fomod

open LastWins

/-! ## Entries in document order -/

/-- An entry of a list, as a `<file>` or as a `<folder>`. -/
structure ListedFile where
  isFolder : Bool
  file : FileInstall
deriving DecidableEq, Repr

def ListedFile.priority (e : ListedFile) : Int := e.file.priority

/-- The entry of an element, if it is one. -/
def listedFile (el : Element) : Option ListedFile :=
  if el.tag = "file" then (parseFile el).map (⟨false, ·⟩)
  else if el.tag = "folder" then (parseFile el).map (⟨true, ·⟩)
  else none

/-- The entries of a list in document order. -/
def listedFiles : Option Element → List ListedFile
  | none => []
  | some element => element.children.filterMap listedFile

/-- The entries in the order of the parser. -/
def filesFirst (list : List ListedFile) : List ListedFile :=
  (list.filter fun e => !e.isFolder) ++ list.filter fun e => e.isFolder

theorem filterMap_parseFile (children : List Element) :
    (children.filter (·.tag = "file")).filterMap parseFile =
        ((children.filterMap listedFile).filter fun e => !e.isFolder).map ListedFile.file ∧
      (children.filter (·.tag = "folder")).filterMap parseFile =
        ((children.filterMap listedFile).filter fun e => e.isFolder).map ListedFile.file := by
  induction children with
  | nil => exact ⟨rfl, rfl⟩
  | cons el rest ih =>
      by_cases hfile : el.tag = "file"
      · cases hparse : parseFile el <;> simp [listedFile, hfile, hparse, ih]
      · by_cases hfolder : el.tag = "folder"
        · cases hparse : parseFile el <;> simp [listedFile, hfolder, hparse, ih]
        · simp [listedFile, hfile, hfolder, ih]

theorem parseFileList_eq (element : Option Element) :
    parseFileList element = (filesFirst (listedFiles element)).map ListedFile.file := by
  cases element with
  | none => rfl
  | some element =>
      obtain ⟨hfiles, hfolders⟩ := filterMap_parseFile element.children
      show (element.findall "file" ++ element.findall "folder").filterMap parseFile =
        (filesFirst (element.children.filterMap listedFile)).map ListedFile.file
      rw [List.filterMap_append, filesFirst, List.map_append, ← hfiles, ← hfolders]
      rfl

/-! ## Files before folders -/

section FilesFirst

variable {κ : Type} {gives : ListedFile → Option κ} {before after : List (List ListedFile)}
  {pre post : List ListedFile} {e : ListedFile} {content : κ}

/-- The folders of the same priority before an entry. -/
def foldersLike (e : ListedFile) (pre : List ListedFile) : List ListedFile :=
  (pre.filter fun f => f.isFolder).filter fun f => f.priority = e.priority

variable {lists : List (List ListedFile)}

theorem mem_flatMap_filesFirst {f : ListedFile} :
    f ∈ lists.flatMap filesFirst ↔ f ∈ lists.flatten := by
  unfold filesFirst
  cases hfolder : f.isFolder <;> simp [hfolder]

/-- **What the two passes leave** of the content that is to stay: it is overtaken by the last
folder before it that has the same priority. -/
theorem leaves_filesFirst_iff
    (hlast : ComesLast ListedFile.priority gives (before.flatten ++ pre) e (post ++ after.flatten)
      content) :
    leaves gives (byPriority ListedFile.priority
        ((before ++ (pre ++ e :: post) :: after).flatMap filesFirst)) = some content ↔
      (e.isFolder = false →
        ∀ content', leaves gives (foldersLike e pre) = some content' → content' = content) := by
  have hne : gives e ≠ none := by
    rw [hlast.leaves]
    exact Option.some_ne_none content
  have hlists : ∀ f, f ∈ (before ++ (pre ++ e :: post) :: after).flatMap filesFirst ↔
      f ∈ before.flatten ++ pre ++ e :: (post ++ after.flatten) := by
    intro f
    rw [mem_flatMap_filesFirst]
    simp
  have hle : ∀ f ∈ (before ++ (pre ++ e :: post) :: after).flatMap filesFirst,
      gives f ≠ none → f.priority ≤ e.priority :=
    fun f hf => hlast.le f ((hlists f).mp hf)
  have hmem : e ∈ (before ++ (pre ++ e :: post) :: after).flatMap filesFirst :=
    (hlists e).mpr (List.mem_append_right _ List.mem_cons_self)
  have hpost : ∀ P : ListedFile → Bool,
      leaves gives ((post.filter P).filter fun f => f.priority = e.priority) = none :=
    fun P => hlast.leaves_filter_after fun f hf =>
      List.mem_append_left after.flatten (List.mem_filter.mp hf).1
  have hafter : leaves gives ((after.flatMap filesFirst).filter fun f =>
      f.priority = e.priority) = none :=
    hlast.leaves_filter_after fun f hf =>
      List.mem_append_right post (mem_flatMap_filesFirst.mp hf)
  rw [leaves_byPriority_eq hle ⟨e, hmem, hne, rfl⟩, List.flatMap_append, List.flatMap_cons,
    List.filter_append, List.filter_append, leaves_append, leaves_append, hafter, Option.none_or]
  unfold filesFirst foldersLike
  cases hfolder : e.isFolder with
  | true => simp [-List.filter_filter, hfolder, hpost, hlast.leaves]
  | false =>
      cases hfolders : leaves gives ((pre.filter fun f => f.isFolder).filter fun f =>
        f.priority = e.priority) <;>
        simp [-List.filter_filter, hfolder, hpost, hlast.leaves, hfolders]

theorem exists_list_of_flatten {pre post : List ListedFile}
    {e : ListedFile} (h : lists.flatten = pre ++ e :: post) :
    ∃ before listPre listPost after, lists = before ++ (listPre ++ e :: listPost) :: after ∧
      pre = before.flatten ++ listPre ∧ post = listPost ++ after.flatten := by
  rcases List.flatten_eq_append_iff.mp h with
    ⟨before, rest, rfl, rfl, hrest⟩ | ⟨before, listPre, f, listPost, after, rfl, rfl, hrest⟩
  · obtain ⟨empty, listPost, after, rfl, hempty, rfl⟩ := List.flatten_eq_cons_iff.mp hrest.symm
    refine ⟨before ++ empty, [], listPost, after, by simp, ?_, rfl⟩
    rw [List.flatten_append, List.flatten_eq_nil_iff.mpr hempty]
    simp
  · cases hrest
    exact ⟨before, listPre, listPost, after, rfl, rfl, rfl⟩

/-- Where a `<file>` entry comes last, the last `<folder>` entry before it in its list that has
its priority has the same for the place, if it has anything. -/
def FoldersYield (gives : ListedFile → Option κ) (lists : List (List ListedFile)) : Prop :=
  ∀ before pre e post after content, lists = before ++ (pre ++ e :: post) :: after →
    ComesLast ListedFile.priority gives (before.flatten ++ pre) e (post ++ after.flatten) content →
    e.isFolder = false →
      ∀ content', leaves gives (foldersLike e pre) = some content' → content' = content

theorem leaves_lists_iff :
    (∀ pre e post content, lists.flatten = pre ++ e :: post →
      ComesLast ListedFile.priority gives pre e post content →
        leaves gives (byPriority ListedFile.priority (lists.flatMap filesFirst)) = some content) ↔
      FoldersYield gives lists := by
  constructor
  · rintro h before pre e post after content rfl hlast
    refine (leaves_filesFirst_iff hlast).mp (h _ e _ content ?_ hlast)
    simp
  · intro h pre e post content hlists hlast
    obtain ⟨before, listPre, listPost, after, rfl, rfl, rfl⟩ := exists_list_of_flatten hlists
    exact (leaves_filesFirst_iff hlast).mpr (h _ _ _ _ _ _ rfl hlast)

end FilesFirst

/-! ## The file lists of a resolution -/

/-- The `<group>` elements of a step. -/
def groupElements (stepEl : Element) : List Element :=
  ((stepEl.find "optionalFileGroups").map (Element.findall "group")).getD []

/-- The `<plugin>` elements of a group. -/
def pluginElements (groupEl : Element) : List Element :=
  ((groupEl.find "plugins").map (Element.findall "plugin")).getD []

/-- A `<plugin>` as `_parse_plugins` reads it. -/
def parsePlugin (el : Element) : Plugin where
  name := el.get "name" "Unnamed Plugin"
  conditionFlags := parseConditionFlags (el.find "conditionFlags")
  files := parseFileList (el.find "files")

/-- A `<group>` as `_parse_groups` reads it. -/
def parseGroup (el : Element) : Group where
  name := el.get "name" "Unnamed Group"
  groupType := parseGroupType (el.get "type" "SelectAny")
  plugins := (pluginElements el).map parsePlugin

/-- An `<installStep>` as `_parse_install_steps` reads it. -/
def parseStep (el : Element) : InstallStep where
  name := el.get "name" "Unnamed Step"
  visibility := parseComposite (el.find "visible")
  groups := (groupElements el).map parseGroup

section

variable (root : Element)

/-- The `<installStep>` elements of a configuration. -/
def stepElements : List Element :=
  ((root.find "installSteps").map (Element.findall "installStep")).getD []

/-- The `<pattern>` elements of the conditional installs. -/
def patternElements : List Element :=
  (((root.find "conditionalFileInstalls").bind (·.find "patterns")).map
    (Element.findall "pattern")).getD []

/-- The conditions of a `<pattern>`. -/
def patternConditions (el : Element) : CompositeDependency :=
  ((el.find "dependencies").map parseCompositeDirect).getD .empty

theorem parsePlugins_eq (el : Element) :
    parsePlugins (el.find "plugins") = (pluginElements el).map parsePlugin := by
  unfold pluginElements
  cases el.find "plugins" <;> rfl

theorem parseGroups_eq (el : Element) :
    parseGroups (el.find "optionalFileGroups") = (groupElements el).map parseGroup := by
  unfold groupElements
  cases el.find "optionalFileGroups" with
  | none => rfl
  | some groups =>
      refine List.map_congr_left fun groupEl _ => ?_
      rw [parseGroup, ← parsePlugins_eq]

theorem parseInstallSteps_eq :
    parseInstallSteps (root.find "installSteps") = (stepElements root).map parseStep := by
  unfold stepElements
  cases root.find "installSteps" with
  | none => rfl
  | some steps =>
      refine List.map_congr_left fun stepEl _ => ?_
      rw [parseStep, ← parseGroups_eq]

theorem parseConditionalInstalls_eq :
    parseConditionalInstalls (root.find "conditionalFileInstalls") =
      (patternElements root).map fun el =>
        ⟨patternConditions el, parseFileList (el.find "files")⟩ := by
  unfold parseConditionalInstalls patternElements
  cases (root.find "conditionalFileInstalls").bind (·.find "patterns") <;> rfl

/-- The file lists of the options that are taken in a step. -/
def stepFileLists (selections : Selections) (stepEl : Element) : List (Option Element) :=
  (groupElements stepEl).flatMap fun groupEl =>
    ((pluginElements groupEl).filter fun el => (parsePlugin el).name ∈
      (resolveGroup (parseStep stepEl).name (parseGroup groupEl)
        (selections.of (parseStep stepEl))).1).map (Element.find "files")

/-- The steps that are visited. -/
def visibleElements (selections : Selections) : List Element :=
  visibleFrom parseStep selections (fun _ => none) (stepElements root)

/-- The file lists whose conditions hold at the end. -/
def conditionalLists (selections : Selections) : List (Option Element) :=
  ((patternElements root).filter fun el => evaluateConditions
    (resolve (parseFomod root) selections).flags (patternConditions el)).map (Element.find "files")

/-- The file lists that are installed: the required files, those of the options taken, and the
conditional ones, in the order in which a configuration has them. -/
def installedLists (selections : Selections) : List (Option Element) :=
  root.find "requiredInstallFiles" ::
    ((visibleElements root selections).flatMap (stepFileLists selections) ++
      conditionalLists root selections)

theorem visibleFrom_map {σ : Type} (toStep : σ → InstallStep) (selections : Selections)
    (flags : Flags) (steps : List σ) :
    (visibleFrom toStep selections flags steps).map toStep =
      visibleFrom id selections flags (steps.map toStep) := by
  induction steps generalizing flags with
  | nil => rfl
  | cons step rest ih =>
      rw [List.map_cons, visibleFrom, visibleFrom]
      by_cases hvisible : isStepVisible flags (toStep step) = true
      · have hread : isStepVisible flags (id (toStep step)) = true := hvisible
        rw [if_pos hvisible, if_pos hread, List.map_cons, ih]
        rfl
      · have hread : ¬isStepVisible flags (id (toStep step)) = true := hvisible
        rw [if_neg hvisible, if_neg hread, ih]

theorem files_of_step (selections : Selections) (stepEl : Element) :
    (stepPlugins selections (parseStep stepEl)).flatMap Plugin.files =
      (stepFileLists selections stepEl).flatMap parseFileList := by
  unfold stepPlugins stepFileLists
  show ((groupElements stepEl).map parseGroup |>.flatMap _).flatMap Plugin.files = _
  rw [List.flatMap_map, List.flatMap_assoc, List.flatMap_assoc]
  refine List.flatMap_congr fun groupEl _ => ?_
  show (((pluginElements groupEl).map parsePlugin).filter _).flatMap Plugin.files = _
  rw [List.filter_map, List.flatMap_map, List.flatMap_map]
  rfl

/-- **The files of a resolution** are those of the lists installed. -/
theorem collectedFiles_eq (selections : Selections) :
    collectedFiles (parseFomod root) selections =
      (installedLists root selections).flatMap parseFileList := by
  have hsteps : visibleSteps (parseFomod root) selections =
      (visibleElements root selections).map parseStep := by
    unfold visibleElements
    rw [visibleFrom_map, ← parseInstallSteps_eq]
    rfl
  have hflags : (visibleSteps (parseFomod root) selections).foldl (flagsAfter selections)
      (fun _ => none) = (resolve (parseFomod root) selections).flags := by
    rw [resolve_eq]
  unfold collectedFiles installedLists
  rw [hflags, hsteps, List.flatMap_cons, List.flatMap_append, List.append_assoc]
  congr 2
  · rw [List.flatMap_map, List.flatMap_assoc, List.flatMap_assoc]
    exact List.flatMap_congr fun stepEl _ => files_of_step selections stepEl
  · show (parseConditionalInstalls (root.find "conditionalFileInstalls")).flatMap _ = _
    rw [parseConditionalInstalls_eq, List.flatMap_map]
    unfold conditionalLists
    induction patternElements root with
    | nil => rfl
    | cons el rest ih =>
        rw [List.flatMap_cons, ih, List.filter_cons]
        split
        · rfl
        · rfl

end

section Copies

open PurePath Proc Installer
open Security (safeJoin)

variable {fl : Flavour} (host : Host fl) (answers : Nat → WriteAnswer) (tree : Tree fl)
  (contentRoot : Location fl) (modDest : PurePath fl)

/-- A file that is copied, and where to. -/
structure Copy (fl : Flavour) where
  source : Location fl
  dest : Location fl

/-- The copies of an entry. -/
def copiesOf (file : FileInstall) : List (Copy fl) :=
  match safeJoin host.u host.cwd contentRoot.toPath (parse fl file.source.toList),
      safeJoin host.u host.cwd modDest (parse fl (destRel file).toList) with
  | .ok src, .ok dest =>
      match tree.lookup host src with
      | some node =>
          -- the files below a folder keep their place
          if node.isDir then
            (tree.filesBelow node.path).map fun rel =>
              ⟨below host.tmpDir (node.path ++ rel), below dest rel⟩
          else [⟨src, dest⟩]
      | none => []
  | _, _ => []

variable {answers}

/-- The content that copies leave at a path, for the content of the files copied. -/
def contentAt {κ : Type} (content : Location fl → κ) (isDir : Location fl → Bool)
    (path : Location fl) : List (Copy fl) → Option κ :=
  leaves fun copy =>
    if samePath host (copyTarget copy.source copy.dest (isDir copy.dest)) path then
      some (content copy.source)
    else none

end Copies

/-! ## The installation of a configuration -/

section Installation

open PurePath Installer

variable {fl : Flavour} {κ : Type} (host : Host fl) (tree : Tree fl) (contentRoot : Location fl)
  (modDest : PurePath fl) (content : Location fl → κ) (isDir : Location fl → Bool)
  (root : Element) (selections : Selections)

/-- The entries that are installed, in document order. -/
def documentOrder : List ListedFile :=
  ((installedLists root selections).map listedFiles).flatten

/-- What an entry has for a path: a folder has every file below its source. -/
def givesAt (path : Location fl) (e : ListedFile) : Option κ :=
  contentAt host content isDir path (copiesOf host tree contentRoot modDest e.file)

/-- What is at a path after an installation. -/
def installedAt (path : Location fl) : Option κ :=
  contentAt host content isDir path ((resolve (parseFomod root) selections).files.flatMap
    (copiesOf host tree contentRoot modDest))

/-- **The rule of the order**: at each path is the content of the entry that comes last by
priority and, for equal priorities, in the document. -/
def InstallsInOrder : Prop :=
  ∀ path pre e post found, documentOrder root selections = pre ++ e :: post →
    ComesLast ListedFile.priority (givesAt host tree contentRoot modDest content isDir path)
      pre e post found →
    installedAt host tree contentRoot modDest content isDir root selections path = some found

/-- The entries that are installed, in the order in which the parser reads them. -/
def parserOrder : List ListedFile :=
  ((installedLists root selections).map listedFiles).flatMap filesFirst

/-- **The files of a resolution** are the entries of its lists, files first, by priority. -/
theorem resolve_files_eq :
    (resolve (parseFomod root) selections).files =
      (byPriority ListedFile.priority (parserOrder root selections)).map ListedFile.file := by
  have hlists : (installedLists root selections).flatMap parseFileList =
      (parserOrder root selections).map ListedFile.file := by
    unfold parserOrder
    rw [List.flatMap_map, List.map_flatMap]
    exact List.flatMap_congr fun element _ => parseFileList_eq element
  rw [resolve_eq]
  show (collectedFiles (parseFomod root) selections).insertionSort _ = _
  rw [collectedFiles_eq, hlists]
  exact (List.map_insertionSort _ _ ListedFile.file _ fun _ _ _ _ => Iff.rfl).symm

theorem installedAt_eq (path : Location fl) :
    installedAt host tree contentRoot modDest content isDir root selections path =
      leaves (givesAt host tree contentRoot modDest content isDir path)
        (byPriority ListedFile.priority (parserOrder root selections)) := by
  unfold installedAt contentAt
  rw [leaves_flatMap, resolve_files_eq, leaves_map]
  rfl

/-- **When a FOMOD is installed in order**: for every path, the last folder of equal priority
before a file that comes last in its list has the same content there. -/
theorem installsInOrder_iff :
    InstallsInOrder host tree contentRoot modDest content isDir root selections ↔
      ∀ path, FoldersYield (givesAt host tree contentRoot modDest content isDir path)
        ((installedLists root selections).map listedFiles) := by
  constructor
  · -- the order of the document is that of the parser, but for the files of each list
    intro h path
    refine leaves_lists_iff.mp fun pre e post found horder hlast => ?_
    have hinstalled := h path pre e post found horder hlast
    rwa [installedAt_eq] at hinstalled
  · intro h path pre e post found horder hlast
    rw [installedAt_eq]
    exact leaves_lists_iff.mpr (h path) pre e post found horder hlast

/-- A folder of textures, and a file for one of them. -/
def overriddenConfig : Element :=
  .mk "config" [] none
    [.mk "requiredInstallFiles" [] none
      [.mk "folder" [("source", "base"), ("destination", "textures")] none [],
        .mk "file" [("source", "new.dds"), ("destination", "textures/sky.dds")] none []]]

/-- What is extracted for it. -/
def overriddenTree : Tree .posix where
  nodes :=
    [⟨[sampleName "base" (by decide)], true⟩,
      ⟨[sampleName "base" (by decide), sampleName "sky.dds" (by decide)], false⟩,
      ⟨[sampleName "new.dds" (by decide)], false⟩]
  path_ne_nil := by decide
  closed := by decide

/-- The directory of the mod. -/
def overriddenMod : Location .posix :=
  ⟨[], ["mods", "Sky"].map String.toList, posix_drive, by decide⟩

/-- The file comes last, and the texture of the folder is installed. -/
theorem installsInOrder_counterexample :
    ¬InstallsInOrder sampleHost overriddenTree sampleHost.tmpDir overriddenMod.toPath id
      (fun _ => false) overriddenConfig fun _ => none := by
  intro h
  have hfound := h (below overriddenMod
      [sampleName "textures" (by decide), sampleName "sky.dds" (by decide)])
    [⟨true, "base", "textures", 0⟩] ⟨false, "new.dds", "textures/sky.dds", 0⟩ []
    (below sampleHost.tmpDir [sampleName "new.dds" (by decide)]) (by decide)
    ⟨by decide, by decide, by decide⟩
  exact absurd hfound (by decide)

end Installation

end SkyClaw.Fomod
