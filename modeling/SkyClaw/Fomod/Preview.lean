import SkyClaw.Fomod.InstallPaths
import SkyClaw.Lib.Unquote

/-!
# The preview of a FOMOD

`FomodInstaller.preview` reads `ModuleConfig.xml` out of the zip by the names of its entries;
`install` looks for the file in what was extracted.  `agrees_iff`: when both see the same
configuration.
-/

namespace SkyClaw.Fomod.Preview

open Installer PurePath
open Security (PathValidator)

variable {fl : Flavour}

/-! ## The archive, and what is extracted from it -/

structure ZipEntry where
  /-- in the directory of the archive -/
  rawName : List Char
  content : List UInt8

def ZipEntry.filename (fl : Flavour) (entry : ZipEntry) : List Char :=
  let name := entry.rawName.takeWhile (· ≠ Char.ofNat 0)
  match fl with
  | .posix => name
  | .windows => name.map fun c => if c = '\\' then '/' else c

def ZipEntry.isDir (fl : Flavour) (entry : ZipEntry) : Bool :=
  (entry.filename fl).getLast? = some '/'

/-- The path that an entry is extracted to. -/
def ZipEntry.path (fl : Flavour) (entry : ZipEntry) : List (List Char) :=
  (parse fl (entry.filename fl)).parts

/-- Two paths of one file. -/
def samePlace (u : UnicodeText) (fl : Flavour) (a b : List (List Char)) : Bool :=
  a.map (fl.casefold u) = b.map (fl.casefold u)

def names (node : Node fl) : List (List Char) := node.path.map Subtype.val

/-- An archive, every entry of which has been extracted to its own path; of entries with the same path
the last one is there. -/
structure Extracted (u : UnicodeText) (fl : Flavour) where
  entries : List ZipEntry
  tree : Tree fl
  written : ∀ entry ∈ entries, entry.isDir fl = false →
    ∃ node ∈ tree.nodes, node.isDir = false ∧ samePlace u fl (entry.path fl) (names node) = true
  only : ∀ node ∈ tree.nodes, ∃ entry ∈ entries, entry.isDir fl = false ∧ ∃ below,
    samePlace u fl (entry.path fl) (names node ++ below) = true ∧ (below = [] ↔ node.isDir = false)

/-- What `defusedxml` makes of a file and of a text. -/
structure XmlParser where
  parse : List UInt8 → Except XmlFailure Element
  fromstring : List Char → Except XmlFailure Element

/-- The fields of a plugin that the resolver does not read. -/
structure PluginText where
  description : String
  image : String
  typeDescriptor : String
deriving DecidableEq, Repr

def parsePluginText (el : Element) : PluginText where
  description := PyStr.strip (((el.find "description").bind Element.text).getD "")
  image := ((el.find "image").map fun image => normPath (image.get "path" "")).getD ""
  typeDescriptor := (((el.find "typeDescriptor").bind (·.find "type")).map
    (·.get "name" "Optional")).getD "Optional"

/-- By step, group and plugin. -/
def parsePluginTexts (root : Element) : List (List (List PluginText)) :=
  let below (tag : String) (el : Option Element) : List Element :=
    (el.map (·.findall tag)).getD []
  (below "installStep" (root.find "installSteps")).map fun step =>
    (below "group" (step.find "optionalFileGroups")).map fun group =>
      (below "plugin" (group.find "plugins")).map parsePluginText

/-- A `FomodConfig` with all its fields. -/
structure FullConfig where
  config : FomodConfig
  texts : List (List (List PluginText))

def parseFull (root : Element) : FullConfig := ⟨parseFomod root, parsePluginTexts root⟩

/-! ## `preview` -/

section Calls

variable (host : Host fl) (parser : XmlParser)

/-- The test on `normalized`. -/
def looksLikeFomod (entry : ZipEntry) : Bool :=
  "fomod/moduleconfig.xml".toList.isSuffixOf
    (host.u.lower ((entry.filename fl).map fun c => if c = '\\' then '/' else c))

/-- `zf.read(name)`; of entries of one name it is the last. -/
def readEntry (fl : Flavour) (entries : List ZipEntry) (name : List Char) : List UInt8 :=
  (((entries.filter fun entry => entry.filename fl = name).getLast?).map ZipEntry.content).getD []

/-- `decode("utf-8", errors="replace")` -/
def decodeUtf8 (bytes : List UInt8) : List Char :=
  Unquote.decode none (bytes.map fun b => .byte b.toNat)

/-- The text that is read for an entry. -/
def textOf (fl : Flavour) (entries : List ZipEntry) (entry : ZipEntry) : List Char :=
  decodeUtf8 (readEntry fl entries (entry.filename fl))

def readFromZip (entries : List ZipEntry) : Option (List Char) :=
  (entries.find? (looksLikeFomod host)).map (textOf fl entries)

def extractFomodXml (suffix : List Char) (entries : List ZipEntry) : Option (List Char) :=
  if suffix = ".zip".toList then readFromZip host entries else none

def value : GroupType → String
  | .selectExactlyOne => "SelectExactlyOne"
  | .selectAtMostOne => "SelectAtMostOne"
  | .selectAtLeastOne => "SelectAtLeastOne"
  | .selectAll => "SelectAll"
  | .selectAny => "SelectAny"

structure GroupPreview where
  name : String
  type : String
  options : List String

structure StepPreview where
  name : String
  groups : List GroupPreview

structure FomodPreview where
  modName : String
  hasFomod : Bool
  steps : List StepPreview := []

def stepPreview (step : InstallStep) : StepPreview :=
  ⟨step.name, step.groups.map fun group =>
    ⟨group.name, value group.groupType, group.plugins.map Plugin.name⟩⟩

def preview (validator : PathValidator fl) (entries : List ZipEntry) (archivePath : PurePath fl) :
    Except (InstallError fl) FomodPreview :=
  match validator.validate host.u host.cwd archivePath with
  | .error violation => .error (.pathViolation violation)
  | .ok archivePath =>
      let modName := String.ofList (stem (nameOf archivePath))
      match extractFomodXml host (host.u.lower (suffix (nameOf archivePath))) entries with
      | none => .ok { modName := modName, hasFomod := false }
      | some text =>
          match parser.fromstring text with
          | .error .security => .error .xmlSecurity
          | .error .unreadable => .error .other
          | .error (.malformed _) => .ok { modName := modName, hasFomod := false }
          | .ok root =>
              .ok {
                modName := modNameOf (parseFomod root) modName
                hasFomod := true
                steps := (parseFomod root).installSteps.map stepPreview }

/-! ## What `install` meets -/

/-- The candidate of `_find_fomod_xml`. -/
def isFomodXml (node : Node fl) : Bool :=
  match node.path.reverse with
  | file :: dir :: _ =>
      fl.casefold host.u file.1 = fl.casefold host.u "ModuleConfig.xml".toList ∧
        host.u.lower dir.1 = "fomod".toList
  | _ => false

/-- The directory that `fomod` is in. -/
def contentRoot (node : Node fl) : List (FileName fl) := node.path.dropLast.dropLast

/-- What the file of a node holds. -/
def contentAt (entries : List ZipEntry) (node : Node fl) : List UInt8 :=
  (((entries.filter fun entry =>
    entry.isDir fl = false ∧ samePlace host.u fl (entry.path fl) (names node)).getLast?).map
      ZipEntry.content).getD []

/-- `DefusedElementTree.parse(xml_path)` -/
def parseNode (entries : List ZipEntry) (node : Node fl) : Except XmlFailure Element :=
  if node.isDir then .error .unreadable else parser.parse (contentAt host entries node)

/-- The archive as `install` meets it; it reads the file that it has found. -/
def Extracted.archive (zip : Extracted host.u fl) : Archive fl where
  members := zip.entries.map fun entry => ⟨entry.filename fl, entry.isDir fl⟩
  tree := zip.tree
  xml _ :=
    match zip.tree.nodes.find? (isFomodXml host) with
    | some node => parseNode host parser zip.entries node
    | none => .error .unreadable

/-- `preview` reads this element from this entry. -/
def Previews (zip : Extracted host.u fl) (entry : ZipEntry) (root : Element) : Prop :=
  zip.entries.find? (looksLikeFomod host) = some entry ∧
    parser.fromstring (textOf fl zip.entries entry) = .ok root

/-- `install` takes the FOMOD path and reads this element from this file. -/
def Installs (zip : Extracted host.u fl) (node : Node fl) (root : Element) : Prop :=
  zip.tree.nodes.find? (isFomodXml host) = some node ∧
    (zip.archive host parser).tree.findFomodXml host = some (contentRoot node) ∧
      (zip.archive host parser).xml (contentRoot node) = .ok root

/-- **The preview shows what is installed.** -/
structure Agrees (validator : PathValidator fl) (zip : Extracted host.u fl)
    (archivePath : PurePath fl) : Prop where
  hasFomod_iff : (∃ shown, preview host parser validator zip.entries archivePath = .ok shown ∧
    shown.hasFomod = true) ↔ ∃ node root, Installs host parser zip node root
  same : ∀ entry node root root', Previews host parser zip entry root →
    Installs host parser zip node root' →
      samePlace host.u fl (entry.path fl) (names node) = true ∧ parseFull root = parseFull root'

/-- An element was read. -/
def IsConfig (xml : Except XmlFailure Element) : Prop := ∃ root, xml = .ok root

/-- Both read an element, and it says the same. -/
def SameConfig (xml xml' : Except XmlFailure Element) : Prop :=
  ∃ root root', xml = .ok root ∧ xml' = .ok root' ∧ parseFull root = parseFull root'

/-- **When they agree**, by the first entry with such a name and the first such file. -/
def Fits (zip : Extracted host.u fl) : Prop :=
  match zip.entries.find? (looksLikeFomod host), zip.tree.nodes.find? (isFomodXml host) with
  | none, none => True
  | some entry, none => ¬IsConfig (parser.fromstring (textOf fl zip.entries entry))
  | none, some node => ¬IsConfig (parseNode host parser zip.entries node)
  | some entry, some node =>
      let text := parser.fromstring (textOf fl zip.entries entry)
      let file := parseNode host parser zip.entries node
      samePlace host.u fl (entry.path fl) (names node) = true ∧ SameConfig text file ∨
        ¬IsConfig text ∧ ¬IsConfig file

variable {host parser}

/-! ## Where they agree -/

theorem findFomodXml_eq (tree : Tree fl) :
    tree.findFomodXml host = (tree.nodes.find? (isFomodXml host)).map contentRoot := by
  unfold Tree.findFomodXml
  induction tree.nodes with
  | nil => rfl
  | cons node nodes ih =>
      rw [List.findSome?_cons, List.find?_cons]
      cases hpath : node.path.reverse with
      | nil =>
          have hno : isFomodXml host node = false := by
            unfold isFomodXml
            rw [hpath]
          rw [hno]
          exact ih
      | cons file above =>
          cases above with
          | nil =>
              have hno : isFomodXml host node = false := by
                unfold isFomodXml
                rw [hpath]
              rw [hno]
              exact ih
          | cons dir above =>
              have hroot : contentRoot node = above.reverse := by
                have hreverse := List.reverse_eq_iff.mp hpath
                unfold contentRoot
                rw [hreverse, List.reverse_cons, List.reverse_cons, List.dropLast_concat,
                  List.dropLast_concat]
              have htest : isFomodXml host node = decide (fl.casefold host.u file.1 =
                  fl.casefold host.u "ModuleConfig.xml".toList ∧
                    host.u.lower dir.1 = "fomod".toList) := by
                unfold isFomodXml
                rw [hpath]
              rw [htest]
              by_cases hfound : fl.casefold host.u file.1 =
                  fl.casefold host.u "ModuleConfig.xml".toList ∧ host.u.lower dir.1 = "fomod".toList
              · simp only [hfound, and_self, if_true, decide_true, Option.map_some, hroot]
              · simp only [hfound, if_false, decide_false]
                exact ih

variable {zip : Extracted host.u fl}

theorem installs_iff {node : Node fl} {root : Element} :
    Installs host parser zip node root ↔
      zip.tree.nodes.find? (isFomodXml host) = some node ∧
        parseNode host parser zip.entries node = .ok root := by
  have hxml (h : zip.tree.nodes.find? (isFomodXml host) = some node) :
      (zip.archive host parser).xml (contentRoot node) =
        parseNode host parser zip.entries node := by
    unfold Extracted.archive
    simp only [h]
  constructor
  · rintro ⟨hfind, -, hread⟩
    exact ⟨hfind, (hxml hfind).symm.trans hread⟩
  · rintro ⟨hfind, hread⟩
    refine ⟨hfind, ?_, (hxml hfind).trans hread⟩
    show zip.tree.findFomodXml host = _
    rw [findFomodXml_eq, hfind, Option.map_some]

/-- The preview of a zip that may be opened. -/
theorem hasFomod_iff {validator : PathValidator fl}
    {archivePath : PurePath fl} {path : Location fl}
    (hvalid : validator.validate host.u host.cwd archivePath = .ok path)
    (hzip : host.u.lower (suffix (nameOf path)) = ".zip".toList) :
    (∃ shown, preview host parser validator zip.entries archivePath = .ok shown ∧
      shown.hasFomod = true) ↔ ∃ entry root, Previews host parser zip entry root := by
  unfold preview Previews extractFomodXml readFromZip
  rw [hvalid]
  simp only [hzip, if_true]
  cases zip.entries.find? (looksLikeFomod host) with
  | none =>
      refine iff_of_false ?_ fun ⟨_, _, hfind, _⟩ => by cases hfind
      rintro ⟨shown, hshown, hhas⟩
      cases hshown
      cases hhas
  | some entry =>
      simp only [Option.map_some, Option.some.injEq]
      cases hread : parser.fromstring (textOf fl zip.entries entry) with
      | ok root => exact iff_of_true ⟨_, rfl, rfl⟩ ⟨entry, root, rfl, hread⟩
      | error failure =>
          have hnot : ¬∃ entry' root, entry = entry' ∧
              parser.fromstring (textOf fl zip.entries entry') = .ok root := by
            rintro ⟨_, root, rfl, hroot⟩
            cases hread.symm.trans hroot
          refine iff_of_false ?_ hnot
          rintro ⟨shown, hshown, hhas⟩
          -- Of the failures only a text that is malformed is shown, as no FOMOD.
          cases failure with
          | security | unreadable => cases hshown
          | malformed text =>
              cases hshown
              cases hhas

end Calls

/-! ## A directory of another name -/

/-- `<config/>` -/
def emptyConfig : List UInt8 := [60, 99, 111, 110, 102, 105, 103, 47, 62]

def configParser : XmlParser where
  parse bytes :=
    if bytes = emptyConfig then .ok (.mk "config" [] none []) else .error (.malformed "syntax error")
  fromstring text :=
    if text = "<config/>".toList then .ok (.mk "config" [] none [])
    else .error (.malformed "syntax error")

def configIn (dir : String) : ZipEntry := ⟨(dir ++ "/ModuleConfig.xml").toList, emptyConfig⟩

theorem isFileName_moduleConfig : IsFileName .posix "ModuleConfig.xml".toList := by decide

def configNode (dir : FileName .posix) : Node .posix :=
  ⟨[dir, sampleName "ModuleConfig.xml" isFileName_moduleConfig], false⟩

/-- An archive with nothing but a `ModuleConfig.xml` in a directory. -/
def onlyConfig (dir : String) (hname : IsFileName .posix dir.toList)
    (hdir : (configIn dir).isDir .posix = false)
    (hpath : (configIn dir).path .posix = [dir.toList, "ModuleConfig.xml".toList]) :
    Extracted sampleHost.u .posix where
  entries := [configIn dir]
  tree :=
    { nodes := [⟨[⟨dir.toList, hname⟩], true⟩, configNode ⟨dir.toList, hname⟩]
      path_ne_nil := by
        intro node hnode
        simp only [List.mem_cons, List.not_mem_nil, or_false] at hnode
        rcases hnode with rfl | rfl
        · exact List.cons_ne_nil _ _
        · exact List.cons_ne_nil _ _
      closed := by
        intro node hnode
        simp only [List.mem_cons, List.not_mem_nil, or_false] at hnode
        rcases hnode with rfl | rfl
        · exact .inl rfl
        · exact .inr ⟨_, List.mem_cons_self, rfl, rfl⟩ }
  written := by
    intro entry hentry _
    obtain rfl := List.mem_singleton.mp hentry
    refine ⟨_, List.mem_cons_of_mem _ List.mem_cons_self, rfl, ?_⟩
    exact decide_eq_true (congrArg (List.map _) hpath)
  only := by
    intro node hnode
    simp only [List.mem_cons, List.not_mem_nil, or_false] at hnode
    refine ⟨_, List.mem_cons_self, hdir, ?_⟩
    rcases hnode with rfl | rfl
    · exact ⟨["ModuleConfig.xml".toList], decide_eq_true (congrArg (List.map _) hpath),
        iff_of_false (List.cons_ne_nil _ _) Bool.noConfusion⟩
    · exact ⟨[], decide_eq_true (congrArg (List.map _) hpath), iff_of_true rfl rfl⟩

def samplePath : PurePath .posix := parse .posix "/home/user/downloads/mod.zip".toList

end SkyClaw.Fomod.Preview
