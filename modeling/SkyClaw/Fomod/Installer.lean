import SkyClaw.Fomod.Parser
import SkyClaw.Lib.Effects
import SkyClaw.Security.PathValidator

/-!
# The FOMOD installer

`FomodInstaller.install` over what the archive, its `ModuleConfig.xml` and the file system say.
A run keeps the list of the files that it has written, so a run that raises halfway through is
no different from one that returns.
-/

namespace SkyClaw.Fomod.Installer

open PurePath
open Location (IsRelativeTo StrictlyBelow)
open Security (PathViolation PathValidator safeJoin)

/-! ## What the installer meets -/

/-- A file or directory that the extraction has left. -/
structure Node (fl : Flavour) where
  path : List (FileName fl)
  isDir : Bool
deriving DecidableEq

/-- What is below the temporary directory after the extraction, in the order in which the
directories are listed.  The directory of an entry is an entry. -/
structure Tree (fl : Flavour) where
  nodes : List (Node fl)
  path_ne_nil : ∀ node ∈ nodes, node.path ≠ []
  closed : ∀ node ∈ nodes, node.path.dropLast = [] ∨
    ∃ dir ∈ nodes, dir.isDir = true ∧ dir.path = node.path.dropLast

/-- A member of an archive. -/
structure Member where
  filename : List Char
  isDir : Bool
deriving DecidableEq, Repr

/-- How the XML parser fails. -/
inductive XmlFailure where
  | security
  | malformed (text : String)
  | unreadable

structure Archive (fl : Flavour) where
  members : List Member
  tree : Tree fl
  /-- The root element of the `fomod/ModuleConfig.xml` in a directory. -/
  xml : List (FileName fl) → Except XmlFailure Element

/-- How the file system answers when a file is written.  It may say that the destination is a
directory, and it may fail before or after the file has been opened. -/
inductive WriteAnswer where
  | refused
  | torn (isDir : Bool)
  | written (isDir : Bool)

/-- The process that the installer runs in. -/
structure Host (fl : Flavour) where
  u : UnicodeText
  cwd : List Char → Location fl
  tmpDir : Location fl
  /-- The files that `SevenZipFile.extract` writes for a target. -/
  sevenZip : List Char → List (Location fl)
  /-- It extracts a member to its own path. -/
  sevenZip_at : ∀ member, ∀ file ∈ sevenZip member,
    file = Location.resolve cwd (join u tmpDir.toPath (parse fl member))

/-- What the installer has done. -/
structure Progress (fl : Flavour) where
  writes : Nat
  written : List (Location fl)

inductive InstallError (fl : Flavour) where
  | pathViolation (violation : PathViolation fl)
  /-- `FomodParserSecurityError`. -/
  | xmlSecurity
  /-- Any other exception. -/
  | other

structure InstallResult where
  modName : String
  filesCopied : List (List Char) := []
  pendingDecisions : List String := []
  errors : List String := []
  installed : Bool := false

variable {fl : Flavour} (host : Host fl) (answers : Nat → WriteAnswer)

theorem names_resolved (names : List (FileName fl)) : parentName ∉ names.map Subtype.val := by
  intro hmem
  obtain ⟨name, _, hname⟩ := List.mem_map.mp hmem
  exact name.2.2.2.1 hname

def below (location : Location fl) (names : List (FileName fl)) : Location fl :=
  location.append (names.map Subtype.val) (names_resolved names)

/-- Write a file, whose place may depend on the destination being a directory. -/
def write (file : Bool → Location fl) : Proc (Progress fl) (InstallError fl) Unit := fun s =>
  match answers s.writes with
  | .refused => (.error .other, { s with writes := s.writes + 1 })
  | .torn isDir => (.error .other, ⟨s.writes + 1, s.written ++ [file isDir]⟩)
  | .written isDir => (.ok (), ⟨s.writes + 1, s.written ++ [file isDir]⟩)

theorem name_resolved (source : Location fl) : parentName ∉ source.parts.getLast?.toList := by
  intro hmem
  exact source.resolved (List.mem_of_getLast? (Option.mem_toList.mp hmem))

/-- Where `copy2` puts a file: into the destination, if that is a directory. -/
def copyTarget (source dest : Location fl) (isDir : Bool) : Location fl :=
  if isDir then dest.append source.parts.getLast?.toList (name_resolved source) else dest

/-- `makedirs(dest.parent)` and `async_copy2(source, dest)`. -/
def copyFile (source dest : Location fl) : Proc (Progress fl) (InstallError fl) Unit :=
  write answers (copyTarget source dest)

/-! ## Extraction -/

def isSafePath (member : List Char) : Bool := (parse .posix member).parts.all (· ≠ parentName)

def checkMember (member : List Char) : Except (PathViolation fl) (Location fl) :=
  let target := Location.resolve host.cwd (join host.u host.tmpDir.toPath (parse fl member))
  if isSafePath member = false then .error (.zipSlip member)
  else if IsRelativeTo host.u target host.tmpDir then .ok target
  else .error (.escapesSandbox member)

/-- `_extract_zip`, `_extract_rar`: each member is checked and written. -/
def extractMembers : List Member → Proc (Progress fl) (InstallError fl) Unit
  | [] => pure ()
  | member :: rest =>
      if member.isDir then extractMembers rest
      else do
        let target ← .reply ((checkMember host member.filename).mapError .pathViolation)
        write answers fun _ => target
        extractMembers rest

/-- The first loop of `_extract_7z`. -/
def checkMembers : List Member → Except (PathViolation fl) Unit
  | [] => .ok ()
  | member :: rest =>
      match checkMember host member.filename with
      | .ok _ => checkMembers rest
      | .error violation => .error violation

/-- The files that one call of `extract` writes. -/
def writeAll : List (Location fl) → Proc (Progress fl) (InstallError fl) Unit
  | [] => pure ()
  | file :: rest => do
      write answers fun _ => file
      writeAll rest

/-- The second loop of `_extract_7z`. -/
def extractTargets : List Member → Proc (Progress fl) (InstallError fl) Unit
  | [] => pure ()
  | member :: rest => do
      writeAll answers (host.sevenZip member.filename)
      extractTargets rest

def extract7z (members : List Member) : Proc (Progress fl) (InstallError fl) Unit := do
  .reply ((checkMembers host members).mapError .pathViolation)
  extractTargets host answers members

/-- The keys of `_EXTRACTORS`. -/
inductive Format where
  | zip
  | sevenZip
  | rar
deriving DecidableEq, Repr

/-- `_EXTRACTORS.get(suffix)`. -/
def formatOf (suffix : List Char) : Option Format :=
  if suffix = ".zip".toList then some .zip
  else if suffix = ".7z".toList then some .sevenZip
  else if suffix = ".rar".toList then some .rar
  else none

/-- The extractor of a format. -/
def extract (format : Format) (members : List Member) : Proc (Progress fl) (InstallError fl) Unit :=
  match format with
  | .zip => extractMembers host answers members
  | .sevenZip => extract7z host answers members
  | .rar => extractMembers host answers members

/-- `a == b`, for paths. -/
def samePath (a b : Location fl) : Bool :=
  IsRelativeTo host.u a b ∧ a.parts.length = b.parts.length

/-- What is at a path, if anything is. -/
def Tree.lookup (tree : Tree fl) (path : Location fl) : Option (Node fl) :=
  if samePath host path host.tmpDir then some ⟨[], true⟩
  else tree.nodes.find? fun node => samePath host path (below host.tmpDir node.path)

/-- The files of `dir.rglob("*")`, relative to the directory. -/
def Tree.filesBelow (tree : Tree fl) (dir : List (FileName fl)) : List (List (FileName fl)) :=
  tree.nodes.filterMap fun node =>
    if node.isDir = false ∧ dir.length < node.path.length ∧ dir <+: node.path then
      some (node.path.drop dir.length)
    else none

/-- `_find_fomod_xml`, as the directory that `fomod` is in.  The temporary directory has a name
of its own and is not a `fomod` directory. -/
def Tree.findFomodXml (tree : Tree fl) : Option (List (FileName fl)) :=
  tree.nodes.findSome? fun node =>
    match node.path.reverse with
    | file :: dir :: above =>
        if fl.casefold host.u file.1 = fl.casefold host.u "ModuleConfig.xml".toList ∧
            host.u.lower dir.1 = "fomod".toList then
          some above.reverse
        else none
    | _ => none

/-! ## Copying -/

/-- The children of a folder entry. -/
def copyChildren (src : List (FileName fl)) (dest : Location fl) (destRel : List Char) :
    List (List (FileName fl)) → Proc (Progress fl) (InstallError fl) (List (List Char))
  | [] => pure []
  | rel :: rest =>
      match safeJoin host.u host.cwd dest.toPath (relative fl (rel.map Subtype.val)) with
      | .error _ => copyChildren src dest destRel rest
      | .ok childDest => do
          copyFile answers (below host.tmpDir (src ++ rel)) childDest
          let copied ← copyChildren src dest destRel rest
          return (join host.u (parse .posix destRel)
            (relative .posix (rel.map Subtype.val))).toText :: copied

/-- `file_install.destination or file_install.source`. -/
def destRel (file : FileInstall) : String :=
  if file.destination = "" then file.source else file.destination

/-- One entry of `_copy_resolved_files`; what escapes is skipped. -/
def copyEntry (tree : Tree fl) (contentRoot : Location fl) (modDest : PurePath fl)
    (file : FileInstall) : Proc (Progress fl) (InstallError fl) (List (List Char)) :=
  match safeJoin host.u host.cwd contentRoot.toPath (parse fl file.source.toList),
      safeJoin host.u host.cwd modDest (parse fl (destRel file).toList) with
  | .ok src, .ok dest =>
      match tree.lookup host src with
      | some node =>
          if node.isDir then
            copyChildren host answers node.path dest (destRel file).toList
              (tree.filesBelow node.path)
          else do
            copyFile answers src dest
            return [(destRel file).toList]
      | none => pure []
  | _, _ => pure []

def copyResolvedFiles (tree : Tree fl) (contentRoot : Location fl) (modDest : PurePath fl) :
    List FileInstall → Proc (Progress fl) (InstallError fl) (List (List Char))
  | [] => pure []
  | file :: rest => do
      let first ← copyEntry host answers tree contentRoot modDest file
      let others ← copyResolvedFiles tree contentRoot modDest rest
      return first ++ others

/-- The module name, or the name of the archive. -/
def modNameOf (config : FomodConfig) (fallbackName : String) : String :=
  if config.moduleName = "" then fallbackName else config.moduleName

/-- `mo2_mods_dir / mod_name`. -/
def modDestOf (modsDir : Location fl) (modName : String) : PurePath fl :=
  join host.u modsDir.toPath (parse fl modName.toList)

def installFomod (archive : Archive fl) (root : List (FileName fl)) (modsDir : Location fl)
    (fallbackName : String) (selections : Selections) :
    Proc (Progress fl) (InstallError fl) InstallResult :=
  match archive.xml root with
  | .error .security => .raise .xmlSecurity
  | .error .unreadable => .raise .other
  | .error (.malformed text) =>
      pure { modName := fallbackName, errors := ["FOMOD parse error: " ++ text] }
  | .ok element =>
      let modName := modNameOf (parseFomod element) fallbackName
      let result := Fomod.resolve (parseFomod element) selections
      if result.pendingDecisions ≠ [] ∧ result.files = [] then
        pure { modName := modName, pendingDecisions := result.pendingDecisions }
      else do
        let copied ← copyResolvedFiles host answers archive.tree (below host.tmpDir root)
          (modDestOf host modsDir modName) result.files
        return {
          modName := modName
          filesCopied := copied
          pendingDecisions := result.pendingDecisions
          installed := !copied.isEmpty }

/-- Where a file of an archive without a FOMOD goes. -/
def simpleDest (modDest : PurePath fl) (rel : List (FileName fl)) : Location fl :=
  Location.resolve host.cwd (join host.u modDest (relative fl (rel.map Subtype.val)))

/-- The loop of `_install_simple`. -/
def copySimple (root : List (FileName fl)) (modDest : PurePath fl) :
    List (List (FileName fl)) → Proc (Progress fl) (InstallError fl) (List (List Char))
  | [] => pure []
  | rel :: rest => do
      copyFile answers (below host.tmpDir (root ++ rel)) (simpleDest host modDest rel)
      let copied ← copySimple root modDest rest
      return (relative fl (rel.map Subtype.val)).toText :: copied

/-- The content root and the name of the mod: those of the only directory at the top, if there
is nothing else. -/
def simpleRoot (tree : Tree fl) (modName : String) : List (FileName fl) × String :=
  match tree.nodes.filter fun node => node.path.length = 1 with
  | [⟨[name], true⟩] => ([name], String.ofList name.1)
  | _ => ([], modName)

def installSimple (archive : Archive fl) (modsDir : Location fl) (modName : String) :
    Proc (Progress fl) (InstallError fl) InstallResult := do
  let (root, modName) := simpleRoot archive.tree modName
  let copied ← copySimple host answers root (modDestOf host modsDir modName)
    (archive.tree.filesBelow root)
  return { modName := modName, filesCopied := copied, installed := !copied.isEmpty }

/-- The place of the dot that `suffix` and `stem` cut at. -/
def suffixStart (name : List Char) : Option Nat :=
  let ext := PyStr.afterLast '.' name
  if '.' ∈ name ∧ ext ≠ [] ∧ ext.length + 1 < name.length then some (name.length - ext.length - 1)
  else none

/-- `path.suffix`, for a name. -/
def suffix (name : List Char) : List Char :=
  match suffixStart name with
  | some i => name.drop i
  | none => []

/-- `path.stem`, for a name. -/
def stem (name : List Char) : List Char :=
  match suffixStart name with
  | some i => name.take i
  | none => name

def nameOf (path : Location fl) : List Char := path.parts.getLastD []

def install (validator : PathValidator fl) (archive : Archive fl)
    (archivePath mo2ModsDir : PurePath fl) (selections : Selections) :
    Proc (Progress fl) (InstallError fl) InstallResult := do
  let archivePath ←
    .reply ((validator.validate host.u host.cwd archivePath).mapError .pathViolation)
  let modsDir ← .reply ((validator.validate host.u host.cwd mo2ModsDir).mapError .pathViolation)
  let modName := String.ofList (stem (nameOf archivePath))
  let suffix := host.u.lower (suffix (nameOf archivePath))
  match formatOf suffix with
  | none =>
      return {
        modName := modName
        errors := ["Unsupported archive format: '" ++ String.ofList suffix ++
          "'. Supported: .7z, .rar, .zip"] }
  | some format => do
      let extraction ← (extract host answers format archive.members).attempt
      match extraction with
      | .error .other => return { modName := modName, errors := ["Extraction failed"] }
      | .error error => .raise error
      | .ok () =>
          match archive.tree.findFomodXml host with
          | some root => installFomod host answers archive root modsDir modName selections
          | none => installSimple host answers archive modsDir modName

end SkyClaw.Fomod.Installer
