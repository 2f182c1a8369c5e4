import Mathlib.Data.List.DropRight
import SkyClaw.Fomod.Installer
import SkyClaw.Security.HitlGuard
import SkyClaw.Validators.PathTraversal

/-!
# The installer of the tools

`ensure_loot`, `ensure_xedit`, `ensure_pandora` and `ensure_bodyslide` on one install directory.  A tool
counts as installed when its executable is found there, whoever has put it there: `always_trusted` says
which archives and failures leave nothing that a later call takes for an installed tool.
-/

namespace SkyClaw.Tools.ToolsInstaller

open PurePath
open Fomod.Installer (suffix)
open Security.Hitl (Decision)
open Validators.PathTraversal (validatePathStrict)

/-! ## The directory -/

inductive Tool
  | loot
  | xedit
  | pandora
  | bodySlide
deriving DecidableEq, Repr

def Tool.toolName : Tool → String
  | loot => "LOOT"
  | xedit => "SSEEdit"
  | pandora => "Pandora"
  | bodySlide => "BodySlide"

def Tool.exeName : Tool → List Char
  | loot => "loot.exe".toList
  | xedit => "SSEEdit.exe".toList
  | pandora => "Pandora.exe".toList
  | bodySlide => "BodySlide.exe".toList

/-- What the name of the asset contains; BodySlide is not on GitHub. -/
def Tool.keyword : Tool → List Char
  | loot => "win64".toList
  | xedit => "SSEEdit".toList
  | pandora => "Pandora_Behaviour_Engine".toList
  | bodySlide => []

/-- The names of a path below the install directory. -/
abbrev Names := List (List Char)

structure File where
  path : Names
  content : List UInt8
deriving DecidableEq

structure Platform (fl : Flavour) where
  u : UnicodeText
  cwd : List Char → Location fl
  installDir : Location fl

/-- The order in which `rglob` lists the files. -/
structure Listing where
  order : List File → List File
  perm : ∀ files, (order files).Perm files

inductive InstallError
  /-- `ToolInstallError` -/
  | toolInstall (message : String)
  | outsideSandbox
  /-- `PathViolationError` of the extraction -/
  | zipSlip (filename : List Char)
  | other
deriving DecidableEq

structure InstallResult where
  toolName : String
  exePath : Names
  version : String
  alreadyExisted : Bool
deriving DecidableEq

section Calls

variable {fl : Flavour} (host : Platform fl)

def samePath (a b : Names) : Bool := a.map (fl.casefold host.u) = b.map (fl.casefold host.u)

/-- The file has the name of the executable. -/
def isExe (tool : Tool) (path : Names) : Bool :=
  path.getLast?.map (fl.casefold host.u) = some (fl.casefold host.u tool.exeName)

section

variable (files : List File)

/-- A file is written over what was there. -/
def put (file : File) : List File :=
  if files.any fun old => samePath host old.path file.path then
    files.map fun old => if samePath host old.path file.path then { old with content := file.content }
      else old
  else files ++ [file]

/-- `unlink(missing_ok=True)`, if the path is in the directory. -/
def remove (place : Option Names) : List File :=
  files.filter fun file => !place.any fun path => samePath host file.path path

def findExeInDir (listing : Listing) (tool : Tool) : Option File :=
  (listing.order files).find? fun file => isExe host tool file.path

/-! ## Extraction -/

def isAbsolute {fl : Flavour} (path : PurePath fl) : Bool :=
  path.root ≠ [] && (fl = .posix || path.drive ≠ [])

def isSafePath (member : List Char) : Bool :=
  !(isAbsolute (parse .windows member) || isAbsolute (parse .posix member)) &&
    (validatePathStrict host.u host.cwd member).isOk

/-- How `zf.extract` ends. -/
inductive Writing
  | whole
  /-- The file is there, with something in it. -/
  | torn (content : List UInt8)
  | refused
deriving DecidableEq

structure ZipMember where
  filename : List Char
  content : List UInt8
  writing : Writing
deriving DecidableEq

def ZipMember.isDir (member : ZipMember) : Bool := member.filename.getLast? = some '/'

/-- One of the two checks on a member fails. -/
def slips (member : ZipMember) : Bool :=
  !isSafePath host member.filename ||
    !Location.IsRelativeTo host.u
      (Location.resolve host.cwd (join host.u host.installDir.toPath (parse fl member.filename)))
      host.installDir

/-- `_sanitize_windows_name`, for a part. -/
def sanitize (part : List Char) : List Char :=
  (part.map fun c => if c ∈ ":<>|\"?*".toList then '_' else c).rdropWhile (· = '.')

/-- Where `zf.extract` puts a member. -/
def extractedPath (fl : Flavour) (filename : List Char) : Names :=
  let parts := ((splitRoot fl (fl.replaceAltsep filename)).2.2.splitOn fl.sep).filter fun part =>
    part ≠ [] ∧ part ≠ ['.'] ∧ part ≠ parentName
  match fl with
  | .posix => parts
  | .windows => (parts.map sanitize).filter (· ≠ [])

/-- `_extract_zip_safe`: the files that it writes, and how it ends. -/
def extractZipSafe : List ZipMember → List File × Except InstallError Unit
  | [] => ([], .ok ())
  | member :: rest =>
      if member.isDir then extractZipSafe rest
      else if slips host member then ([], .error (.zipSlip member.filename))
      else
        match member.writing with
        | .refused => ([], .error .other)
        | .torn content => ([⟨extractedPath fl member.filename, content⟩], .error .other)
        | .whole =>
            let after := extractZipSafe rest
            (⟨extractedPath fl member.filename, member.content⟩ :: after.1, after.2)

/-- An archive as `py7zr` sees it: its names, and what `extractall` writes. -/
structure SevenZip where
  names : List (List Char)
  files : List File
  completes : Bool
deriving DecidableEq

def extract7zSafe (archive : SevenZip) : List File × Except InstallError Unit :=
  match archive.names.find? fun name => !isSafePath host name with
  | some name => ([], .error (.zipSlip name))
  | none => (archive.files, if archive.completes then .ok () else .error .other)

/-- A file that was downloaded, and what the two libraries make of it, if they can open it. -/
structure ArchiveFile where
  content : List UInt8
  zip : Option (List ZipMember)
  sevenZip : Option SevenZip
deriving DecidableEq

def extract (name : List Char) (archive : ArchiveFile) : List File × Except InstallError Unit :=
  let suffix := host.u.lower (suffix name)
  if suffix = ".zip".toList then
    match archive.zip with
    | some members => extractZipSafe host members
    | none => ([], .error .other)
  else if suffix = ".7z".toList then
    match archive.sevenZip with
    | some archive => extract7zSafe host archive
    | none => ([], .error .other)
  else ([], .error (.toolInstall ("Unsupported archive format: " ++ String.ofList suffix)))

/-! ## Download -/

structure ReleaseAsset where
  name : List Char
  size : Int
  downloadUrl : String
  browserDownloadUrl : String

/-- `_find_github_asset`, once the release is known. -/
def findGithubAsset (keyword : List Char) (assets : List ReleaseAsset) :
    Except InstallError ReleaseAsset :=
  match assets.find? fun asset =>
      decide (host.u.lower keyword <:+: host.u.lower asset.name) &&
        (".zip".toList.isSuffixOf asset.name || ".7z".toList.isSuffixOf asset.name) with
  | none => .error (.toolInstall ("No asset matching '" ++ String.ofList keyword ++ "' (.zip/.7z)"))
  | some asset =>
      if asset.downloadUrl = "" then
        .error (.toolInstall ("Release asset '" ++ String.ofList asset.name ++
          "' is missing its GitHub API URL"))
      else if asset.browserDownloadUrl = "" then
        .error (.toolInstall ("Release asset '" ++ String.ofList asset.name ++
          "' is missing its browser download URL"))
      else .ok asset

inductive Transfer
  /-- before the file is opened -/
  | refused
  /-- `left`: what is at the place then -/
  | failed (left : Option (List UInt8))
  | arrives (archive : ArchiveFile)

/-- A call, and how what it waits for goes. -/
structure Call where
  tool : Tool
  /-- `validate(install_dir)` -/
  valid : Bool
  before : Listing
  /-- the release on GitHub: its assets and its tag; `none` for an exception -/
  release : Option (List ReleaseAsset × String)
  /-- the name of the file on Nexus: without a downloader, with an exception, or as it is -/
  nexus : Option (Option (List Char))
  /-- `none` for an exception -/
  approval : Option Decision
  /-- where the archive is put, if that is in the install directory -/
  place : Option Names
  transfer : Transfer
  unlinks : Bool
  after : Listing

/-- What is downloaded: the name of the archive, its size and the version. -/
structure Package where
  name : List Char
  size : Int
  version : String
deriving DecidableEq

/-- `request_approval` -/
def approve (call : Call) (package : Package) : Except InstallError Package :=
  match call.approval with
  | none => .error .other
  | some .approved => .ok package
  | some _ =>
      .error (.toolInstall (call.tool.toolName ++ " installation denied by operator"))

/-- Up to the approval of the operator. -/
def prepare (call : Call) : Except InstallError Package :=
  match call.tool with
  | .bodySlide =>
      match call.nexus with
      | none => .error (.toolInstall
          "BodySlide requires a NexusDownloader for installation (not on GitHub).")
      | some none => .error (.toolInstall "Failed to fetch BodySlide info from Nexus")
      | some (some name) => approve call ⟨name, 0, "Nexus"⟩
  | tool =>
      match call.release with
      | none => .error .other
      | some (assets, version) =>
          match findGithubAsset host tool.keyword assets with
          | .error error => .error error
          | .ok asset => approve call ⟨asset.name, asset.size, version⟩

/-- The archive in the install directory. -/
def archived (place : Option Names) (content : List UInt8) : List File :=
  place.toList.map fun path => ⟨path, content⟩

/-- `_download_asset`, or the download from Nexus. -/
def download (call : Call) (package : Package) :
    List File × Except InstallError ArchiveFile :=
  match call.transfer with
  | .refused => (files, .error .other)
  | .failed none => (remove host files call.place, .error .other)
  | .failed (some left) => ((archived call.place left).foldl (put host) files, .error .other)
  | .arrives archive =>
      if 0 < package.size ∧ (archive.content.length : Int) ≠ package.size then
        (remove host files call.place, .error (.toolInstall "Size mismatch"))
      else ((archived call.place archive.content).foldl (put host) files, .ok archive)

/-- From the download on. -/
def install (call : Call) (package : Package) :
    List File × Except InstallError InstallResult :=
  match download host files call package with
  | (files, .error error) => (files, .error error)
  | (files, .ok archive) =>
      let (written, result) := extract host package.name archive
      let files := written.foldl (put host) files
      match result with
      | .error error => (files, .error error)
      | .ok () =>
          if call.unlinks = false then (files, .error .other)
          else
            let files := remove host files call.place
            match findExeInDir host files call.after call.tool with
            | none => (files, .error (.toolInstall (call.tool.toolName ++
                " extraction succeeded but " ++ String.ofList call.tool.exeName ++
                " not found in output")))
            | some exe => (files, .ok ⟨call.tool.toolName, exe.path, package.version, false⟩)

/-- `ensure_loot`, `ensure_xedit`, `ensure_pandora`, `ensure_bodyslide` -/
def ensure (call : Call) : List File × Except InstallError InstallResult :=
  if call.valid = false then (files, .error .outsideSandbox)
  else
    match findExeInDir host files call.before call.tool with
    | some exe => (files, .ok ⟨call.tool.toolName, exe.path, "existing", true⟩)
    | none =>
        match prepare host call with
        | .error error => (files, .error error)
        | .ok package => install host files call package

structure State where
  files : List File
  /-- the files before the first call -/
  initial : List File
  /-- the tools for which a call has returned -/
  returned : List Tool
deriving DecidableEq

def start : State := ⟨files, files, []⟩

def step (s : State) (call : Call) : Option State :=
  some {
    files := (ensure host s.files call).1
    initial := s.initial
    returned := match (ensure host s.files call).2 with
      | .ok _ => call.tool :: s.returned
      | .error _ => s.returned }

/-- **A failed install is not taken for an installed tool.** -/
structure Trusted (s : State) (call : Call) (t : State) : Prop where
  installed : ∀ result, (ensure host s.files call).2 = .ok result → result.alreadyExisted = true →
    result.exePath ∈ s.initial.map File.path ∨ call.tool ∈ s.returned
  /-- Only the archive itself is new. -/
  rejected : ∀ filename, (ensure host s.files call).2 = .error (.zipSlip filename) →
    ∀ file ∈ t.files, file ∈ s.files ∨ ∃ path ∈ call.place, samePath host file.path path = true

/-- The call comes to the download. -/
def reached (call : Call) : Option Package :=
  if call.valid = false ∨ (findExeInDir host files call.before call.tool).isSome then none
  else (prepare host call).toOption

/-- The archive that is extracted. -/
def delivered (call : Call) : Option (Package × ArchiveFile) :=
  (reached host files call).bind fun package =>
    match call.transfer with
    | .arrives archive =>
        if 0 < package.size ∧ (archive.content.length : Int) ≠ package.size then none
        else some (package, archive)
    | _ => none

/-- The files that a call writes: what there is of the archive, and what comes out of it. -/
def leaves (call : Call) : List File :=
  match delivered host files call with
  | some (package, archive) =>
      archived call.place archive.content ++ (extract host package.name archive).1
  | none =>
      match reached host files call, call.transfer with
      | some _, .failed (some left) => archived call.place left
      | _, _ => []

/-- The extraction goes through, and the archive can be removed. -/
def Completes (call : Call) : Prop :=
  call.unlinks = true ∧ ∃ package archive, delivered host files call = some (package, archive) ∧
    (extract host package.name archive).2 = .ok ()

end

/-- The extraction of a zip ends with this member. -/
def stops (member : ZipMember) : Bool :=
  slips host member || match member.writing with
    | .whole => false
    | _ => true

/-- **Nothing is left that could be taken for an installed tool.** -/
structure Clean (s : State) (call : Call) : Prop where
  /-- A member that is rejected is the first one, unless one in front of it cannot be written. -/
  order : ∀ package archive members, delivered host s.files call = some (package, archive) →
    host.u.lower (suffix package.name) = ".zip".toList → archive.zip = some members → ∀ member,
      (members.filter (!·.isDir)).find? (stops host) = some member → slips host member = true →
        (members.filter (!·.isDir)).head? = some member
  /-- An executable that is new belongs to a tool that is installed, or that this call installs. -/
  exes : ∀ file ∈ leaves host s.files call,
    (∀ old ∈ s.files, samePath host old.path file.path = false) →
      ∀ tool, isExe host tool file.path = true →
        tool ∈ s.returned ∨ file.path ∈ s.initial.map File.path ∨
          tool = call.tool ∧ Completes host s.files call

variable {host}

/-! ## Files that are written -/

theorem samePath_refl (path : Names) : samePath host path path = true := decide_eq_true rfl

variable {file : File}

theorem mem_put {files : List File} {new : File} (h : file ∈ put host files new) :
    (file ∈ files ∨ samePath host file.path new.path = true) ∧
      ((∃ old ∈ files, old.path = file.path) ∨
        file = new ∧ ∀ old ∈ files, samePath host old.path new.path = false) := by
  unfold put at h
  split at h
  · obtain ⟨old, hold, heq⟩ := List.mem_map.mp h
    split at heq
    · next hsame =>
        obtain rfl := heq
        exact ⟨.inr hsame, .inl ⟨old, hold, rfl⟩⟩
    · obtain rfl := heq
      exact ⟨.inl hold, .inl ⟨old, hold, rfl⟩⟩
  · next hnone =>
      rw [Bool.not_eq_true, List.any_eq_false] at hnone
      rcases List.mem_append.mp h with hold | hnew
      · exact ⟨.inl hold, .inl ⟨file, hold, rfl⟩⟩
      · obtain rfl := List.mem_singleton.mp hnew
        exact ⟨.inr (samePath_refl _),
          .inr ⟨rfl, fun old hold => eq_false_of_ne_true (hnone old hold)⟩⟩

theorem exists_mem_put {files : List File} {old : File} (new : File) (h : old ∈ files) :
    ∃ file ∈ put host files new, file.path = old.path := by
  unfold put
  split
  · refine ⟨_, List.mem_map_of_mem h, ?_⟩
    split <;> rfl
  · exact ⟨old, List.mem_append_left _ h, rfl⟩

theorem mem_foldl_put {written files : List File}
    (h : file ∈ written.foldl (put host) files) :
    (∃ old ∈ files, old.path = file.path) ∨
      ∃ new ∈ written, new.path = file.path ∧
        ∀ old ∈ files, samePath host old.path new.path = false := by
  induction written generalizing files with
  | nil => exact .inl ⟨file, h, rfl⟩
  | cons first rest ih =>
      rcases ih h with ⟨old, hold, hpath⟩ | ⟨new, hnew, hpath, hothers⟩
      · rcases (mem_put hold).2 with ⟨older, holder, hsame⟩ | ⟨rfl, hothers⟩
        · exact .inl ⟨older, holder, hsame.trans hpath⟩
        · exact .inr ⟨old, List.mem_cons_self, hpath, hothers⟩
      · refine .inr ⟨new, List.mem_cons_of_mem _ hnew, hpath, fun old hold => ?_⟩
        have hkept : ∃ later ∈ put host files first, later.path = old.path :=
          exists_mem_put first hold
        obtain ⟨later, hlater, hsame⟩ := hkept
        rw [← hsame]
        exact hothers later hlater

theorem mem_of_mem_remove {files : List File} {place : Option Names}
    (h : file ∈ remove host files place) : file ∈ files := List.mem_of_mem_filter h

variable {tool : Tool}

theorem findExeInDir_spec {files : List File} {listing : Listing} {exe : File}
    (h : findExeInDir host files listing tool = some exe) :
    exe ∈ files ∧ isExe host tool exe.path = true :=
  ⟨(listing.perm files).mem_iff.mp (List.mem_of_find?_eq_some h),
    List.find?_some (p := fun file : File => isExe host tool file.path) h⟩

theorem exists_findExeInDir {files : List File} (listing : Listing)
    (hmem : file ∈ files) (hexe : isExe host tool file.path = true) :
    ∃ exe, findExeInDir host files listing tool = some exe := by
  refine Option.isSome_iff_exists.mp (List.find?_isSome.mpr ⟨file, ?_, hexe⟩)
  exact (listing.perm files).mem_iff.mpr hmem

/-! ## What a call does -/

theorem approve_ne_zipSlip {call : Call} {package : Package} {filename : List Char} :
    approve call package ≠ .error (.zipSlip filename) := by
  unfold approve
  split <;> exact nofun

theorem prepare_ne_zipSlip {call : Call} {filename : List Char} :
    prepare host call ≠ .error (.zipSlip filename) := by
  unfold prepare
  split
  · split
    · exact nofun
    · exact nofun
    · exact approve_ne_zipSlip
  · split
    · exact nofun
    · split
      · next hfind =>
          intro h
          cases h
          unfold findGithubAsset at hfind
          split at hfind
          · cases hfind
          · split at hfind
            · cases hfind
            · split at hfind <;> cases hfind
      · exact approve_ne_zipSlip

/-- A call that does not come to the download changes nothing, and rejects nothing. -/
theorem ensure_of_not_reached {files : List File} {call : Call}
    (h : reached host files call = none) :
    (ensure host files call).1 = files ∧
      ∀ filename, (ensure host files call).2 ≠ .error (.zipSlip filename) := by
  unfold ensure
  unfold reached at h
  split
  · exact ⟨rfl, fun _ heq => by cases heq⟩
  · next hvalid =>
      cases hfound : findExeInDir host files call.before call.tool with
      | some exe => exact ⟨rfl, fun _ heq => by cases heq⟩
      | none =>
          rw [hfound, if_neg (by simp [hvalid])] at h
          cases hprepare : prepare host call with
          | error error =>
              refine ⟨rfl, fun filename heq => ?_⟩
              cases heq
              exact prepare_ne_zipSlip hprepare
          | ok package =>
              rw [hprepare] at h
              cases h

theorem ensure_of_reached {files : List File} {call : Call} {package : Package}
    (h : reached host files call = some package) :
    ensure host files call = install host files call package := by
  unfold reached at h
  split at h
  · cases h
  · next hnot =>
      obtain ⟨hvalid, hfound⟩ := not_or.mp hnot
      unfold ensure
      rw [if_neg hvalid, Option.not_isSome_iff_eq_none.mp hfound]
      cases hprepare : prepare host call with
      | error error =>
          rw [hprepare] at h
          cases h
      | ok package' =>
          rw [hprepare] at h
          cases h
          rfl

theorem download_of_delivered {files : List File} {call : Call} {package : Package}
    {archive : ArchiveFile} (h : delivered host files call = some (package, archive)) :
    reached host files call = some package ∧ download host files call package =
      ((archived call.place archive.content).foldl (put host) files, .ok archive) := by
  unfold delivered at h
  obtain ⟨package', hreached, hsome⟩ := Option.bind_eq_some_iff.mp h
  split at hsome
  · next harrives =>
      split at hsome
      · cases hsome
      · next hsize =>
          cases hsome
          refine ⟨hreached, ?_⟩
          unfold download
          rw [harrives]
          exact if_neg hsize
  · cases hsome

/-- **How a call ends** that comes to the download: without an archive, or with one. -/
theorem download_cases {files : List File} {call : Call} {package : Package}
    (h : reached host files call = some package) :
    (∃ files' error, download host files call package = (files', .error error) ∧
        (∀ filename, error ≠ .zipSlip filename) ∧
        ∀ file ∈ files', file ∈ files ∨ file ∈ (leaves host files call).foldl (put host) files) ∨
      ∃ archive, delivered host files call = some (package, archive) ∧
        download host files call package =
          ((archived call.place archive.content).foldl (put host) files, .ok archive) := by
  unfold download leaves delivered
  rw [h, Option.bind_some]
  cases call.transfer with
  | refused => exact .inl ⟨_, _, rfl, nofun, fun _ hmem => .inl hmem⟩
  | failed left =>
      cases left with
      | none =>
          exact .inl ⟨_, _, rfl, nofun, fun _ hmem => .inl (mem_of_mem_remove hmem)⟩
      | some left => exact .inl ⟨_, _, rfl, nofun, fun _ hmem => .inr hmem⟩
  | arrives archive =>
      dsimp only
      split
      · exact .inl ⟨_, _, rfl, nofun, fun _ hmem => .inl (mem_of_mem_remove hmem)⟩
      · exact .inr ⟨archive, rfl, rfl⟩

section Delivered

variable {files files' : List File} {call : Call} {package : Package} {archive : ArchiveFile}

theorem mem_install (h : download host files call package = (files', .ok archive)) {file : File}
    (hmem : file ∈ (install host files call package).1) :
    file ∈ (extract host package.name archive).1.foldl (put host) files' := by
  unfold install at hmem
  rw [h] at hmem
  dsimp only at hmem
  split at hmem
  · exact hmem
  · split at hmem
    · exact hmem
    · split at hmem <;> exact mem_of_mem_remove hmem

theorem extract_of_rejected (h : download host files call package = (files', .ok archive))
    {filename : List Char} (hrejected : (install host files call package).2 = .error (.zipSlip filename)) :
    (extract host package.name archive).2 = .error (.zipSlip filename) := by
  unfold install at hrejected
  rw [h] at hrejected
  dsimp only at hrejected
  split at hrejected
  · next hextract =>
      cases hrejected
      exact hextract
  · split at hrejected
    · cases hrejected
    · split at hrejected <;> cases hrejected

theorem install_returns (h : download host files call package = (files', .ok archive))
    (hextract : (extract host package.name archive).2 = .ok ()) (hunlinks : call.unlinks = true)
    {file : File} (hmem : file ∈ (install host files call package).1)
    (hexe : isExe host call.tool file.path = true) :
    ∃ result, (install host files call package).2 = .ok result := by
  unfold install at hmem ⊢
  rw [h] at hmem ⊢
  dsimp only at hmem ⊢
  rw [hextract] at hmem ⊢
  simp only [hunlinks, Bool.true_eq_false, if_false] at hmem ⊢
  cases hfind : findExeInDir host (remove host
      ((extract host package.name archive).1.foldl (put host) files') call.place) call.after
      call.tool with
  | some exe => exact ⟨_, rfl⟩
  | none =>
      rw [hfind] at hmem
      obtain ⟨exe, hsome⟩ := exists_findExeInDir call.after hmem hexe
      cases hfind.symm.trans hsome

end Delivered

/-- **A path that is new after a call** is of a file that the call leaves. -/
theorem mem_ensure {files : List File} {call : Call}
    (h : file ∈ (ensure host files call).1) :
    (∃ old ∈ files, old.path = file.path) ∨
      ∃ new ∈ leaves host files call, new.path = file.path ∧
        ∀ old ∈ files, samePath host old.path new.path = false := by
  cases hreached : reached host files call with
  | none =>
      rw [(ensure_of_not_reached hreached).1] at h
      exact .inl ⟨file, h, rfl⟩
  | some package =>
      rw [ensure_of_reached hreached] at h
      obtain ⟨files', error, hdownload, -, hmem⟩ | ⟨archive, hdelivered, hdownload⟩ :=
        download_cases hreached
      · unfold install at h
        rw [hdownload] at h
        rcases hmem file h with hold | hnew
        · exact .inl ⟨file, hold, rfl⟩
        · exact mem_foldl_put hnew
      · -- The archive is written first, and what comes out of it over that.
        have hmem := mem_install hdownload h
        rw [← List.foldl_append] at hmem
        have hleaves : leaves host files call =
            archived call.place archive.content ++ (extract host package.name archive).1 := by
          unfold leaves
          rw [hdelivered]
        rw [hleaves]
        exact mem_foldl_put hmem

variable {members : List ZipMember}

/-- The first member that stops the extraction is the one that is rejected. -/
theorem exists_slips_of_rejected {filename : List Char}
    (h : (extractZipSafe host members).2 = .error (.zipSlip filename)) :
    ∃ member, (members.filter (!·.isDir)).find? (stops host) = some member ∧
      slips host member = true := by
  induction members with
  | nil => cases h
  | cons member rest ih =>
      unfold extractZipSafe at h
      cases hdir : member.isDir with
      | true =>
          rw [if_pos hdir] at h
          rw [List.filter_cons_of_neg (by rw [hdir]; decide)]
          exact ih h
      | false =>
          rw [if_neg (by rw [hdir]; decide)] at h
          rw [List.filter_cons_of_pos (by rw [hdir]; decide)]
          cases hslips : slips host member with
          | true =>
              exact ⟨member, List.find?_cons_of_pos (by unfold stops; rw [hslips]; rfl), hslips⟩
          | false =>
              rw [if_neg (by rw [hslips]; decide)] at h
              -- A member that cannot be written ends the extraction with another error.
              cases hwriting : member.writing with
              | refused | torn =>
                  rw [hwriting] at h
                  cases h
              | whole =>
                  rw [hwriting] at h
                  obtain ⟨other, hfind, hother⟩ := ih h
                  refine ⟨other, ?_, hother⟩
                  rw [List.find?_cons_of_neg (by unfold stops; rw [hslips, hwriting]; decide)]
                  exact hfind

/-- A member that is rejected before any other is written. -/
theorem extractZipSafe_rejected {filename : List Char}
    (h : (extractZipSafe host members).2 = .error (.zipSlip filename))
    (horder : ∀ member, (members.filter (!·.isDir)).find? (stops host) = some member →
      slips host member = true → (members.filter (!·.isDir)).head? = some member) :
    (extractZipSafe host members).1 = [] := by
  obtain ⟨member, hfind, hslips⟩ := exists_slips_of_rejected h
  have hhead := horder member hfind hslips
  clear horder hfind h
  -- In front of it are only directories, which are passed over.
  induction members with
  | nil => rfl
  | cons first rest ih =>
      unfold extractZipSafe
      cases hdir : first.isDir with
      | true =>
          rw [List.filter_cons_of_neg (by rw [hdir]; decide)] at hhead
          rw [if_pos rfl]
          exact ih hhead
      | false =>
          rw [List.filter_cons_of_pos (by rw [hdir]; decide), List.head?_cons] at hhead
          cases hhead
          rw [if_neg (by decide), if_pos hslips]

variable {s : State}

/-- Of an archive that is rejected nothing is extracted. -/
theorem extract_rejected {call : Call} {package : Package} {archive : ArchiveFile}
    {filename : List Char} (hclean : Clean host s call)
    (hdelivered : delivered host s.files call = some (package, archive))
    (h : (extract host package.name archive).2 = .error (.zipSlip filename)) :
    (extract host package.name archive).1 = [] := by
  unfold extract at h ⊢
  dsimp only at h ⊢
  split at h
  · next hzip =>
      rw [if_pos hzip]
      cases hmembers : archive.zip with
      | none => rfl
      | some members =>
          rw [hmembers] at h
          exact extractZipSafe_rejected h
            (hclean.order package archive members hdelivered hzip hmembers)
  · next hzip =>
      rw [if_neg hzip]
      split at h
      · next hseven =>
          rw [if_pos hseven]
          cases harchive : archive.sevenZip with
          | none => rfl
          | some archive =>
              rw [harchive] at h
              show (extract7zSafe host archive).1 = []
              have h : (extract7zSafe host archive).2 = .error (.zipSlip filename) := h
              unfold extract7zSafe at h ⊢
              split
              · rfl
              · next hfind =>
                  rw [hfind] at h
                  dsimp only at h
                  split at h <;> cases h
      · next hseven => rw [if_neg hseven]

/-! ## Along a run -/

/-- An executable in the directory was there from the start, or its tool has been installed. -/
def Known (host : Platform fl) (s : State) : Prop :=
  ∀ file ∈ s.files, ∀ tool, isExe host tool file.path = true →
    tool ∈ s.returned ∨ file.path ∈ s.initial.map File.path

theorem known_start (files : List File) : Known host (start files) :=
  fun _ hmem _ _ => .inr (List.mem_map_of_mem hmem)

theorem returned_of_completes {files : List File} {call : Call} (h : Completes host files call) (hmem : file ∈ (ensure host files call).1)
    (hexe : isExe host call.tool file.path = true) :
    ∃ result, (ensure host files call).2 = .ok result := by
  obtain ⟨hunlinks, package, archive, hdelivered, hextract⟩ := h
  obtain ⟨hreached, hdownload⟩ := download_of_delivered hdelivered
  rw [ensure_of_reached hreached] at hmem ⊢
  exact install_returns hdownload hextract hunlinks hmem hexe

/-- What is reported as already there was found. -/
theorem exists_of_existed {files : List File} {call : Call} {result : InstallResult}
    (h : (ensure host files call).2 = .ok result) (hexisted : result.alreadyExisted = true) :
    ∃ exe ∈ files, isExe host call.tool exe.path = true ∧ exe.path = result.exePath := by
  unfold ensure at h
  split at h
  · cases h
  · cases hfound : findExeInDir host files call.before call.tool with
    | some exe =>
        rw [hfound] at h
        cases h
        obtain ⟨hmem, hexe⟩ := findExeInDir_spec hfound
        exact ⟨exe, hmem, hexe, rfl⟩
    | none =>
        rw [hfound] at h
        dsimp only at h
        split at h
        · cases h
        · -- what was installed by this call is reported as new
          unfold install at h
          split at h
          · cases h
          · dsimp only at h
            split at h
            · cases h
            · split at h
              · cases h
              · split at h
                · cases h
                · cases h
                  cases hexisted

variable {t : State}

/-- **Step lemma.** -/
theorem known_of_step {call : Call} (hknown : Known host s)
    (hstep : step host s call = some t) (hclean : Clean host s call) : Known host t := by
  cases hstep
  intro file hmem tool hexe
  have hreturned : tool ∈ s.returned → tool ∈ (match (ensure host s.files call).2 with
      | .ok _ => call.tool :: s.returned
      | .error _ => s.returned) := by
    intro h
    split
    · exact List.mem_cons_of_mem _ h
    · exact h
  rcases mem_ensure hmem with ⟨old, hold, hpath⟩ | ⟨new, hnew, hpath, hothers⟩
  · rw [← hpath] at hexe
    rcases hknown old hold tool hexe with h | h
    · exact .inl (hreturned h)
    · exact .inr (hpath ▸ h)
  · rcases hclean.exes new hnew hothers tool (hpath ▸ hexe) with h | h | ⟨rfl, hcompletes⟩
    · exact .inl (hreturned h)
    · exact .inr (hpath ▸ h)
    · obtain ⟨result, hresult⟩ := returned_of_completes hcompletes hmem hexe
      refine .inl ?_
      show call.tool ∈ (match (ensure host s.files call).2 with
        | .ok _ => call.tool :: s.returned
        | .error _ => s.returned)
      rw [hresult]
      exact List.mem_cons_self

theorem trusted_of_step {call : Call} (hknown : Known host s)
    (hstep : step host s call = some t) (hclean : Clean host s call) : Trusted host s call t := by
  cases hstep
  constructor
  · intro result hresult hexisted
    obtain ⟨exe, hmem, hexe, hpath⟩ := exists_of_existed hresult hexisted
    rw [← hpath]
    exact (hknown exe hmem call.tool hexe).symm
  · intro filename hrejected file hmem
    cases hreached : reached host s.files call with
    | none => exact absurd hrejected ((ensure_of_not_reached hreached).2 filename)
    | some package =>
        have hmem : file ∈ (ensure host s.files call).1 := hmem
        rw [ensure_of_reached hreached] at hrejected hmem
        obtain ⟨files', error, hdownload, hnot, -⟩ | ⟨archive, hdelivered, hdownload⟩ :=
          download_cases hreached
        · unfold install at hrejected
          rw [hdownload] at hrejected
          exact absurd (Except.error.inj hrejected) (hnot filename)
        · have hmem := mem_install hdownload hmem
          rw [extract_rejected hclean hdelivered (extract_of_rejected hdownload hrejected),
            List.foldl_nil] at hmem
          unfold archived at hmem
          cases hplace : call.place with
          | none =>
              rw [hplace] at hmem
              exact .inl hmem
          | some path =>
              rw [hplace] at hmem
              rcases (mem_put hmem).1 with hold | hsame
              · exact .inl hold
              · exact .inr ⟨path, rfl, hsame⟩

/-- **A failed install is not taken for an installed tool**, in every run in which no archive has a member in
front of one that is rejected, and no call leaves the executable of a tool that is not installed
by then. -/
theorem always_trusted (files : List File) (calls : List Call)
    (hclean : Runs.Always (step host) (fun s call _ => Clean host s call) (start files) calls) :
    Runs.Always (step host) (Trusted host) (start files) calls := by
  have hknown : Runs.Throughout (step host) (Known host) (start files) calls :=
    Runs.throughout_of_guarded
      (fun _ _ _ hknown hstep hclean => known_of_step hknown hstep hclean) (known_start files)
      hclean
  refine Runs.Always.of_throughout ?_ hknown hclean
  intro s call t hknown hstep hclean
  exact trusted_of_step hknown hstep hclean

end Calls

/-! ## An archive that was rejected -/

def tools : Platform .posix where
  u := .basic
  cwd _ := ⟨[], [], posix_drive, parentName_not_mem_nil⟩
  installDir := ⟨[], ["opt", "tools"].map String.toList, posix_drive, by decide⟩

def asListed : Listing := ⟨id, fun _ => .refl _⟩

/-- A release of LOOT with one asset, and what is in it. -/
def ensureLoot (members : List ZipMember) : Call where
  tool := .loot
  valid := true
  before := asListed
  release := some ([⟨"loot-win64.zip".toList, 2, "api", "browser"⟩], "0.22")
  nexus := none
  approval := some .approved
  place := some ["loot-win64.zip".toList]
  transfer := .arrives ⟨[80, 75], some members, none⟩
  unlinks := true
  after := asListed

def lootExe : ZipMember := ⟨"loot.exe".toList, [77, 90], .whole⟩

def evil : ZipMember := ⟨"../evil.txt".toList, [], .whole⟩

theorem clean_ensureLoot : Clean tools (start []) (ensureLoot [lootExe]) := by
  have hdelivered : delivered tools [] (ensureLoot [lootExe]) =
      some (⟨"loot-win64.zip".toList, 2, "0.22"⟩, ⟨[80, 75], some [lootExe], none⟩) := by
    decide +kernel
  have hextract : extract tools "loot-win64.zip".toList ⟨[80, 75], some [lootExe], none⟩ =
      ([⟨["loot.exe".toList], [77, 90]⟩], .ok ()) := by
    decide +kernel
  constructor
  · intro package archive members hsome _ hzip member hfind hslips
    cases hdelivered.symm.trans hsome
    cases hzip
    obtain rfl := List.mem_singleton.mp (List.mem_of_mem_filter (List.mem_of_find?_eq_some hfind))
    exact absurd hslips (by decide +kernel)
  · intro file hmem _ tool hexe
    have hleaves : leaves tools [] (ensureLoot [lootExe]) =
        [⟨["loot-win64.zip".toList], [80, 75]⟩, ⟨["loot.exe".toList], [77, 90]⟩] := by
      unfold leaves
      rw [hdelivered]
      dsimp only
      rw [hextract]
      rfl
    have hmem : file ∈ leaves tools [] (ensureLoot [lootExe]) := hmem
    rw [hleaves, List.mem_cons, List.mem_singleton] at hmem
    rcases hmem with rfl | rfl
    · cases tool <;> exact absurd hexe (by decide +kernel)
    · refine .inr (.inr ⟨?_, rfl, _, _, hdelivered, by rw [hextract]⟩)
      cases tool with
      | loot => rfl
      | _ => exact absurd hexe (by decide +kernel)

/-- LOOT is installed, and then found. -/
theorem always_trusted_loot :
    Runs.Always (step tools) (Trusted tools) (start [])
      [ensureLoot [lootExe], ensureLoot [lootExe]] := by
  refine always_trusted [] _ ?_
  have hstep : step tools (start []) (ensureLoot [lootExe]) =
      some ⟨[⟨["loot.exe".toList], [77, 90]⟩], [], [.loot]⟩ := by
    decide +kernel
  refine .cons hstep clean_ensureLoot fun _ _ => ⟨?_, trivial⟩
  have hdelivered : delivered tools [⟨["loot.exe".toList], [77, 90]⟩] (ensureLoot [lootExe]) =
      none := by
    decide +kernel
  have hleaves : leaves tools [⟨["loot.exe".toList], [77, 90]⟩] (ensureLoot [lootExe]) = [] := by
    decide +kernel
  constructor
  · intro package archive members hsome
    cases hdelivered.symm.trans hsome
  · intro file hmem
    have hmem : file ∈ leaves tools _ (ensureLoot [lootExe]) := hmem
    rw [hleaves] at hmem
    cases hmem

/-- **`loot.exe` in front of a member that is rejected** stays, and the next call trusts it. -/
theorem always_trusted_counterexample :
    ¬Runs.Always (step tools) (Trusted tools) (start [])
      [ensureLoot [lootExe, evil], ensureLoot [lootExe, evil]] := by
  intro h
  have hstep : step tools (start []) (ensureLoot [lootExe, evil]) =
      some ⟨[⟨["loot-win64.zip".toList], [80, 75]⟩, ⟨["loot.exe".toList], [77, 90]⟩], [], []⟩ := by
    decide +kernel
  have hresult : (ensure tools [⟨["loot-win64.zip".toList], [80, 75]⟩,
      ⟨["loot.exe".toList], [77, 90]⟩] (ensureLoot [lootExe, evil])).2 =
        .ok ⟨"LOOT", ["loot.exe".toList], "existing", true⟩ := by
    decide +kernel
  obtain ⟨-, hrest⟩ := h _ hstep
  obtain ⟨htrusted, -⟩ := hrest _ rfl
  rcases htrusted.installed _ hresult rfl with hinitial | hreturned
  · cases hinitial
  · cases hreturned

end SkyClaw.Tools.ToolsInstaller
