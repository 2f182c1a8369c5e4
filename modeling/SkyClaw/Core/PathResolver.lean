import SkyClaw.Lib.LinkedPaths
import SkyClaw.Security.PathValidator

/-!
# Resolution of the paths of Mod Organizer

`PathResolutionService` with `PathValidator.validate`, in a file system with symbolic links.  What has
been validated is a resolved location and is accepted again; what is joined to it afterwards is not
looked at any more.  `returned_accepted_iff` says when that does no harm.
-/

namespace SkyClaw.Core.PathResolver

open PurePath Location
open Security (PathValidator)

variable {fl : Flavour} (u : UnicodeText) (fs : FileSystem fl) (validator : PathValidator fl)

/-! ## `PathValidator.validate` -/

/-- What `validate` raises. -/
inductive Violation (fl : Flavour) where
  /-- `Path traversal component ('..') detected in: …` -/
  | traversal (path : PurePath fl)
  /-- `Symlink target not found: … -> …` -/
  | targetNotFound (path : PurePath fl)
  /-- `Symlink strictly escapes sandbox: … -> …` -/
  | escapesSandbox (path : PurePath fl) (target : Location fl)
  /-- `Path '…' is outside all sandbox roots: …` -/
  | outsideRoots (resolved : Location fl) (roots : List (Location fl))
  /-- An exception of `resolve`. -/
  | unresolved (error : ResolveError)

def Inside (location : Location fl) : Prop :=
  ∃ root ∈ validator.roots, IsRelativeTo u location root

instance (location : Location fl) : Decidable (Inside u validator location) :=
  inferInstanceAs (Decidable (∃ root ∈ validator.roots, IsRelativeTo u location root))

/-- The check of a path that is a link itself. -/
def checkSymlink (path : PurePath fl) : Except (Violation fl) Unit :=
  match fs.resolve true path with
  | .ok target =>
      if Inside u validator target then .ok () else .error (.escapesSandbox path target)
  | .error .notFound => .error (.targetNotFound path)
  | .error error => .error (.unresolved error)

def validate (strictSymlink : Bool) (path : PurePath fl) : Except (Violation fl) (Location fl) :=
  if parentName ∈ path.parts then .error (.traversal path)
  else match if strictSymlink && fs.isSymlink path then checkSymlink u fs validator path
      else .ok () with
    | .error violation => .error violation
    | .ok () => match fs.resolve false path with
      | .ok resolved =>
          if Inside u validator resolved then .ok resolved
          else .error (.outsideRoots resolved validator.roots)
      | .error error => .error (.unresolved error)

/-- The validator would take the path. -/
def Accepted (path : PurePath fl) : Prop := ∃ location, validate u fs validator true path = .ok location

/-- What `os.environ` gives, with nothing for a variable that is not set. -/
structure Environment where
  mo2Path : List Char
  mo2ModsPath : List Char
  localAppData : List Char
  mo2Profile : List Char

/-- `base / text` -/
def child (base : PurePath fl) (text : String) : PurePath fl := join u base (parse fl text.toList)

def validateEnvPath (text : List Char) : Option (Location fl) :=
  if text = [] then none
  else match validate u fs validator true (parse fl text) with
    | .ok location => some location
    | .error _ => none

def candidateMo2Paths : List String :=
  ["C:\\Modding\\MO2", "D:\\Modding\\MO2", "E:\\Modding\\MO2", "C:\\MO2Portable",
    "D:\\MO2Portable", "C:\\Games\\MO2", "D:\\Games\\MO2"]

def candidatePfPaths : List String := ["C:\\Program Files", "C:\\Program Files (x86)"]

/-- The directory of an executable, if it is there and in the sandbox. -/
def candidate (exe : PurePath fl) : Option (Location fl) :=
  match fs.resolve true exe with
  | .ok resolvedExe => match validate u fs validator true resolvedExe.parent.toPath with
      | .ok validated => some validated
      | .error _ => none
  | .error _ => none

def isDir (path : PurePath fl) : Bool :=
  match fs.resolve true path with
  | .ok location => location.parts = [] || match fs.entry location with
      | some .directory => true
      | _ => false
  | .error _ => false

section

variable (env : Environment)

/-- The directories below `LOCALAPPDATA/ModOrganizer`; a loop of links on the way to it is not
caught. -/
def detectLocal : Except ResolveError (Option (Location fl)) :=
  if env.localAppData = [] then .ok none
  else match fs.resolve true (child u (parse fl env.localAppData) "ModOrganizer") with
    | .ok resolvedMd => .ok <| ((fs.listdir resolvedMd).getD []).findSome? fun name =>
        let path := join u resolvedMd.toPath (parse fl name.1)
        if isDir fs path then candidate u fs validator (child u path "ModOrganizer.exe") else none
    | .error .notFound => .ok none
    | .error error => .error error

def detectMo2Path : Except ResolveError (Option (Location fl)) :=
  match candidateMo2Paths.findSome? fun raw =>
      candidate u fs validator (child u (parse fl raw.toList) "ModOrganizer.exe") with
  | some validated => .ok (some validated)
  | none => match detectLocal u fs validator env with
    | .error error => .error error
    | .ok (some validated) => .ok (some validated)
    | .ok none => .ok <| candidatePfPaths.findSome? fun raw =>
        candidate u fs validator
          (child u (child u (parse fl raw.toList) "Mod Organizer 2") "ModOrganizer.exe")

/-! ## The paths that are returned -/

inductive PathError
  | unresolved (error : ResolveError)
  /-- `No se pudo resolver ni validar la ruta de modlist para el perfil '…'. …` -/
  | noModlist (profile : List Char)
  /-- `No se pudo detectar la ruta de MO2. …` -/
  | noMods

/-- `base / "profiles" / profile / "modlist.txt"` -/
def modlistOf (base : PurePath fl) (profile : List Char) : PurePath fl :=
  child u (join u (child u base "profiles") (parse fl profile)) "modlist.txt"

def resolveModlistPath (profile : List Char) :
    Except PathError (PurePath fl) :=
  match validateEnvPath u fs validator env.mo2Path with
  | some base => .ok (modlistOf u base.toPath profile)
  | none => match detectMo2Path u fs validator env with
    | .error error => .error (.unresolved error)
    | .ok (some base) => .ok (modlistOf u base.toPath profile)
    | .ok none =>
        match validate u fs validator true
            (modlistOf u (parse fl "/mnt/c/Modding/MO2".toList) profile) with
        | .ok validated => .ok validated.toPath
        | .error _ => .error (.noModlist profile)

/-- `path.resolve(strict=True)`; only an `OSError` is caught. -/
def strictly (path : PurePath fl) : Except PathError (Option (Location fl)) :=
  match fs.resolve true path with
  | .ok resolved => .ok (some resolved)
  | .error .notFound => .ok none
  | .error error => .error (.unresolved error)

/-- The directory that `MO2_MODS_PATH` names. -/
def modsOfVariable : Except PathError (Option (Location fl)) :=
  match validateEnvPath u fs validator env.mo2ModsPath with
  | some validated => strictly fs validated.toPath
  | none => .ok none

/-- The directory `mods` of Mod Organizer. -/
def modsOf (base : Option (Location fl)) : Except PathError (Option (Location fl)) :=
  match base with
  | some base => strictly fs (child u base.toPath "mods")
  | none => .ok none

def getMo2ModsPath : Except PathError (Location fl) :=
  match modsOfVariable u fs validator env with
  | .error error => .error error
  | .ok (some resolved) => .ok resolved
  | .ok none => match modsOf u fs (validateEnvPath u fs validator env.mo2Path) with
    | .error error => .error error
    | .ok (some resolved) => .ok resolved
    | .ok none => match detectMo2Path u fs validator env with
      | .error error => .error (.unresolved error)
      | .ok base => match modsOf u fs base with
        | .error error => .error error
        | .ok (some resolved) => .ok resolved
        | .ok none => .error .noMods

def getActiveProfile (profileName : List Char) : List Char :=
  if env.mo2Profile ≠ [] then env.mo2Profile
  else if profileName ≠ [] then profileName
  else "Default".toList

/-- **Whatever is returned lies in the sandbox.** -/
structure ReturnedAccepted (profile : List Char) : Prop where
  modlist : ∀ path, resolveModlistPath u fs validator env profile = .ok path →
    Accepted u fs validator path
  mods : ∀ location, getMo2ModsPath u fs validator env = .ok location →
    Accepted u fs validator location.toPath
  mo2 : ∀ location, detectMo2Path u fs validator env = .ok (some location) →
    Accepted u fs validator location.toPath

/-- The links on the way lead to a place in the sandbox, which is there if the path is a link itself. -/
def LeadsInside (path : PurePath fl) : Prop :=
  (∃ found, fs.resolve false path = .ok found ∧ Inside u validator found) ∧
    (fs.isSymlink path = true → ∃ found, fs.resolve true path = .ok found)

/-- The directory that a profile is looked for in. -/
def ProfileBase (base : Location fl) : Prop :=
  validateEnvPath u fs validator env.mo2Path = some base ∨
    validateEnvPath u fs validator env.mo2Path = none ∧
      detectMo2Path u fs validator env = .ok (some base)

/-- The name of the profile has no component `..`, and the links on the way to its `modlist.txt` lead
into the sandbox. -/
def ProfileStays (profile : List Char) : Prop :=
  ∀ base, ProfileBase u fs validator env base →
    parentName ∉ (parse fl profile).parts ∧
      LeadsInside u fs validator (modlistOf u base.toPath profile)

/-- A directory whose `mods` is looked for. -/
def ModsBase (base : Location fl) : Prop :=
  modsOfVariable u fs validator env = .ok none ∧
    (validateEnvPath u fs validator env.mo2Path = some base ∨
      modsOf u fs (validateEnvPath u fs validator env.mo2Path) = .ok none ∧
        detectMo2Path u fs validator env = .ok (some base))

/-- If `mods` is a link, it leads into the sandbox. -/
def ModsStay : Prop :=
  ∀ base found, ModsBase u fs validator env base →
    fs.isSymlink (child u base.toPath "mods") = true →
    fs.resolve true (child u base.toPath "mods") = .ok found → Inside u validator found

end

/-- No link lies on the way to it, and it is in the sandbox. -/
def Validated (location : Location fl) : Prop := fs.Resolved location ∧ Inside u validator location

variable {u fs validator}

/-! ## What is accepted -/

theorem checkSymlink_eq_ok_iff {path : PurePath fl} :
    checkSymlink u fs validator path = .ok () ↔
      ∃ target, fs.resolve true path = .ok target ∧ Inside u validator target := by
  unfold checkSymlink
  split
  · next target htarget =>
    rw [htarget]
    split
    · next hinside => exact iff_of_true rfl ⟨target, rfl, hinside⟩
    · next hinside =>
      refine iff_of_false nofun ?_
      rintro ⟨target', heq, hinside'⟩
      exact hinside (Except.ok.inj heq ▸ hinside')
  · next herror =>
    rw [herror]
    exact iff_of_false nofun fun ⟨_, h, _⟩ => by cases h
  · next herror =>
    rw [herror]
    exact iff_of_false nofun fun ⟨_, h, _⟩ => by cases h

variable {location : Location fl}

/-- The end of `validate`. -/
theorem resolved_inside_iff {path : PurePath fl} :
    (match fs.resolve false path with
      | .ok resolved =>
          if Inside u validator resolved then .ok resolved
          else .error (.outsideRoots resolved validator.roots)
      | .error error => .error (.unresolved error) : Except (Violation fl) (Location fl)) =
        .ok location ↔ fs.resolve false path = .ok location ∧ Inside u validator location := by
  split
  · next resolved hresolved =>
    rw [hresolved, Except.ok.injEq]
    split
    · next hinside =>
      rw [Except.ok.injEq]
      exact ⟨fun heq => ⟨heq, heq ▸ hinside⟩, fun h => h.1⟩
    · next hinside =>
      refine iff_of_false nofun ?_
      rintro ⟨rfl, h⟩
      exact hinside h
  · next herror =>
    rw [herror]
    exact iff_of_false nofun fun h => by cases h.1

/-- **What `validate` returns**: where the path leads to, which is in the sandbox. -/
theorem validate_eq_ok_iff {path : PurePath fl} :
    validate u fs validator true path = .ok location ↔
      parentName ∉ path.parts ∧ fs.resolve false path = .ok location ∧
        Inside u validator location ∧
        (fs.isSymlink path = true → ∃ found, fs.resolve true path = .ok found) := by
  unfold validate
  by_cases hparent : parentName ∈ path.parts
  · rw [if_pos hparent]
    exact iff_of_false nofun fun h => h.1 hparent
  · rw [if_neg hparent]
    cases hlink : fs.isSymlink path with
    | false =>
        exact resolved_inside_iff.trans ⟨fun h => ⟨hparent, h.1, h.2, fun h => by cases h⟩,
          fun h => ⟨h.2.1, h.2.2.1⟩⟩
    | true =>
        have hpos : (if (true && true) = true then checkSymlink u fs validator path else .ok ()) =
            checkSymlink u fs validator path := if_pos rfl
        rw [hpos]
        cases hcheck : checkSymlink u fs validator path with
        | error violation =>
            refine iff_of_false nofun ?_
            rintro ⟨-, hresolved, hinside, htarget⟩
            obtain ⟨found, hfound⟩ := htarget rfl
            -- Strict or not, the path leads to one place.
            obtain rfl := Except.ok.inj ((FileSystem.resolve_of_strict hfound).symm.trans hresolved)
            have hok := checkSymlink_eq_ok_iff.mpr ⟨found, hfound, hinside⟩
            cases hcheck.symm.trans hok
        | ok checked =>
            obtain ⟨found, hfound, -⟩ := checkSymlink_eq_ok_iff.mp hcheck
            exact resolved_inside_iff.trans ⟨fun h => ⟨hparent, h.1, h.2, fun _ => ⟨found, hfound⟩⟩,
              fun h => ⟨h.2.1, h.2.2.1⟩⟩

theorem accepted_iff {path : PurePath fl} :
    Accepted u fs validator path ↔ parentName ∉ path.parts ∧ LeadsInside u fs validator path := by
  constructor
  · rintro ⟨location, h⟩
    obtain ⟨hparent, hresolved, hinside, htarget⟩ := validate_eq_ok_iff.mp h
    exact ⟨hparent, ⟨location, hresolved, hinside⟩, htarget⟩
  · rintro ⟨hparent, ⟨location, hresolved, hinside⟩, htarget⟩
    exact ⟨location, validate_eq_ok_iff.mpr ⟨hparent, hresolved, hinside, htarget⟩⟩

theorem accepted_toPath_iff (h : fs.Resolved location) :
    Accepted u fs validator location.toPath ↔ Inside u validator location := by
  rw [accepted_iff]
  unfold LeadsInside
  rw [FileSystem.resolve_toPath_of_resolved h, FileSystem.isSymlink_toPath_of_resolved h]
  constructor
  · rintro ⟨-, ⟨found, heq, hinside⟩, -⟩
    exact Except.ok.inj heq ▸ hinside
  · intro hinside
    exact ⟨location.resolved, ⟨location, rfl, hinside⟩, fun hfalse => by cases hfalse⟩

/-! ## What has been validated -/

theorem validated_of_validate {path : PurePath fl}
    (h : validate u fs validator true path = .ok location) : Validated u fs validator location := by
  obtain ⟨-, hresolved, hinside, -⟩ := validate_eq_ok_iff.mp h
  exact ⟨FileSystem.resolved_of_resolve hresolved, hinside⟩

/-- **What was validated is accepted.** -/
theorem Validated.accepted (h : Validated u fs validator location) :
    Accepted u fs validator location.toPath := (accepted_toPath_iff h.1).mpr h.2

theorem validated_of_validateEnvPath {text : List Char}
    (h : validateEnvPath u fs validator text = some location) :
    Validated u fs validator location := by
  unfold validateEnvPath at h
  split at h
  · cases h
  · split at h
    · next validated hvalidated =>
      cases h
      exact validated_of_validate hvalidated
    · cases h

theorem validated_of_candidate {exe : PurePath fl}
    (h : candidate u fs validator exe = some location) : Validated u fs validator location := by
  unfold candidate at h
  split at h
  · split at h
    · next validated hvalidated =>
      cases h
      exact validated_of_validate hvalidated
    · cases h
  · cases h

variable {env : Environment}

theorem validated_of_detectLocal
    (h : detectLocal u fs validator env = .ok (some location)) :
    Validated u fs validator location := by
  unfold detectLocal at h
  split at h
  · cases h
  · split at h
    · obtain ⟨name, -, hname⟩ := List.exists_of_findSome?_eq_some (Except.ok.inj h)
      dsimp only at hname
      split at hname
      · exact validated_of_candidate hname
      · cases hname
    · cases h
    · cases h

theorem validated_of_detectMo2Path
    (h : detectMo2Path u fs validator env = .ok (some location)) :
    Validated u fs validator location := by
  unfold detectMo2Path at h
  split at h
  · next validated hvalidated =>
    cases h
    obtain ⟨raw, -, hraw⟩ := List.exists_of_findSome?_eq_some hvalidated
    exact validated_of_candidate hraw
  · split at h
    · cases h
    · next validated hvalidated =>
      cases h
      exact validated_of_detectLocal hvalidated
    · obtain ⟨raw, -, hraw⟩ := List.exists_of_findSome?_eq_some (Except.ok.inj h)
      exact validated_of_candidate hraw

variable {base : Location fl}

theorem ModsBase.validated
    (h : ModsBase u fs validator env base) : Validated u fs validator base :=
  h.2.elim validated_of_validateEnvPath fun h => validated_of_detectMo2Path h.2

/-! ## The modlist of a profile -/

theorem parentName_mem_join {base path : PurePath fl} (h : parentName ∉ base.parts) :
    parentName ∈ (join u base path).parts ↔ parentName ∈ path.parts := by
  unfold join
  split
  · split
    · exact Iff.rfl
    · exact Iff.rfl
  · split
    · exact List.mem_append.trans ⟨fun h' => h'.resolve_left h, Or.inr⟩
    · exact Iff.rfl

theorem child_eq (base : PurePath fl) {text : String} (h : IsFileName fl text.toList) :
    child u base text = { base with parts := base.parts ++ [text.toList] } := by
  unfold child
  rw [parse_fileName h]
  rfl

theorem isFileName_profiles : IsFileName fl "profiles".toList := by
  cases fl <;> decide

theorem isFileName_modlist : IsFileName fl "modlist.txt".toList := by
  cases fl <;> decide

theorem isFileName_mods : IsFileName fl "mods".toList := by
  cases fl <;> decide

theorem parentName_mem_modlistOf (base : Location fl) (profile : List Char) :
    parentName ∈ (modlistOf u base.toPath profile).parts ↔
      parentName ∈ (parse fl profile).parts := by
  have hprofiles : parentName ∉ (child u base.toPath "profiles").parts := by
    rw [child_eq base.toPath isFileName_profiles]
    show parentName ∉ base.parts ++ ["profiles".toList]
    rw [List.mem_append, List.mem_singleton]
    exact not_or_intro base.resolved (by decide)
  unfold modlistOf
  rw [child_eq _ isFileName_modlist]
  show parentName ∈ (join u (child u base.toPath "profiles") (parse fl profile)).parts ++
    ["modlist.txt".toList] ↔ _
  rw [List.mem_append, List.mem_singleton, parentName_mem_join hprofiles]
  exact or_iff_left (by decide)

variable {profile : List Char}

theorem accepted_modlistOf_iff :
    Accepted u fs validator (modlistOf u base.toPath profile) ↔
      parentName ∉ (parse fl profile).parts ∧
        LeadsInside u fs validator (modlistOf u base.toPath profile) := by
  rw [accepted_iff, parentName_mem_modlistOf]

theorem resolveModlistPath_of_base
    (h : ProfileBase u fs validator env base) :
    resolveModlistPath u fs validator env profile = .ok (modlistOf u base.toPath profile) := by
  unfold resolveModlistPath
  rcases h with henv | ⟨henv, hdetect⟩
  · rw [henv]
  · rw [henv, hdetect]

theorem of_resolveModlistPath {path : PurePath fl}
    (h : resolveModlistPath u fs validator env profile = .ok path) :
    (∃ base, ProfileBase u fs validator env base ∧ path = modlistOf u base.toPath profile) ∨
      Accepted u fs validator path := by
  unfold resolveModlistPath at h
  split at h
  · next base hbase => exact .inl ⟨base, .inl hbase, (Except.ok.inj h).symm⟩
  · next henv =>
    split at h
    · cases h
    · next base hbase => exact .inl ⟨base, .inr ⟨henv, hbase⟩, (Except.ok.inj h).symm⟩
    · split at h
      · next validated hvalidated =>
        cases h
        exact .inr (validated_of_validate hvalidated).accepted
      · cases h

theorem modlist_accepted_iff :
    (∀ path, resolveModlistPath u fs validator env profile = .ok path →
      Accepted u fs validator path) ↔ ProfileStays u fs validator env profile := by
  constructor
  · intro h base hbase
    exact accepted_modlistOf_iff.mp (h _ (resolveModlistPath_of_base hbase))
  · intro hstays path hpath
    rcases of_resolveModlistPath hpath with ⟨base, hbase, rfl⟩ | haccepted
    · exact accepted_modlistOf_iff.mpr (hstays base hbase)
    · exact haccepted

/-! ## The directory of the mods -/

theorem strictly_eq_some {path : PurePath fl} {found : Location fl} :
    strictly fs path = .ok (some found) ↔ fs.resolve true path = .ok found := by
  unfold strictly
  split
  · next resolved hresolved =>
    rw [hresolved, Except.ok.injEq, Except.ok.injEq, Option.some.injEq]
  · next herror =>
    rw [herror]
    exact iff_of_false nofun nofun
  · next herror =>
    rw [herror]
    exact iff_of_false nofun nofun

theorem validated_of_modsOfVariable {found : Location fl}
    (h : modsOfVariable u fs validator env = .ok (some found)) : Validated u fs validator found := by
  unfold modsOfVariable at h
  split at h
  · next validated henv =>
    have hvalidated := validated_of_validateEnvPath henv
    -- It is resolved once more, and stays what it is.
    obtain rfl := FileSystem.eq_of_resolve_toPath hvalidated.1 (strictly_eq_some.mp h)
    exact hvalidated
  · cases h

theorem modsOf_eq_some {base : Option (Location fl)} {found : Location fl} :
    modsOf u fs base = .ok (some found) ↔
      ∃ location, base = some location ∧
        fs.resolve true (child u location.toPath "mods") = .ok found := by
  cases base with
  | none => exact iff_of_false nofun fun ⟨_, h, _⟩ => by cases h
  | some location =>
      refine strictly_eq_some.trans ⟨fun h => ⟨location, rfl, h⟩, ?_⟩
      rintro ⟨location', heq, h⟩
      exact Option.some.inj heq ▸ h

theorem getMo2ModsPath_of_base {found : Location fl}
    (hbase : ModsBase u fs validator env base)
    (hfound : fs.resolve true (child u base.toPath "mods") = .ok found) :
    getMo2ModsPath u fs validator env = .ok found := by
  have hmods : modsOf u fs (some base) = .ok (some found) :=
    modsOf_eq_some.mpr ⟨base, rfl, hfound⟩
  obtain ⟨hvariable, henv | ⟨henv, hdetect⟩⟩ := hbase
  · unfold getMo2ModsPath
    rw [hvariable, henv, hmods]
  · unfold getMo2ModsPath
    rw [hvariable, henv, hdetect]
    simp only [hmods]

/-- The mods that are returned were validated, or are those of a directory that is looked at. -/
theorem of_getMo2ModsPath {found : Location fl}
    (h : getMo2ModsPath u fs validator env = .ok found) :
    Validated u fs validator found ∨
      ∃ base, ModsBase u fs validator env base ∧
        fs.resolve true (child u base.toPath "mods") = .ok found := by
  unfold getMo2ModsPath at h
  split at h
  · cases h
  · next resolved hvariable =>
    cases h
    exact .inl (validated_of_modsOfVariable hvariable)
  · next hvariable =>
    refine .inr ?_
    split at h
    · cases h
    · next resolved hmods =>
      cases h
      obtain ⟨base, hbase, hfound⟩ := modsOf_eq_some.mp hmods
      exact ⟨base, ⟨hvariable, .inl hbase⟩, hfound⟩
    · next hnone =>
      split at h
      · cases h
      · next detected hdetect =>
        split at h
        · cases h
        · next resolved hmods =>
          cases h
          obtain ⟨base, rfl, hfound⟩ := modsOf_eq_some.mp hmods
          exact ⟨base, ⟨hvariable, .inr ⟨hnone, hdetect⟩⟩, hfound⟩
        · cases h

theorem mods_ne_parentName : "mods".toList ≠ parentName := by decide

theorem child_mods (base : Location fl) :
    child u base.toPath "mods" = (base.child "mods".toList mods_ne_parentName).toPath :=
  child_eq base.toPath isFileName_mods

theorem inside_child (h : Inside u validator base) {name : List Char}
    (hname : name ≠ parentName) : Inside u validator (base.child name hname) := by
  obtain ⟨root, hroot, hbase⟩ := h
  exact ⟨root, hroot, (isRelativeTo_append base _).trans hbase⟩

theorem mods_accepted_iff :
    (∀ location, getMo2ModsPath u fs validator env = .ok location →
      Accepted u fs validator location.toPath) ↔ ModsStay u fs validator env := by
  constructor
  · intro h base found hbase _ hfound
    have haccepted := h found (getMo2ModsPath_of_base hbase hfound)
    exact (accepted_toPath_iff (FileSystem.resolved_of_resolve hfound)).mp haccepted
  · intro hstay found h
    rcases of_getMo2ModsPath h with hvalidated | ⟨base, hbase, hfound⟩
    · exact hvalidated.accepted
    · refine (accepted_toPath_iff (FileSystem.resolved_of_resolve hfound)).mpr ?_
      have hvalidated := hbase.validated
      rw [child_mods] at hfound
      rcases FileSystem.isSymlink_or_eq (by decide) hvalidated.1 hfound with hlink | rfl
      · rw [← child_mods] at hlink hfound
        exact hstay base found hbase hlink hfound
      · exact inside_child hvalidated.2 _

/-- **The paths that are returned are accepted just if the profile stays in the sandbox and `mods` is
no link out of it.** -/
theorem returned_accepted_iff (fs : FileSystem fl) (u : UnicodeText) (validator : PathValidator fl)
    (env : Environment) (profile : List Char) :
    ReturnedAccepted u fs validator env profile ↔
      ProfileStays u fs validator env profile ∧ ModsStay u fs validator env := by
  constructor
  · intro h
    exact ⟨modlist_accepted_iff.mp h.modlist, mods_accepted_iff.mp h.mods⟩
  · rintro ⟨hprofile, hmods⟩
    refine ⟨modlist_accepted_iff.mpr hprofile, mods_accepted_iff.mpr hmods, ?_⟩
    exact fun location h => (validated_of_detectMo2Path h).accepted

/-- A file system with one directory. -/
def modOrganizer : FileSystem .posix where
  entry location := if location.parts = ["mo2".toList] then some .directory else none
  links := []
  mem_links location target h := by
    split at h
    · cases Option.some.inj h
    · cases h
  listdir _ := none
  cwd _ := ⟨[], [], posix_drive, parentName_not_mem_nil⟩

def mo2Root : Location .posix := ⟨[], ["mo2".toList], posix_drive, by decide⟩

/-- The profile `../../etc` leads out of it. -/
theorem returned_accepted_counterexample :
    ¬ReturnedAccepted .basic modOrganizer ⟨[mo2Root], by decide⟩
      ⟨"/mo2".toList, [], [], "../../etc".toList⟩
      (getActiveProfile ⟨"/mo2".toList, [], [], "../../etc".toList⟩ "Default".toList) := by
  intro h
  have hbase : ProfileBase .basic modOrganizer ⟨[mo2Root], by decide⟩
      ⟨"/mo2".toList, [], [], "../../etc".toList⟩ mo2Root := .inl (by decide)
  exact (modlist_accepted_iff.mp h.modlist mo2Root hbase).1 (by decide)

end SkyClaw.Core.PathResolver
