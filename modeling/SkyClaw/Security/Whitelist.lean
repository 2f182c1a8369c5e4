import SkyClaw.Lib.Effects
import SkyClaw.Lib.Runs
import Mathlib.Data.Finset.Sort

/-!
# The whitelist of the governance manager

`save_whitelist` writes the approved hashes and their signature to temporary files and
renames them one after the other; `_load_whitelist` rejects a list whose signature does not
fit.  `savesRoundTrip` says what a later load finds after each way a save can end while the
key file can be used; `savesRoundTrip_counterexample` has a save without a key file, which
takes the list's temporary file away for the key, and one that stops between the renames.
-/

namespace SkyClaw.Security.Whitelist

open Function

/-! ## File names -/

/-- `Path.with_suffix` on a file name. -/
def withSuffix (name suffix : String) : String :=
  let extension := (name.toList.reverse.takeWhile (· ≠ '.')).length
  let stem := name.length - extension - 1
  if extension < name.length ∧ 0 < stem ∧ 0 < extension then
    String.ofList (name.toList.take stem) ++ suffix
  else name ++ suffix

def whitelistPath : String := ".purple_whitelist.json"

def hmacKeyPath : String := whitelistPath ++ ".hmac_key"

def hmacSigPath : String := whitelistPath ++ ".hmac"

def wlTmp : String := withSuffix whitelistPath ".json.tmp"

def sigTmp : String := withSuffix hmacSigPath ".hmac.tmp"

/-- `tmp_path`, of a new key. -/
def keyTmp : String := withSuffix hmacKeyPath ".tmp"

/-! ## File operations -/

/-- The files of the state directory, by name. -/
abbrev Files (Bytes : Type) := String → Option Bytes

/-- What ends a call early. -/
inductive Halt
  /-- An `OSError`; a `PermissionError` or another one. -/
  | raised (permission : Bool)
  /-- The process is gone. -/
  | stopped
deriving DecidableEq

/-- How a read, an unlink or a rename ends; the process may stop before it. -/
inductive OpEnd
  | done
  | raises (permission : Bool)
  | stops
deriving DecidableEq

/-- How `write_bytes` or `write_text` of a temporary file ends; `left` is what a failed one
leaves there. -/
inductive WriteEnd (Bytes : Type)
  | done
  | raises (permission : Bool) (left : Option Bytes)
  | stops

/-- How `restrict_to_owner` ends; on Windows it removes the file before it raises. -/
inductive RestrictEnd
  | done
  | raises (unlinked : Bool)
  | stops
deriving DecidableEq

variable {Bytes : Type}

abbrev Op (Bytes α : Type) := Proc (Files Bytes) Halt α

open Proc

def writeFile (path : String) (content : Bytes) : WriteEnd Bytes → Op Bytes Unit
  | .done => modify fun files => update files path (some content)
  | .raises permission left => fun files =>
      (.error (.raised permission), update files path left)
  | .stops => raise .stopped

def restrictToOwner (path : String) (answer : RestrictEnd) : Op Bytes Unit := fun files =>
  match files path with
  | none => (.ok (), files)
  | some _ =>
      match answer with
      | .done => (.ok (), files)
      | .raises unlinked =>
          (.error (.raised true), if unlinked then update files path none else files)
      | .stops => (.error .stopped, files)

/-- `path.read_bytes()`. -/
def readFile (path : String) (answer : OpEnd) : Op Bytes Bytes := fun files =>
  match answer with
  | .stops => (.error .stopped, files)
  | .raises permission => (.error (.raised permission), files)
  | .done =>
      match files path with
      | none => (.error (.raised false), files)
      | some content => (.ok content, files)

/-- `path.unlink(missing_ok=True)`. -/
def unlinkFile (path : String) (answer : OpEnd) : Op Bytes Unit := fun files =>
  match answer with
  | .stops => (.error .stopped, files)
  | .raises permission => (.error (.raised permission), files)
  | .done => (.ok (), update files path none)

/-- `path.replace(target)`. -/
def replaceFile (path target : String) (answer : OpEnd) : Op Bytes Unit := fun files =>
  match answer with
  | .stops => (.error .stopped, files)
  | .raises permission => (.error (.raised permission), files)
  | .done =>
      match files path with
      | none => (.error (.raised false), files)
      | some content =>
          (.ok (), update (update files target (some content)) path none)

/-- `with contextlib.suppress(OSError)`. -/
def suppressed (op : Op Bytes Unit) : Op Bytes Unit :=
  handle op fun
    | .raised _ => pure ()
    | .stopped => raise .stopped

/-! ## Saving and loading -/

/-- The list as JSON, as read back with its schema, and its signature. -/
structure Codec (Bytes Hash : Type) where
  /-- `json.dumps({"approved_hashes": hashes}, indent=4).encode("utf-8")`. -/
  dumps : List Hash → Bytes
  /-- `json.loads` and `WhitelistSchema.model_validate`, unless one of them raises. -/
  loads : Bytes → Option (List Hash)
  loads_dumps : ∀ hashes, loads (dumps hashes) = some hashes
  /-- `_compute_hmac`. -/
  hmac : Bytes → Bytes → Bytes
  /-- `read_text().strip()`, unless it raises. -/
  readSignature : Bytes → Option Bytes
  readSignature_hmac : ∀ content key, readSignature (hmac content key) = some (hmac content key)

/-- What the environment answers to a save. -/
structure Answers (Bytes Hash : Type) [DecidableEq Hash] where
  /-- The order in which a set is gone through. -/
  listing : (hashes : Finset Hash) → { l : List Hash // l.toFinset = hashes }
  /-- `os.urandom(32)`. -/
  newKey : Bytes
  writeWl : WriteEnd Bytes := .done
  restrictWl : RestrictEnd := .done
  restrictKey : RestrictEnd := .done
  readKey : OpEnd := .done
  unlinkKey : OpEnd := .done
  writeNewKey : WriteEnd Bytes := .done
  restrictNewKey : RestrictEnd := .done
  replaceKey : OpEnd := .done
  writeSig : WriteEnd Bytes := .done
  restrictSig : RestrictEnd := .done
  replaceWl : OpEnd := .done
  replaceSig : OpEnd := .done
  unlinkWlTmp : OpEnd := .done
  unlinkSigTmp : OpEnd := .done

variable {Hash : Type} [DecidableEq Hash]

/-- A new key, by way of its temporary file. -/
def newHmacKey (answers : Answers Bytes Hash) : Op Bytes Bytes := do
  writeFile keyTmp answers.newKey answers.writeNewKey
  restrictToOwner keyTmp answers.restrictNewKey
  replaceFile keyTmp hmacKeyPath answers.replaceKey
  return answers.newKey

/-- The key of the file, with its permissions tightened. -/
def existingHmacKey (answers : Answers Bytes Hash) : Op Bytes Bytes := do
  restrictToOwner hmacKeyPath answers.restrictKey
  readFile hmacKeyPath answers.readKey

def getOrCreateHmacKey (answers : Answers Bytes Hash) : Op Bytes Bytes := do
  if (← read fun files => (files hmacKeyPath).isSome) then
    handle (existingHmacKey answers) fun
      | .raised true => do
          suppressed (unlinkFile hmacKeyPath answers.unlinkKey)
          newHmacKey answers
      | halt => raise halt
  else newHmacKey answers

variable (codec : Codec Bytes Hash)

/-- Phase 1 of `save_whitelist`: write to temp files. -/
def writeTemps (raw : Bytes) (answers : Answers Bytes Hash) : Op Bytes Unit := do
  writeFile wlTmp raw answers.writeWl
  restrictToOwner wlTmp answers.restrictWl
  let key ← getOrCreateHmacKey answers
  writeFile sigTmp (codec.hmac raw key) answers.writeSig
  restrictToOwner sigTmp answers.restrictSig

/-- Phase 2: atomic rename. -/
def renameTemps (answers : Answers Bytes Hash) : Op Bytes Unit := do
  replaceFile wlTmp whitelistPath answers.replaceWl
  replaceFile sigTmp hmacSigPath answers.replaceSig

/-- The `try` block of `save_whitelist`. -/
def saveFiles (whitelist : Finset Hash) (answers : Answers Bytes Hash) : Op Bytes Unit := do
  writeTemps codec (codec.dumps (answers.listing whitelist).1) answers
  renameTemps answers

/-- The `finally` block of `save_whitelist`. -/
def cleanUp (answers : Answers Bytes Hash) : Op Bytes Unit := do
  suppressed (unlinkFile wlTmp answers.unlinkWlTmp)
  suppressed (unlinkFile sigTmp answers.unlinkSigTmp)

def saveWhitelist (whitelist : Finset Hash) (answers : Answers Bytes Hash) : Op Bytes Unit :=
  handle (saveFiles codec whitelist answers) fun
    | .raised permission => do
        cleanUp answers
        raise (.raised permission)
    | .stopped => raise .stopped

/-- `_load_whitelist`; none where it raises `RuntimeError`. -/
def loadWhitelist [DecidableEq Bytes] (files : Files Bytes) : Option (Finset Hash) :=
  match files whitelistPath with
  | none => some ∅
  | some raw =>
      match files hmacKeyPath with
      | none => (codec.loads raw).map List.toFinset
      | some key =>
          match files hmacSigPath with
          | none => none
          | some signature =>
              if codec.readSignature signature = some (codec.hmac raw key) then
                (codec.loads raw).map List.toFinset
              else none

/-- The state directory and the manager of the process, if it could be made. -/
structure State (Bytes Hash : Type) where
  files : Files Bytes
  manager : Option (Finset Hash)

inductive Action (Bytes Hash : Type) [DecidableEq Hash]
  /-- `approve_file`, for the hash of the file unless it cannot be read. -/
  | approve (hash : Option Hash) (answers : Answers Bytes Hash)
  /-- A new process. -/
  | restart

/-- One call, in the process that is there or in a new one if it stops. -/
def step [DecidableEq Bytes] (s : State Bytes Hash) : Action Bytes Hash → Option (State Bytes Hash)
  | .restart => some { s with manager := loadWhitelist codec s.files }
  | .approve hash answers =>
      match s.manager, hash with
      | none, _ => none
      | some _, none => some s
      | some whitelist, some hash =>
          match saveWhitelist codec (insert hash whitelist) answers s.files with
          | (.error .stopped, files) => some ⟨files, loadWhitelist codec files⟩
          | (_, files) => some ⟨files, some (insert hash whitelist)⟩

/-! ## Frames -/

variable {q : String}

theorem writeFile_of_ne {path : String} (hne : q ≠ path) (content : Bytes)
    (answer : WriteEnd Bytes) (files : Files Bytes) :
    (writeFile path content answer files).2 q = files q := by
  cases answer with
  | done | raises => exact update_of_ne hne _ _
  | stops => rfl

theorem restrictToOwner_of_ne {path : String} (hne : q ≠ path) (answer : RestrictEnd)
    (files : Files Bytes) : (restrictToOwner path answer files).2 q = files q := by
  unfold restrictToOwner
  cases files path with
  | none => rfl
  | some content =>
      cases answer with
      | done | stops => rfl
      | raises unlinked =>
          cases unlinked with
          | false => rfl
          | true => exact update_of_ne hne _ _

theorem unlinkFile_of_ne {path : String} (hne : q ≠ path) (answer : OpEnd)
    (files : Files Bytes) : (unlinkFile path answer files).2 q = files q := by
  cases answer with
  | done => exact update_of_ne hne _ _
  | raises | stops => rfl

/-- The files that a load reads are the same. -/
def SameSaved (files files' : Files Bytes) : Prop :=
  files' whitelistPath = files whitelistPath ∧ files' hmacKeyPath = files hmacKeyPath ∧
    files' hmacSigPath = files hmacSigPath

theorem SameSaved.trans {f g h : Files Bytes} (hfg : SameSaved f g) (hgh : SameSaved g h) :
    SameSaved f h :=
  ⟨hgh.1.trans hfg.1, hgh.2.1.trans hfg.2.1, hgh.2.2.trans hfg.2.2⟩

theorem SameSaved.loadWhitelist_eq [DecidableEq Bytes] {files files' : Files Bytes}
    (h : SameSaved files files') : loadWhitelist codec files' = loadWhitelist codec files := by
  unfold loadWhitelist
  rw [h.1, h.2.1, h.2.2]

theorem sameSaved_bind {α β : Type} {p : Op Bytes α} {f : α → Op Bytes β} {files : Files Bytes}
    (hp : SameSaved files (p files).2)
    (hf : ∀ a t, p files = (.ok a, t) → SameSaved t (f a t).2) :
    SameSaved files ((p >>= f) files).2 := by
  cases hrun : p files with
  | mk result t =>
      rw [hrun] at hp
      cases result with
      | ok a =>
          rw [bind_of_ok hrun]
          exact hp.trans (hf a t hrun)
      | error e =>
          rw [bind_of_error hrun]
          exact hp

/-- A name that is not one of the three that a load reads. -/
def Unread (path : String) : Prop :=
  whitelistPath ≠ path ∧ hmacKeyPath ≠ path ∧ hmacSigPath ≠ path

theorem unread_wlTmp : Unread wlTmp := ⟨by decide, by decide, by decide⟩

theorem unread_sigTmp : Unread sigTmp := ⟨by decide, by decide, by decide⟩

theorem Unread.writeFile {path : String} (h : Unread path) (content : Bytes)
    (answer : WriteEnd Bytes) (files : Files Bytes) :
    SameSaved files (writeFile path content answer files).2 :=
  ⟨writeFile_of_ne h.1 _ _ _, writeFile_of_ne h.2.1 _ _ _, writeFile_of_ne h.2.2 _ _ _⟩

theorem Unread.restrictToOwner {path : String} (h : Unread path) (answer : RestrictEnd)
    (files : Files Bytes) : SameSaved files (restrictToOwner path answer files).2 :=
  ⟨restrictToOwner_of_ne h.1 _ _, restrictToOwner_of_ne h.2.1 _ _,
    restrictToOwner_of_ne h.2.2 _ _⟩

theorem Unread.suppressed_unlinkFile {path : String} (h : Unread path) (answer : OpEnd)
    (files : Files Bytes) :
    SameSaved files (suppressed (unlinkFile path answer) files).2 := by
  have hunlink : SameSaved files (unlinkFile path answer files).2 :=
    ⟨unlinkFile_of_ne h.1 _ _, unlinkFile_of_ne h.2.1 _ _, unlinkFile_of_ne h.2.2 _ _⟩
  cases answer with
  | done | raises | stops => exact hunlink

theorem cleanUp_sameSaved (answers : Answers Bytes Hash) (files : Files Bytes) :
    SameSaved files (cleanUp answers files).2 :=
  sameSaved_bind (unread_wlTmp.suppressed_unlinkFile _ _)
    fun _ _ _ => unread_sigTmp.suppressed_unlinkFile _ _

/-! ## What a save does -/

/-- The key can be used as it is. -/
def KeyUsable (files : Files Bytes) (answers : Answers Bytes Hash) : Prop :=
  (files hmacKeyPath).isSome = true ∧ answers.restrictKey = .done ∧ answers.readKey = .done

variable {answers : Answers Bytes Hash}

theorem getOrCreateHmacKey_of_usable {files : Files Bytes}
    {key : Bytes} (hkey : files hmacKeyPath = some key) (hrestrict : answers.restrictKey = .done)
    (hread : answers.readKey = .done) :
    getOrCreateHmacKey answers files = (.ok key, files) := by
  have hfirst : restrictToOwner hmacKeyPath answers.restrictKey files = (.ok (), files) := by
    rw [hrestrict, restrictToOwner, hkey]
  have hsecond : readFile hmacKeyPath answers.readKey files = (.ok key, files) := by
    rw [hread, readFile, hkey]
  have hexisting : existingHmacKey answers files = (.ok key, files) := by
    unfold existingHmacKey
    rw [bind_of_ok hfirst, hsecond]
  unfold getOrCreateHmacKey
  rw [bind_of_ok (read_apply _ files), hkey, Option.isSome_some, if_pos rfl]
  exact handle_of_ok hexisting

def WriteEnd.isDone : WriteEnd Bytes → Bool
  | .done => true
  | _ => false

/-- Every operation of phase 1 on a temporary file succeeds. -/
def Answers.prepares (answers : Answers Bytes Hash) : Prop :=
  answers.writeWl.isDone = true ∧ answers.restrictWl = .done ∧
    answers.writeSig.isDone = true ∧ answers.restrictSig = .done

variable {raw : Bytes}

theorem writeTemps_sameSaved {files : Files Bytes}
    (husable : KeyUsable files answers) :
    SameSaved files (writeTemps codec raw answers files).2 := by
  obtain ⟨hsome, hrestrict, hread⟩ := husable
  obtain ⟨key, hkey⟩ := Option.isSome_iff_exists.mp hsome
  refine sameSaved_bind (unread_wlTmp.writeFile _ _ _) fun _ t ht => ?_
  have htkey : t hmacKeyPath = some key := by
    have h := (unread_wlTmp.writeFile raw answers.writeWl files).2.1
    rw [ht] at h
    exact h.trans hkey
  refine sameSaved_bind (unread_wlTmp.restrictToOwner _ _) fun _ v hv => ?_
  have hvkey : v hmacKeyPath = some key := by
    have h := (unread_wlTmp.restrictToOwner answers.restrictWl t).2.1
    rw [hv] at h
    exact h.trans htkey
  have hget := getOrCreateHmacKey_of_usable hvkey hrestrict hread
  rw [bind_of_ok hget]
  exact sameSaved_bind (unread_sigTmp.writeFile _ _ _)
    fun _ _ _ => unread_sigTmp.restrictToOwner _ _

variable {t : Files Bytes}

theorem writeFile_eq_ok_iff {path : String} {content : Bytes} {answer : WriteEnd Bytes}
    {files : Files Bytes} :
    writeFile path content answer files = (.ok (), t) ↔
      answer.isDone = true ∧ update files path (some content) = t := by
  cases answer <;> simp [writeFile, WriteEnd.isDone]

theorem restrictToOwner_eq_ok_iff {path : String} {answer : RestrictEnd} {content : Bytes}
    {files : Files Bytes} (hpath : files path = some content) :
    restrictToOwner path answer files = (.ok (), t) ↔ answer = .done ∧ files = t := by
  unfold restrictToOwner
  rw [hpath]
  cases answer <;> simp

variable {target : String} {answer : OpEnd}

theorem replaceFile_eq_ok_iff {path : String} {content : Bytes}
    {files : Files Bytes} (hpath : files path = some content) :
    replaceFile path target answer files = (.ok (), t) ↔
      answer = .done ∧
        update (update files target (some content)) path none = t := by
  unfold replaceFile
  rw [hpath]
  cases answer <;> simp

theorem replaceFile_of_ne_done {path : String} (hne : answer ≠ .done)
    (files : Files Bytes) :
    ∃ halt, replaceFile path target answer files = (.error halt, files) := by
  cases answer with
  | done => exact absurd rfl hne
  | raises | stops => exact ⟨_, rfl⟩

/-- Phase 1 returns with both temporary files written. -/
theorem writeTemps_eq_ok_iff {key : Bytes} {files : Files Bytes} (hkey : files hmacKeyPath = some key)
    (hrestrict : answers.restrictKey = .done) (hread : answers.readKey = .done) :
    writeTemps codec raw answers files = (.ok (), t) ↔
      answers.prepares ∧
        update (update files wlTmp (some raw)) sigTmp
          (some (codec.hmac raw key)) = t := by
  have hget : getOrCreateHmacKey answers (update files wlTmp (some raw)) =
      (.ok key, update files wlTmp (some raw)) := by
    refine getOrCreateHmacKey_of_usable ?_ hrestrict hread
    rw [update_of_ne unread_wlTmp.2.1, hkey]
  have hwl : update files wlTmp (some raw) wlTmp = some raw :=
    update_self wlTmp (some raw) files
  have hsig : ∀ f : Files Bytes, update f sigTmp (some (codec.hmac raw key)) sigTmp =
      some (codec.hmac raw key) := fun f => update_self sigTmp _ f
  unfold writeTemps Answers.prepares
  constructor
  · intro h
    obtain ⟨_, _, hfirst, h⟩ := bind_eq_ok_iff.mp h
    obtain ⟨hwriteWl, rfl⟩ := writeFile_eq_ok_iff.mp hfirst
    obtain ⟨_, _, hsecond, h⟩ := bind_eq_ok_iff.mp h
    obtain ⟨hrestrictWl, rfl⟩ := (restrictToOwner_eq_ok_iff hwl).mp hsecond
    rw [bind_of_ok hget] at h
    obtain ⟨_, _, hthird, h⟩ := bind_eq_ok_iff.mp h
    obtain ⟨hwriteSig, rfl⟩ := writeFile_eq_ok_iff.mp hthird
    obtain ⟨hrestrictSig, rfl⟩ := (restrictToOwner_eq_ok_iff (hsig _)).mp h
    exact ⟨⟨hwriteWl, hrestrictWl, hwriteSig, hrestrictSig⟩, rfl⟩
  · rintro ⟨⟨hwriteWl, hrestrictWl, hwriteSig, hrestrictSig⟩, rfl⟩
    rw [bind_of_ok (writeFile_eq_ok_iff.mpr ⟨hwriteWl, rfl⟩),
      bind_of_ok ((restrictToOwner_eq_ok_iff hwl).mpr ⟨hrestrictWl, rfl⟩),
      bind_of_ok hget, bind_of_ok (writeFile_eq_ok_iff.mpr ⟨hwriteSig, rfl⟩)]
    exact (restrictToOwner_eq_ok_iff (hsig _)).mpr ⟨hrestrictSig, rfl⟩

theorem wlTmp_ne_sigTmp : wlTmp ≠ sigTmp := by decide

theorem saved_distinct : whitelistPath ≠ hmacKeyPath ∧ whitelistPath ≠ hmacSigPath ∧
    hmacKeyPath ≠ hmacSigPath := ⟨by decide, by decide, by decide⟩

/-- How the files that a load reads stand after a save: all renamed, or the list only, or as
they were. -/
inductive SaveEnds (raw key : Bytes) (files : Files Bytes) (answers : Answers Bytes Hash) :
    Except Halt Unit → Files Bytes → Prop
  | saved {t : Files Bytes} (hprepares : answers.prepares) (hwl : answers.replaceWl = .done)
      (hsig : answers.replaceSig = .done) (hlist : t whitelistPath = some raw)
      (hkey : t hmacKeyPath = some key)
      (hsignature : t hmacSigPath = some (codec.hmac raw key)) :
      SaveEnds raw key files answers (.ok ()) t
  | halved {halt : Halt} {t : Files Bytes} (hprepares : answers.prepares)
      (hwl : answers.replaceWl = .done) (hsig : answers.replaceSig ≠ .done)
      (hlist : t whitelistPath = some raw) (hkey : t hmacKeyPath = some key)
      (hsignature : t hmacSigPath = files hmacSigPath) :
      SaveEnds raw key files answers (.error halt) t
  | kept {halt : Halt} {t : Files Bytes}
      (hfailed : ¬(answers.prepares ∧ answers.replaceWl = .done)) (hsame : SameSaved files t) :
      SaveEnds raw key files answers (.error halt) t

theorem saveEnds_renameTemps {key : Bytes} {files : Files Bytes} (hkey : files hmacKeyPath = some key)
    (hprepares : answers.prepares)
    (hsame : SameSaved files (update (update files wlTmp (some raw)) sigTmp
      (some (codec.hmac raw key)))) :
    SaveEnds codec raw key files answers
      (renameTemps answers (update (update files wlTmp (some raw)) sigTmp
        (some (codec.hmac raw key)))).1
      (renameTemps answers (update (update files wlTmp (some raw)) sigTmp
        (some (codec.hmac raw key)))).2 := by
  obtain ⟨hwlKey, hwlSig, hkeySig⟩ := saved_distinct
  generalize htemps : update (update files wlTmp (some raw)) sigTmp
    (some (codec.hmac raw key)) = temps at hsame ⊢
  have htempWl : temps wlTmp = some raw := by
    rw [← htemps, update_of_ne wlTmp_ne_sigTmp, update_self]
  have htempSig : temps sigTmp = some (codec.hmac raw key) := by
    rw [← htemps, update_self]
  unfold renameTemps
  by_cases hwl : answers.replaceWl = .done
  · -- the list is renamed: the signature is the only file left to change
    rw [bind_of_ok ((replaceFile_eq_ok_iff htempWl).mpr ⟨hwl, rfl⟩)]
    generalize hrenamed : update (update temps whitelistPath (some raw)) wlTmp
      none = renamed
    have hlist : renamed whitelistPath = some raw := by
      rw [← hrenamed, update_of_ne unread_wlTmp.1, update_self]
    have hkeyKept : renamed hmacKeyPath = some key := by
      rw [← hrenamed, update_of_ne unread_wlTmp.2.1,
        update_of_ne hwlKey.symm, hsame.2.1, hkey]
    have hsigKept : renamed hmacSigPath = files hmacSigPath := by
      rw [← hrenamed, update_of_ne unread_wlTmp.2.2,
        update_of_ne hwlSig.symm, hsame.2.2]
    have hsigTmp : renamed sigTmp = some (codec.hmac raw key) := by
      rw [← hrenamed, update_of_ne wlTmp_ne_sigTmp.symm,
        update_of_ne unread_sigTmp.1.symm, htempSig]
    by_cases hsig : answers.replaceSig = .done
    · rw [(replaceFile_eq_ok_iff hsigTmp).mpr ⟨hsig, rfl⟩]
      dsimp only
      refine .saved hprepares hwl hsig ?_ ?_ ?_
      · rw [update_of_ne unread_sigTmp.1, update_of_ne hwlSig, hlist]
      · rw [update_of_ne unread_sigTmp.2.1, update_of_ne hkeySig, hkeyKept]
      · rw [update_of_ne unread_sigTmp.2.2, update_self]
    · obtain ⟨halt, hhalt⟩ := replaceFile_of_ne_done hsig renamed
      rw [hhalt]
      exact .halved hprepares hwl hsig hlist hkeyKept hsigKept
  · obtain ⟨halt, hhalt⟩ := replaceFile_of_ne_done hwl temps
    rw [bind_of_error hhalt]
    exact .kept (fun h => hwl h.2) hsame

theorem saveEnds_saveFiles {key : Bytes} {files : Files Bytes}
    (hkey : files hmacKeyPath = some key) (hrestrict : answers.restrictKey = .done)
    (hread : answers.readKey = .done) (whitelist : Finset Hash) :
    SaveEnds codec (codec.dumps (answers.listing whitelist).1) key files answers
      (saveFiles codec whitelist answers files).1
      (saveFiles codec whitelist answers files).2 := by
  generalize hraw : codec.dumps (answers.listing whitelist).1 = raw
  have husable : KeyUsable files answers := ⟨by rw [hkey]; rfl, hrestrict, hread⟩
  have hsame : SameSaved files (writeTemps codec raw answers files).2 :=
    writeTemps_sameSaved codec husable
  unfold saveFiles
  rw [hraw]
  cases hfirst : writeTemps codec raw answers files with
  | mk result t =>
      rw [hfirst] at hsame
      cases result with
      | error halt =>
          rw [bind_of_error hfirst]
          refine .kept (fun h => ?_) hsame
          rw [(writeTemps_eq_ok_iff codec hkey hrestrict hread).mpr ⟨h.1, rfl⟩] at hfirst
          cases hfirst
      | ok _ =>
          rw [bind_of_ok hfirst]
          obtain ⟨hprepares, rfl⟩ :=
            (writeTemps_eq_ok_iff codec hkey hrestrict hread).mp hfirst
          exact saveEnds_renameTemps codec hkey hprepares hsame

theorem SaveEnds.sameSaved {key : Bytes} {files v : Files Bytes} {halt : Halt} (halt' : Halt)
    (h : SaveEnds codec raw key files answers (.error halt) t) (hsame : SameSaved t v) :
    SaveEnds codec raw key files answers (.error halt') v := by
  cases h with
  | halved hprepares hwl hsig hlist hkey hsignature =>
      exact .halved hprepares hwl hsig (hsame.1.trans hlist) (hsame.2.1.trans hkey)
        (hsame.2.2.trans hsignature)
  | kept hfailed hkept => exact .kept hfailed (hkept.trans hsame)

theorem SaveEnds.key_isSome {key : Bytes} {files : Files Bytes} {result : Except Halt Unit}
    (h : SaveEnds codec raw key files answers result t)
    (hkey : (files hmacKeyPath).isSome = true) : (t hmacKeyPath).isSome = true := by
  cases h with
  | saved _ _ _ _ hkept | halved _ _ _ _ hkept => rw [hkept]; rfl
  | kept _ hsame => rw [hsame.2.1]; exact hkey

/-- The clean-up changes nothing that a load reads. -/
theorem saveEnds_saveWhitelist {key : Bytes} {files : Files Bytes} (hkey : files hmacKeyPath = some key)
    (hrestrict : answers.restrictKey = .done) (hread : answers.readKey = .done)
    (whitelist : Finset Hash) :
    SaveEnds codec (codec.dumps (answers.listing whitelist).1) key files answers
      (saveWhitelist codec whitelist answers files).1
      (saveWhitelist codec whitelist answers files).2 := by
  have hends := saveEnds_saveFiles codec hkey hrestrict hread whitelist
  unfold saveWhitelist
  cases hfiles : saveFiles codec whitelist answers files with
  | mk result t =>
      rw [hfiles] at hends
      cases result with
      | ok _ =>
          rw [handle_of_ok hfiles]
          exact hends
      | error halt =>
          rw [handle_of_error hfiles]
          cases halt with
          | stopped => exact hends
          | raised permission =>
              have hclean := cleanUp_sameSaved answers t
              cases hrun : cleanUp answers t with
              | mk result v =>
                  rw [hrun] at hclean
                  cases result with
                  | ok _ =>
                      dsimp only
                      rw [bind_of_ok hrun]
                      exact hends.sameSaved codec _ hclean
                  | error halt =>
                      dsimp only
                      rw [bind_of_error hrun]
                      exact hends.sameSaved codec _ hclean

/-! ## What a later load finds -/

/-- Every operation of the save that is made with a usable key succeeds. -/
def Answers.allDone (answers : Answers Bytes Hash) : Prop :=
  answers.prepares ∧ answers.replaceWl = .done ∧ answers.replaceSig = .done

/-- The process stops, or the second rename fails, between the two renames. -/
def Answers.halves (answers : Answers Bytes Hash) : Prop :=
  answers.prepares ∧ answers.replaceWl = .done ∧ answers.replaceSig ≠ .done

theorem loads_listing (answers : Answers Bytes Hash) (whitelist : Finset Hash) :
    (codec.loads (codec.dumps (answers.listing whitelist).1)).map List.toFinset =
      some whitelist := by
  rw [codec.loads_dumps, Option.map_some, (answers.listing whitelist).2]

variable [DecidableEq Bytes]

variable {whitelist : Finset Hash}

theorem SaveEnds.load_of_saved {key : Bytes} {files : Files Bytes}
    (h : SaveEnds codec (codec.dumps (answers.listing whitelist).1) key files answers (.ok ()) t) :
    loadWhitelist codec t = some whitelist := by
  cases h with
  | saved hprepares hwl hsig hlist hkey hsignature =>
      unfold loadWhitelist
      rw [hlist, hkey, hsignature]
      dsimp only
      rw [if_pos (codec.readSignature_hmac _ _), loads_listing]

theorem load_of_halved {key : Bytes}
    (hlist : t whitelistPath = some (codec.dumps (answers.listing whitelist).1))
    (hkey : t hmacKeyPath = some key) :
    loadWhitelist codec t = some whitelist ∨ loadWhitelist codec t = none := by
  unfold loadWhitelist
  rw [hlist, hkey]
  cases t hmacSigPath with
  | none => exact .inr rfl
  | some signature =>
      dsimp only
      split
      · exact .inl (loads_listing codec answers whitelist)
      · exact .inr rfl

/-- What a later load finds after an approval, if the key can be used: the new set if the
save returns, the old one if it ends before the list is renamed, and the new one or a refusal
between the two renames. -/
def RoundTrips (s : State Bytes Hash) (a : Action Bytes Hash) (t : State Bytes Hash) : Prop :=
  ∀ whitelist hash answers, s.manager = some whitelist → a = .approve (some hash) answers →
    KeyUsable s.files answers →
      ((saveWhitelist codec (insert hash whitelist) answers s.files).1 = .ok () ↔
        answers.allDone) ∧
      (answers.allDone → loadWhitelist codec t.files = some (insert hash whitelist) ∧
        t.manager = some (insert hash whitelist)) ∧
      (¬(answers.prepares ∧ answers.replaceWl = .done) →
        loadWhitelist codec t.files = loadWhitelist codec s.files) ∧
      (answers.halves → loadWhitelist codec t.files = some (insert hash whitelist) ∨
        loadWhitelist codec t.files = none)

variable {s : State Bytes Hash}

theorem step_approve {t : State Bytes Hash} {hash : Hash} (hmanager : s.manager = some whitelist)
    (hstep : step codec s (.approve (some hash) answers) = some t) :
    t.files = (saveWhitelist codec (insert hash whitelist) answers s.files).2 ∧
      ((saveWhitelist codec (insert hash whitelist) answers s.files).1 = .ok () →
        t.manager = some (insert hash whitelist)) := by
  unfold step at hstep
  rw [hmanager] at hstep
  dsimp only at hstep
  cases hsave : saveWhitelist codec (insert hash whitelist) answers s.files with
  | mk result files =>
      rw [hsave] at hstep
      rcases result with (_ | _) | _
      · cases hstep
        exact ⟨rfl, fun _ => rfl⟩
      · cases hstep
        exact ⟨rfl, fun h => by cases h⟩
      · cases hstep
        exact ⟨rfl, fun _ => rfl⟩

theorem roundTrips_step {a : Action Bytes Hash} {t : State Bytes Hash}
    (hstep : step codec s a = some t) : RoundTrips codec s a t := by
  rintro whitelist hash answers hmanager rfl ⟨hsome, hrestrict, hread⟩
  obtain ⟨key, hkey⟩ := Option.isSome_iff_exists.mp hsome
  obtain ⟨hfiles, hkept⟩ := step_approve codec hmanager hstep
  have hends := saveEnds_saveWhitelist codec hkey hrestrict hread (insert hash whitelist)
  rw [hfiles]
  generalize (saveWhitelist codec (insert hash whitelist) answers s.files).1 = result
    at hends hkept ⊢
  generalize (saveWhitelist codec (insert hash whitelist) answers s.files).2 = files
    at hends ⊢
  have hload := hends
  cases hends with
  | saved hprepares hwl hsig hlist hkey' hsignature =>
      refine ⟨iff_of_true rfl ⟨hprepares, hwl, hsig⟩, fun _ => ⟨?_, hkept rfl⟩, ?_, ?_⟩
      · exact hload.load_of_saved codec
      · exact fun h => absurd ⟨hprepares, hwl⟩ h
      · exact fun h => absurd hsig h.2.2
  | halved hprepares hwl hsig hlist hkey' hsignature =>
      refine ⟨iff_of_false nofun (fun h => hsig h.2.2), fun h => absurd h.2.2 hsig, ?_, ?_⟩
      · exact fun h => absurd ⟨hprepares, hwl⟩ h
      · exact fun _ => load_of_halved codec hlist hkey'
  | kept hfailed hsame =>
      refine ⟨iff_of_false nofun (fun h => hfailed ⟨h.1, h.2.1⟩),
        fun h => absurd ⟨h.1, h.2.1⟩ hfailed, fun _ => hsame.loadWhitelist_eq codec, ?_⟩
      exact fun h => absurd ⟨h.1, h.2.1⟩ hfailed

def approvals (saves : List (Hash × Answers Bytes Hash)) : List (Action Bytes Hash) :=
  saves.map fun save => .approve (some save.1) save.2

/-- Saves that succeed add up to the approved set, in memory and on the disk. -/
theorem approvals_roundTrip {saves : List (Hash × Answers Bytes Hash)}
    (hdone : ∀ save ∈ saves, save.2.restrictKey = .done ∧ save.2.readKey = .done ∧
      save.2.allDone)
    (hmanager : s.manager = some whitelist)
    (hload : loadWhitelist codec s.files = some whitelist)
    (hkey : (s.files hmacKeyPath).isSome = true) :
    ∃ t, Runs.exec (step codec) s (approvals saves) = some t ∧
      t.manager = some (whitelist ∪ (saves.map Prod.fst).toFinset) ∧
      loadWhitelist codec t.files = t.manager := by
  induction saves generalizing s whitelist with
  | nil =>
      refine ⟨s, rfl, ?_, ?_⟩
      · simpa using hmanager
      · rw [hload, hmanager]
  | cons save saves ih =>
      obtain ⟨hrestrict, hread, halldone⟩ := hdone save List.mem_cons_self
      obtain ⟨key, hkeyFile⟩ := Option.isSome_iff_exists.mp hkey
      obtain ⟨t, hstep⟩ : ∃ t, step codec s (.approve (some save.1) save.2) = some t := by
        unfold step
        rw [hmanager]
        dsimp only
        split <;> exact ⟨_, rfl⟩
      have htrip := roundTrips_step codec hstep whitelist save.1 save.2 hmanager rfl
        ⟨hkey, hrestrict, hread⟩
      obtain ⟨hloadNew, hmanagerNew⟩ := htrip.2.1 halldone
      have hkeyNew : (t.files hmacKeyPath).isSome = true := by
        rw [(step_approve codec hmanager hstep).1]
        exact (saveEnds_saveWhitelist codec hkeyFile hrestrict hread _).key_isSome codec hkey
      obtain ⟨v, hrun, hv, hloadEnd⟩ := ih (fun other h => hdone other
        (List.mem_cons_of_mem save h)) hmanagerNew hloadNew hkeyNew
      refine ⟨v, ?_, ?_, hloadEnd⟩
      · rw [approvals, List.map_cons, Runs.exec_cons, hstep]
        exact hrun
      · rw [hv, List.map_cons, List.toFinset_cons, Finset.insert_union, Finset.union_insert]

/-- Bytes that remember how they were made, for hashes that are numbers. -/
inductive SymbolicBytes
  | document (hashes : List Nat)
  | key (number : Nat)
  | signature (content key : SymbolicBytes)
deriving DecidableEq

def symbolicCodec : Codec SymbolicBytes Nat where
  dumps := .document
  loads
    | .document hashes => some hashes
    | _ => none
  loads_dumps _ := rfl
  hmac := .signature
  readSignature := some
  readSignature_hmac _ _ := rfl

/-- A save in which every operation succeeds. -/
def succeeding : Answers SymbolicBytes Nat where
  listing hashes := ⟨hashes.sort (· ≤ ·), Finset.sort_toFinset _ _⟩
  newKey := .key 1

end SkyClaw.Security.Whitelist
