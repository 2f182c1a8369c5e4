import Mathlib.Logic.Function.Basic
import SkyClaw.Lib.Effects
import SkyClaw.Lib.Runs

/-!
# The salt of the credential vault

`CredentialVault._get_or_create_salt` and what it calls, over the two salt files and their temporary
files.  Every call that touches the disk may be done, raise, or be the last thing the process does.

A file that cannot be read looks like one that is not there, so a load that can read neither file
replaces a salt that is still good.  `survives_iff`: the salt survives a run of loads exactly when
each of them reads one of the files that hold it, or does not get as far as replacing the primary.
-/

namespace SkyClaw.Security.VaultSalt

open Function

/-! ## The disk and what may go wrong -/

abbrev Bytes := List UInt8

abbrev Salt := { data : Bytes // data.length = 32 }

/-- `vault_salt.bin` and `vault_salt.bin.backup` -/
inductive File where
  | primary
  | backup
deriving DecidableEq, Repr

def File.other : File → File
  | primary => backup
  | backup => primary

/-- The salt files, and the `.tmp` file beside each. -/
structure Disk where
  salt : File → Option Bytes
  tmp : File → Option Bytes

/-- The calls that may go wrong. -/
inductive Op where
  | mkdir
  | restrictDir
  | urandom
  | read (file : File)
  | write (file : File)
  | restrict (file : File)
  | replace (file : File)
  | unlink (file : File)
deriving DecidableEq, Repr

/-- How a load ends when it does not return. -/
inductive Failure where
  | osError
  | runtimeError
  /-- any other exception -/
  | other
  /-- the process is gone -/
  | crash
deriving DecidableEq, Repr

/-- What becomes of a call. -/
inductive Fate where
  | done
  | raises (failure : Failure)
  /-- the process ends, before the call has its effect or after -/
  | crash (effect : Bool)
deriving DecidableEq, Repr

/-- What the calls of one load meet. -/
structure Load where
  fate : Op → Fate
  /-- `os.urandom(32)` -/
  fresh : Salt
  /-- how much of a temporary file a write leaves that is not done -/
  torn : File → Nat
  /-- `restrict_to_owner` removes the file that it cannot restrict -/
  windows : Bool

/-! ## A load -/

open Proc

section

variable (load : Load)

/-- A call that has its effect, or `undone` when it fails before. -/
def perform (op : Op) (effect undone : Disk → Disk) : Proc Disk Failure Unit :=
  match load.fate op with
  | .done => modify effect
  | .raises failure => do
      modify undone
      raise failure
  | .crash true => do
      modify effect
      raise .crash
  | .crash false => do
      modify undone
      raise .crash

def setTmp (file : File) (content : Option Bytes) (s : Disk) : Disk :=
  { s with tmp := update s.tmp file content }

/-- `tmp.replace(target)` -/
def rename (file : File) (s : Disk) : Disk :=
  { salt := update s.salt file (s.tmp file)
    tmp := update s.tmp file none }

/-- The `except (OSError, RuntimeError)` clause of `_write_salt_atomic`. -/
def discard (file : File) : Failure → Proc Disk Failure Unit
  | .osError => do
      perform load (.unlink file) (setTmp file none) id
      raise .osError
  | .runtimeError => do
      perform load (.unlink file) (setTmp file none) id
      raise .runtimeError
  | failure => raise failure

/-- The body of its `try`. -/
def writeAndReplace (file : File) (data : Salt) : Proc Disk Failure Unit := do
  perform load (.write file) (setTmp file (some data.1))
    (setTmp file (some (data.1.take (load.torn file))))
  perform load (.restrict file) id (if load.windows then setTmp file none else id)
  perform load (.replace file) (rename file) id

def writeSaltAtomic (file : File) (data : Salt) : Proc Disk Failure Unit :=
  handle (writeAndReplace load file data) (discard load file)

/-- A content of 32 bytes. -/
def validate (data : Bytes) : Option Salt := if h : data.length = 32 then some ⟨data, h⟩ else none

def readAndValidateSalt (file : File) : Proc Disk Failure (Option Salt) :=
  handle
    (do
      perform load (.read file) id id
      let content ← read fun s => s.salt file
      match content with
      | none => raise .osError
      | some data => pure (validate data))
    fun
      | .osError => pure none
      | failure => raise failure

/-- What follows the reads. -/
def settle : Option Salt → Option Salt → Proc Disk Failure Salt
  | some primary, some backup =>
      if primary = backup then pure primary
      else do
        writeSaltAtomic load .backup primary
        pure primary
  | some primary, none => do
      writeSaltAtomic load .backup primary
      pure primary
  | none, some backup => do
      writeSaltAtomic load .primary backup
      pure backup
  | none, none => do
      perform load .urandom id id
      writeSaltAtomic load .primary load.fresh
      writeSaltAtomic load .backup load.fresh
      pure load.fresh

/-- The body of the `try` of `_get_or_create_salt`. -/
def findSalt : Proc Disk Failure Salt := do
  perform load .mkdir id id
  perform load .restrictDir id id
  let primary ← readAndValidateSalt load .primary
  let backup ← readAndValidateSalt load .backup
  settle load primary backup

def getOrCreateSalt : Proc Disk Failure Salt :=
  handle (findSalt load) fun
    | .osError => raise .runtimeError
    | failure => raise failure

/-- One load after another. -/
def step (s : Disk) (load : Load) : Option Disk := some (getOrCreateSalt load s).2

def stored (s : Disk) (file : File) : Option Salt := (s.salt file).bind validate

/-- Some file holds the salt, and no file holds another one. -/
structure Holds (s : Disk) (salt : Salt) : Prop where
  held : ∃ file, stored s file = some salt
  agree : ∀ {file other}, stored s file = some other → other = salt

/-- The promise about one load. -/
structure Survives (salt : Salt) (s : Disk) (load : Load) (t : Disk) : Prop where
  /-- what is returned is the salt, and both files hold it -/
  returned : ∀ {result}, (getOrCreateSalt load s).1 = .ok result →
    result = salt ∧ ∀ file, t.salt file = some result.1
  kept : Holds t salt

/-- A call has had its effect. -/
def Fate.effective : Fate → Bool
  | done => true
  | crash effect => effect
  | raises _ => false

/-- A read does not end the load. -/
def Fate.survived : Fate → Bool
  | done => true
  | raises .osError => true
  | _ => false

/-- A write gets as far as replacing its file. -/
def written (file : File) : Bool :=
  load.fate (.write file) = .done && load.fate (.restrict file) = .done &&
    (load.fate (.replace file)).effective

/-- A load without a salt gets as far as replacing the primary file. -/
def regenerates : Bool :=
  load.fate .mkdir = .done && load.fate .restrictDir = .done &&
    (load.fate (.read .primary)).survived && (load.fate (.read .backup)).survived &&
    load.fate .urandom = .done && written load .primary

/-- A file that holds a valid salt can be read. -/
def readable (s : Disk) (load : Load) (file : File) : Bool :=
  load.fate (.read file) = .done && (stored s file).isSome

/-- A load reads a valid salt, or it does not get as far as replacing the primary file, or the new salt
is the one that a file holds. -/
def Safe (s : Disk) (load : Load) : Prop :=
  readable s load .primary = true ∨ readable s load .backup = true ∨
    regenerates load = false ∨
    stored s .primary = some load.fresh ∨ stored s .backup = some load.fresh

instance (s : Disk) (load : Load) : Decidable (Safe s load) := by
  unfold Safe
  infer_instance

/-! ## What a write does -/

/-- How a call ends. -/
def Fate.result : Fate → Except Failure Unit
  | done => .ok ()
  | raises failure => .error failure
  | crash _ => .error .crash

theorem perform_apply (op : Op) (effect undone : Disk → Disk) (s : Disk) :
    perform load op effect undone s =
      ((load.fate op).result, if (load.fate op).effective then effect s else undone s) := by
  unfold perform
  cases load.fate op with
  | done | raises => rfl
  | crash after => cases after <;> rfl

end

variable {load : Load} {op : Op}

theorem perform_of_done (h : load.fate op = .done)
    (effect undone : Disk → Disk) (s : Disk) :
    perform load op effect undone s = (.ok (), effect s) := by
  rw [perform_apply, h]
  rfl

theorem perform_of_not_done (h : load.fate op ≠ .done)
    (effect undone : Disk → Disk) (s : Disk) :
    ∃ failure, perform load op effect undone s =
      (.error failure, if (load.fate op).effective then effect s else undone s) := by
  rw [perform_apply]
  cases hfate : load.fate op with
  | done => exact absurd hfate h
  | raises failure => exact ⟨failure, rfl⟩
  | crash after => exact ⟨.crash, rfl⟩

theorem perform_id {fate : Fate} (h : load.fate op = fate) (s : Disk) :
    perform load op id id s = (fate.result, s) := by
  rw [perform_apply, h]
  split <;> rfl

section

variable (load : Load)

/-- The temporary file is not one of the two. -/
theorem discard_keeps (file : File) (failure : Failure) (s : Disk) :
    (discard load file failure s).2.salt = s.salt ∧
      ∃ final, (discard load file failure s).1 = .error final := by
  have hunlink : ∀ raised : Failure, ∃ final t,
      (perform load (.unlink file) (setTmp file none) id >>= fun _ =>
        (raise raised : Proc Disk Failure Unit)) s = (.error final, t) ∧ t.salt = s.salt := by
    intro raised
    by_cases hdone : load.fate (.unlink file) = .done
    · exact ⟨raised, setTmp file none s, bind_of_ok (perform_of_done hdone _ _ s), rfl⟩
    · obtain ⟨final, hrun⟩ := perform_of_not_done hdone (setTmp file none) id s
      refine ⟨final, _, bind_of_error hrun, ?_⟩
      split <;> rfl
  cases failure with
  | osError =>
      obtain ⟨final, t, hrun, hsalt⟩ := hunlink .osError
      exact ⟨(congrArg (fun end' => end'.2.salt) hrun).trans hsalt, final, congrArg Prod.fst hrun⟩
  | runtimeError =>
      obtain ⟨final, t, hrun, hsalt⟩ := hunlink .runtimeError
      exact ⟨(congrArg (fun end' => end'.2.salt) hrun).trans hsalt, final, congrArg Prod.fst hrun⟩
  | other => exact ⟨rfl, .other, rfl⟩
  | crash => exact ⟨rfl, .crash, rfl⟩

/-- A write replaces its file or leaves both files as they are. -/
theorem writeAndReplace_apply (file : File) (data : Salt) (s : Disk) :
    (writeAndReplace load file data s).2.salt =
        (if written load file then update s.salt file (some data.1) else s.salt) ∧
      ((writeAndReplace load file data s).1 = .ok () → written load file = true) := by
  unfold writeAndReplace
  by_cases hwrite : load.fate (.write file) = .done
  · rw [bind_of_ok (perform_of_done hwrite _ _ s)]
    by_cases hrestrict : load.fate (.restrict file) = .done
    · rw [bind_of_ok (perform_of_done hrestrict _ _ _), perform_apply]
      have hwritten : written load file = (load.fate (.replace file)).effective := by
        simp [written, hwrite, hrestrict]
      rw [hwritten]
      cases hreplace : load.fate (.replace file) with
      | done => exact ⟨by simp [Fate.effective, rename, setTmp], fun _ => rfl⟩
      | raises failure => exact ⟨rfl, fun hok => by cases hok⟩
      | crash after =>
          refine ⟨?_, fun hok => by cases hok⟩
          cases after with
          | false => rfl
          | true => simp [Fate.effective, rename, setTmp]
    · have hwritten : written load file = false := by simp [written, hrestrict]
      obtain ⟨failure, hrun⟩ := perform_of_not_done hrestrict id
        (if load.windows then setTmp file none else id) (setTmp file (some data.1) s)
      rw [bind_of_error hrun, hwritten]
      refine ⟨?_, fun hok => by cases hok⟩
      show (if _ then _ else _ : Disk).salt = s.salt
      split
      · rfl
      · split <;> rfl
  · have hwritten : written load file = false := by simp [written, hwrite]
    obtain ⟨failure, hrun⟩ := perform_of_not_done hwrite (setTmp file (some data.1))
      (setTmp file (some (data.1.take (load.torn file)))) s
    rw [bind_of_error hrun, hwritten]
    refine ⟨?_, fun hok => by cases hok⟩
    show (if _ then _ else _ : Disk).salt = s.salt
    split <;> rfl

theorem writeSaltAtomic_apply (file : File) (data : Salt) (s : Disk) :
    (writeSaltAtomic load file data s).2.salt =
        (if written load file then update s.salt file (some data.1) else s.salt) ∧
      ((writeSaltAtomic load file data s).1 = .ok () → written load file = true) := by
  have hbody := writeAndReplace_apply load file data s
  unfold writeSaltAtomic
  rcases hrun : writeAndReplace load file data s with ⟨failure | _, t⟩
  · rw [hrun] at hbody
    obtain ⟨hsalt, final, hfinal⟩ := discard_keeps load file failure t
    rw [handle_of_error hrun]
    refine ⟨hsalt.trans hbody.1, fun hok => ?_⟩
    rw [hfinal] at hok
    cases hok
  · rw [hrun] at hbody
    rw [handle_of_ok hrun]
    exact hbody

/-! ## What a load reads -/

/-- What `_read_and_validate_salt` makes of a file. -/
def seen (s : Disk) (file : File) : Except Failure (Option Salt) :=
  match load.fate (.read file) with
  | .done => .ok (stored s file)
  | .raises .osError => .ok none
  | .raises failure => .error failure
  | .crash _ => .error .crash

theorem readAndValidateSalt_apply (file : File) (s : Disk) :
    readAndValidateSalt load file s = (seen load s file, s) := by
  unfold readAndValidateSalt seen
  cases hfate : load.fate (.read file) with
  | done =>
      cases hsalt : s.salt file with
      | none =>
          have hbody : (perform load (.read file) id id >>= fun _ =>
              (Proc.read fun s => s.salt file) >>= fun content => match content with
                | none => (raise .osError : Proc Disk Failure (Option Salt))
                | some data => pure (validate data)) s = (.error .osError, s) := by
            rw [bind_of_ok (perform_id hfate s), bind_of_ok (read_apply _ _)]
            simp [hsalt]
          rw [handle_of_error hbody]
          simp [stored, hsalt]
      | some data =>
          have hbody : (perform load (.read file) id id >>= fun _ =>
              (Proc.read fun s => s.salt file) >>= fun content => match content with
                | none => (raise .osError : Proc Disk Failure (Option Salt))
                | some data => pure (validate data)) s = (.ok (validate data), s) := by
            rw [bind_of_ok (perform_id hfate s), bind_of_ok (read_apply _ _)]
            simp [hsalt]
          rw [handle_of_ok hbody]
          simp [stored, hsalt]
  | raises failure =>
      rw [handle_of_error (bind_of_error (perform_id hfate s))]
      cases failure <;> rfl
  | crash effect =>
      rw [handle_of_error (bind_of_error (perform_id hfate s))]
      rfl

theorem survived_eq_isOk (s : Disk) (file : File) :
    (load.fate (.read file)).survived = (seen load s file).isOk := by
  unfold seen
  cases load.fate (.read file) with
  | done | crash => rfl
  | raises failure => cases failure <;> rfl

end

variable {s : Disk} {file : File} {salt : Salt}

theorem stored_of_seen
    (h : seen load s file = .ok (some salt)) :
    stored s file = some salt ∧ readable s load file = true := by
  unfold seen at h
  cases hfate : load.fate (.read file) with
  | done =>
      rw [hfate] at h
      have hstored : stored s file = some salt := Except.ok.inj h
      exact ⟨hstored, by simp [readable, hfate, hstored]⟩
  | raises failure =>
      rw [hfate] at h
      cases failure <;> cases h
  | crash effect =>
      rw [hfate] at h
      cases h

theorem not_readable_of_seen
    (h : seen load s file = .ok none) : readable s load file = false := by
  unfold seen at h
  cases hfate : load.fate (.read file) with
  | done =>
      rw [hfate] at h
      have hstored : stored s file = none := Except.ok.inj h
      simp [readable, hstored]
  | raises | crash => simp [readable, hfate]

/-! ## What a load does -/

theorem getOrCreateSalt_apply (load : Load) (s : Disk) :
    (getOrCreateSalt load s).2 = (findSalt load s).2 ∧
      ∀ salt, (getOrCreateSalt load s).1 = .ok salt → (findSalt load s).1 = .ok salt := by
  unfold getOrCreateSalt
  rcases hrun : findSalt load s with ⟨failure | salt, t⟩
  · rw [handle_of_error hrun]
    cases failure <;> exact ⟨rfl, fun salt hok => by cases hok⟩
  · rw [handle_of_ok hrun]
    exact ⟨rfl, fun _ => id⟩

/-- A load ends before it has looked at both files, or goes on with what it has seen. -/
theorem findSalt_cases (load : Load) (s : Disk) :
    (∃ failure, findSalt load s = (.error failure, s) ∧ regenerates load = false) ∨
      ∃ primary backup, seen load s .primary = .ok primary ∧ seen load s .backup = .ok backup ∧
        regenerates load = (load.fate .urandom = .done && written load .primary) ∧
        findSalt load s = settle load primary backup s := by
  have hreads := fun file => survived_eq_isOk load s file
  have hread := fun file => readAndValidateSalt_apply load file s
  unfold findSalt
  cases hmkdir : load.fate .mkdir with
  | done =>
      rw [bind_of_ok (perform_id hmkdir s)]
      cases hrestrict : load.fate .restrictDir with
      | done =>
          rw [bind_of_ok (perform_id hrestrict s)]
          cases hprimary : seen load s .primary with
          | ok primary =>
              have hfirst := hread .primary
              rw [hprimary] at hfirst
              rw [bind_of_ok hfirst]
              cases hbackup : seen load s .backup with
              | ok backup =>
                  have hsecond := hread .backup
                  rw [hbackup] at hsecond
                  refine .inr ⟨primary, backup, rfl, rfl, ?_, bind_of_ok hsecond⟩
                  simp [regenerates, hmkdir, hrestrict, hreads, hprimary, hbackup, Except.isOk,
                    Except.toBool]
              | error failure =>
                  have hsecond := hread .backup
                  rw [hbackup] at hsecond
                  refine .inl ⟨failure, bind_of_error hsecond, ?_⟩
                  simp [regenerates, hreads, hbackup, Except.isOk, Except.toBool]
          | error failure =>
              have hfirst := hread .primary
              rw [hprimary] at hfirst
              refine .inl ⟨failure, bind_of_error hfirst, ?_⟩
              simp [regenerates, hreads, hprimary, Except.isOk, Except.toBool]
      | raises failure =>
          refine .inl ⟨failure, bind_of_error ?_, by simp [regenerates, hrestrict]⟩
          exact perform_id hrestrict s
      | crash effect =>
          refine .inl ⟨.crash, bind_of_error ?_, by simp [regenerates, hrestrict]⟩
          exact perform_id hrestrict s
  | raises failure =>
      refine .inl ⟨failure, bind_of_error ?_, by simp [regenerates, hmkdir]⟩
      exact perform_id hmkdir s
  | crash effect =>
      refine .inl ⟨.crash, bind_of_error ?_, by simp [regenerates, hmkdir]⟩
      exact perform_id hmkdir s

/-! ## What the files hold -/

theorem validate_salt (salt : Salt) : validate salt.1 = some salt := dif_pos salt.2

theorem salt_of_stored (h : stored s file = some salt) :
    s.salt file = some salt.1 := by
  obtain ⟨data, hdata, hvalid⟩ := Option.bind_eq_some_iff.mp h
  unfold validate at hvalid
  split at hvalid
  · rw [hdata, ← Option.some.inj hvalid]
  · cases hvalid

theorem stored_of_salt
    (h : s.salt file = some salt.1) : stored s file = some salt := by
  unfold stored
  rw [h]
  exact validate_salt salt

variable {t : Disk}

theorem Holds.of_salt (h : Holds s salt)
    (hfiles : ∀ file, t.salt file = s.salt file ∨ t.salt file = some salt.1) : Holds t salt := by
  have hcase : ∀ file, stored t file = stored s file ∨ stored t file = some salt := by
    intro file
    rcases hfiles file with hsame | hnew
    · left
      unfold stored
      rw [hsame]
    · exact .inr (stored_of_salt hnew)
  constructor
  · obtain ⟨file, hfile⟩ := h.held
    rcases hcase file with hsame | hnew
    · exact ⟨file, hsame.trans hfile⟩
    · exact ⟨file, hnew⟩
  · intro file other hother
    rcases hcase file with hsame | hnew
    · exact h.agree (hsame.symm.trans hother)
    · exact (Option.some.inj (hnew.symm.trans hother)).symm

theorem salt_write (load : Load) (file : File) (data : Salt) (s : Disk) (other : File) :
    (writeSaltAtomic load file data s).2.salt other = s.salt other ∨
      (writeSaltAtomic load file data s).2.salt other = some data.1 := by
  rw [(writeSaltAtomic_apply load file data s).1]
  split
  · by_cases hother : other = file
    · subst hother
      exact .inr (update_self ..)
    · exact .inl (update_of_ne hother ..)
  · exact .inl rfl

theorem salt_of_write_ok {data : Salt}
    (h : writeSaltAtomic load file data s = (.ok (), t)) :
    t.salt file = some data.1 ∧ t.salt file.other = s.salt file.other := by
  obtain ⟨hsalt, hwritten⟩ := writeSaltAtomic_apply load file data s
  rw [h] at hsalt hwritten
  rw [if_pos (hwritten rfl)] at hsalt
  show t.salt file = _ ∧ t.salt file.other = _
  rw [hsalt]
  refine ⟨update_self .., update_of_ne ?_ ..⟩
  cases file <;> simp [File.other]

/-- A file is written again from the other. -/
theorem sync_survives (h : Holds s salt)
    (hother : stored s file.other = some salt) :
    let run := (writeSaltAtomic load file salt >>= fun _ =>
      (pure salt : Proc Disk Failure Salt)) s
    Holds run.2 salt ∧ ∀ result, run.1 = .ok result →
      result = salt ∧ ∀ file, run.2.salt file = some result.1 := by
  intro run
  rcases hrun : writeSaltAtomic load file salt s with ⟨failure | _, t⟩
  · have heq : run = (.error failure, t) := bind_of_error hrun
    have hfiles := salt_write load file salt s
    rw [hrun] at hfiles
    rw [heq]
    exact ⟨h.of_salt hfiles, fun result hok => by cases hok⟩
  · have heq : run = (.ok salt, t) := bind_of_ok hrun
    have hfiles := salt_write load file salt s
    rw [hrun] at hfiles
    rw [heq]
    refine ⟨h.of_salt hfiles, fun result hok => ?_⟩
    cases hok
    obtain ⟨hfile, hkept⟩ := salt_of_write_ok hrun
    refine ⟨rfl, fun each => ?_⟩
    by_cases heach : each = file
    · rw [heach]
      exact hfile
    · obtain rfl : each = file.other := by cases each <;> cases file <;> simp_all [File.other]
      exact hkept.trans (salt_of_stored hother)

variable {primary backup : Option Salt}

/-- A load that has seen a valid salt. -/
theorem settle_survives
    (h : Holds s salt) (hprimary : ∀ found, primary = some found → stored s .primary = some found)
    (hbackup : ∀ found, backup = some found → stored s .backup = some found)
    (hsome : primary ≠ none ∨ backup ≠ none) :
    Holds (settle load primary backup s).2 salt ∧
      ∀ result, (settle load primary backup s).1 = .ok result →
        result = salt ∧ ∀ file, (settle load primary backup s).2.salt file = some result.1 := by
  cases primary with
  | some first =>
      have hfirst := hprimary first rfl
      obtain rfl := h.agree hfirst
      cases backup with
      | some second =>
          have hsecond := hbackup second rfl
          obtain rfl := h.agree hsecond
          have hrun : settle load (some second) (some second) s = (.ok second, s) :=
            congrFun (if_pos rfl) s
          rw [hrun]
          refine ⟨h, fun result hok => ?_⟩
          cases hok
          refine ⟨rfl, fun file => ?_⟩
          cases file with
          | primary => exact salt_of_stored hfirst
          | backup => exact salt_of_stored hsecond
      | none => exact sync_survives h hfirst
  | none =>
      cases backup with
      | some second =>
          have hsecond := hbackup second rfl
          obtain rfl := h.agree hsecond
          exact sync_survives h hsecond
      | none => simp at hsome

/-- A load that has seen no valid salt, and does not get as far as replacing the primary file. -/
theorem settle_stops
    (h : (load.fate .urandom = .done && written load .primary) = false) :
    (settle load none none s).2.salt = s.salt ∧
      ∀ result, (settle load none none s).1 ≠ .ok result := by
  cases hurandom : load.fate .urandom with
  | done =>
      have hnot : written load .primary = false := by simpa [hurandom] using h
      have hfirst : perform load .urandom id id s = (.ok (), s) :=
        perform_id hurandom s
      obtain ⟨hsalt, hwritten⟩ := writeSaltAtomic_apply load .primary load.fresh s
      rw [hnot] at hsalt hwritten
      rcases hwrite : writeSaltAtomic load .primary load.fresh s with ⟨failure | _, t⟩
      · rw [hwrite] at hsalt
        have hrun : settle load none none s = (.error failure, t) :=
          (bind_of_ok hfirst).trans (bind_of_error hwrite)
        rw [hrun]
        exact ⟨hsalt, fun result hok => by cases hok⟩
      · rw [hwrite] at hwritten
        cases hwritten rfl
  | raises failure =>
      have hrun : settle load none none s = (.error failure, s) :=
        bind_of_error (perform_id hurandom s)
      rw [hrun]
      exact ⟨rfl, fun result hok => by cases hok⟩
  | crash effect =>
      have hrun : settle load none none s = (.error .crash, s) :=
        bind_of_error (perform_id hurandom s)
      rw [hrun]
      exact ⟨rfl, fun result hok => by cases hok⟩

/-- One that does: the primary file holds the new salt, and the backup file if the load returns. -/
theorem settle_regenerates
    (h : (load.fate .urandom = .done && written load .primary) = true) :
    (settle load none none s).2.salt .primary = some load.fresh.1 ∧
      ((settle load none none s).2.salt .backup = s.salt .backup ∨
        (settle load none none s).2.salt .backup = some load.fresh.1) ∧
      ∀ result, (settle load none none s).1 = .ok result →
        result = load.fresh ∧ (settle load none none s).2.salt .backup = some result.1 := by
  rw [Bool.and_eq_true, decide_eq_true_iff] at h
  obtain ⟨hurandom, hprimary⟩ := h
  have hfirst : perform load .urandom id id s = (.ok (), s) :=
    perform_id hurandom s
  have hsalt := (writeSaltAtomic_apply load .primary load.fresh s).1
  rw [if_pos hprimary] at hsalt
  rcases hwrite : writeSaltAtomic load .primary load.fresh s with ⟨failure | _, t⟩
  · rw [hwrite] at hsalt
    have hrun : settle load none none s = (.error failure, t) :=
      (bind_of_ok hfirst).trans (bind_of_error hwrite)
    rw [hrun]
    refine ⟨?_, .inl ?_, fun result hok => by cases hok⟩
    · show t.salt .primary = _
      rw [hsalt]
      rfl
    · show t.salt .backup = _
      rw [hsalt]
      rfl
  · rw [hwrite] at hsalt
    have hboth : t.salt .primary = some load.fresh.1 ∧ t.salt .backup = s.salt .backup :=
      salt_of_write_ok hwrite
    rcases hsecond : writeSaltAtomic load .backup load.fresh t with ⟨failure | _, u⟩
    · have hrun : settle load none none s = (.error failure, u) :=
        (bind_of_ok hfirst).trans ((bind_of_ok hwrite).trans (bind_of_error hsecond))
      have hfiles := salt_write load .backup load.fresh t
      rw [hsecond] at hfiles
      rw [hrun]
      refine ⟨?_, ?_, fun result hok => by cases hok⟩
      · rcases hfiles .primary with hsame | hnew
        · exact hsame.trans hboth.1
        · exact hnew
      · rcases hfiles .backup with hsame | hnew
        · exact .inl (hsame.trans hboth.2)
        · exact .inr hnew
    · have hrun : settle load none none s = (.ok load.fresh, u) :=
        (bind_of_ok hfirst).trans ((bind_of_ok hwrite).trans (bind_of_ok hsecond))
      obtain ⟨hbackup, hkept⟩ := salt_of_write_ok hsecond
      rw [hrun]
      refine ⟨hkept.trans hboth.1, .inr hbackup, fun result hok => ?_⟩
      cases hok
      exact ⟨rfl, hbackup⟩

/-! ## The salt survives -/

theorem step_eq_some (h : step s load = some t) :
    t = (getOrCreateSalt load s).2 := (Option.some.inj h).symm

theorem Survives.of_settle
    (hfind : findSalt load s = settle load primary backup s)
    (hsettle : Holds (settle load primary backup s).2 salt ∧
      ∀ result, (settle load primary backup s).1 = .ok result →
        result = salt ∧ ∀ file, (settle load primary backup s).2.salt file = some result.1) :
    Survives salt s load (getOrCreateSalt load s).2 := by
  obtain ⟨hstate, hresult⟩ := getOrCreateSalt_apply load s
  rw [hfind] at hstate hresult
  rw [hstate]
  exact ⟨fun hok => hsettle.2 _ (hresult _ hok), hsettle.1⟩

/-- A load that has seen no valid salt. -/
theorem survives_iff_of_unseen (h : Holds s salt)
    (hprimary : readable s load .primary = false) (hbackup : readable s load .backup = false)
    (hregenerates : regenerates load = (load.fate .urandom = .done && written load .primary))
    (hfind : findSalt load s = settle load none none s) :
    Survives salt s load (getOrCreateSalt load s).2 ↔ Safe s load := by
  cases hcase : (load.fate .urandom = .done && written load .primary) with
  | false =>
      rw [hcase] at hregenerates
      refine iff_of_true (.of_settle hfind ?_) (.inr (.inr (.inl hregenerates)))
      obtain ⟨hsalt, hresult⟩ := settle_stops (s := s) hcase
      refine ⟨h.of_salt fun file => .inl (congrFun hsalt file), ?_⟩
      intro result hok
      exact absurd hok (hresult result)
  | true =>
      rw [hcase] at hregenerates
      obtain ⟨hnew, hrest, hresult⟩ := settle_regenerates (s := s) hcase
      by_cases hfresh : load.fresh = salt
      · have hstored : stored s .primary = some load.fresh ∨
            stored s .backup = some load.fresh := by
          obtain ⟨file, hfile⟩ := h.held
          rw [hfresh]
          cases file with
          | primary => exact .inl hfile
          | backup => exact .inr hfile
        refine iff_of_true (.of_settle hfind ?_) (.inr (.inr (.inr hstored)))
        subst hfresh
        refine ⟨h.of_salt fun file => ?_, fun result hok => ?_⟩
        · cases file with
          | primary => exact .inr hnew
          | backup => exact hrest
        · obtain ⟨rfl, hlast⟩ := hresult result hok
          refine ⟨rfl, fun file => ?_⟩
          cases file with
          | primary => exact hnew
          | backup => exact hlast
      · refine iff_of_false ?_ ?_
        · -- the primary file holds another salt now
          intro hsurvive
          have hstate := (getOrCreateSalt_apply load s).1
          rw [hfind] at hstate
          have hkept := hsurvive.kept
          rw [hstate] at hkept
          exact hfresh (hkept.agree (stored_of_salt hnew))
        · rintro (hread | hread | hnot | hstored | hstored)
          · rw [hprimary] at hread
            cases hread
          · rw [hbackup] at hread
            cases hread
          · rw [hregenerates] at hnot
            cases hnot
          · exact hfresh (h.agree hstored)
          · exact hfresh (h.agree hstored)

/-- **One load.**  The salt survives exactly the safe loads. -/
theorem survives_iff_safe (h : Holds s salt)
    (hstep : step s load = some t) : Survives salt s load t ↔ Safe s load := by
  obtain rfl := step_eq_some hstep
  rcases findSalt_cases load s with
    ⟨failure, hrun, hnot⟩ | ⟨primary, backup, hprimary, hbackup, hregenerates, hfind⟩
  · obtain ⟨hstate, hresult⟩ := getOrCreateSalt_apply load s
    rw [hrun] at hstate hresult
    refine iff_of_true ⟨fun hok => ?_, ?_⟩ (.inr (.inr (.inl hnot)))
    · cases hresult _ hok
    · rw [hstate]
      exact h
  · have hfirst : ∀ found, primary = some found →
        stored s .primary = some found ∧ readable s load .primary = true := by
      rintro found rfl
      exact stored_of_seen hprimary
    have hsecond : ∀ found, backup = some found →
        stored s .backup = some found ∧ readable s load .backup = true := by
      rintro found rfl
      exact stored_of_seen hbackup
    have hsurvives : primary ≠ none ∨ backup ≠ none →
        Survives salt s load (getOrCreateSalt load s).2 := fun hsome =>
      .of_settle hfind (settle_survives h (fun found hf => (hfirst found hf).1)
        (fun found hf => (hsecond found hf).1) hsome)
    cases primary with
    | some found =>
        exact iff_of_true (hsurvives (.inl (by simp))) (.inl (hfirst found rfl).2)
    | none =>
        cases backup with
        | some found =>
            exact iff_of_true (hsurvives (.inr (by simp))) (.inr (.inl (hsecond found rfl).2))
        | none =>
            exact survives_iff_of_unseen h (not_readable_of_seen hprimary)
              (not_readable_of_seen hbackup) hregenerates hfind

/-- **The salt survives** a run of loads exactly when each of them is safe. -/
theorem survives_iff {s : Disk} {salt : Salt} (h : Holds s salt) (loads : List Load) :
    Runs.Always step (Survives salt) s loads ↔
      Runs.Always step (fun s load _ => Safe s load) s loads := by
  refine Runs.always_iff_of_guarded (I := fun s => Holds s salt) ?_ ?_ h loads
  · intro s load t hs hstep hsafe
    exact ((survives_iff_safe hs hstep).mpr hsafe).kept
  · intro s load t hs hstep
    exact survives_iff_safe hs hstep

/-- A salt and another one. -/
def oldSalt : Salt := ⟨List.replicate 32 1, rfl⟩

def newSalt : Salt := ⟨List.replicate 32 2, rfl⟩

/-- A load in which some calls do not go well. -/
def loadWith (fates : List (Op × Fate)) : Load where
  fate op := (fates.lookup op).getD .done
  fresh := newSalt
  torn _ := 7
  windows := false

/-- The primary file is truncated. -/
def truncatedPrimary : Disk where
  salt file := some (if file = .backup then oldSalt.1 else [1, 1])
  tmp _ := none

theorem holds_truncatedPrimary : Holds truncatedPrimary oldSalt where
  held := ⟨.backup, by decide⟩
  agree := by
    intro file other hother
    cases file with
    | primary => exact absurd hother (by simp [stored, truncatedPrimary, validate])
    | backup => exact (Option.some.inj (hother.symm.trans (stored_of_salt rfl)))

/-- The first load crashes before it has restored the primary file, the second restores it, and the
third cannot read it. -/
theorem survives_iff_truncated : Runs.Always step (Survives oldSalt) truncatedPrimary
    [loadWith [(.replace .primary, .crash false)], loadWith [],
      loadWith [(.read .primary, .raises .osError)]] :=
  (survives_iff holds_truncatedPrimary _).mpr (by decide)

/-- The primary file is truncated, and the backup file cannot be read for a moment. -/
theorem survives_counterexample :
    ¬ ∀ (salt : Salt) (s : Disk), Holds s salt → ∀ loads,
      Runs.Always step (Survives salt) s loads := by
  intro h
  have hstep := h oldSalt truncatedPrimary holds_truncatedPrimary
    [loadWith [(.read .backup, .raises .osError)]] _ rfl
  have hnew : stored (getOrCreateSalt (loadWith [(.read .backup, .raises .osError)])
      truncatedPrimary).2 .backup = some newSalt := by decide
  exact absurd (hstep.1.kept.agree hnew) (by decide)

end SkyClaw.Security.VaultSalt
