import SkyClaw.Lib.Checks
import SkyClaw.Lib.Interleave
import SkyClaw.Orchestrator.SyncFetch
import SkyClaw.Scraper.NexusDownloader
import SkyClaw.Security.HitlGuard

/-!
# The update cycle

`SyncEngine.check_for_updates`: a task for each tracked mod, in a task group that the first exception
which no handler expects takes down.  `alwaysCompletes_iff` says when no interleaving loses a mod.
-/

namespace SkyClaw.Orchestrator.UpdateCycle

open Checks
open Scraper (FileInfo)
open Security.Hitl (Decision)

/-! ## One mod -/

/-- A row of the registry. -/
structure Mod where
  nexusId : Int
  name : String
  version : String
  installed : Bool
deriving DecidableEq

/-- What the engine is built with. -/
structure Engine where
  rollbackManager : Bool
  downloader : Bool
  hitl : Bool
  apiSemaphoreLimit : Int
  /-- `str` of a JSON value -/
  str : Json → String

/-- `request_approval` -/
structure ApprovalRequest where
  requestId : String
  reason : String
  url : String
  detail : String

/-- `upsert_mod` -/
structure UpsertRow where
  nexusId : Int
  name : Json
  version : String
  author : String
  category : String
  downloadUrl : String

/-- How the calls for a mod end. -/
structure Answers where
  beginTransaction : Except Raised Nat
  commitTransaction : Except Raised Unit
  markTransactionRolledBack : Except Raised Unit
  fetch : Nat → FetchAttempt
  getFileInfo : Except Raised FileInfo
  /-- every error of the notification ends in a decision -/
  requestApproval : ApprovalRequest → Decision
  download : FileInfo → Except Raised String
  upsertMod : UpsertRow → Except Raised Unit
  logTasks : String → Except Raised Unit

structure Updated where
  name : String
  nexusId : Int
  oldVersion : String
  newVersion : String
  filePath : String
  /-- with `rollback_performed`, where there is a rollback manager -/
  rollbackTransactionId : Option Nat

structure Failed where
  name : String
  nexusId : Int
  error : String

/-- What `_check_and_update_mod` returns, by its `status`. -/
inductive Result
  | updated (entry : Updated)
  | upToDate (name : String)
  | error (entry : Failed)

/-- `type(value).__name__` -/
def typeName : Json → String
  | .null => "NoneType"
  | .bool _ => "bool"
  | .int _ => "int"
  | .float _ => "float"
  | .str _ => "str"
  | .arr _ => "list"
  | .obj _ => "dict"

/-- `info.get(name, fallback)` -/
def getInfo (info : Json) (name : String) (fallback : Json) : Except Raised Json :=
  (info.get name fallback).mapError fun _ =>
    ⟨.attributeError, "'" ++ typeName info ++ "' object has no attribute 'get'"⟩

variable (engine : Engine) (mod : Mod) (answers : Answers)

/-- The transaction, if there is a rollback manager. -/
def beginTransaction : Except Raised (Option Nat) :=
  if engine.rollbackManager then answers.beginTransaction.map some else .ok none

section

variable (transaction : Option Nat)

def forTransaction (call : Except Raised Unit) : Except Raised Unit :=
  match transaction with
  | some _ => call
  | none => .ok ()

/-- `{"status": "error", …}` -/
def failed (error : String) : Result := .error ⟨mod.name, mod.nexusId, error⟩

/-- The row for the registry. -/
def upsertRow (info : Json) (nexusVersion : String) (fileInfo : FileInfo) :
    Except Raised UpsertRow := do
  let name ← getInfo info "name" (.str mod.name)
  let author ← getInfo info "author" (.str "")
  let category ← getInfo info "category_id" (.str "")
  return ⟨mod.nexusId, name, nexusVersion, engine.str author, engine.str category,
    fileInfo.downloadUrl⟩

/-- From the download on. -/
def updateMod (info : Json) (nexusVersion : String)
    (fileInfo : FileInfo) : Except Raised Result := do
  let downloadPath ← answers.download fileInfo
  answers.upsertMod (← upsertRow engine mod info nexusVersion fileInfo)
  answers.logTasks (mod.name ++ ": " ++ mod.version ++ " -> " ++ nexusVersion)
  forTransaction transaction answers.commitTransaction
  return .updated ⟨mod.name, mod.nexusId, mod.version, nexusVersion, downloadPath, transaction⟩

/-- What the operator is asked. -/
def approvalRequest (nexusVersion : String) (fileInfo : FileInfo) : ApprovalRequest where
  requestId := "update_" ++ toString mod.nexusId
  reason := "Automatic Mod Update"
  url := fileInfo.downloadUrl
  detail := "Update for " ++ mod.name ++ " (" ++ mod.version ++ " -> " ++ nexusVersion ++ ")"

/-- From the file information on. -/
def downloadUpdate (info : Json) (nexusVersion : String) :
    Except Raised Result := do
  let fileInfo ← answers.getFileInfo
  if engine.hitl ∧ answers.requestApproval (approvalRequest mod nexusVersion fileInfo) ≠ .approved then
    forTransaction transaction answers.markTransactionRolledBack
    return failed mod "Descarga abortada por HITL"
  else updateMod engine mod answers transaction info nexusVersion fileInfo

/-- From the metadata on. -/
def afterFetch (info : Json) : Except Raised Result := do
  if !info.truthy then
    forTransaction transaction answers.commitTransaction
    return failed mod "No metadata returned"
  else
    let nexusVersion := engine.str (← getInfo info "version" (.str ""))
    if nexusVersion = "" ∨ nexusVersion = mod.version then
      forTransaction transaction answers.commitTransaction
      return .upToDate mod.name
    else if !engine.downloader then
      forTransaction transaction answers.commitTransaction
      return failed mod "Downloader not configured"
    else downloadUpdate engine mod answers transaction info nexusVersion

/-- The `try` block of `_check_and_update_mod`. -/
def tryUpdate : Except Raised Result := do
  let transaction ← beginTransaction engine answers
  let info ← safeFetchInfo mod.nexusId answers.fetch
  afterFetch engine mod answers transaction info

/-- The handlers of `_check_and_update_mod`; what marking the transaction raises is swallowed. -/
def handled (result : Except Raised Result) : Except Raised Result :=
  match result with
  | .ok result => .ok result
  | .error e => if e.isinstance networkErrors then .ok (failed mod e.text) else .error e

/-- What `_wrapped_worker` takes for a failure of its mod alone. -/
def expectedErrors : List ExceptionClass := networkErrors ++ [.valueError, .osError]

/-- An entry of `results`. -/
inductive Outcome
  | result (result : Result)
  | exception (e : Raised)

/-- `_wrapped_worker`, around what its mod comes to. -/
def wrapped (result : Except Raised Result) : Except Raised Outcome :=
  match result with
  | .ok result => .ok (.result result)
  | .error e => if e.isinstance expectedErrors then .ok (.exception e) else .error e

/-! ## The task group -/

/-- Where the task of a mod is. -/
inductive Phase
  /-- at the concurrency limit -/
  | queued
  | beginning
  /-- at the API semaphore, for an attempt with `left` more after it -/
  | waiting (transaction : Option Nat) (left attempt : Nat)
  | requesting (transaction : Option Nat) (left attempt : Nat)
  /-- nothing from here on is shared with the other tasks -/
  | updating (transaction : Option Nat) (info : Except Raised Json)
  | finished (outcome : Outcome)
  | raised (e : Raised)

structure Task where
  mod : Mod
  answers : Answers
  phase : Phase

/-- The values of the two semaphores. -/
structure Semaphores where
  concurrency : Nat
  api : Nat

/-- A task leaves the concurrency limit. -/
def Task.leave (task : Task) (semaphores : Semaphores) (result : Except Raised Result) :
    Semaphores × Task :=
  ({ semaphores with concurrency := semaphores.concurrency + 1 },
    { task with
      phase :=
        match wrapped (handled task.mod result) with
        | .ok outcome => .finished outcome
        | .error e => .raised e })

/-- The next step of a task. -/
def Task.next (semaphores : Semaphores) (task : Task) : Option (Semaphores × Task) :=
  match task.phase with
  | .queued =>
      if semaphores.concurrency = 0 then none
      else some ({ semaphores with concurrency := semaphores.concurrency - 1 },
        { task with phase := .beginning })
  | .beginning =>
      match beginTransaction engine task.answers with
      | .ok transaction =>
          some (semaphores, { task with phase := .waiting transaction furtherFetches 0 })
      | .error e => some (task.leave semaphores (.error e))
  | .waiting transaction left attempt =>
      if semaphores.api = 0 then none
      else some ({ semaphores with api := semaphores.api - 1 },
        { task with phase := .requesting transaction left attempt })
  | .requesting transaction left attempt =>
      let phase :=
        match fetchModInfo task.mod.nexusId (task.answers.fetch attempt) with
        | .ok info => .updating transaction (.ok info)
        | .error e =>
            match left with
            | 0 => .updating transaction (.error e)
            | left + 1 =>
                if fetchAgain e then .waiting transaction left (attempt + 1)
                else .updating transaction (.error e)
      some ({ semaphores with api := semaphores.api + 1 }, { task with phase := phase })
  | .updating transaction info =>
      some (task.leave semaphores (info.bind (afterFetch engine task.mod task.answers transaction)))
  | .finished _ => none
  | .raised _ => none

structure Cycle where
  semaphores : Semaphores
  tasks : List Task

def Task.hasRaised (task : Task) : Bool :=
  match task.phase with
  | .raised _ => true
  | _ => false

/-- A step of the group; once a task has raised, the group cancels the others and raises. -/
def step (s : Cycle) (i : Nat) : Option Cycle :=
  if s.tasks.any Task.hasRaised then none
  else (Interleave.stepAt (Task.next engine) s.semaphores s.tasks i).map fun after =>
    ⟨after.1, after.2⟩

/-! ## The payload -/

/-- `UpdatePayload`; the cycle rolls nothing back. -/
structure Payload where
  totalChecked : Nat
  updatedMods : List Updated
  failedMods : List Failed
  upToDateMods : List String

/-- An entry of `updated_mods` -/
def Outcome.updated? : Outcome → Option Updated
  | result (.updated entry) => some entry
  | _ => none

/-- An entry of `up_to_date_mods` -/
def Outcome.upToDate? : Outcome → Option String
  | result (.upToDate name) => some name
  | _ => none

/-- An entry of `failed_mods` -/
def Outcome.failed? (mod : Mod) : Outcome → Option Failed
  | result (.error entry) => some entry
  | exception e => some ⟨mod.name, mod.nexusId, e.text⟩
  | _ => none

/-- The loop over the results. -/
def payload (results : List (Mod × Outcome)) : Payload where
  totalChecked := results.length
  updatedMods := results.filterMap fun (_, outcome) => outcome.updated?
  failedMods := results.filterMap fun (mod, outcome) => outcome.failed? mod
  upToDateMods := results.filterMap fun (_, outcome) => outcome.upToDate?

def Task.outcome? (task : Task) : Option (Mod × Outcome) :=
  match task.phase with
  | .finished outcome => some (task.mod, outcome)
  | _ => none

/-- What `check_for_updates` returns when the group is left: every task has written its result. -/
def Cycle.returns (s : Cycle) : Option Payload :=
  if s.tasks.all fun task => task.outcome?.isSome then
    some (payload (s.tasks.filterMap Task.outcome?))
  else none

/-- How `check_for_updates` begins. -/
inductive Start
  | returned (payload : Payload)
  /-- `Semaphore` takes no negative value. -/
  | raised (e : Raised)
  | running (s : Cycle)

/-- The group as it is entered. -/
def group (tracked : List (Mod × Answers)) : Cycle where
  semaphores := ⟨15, engine.apiSemaphoreLimit.toNat⟩
  tasks := tracked.map fun (mod, answers) => ⟨mod, answers, .queued⟩

/-- `all_mods` and the answers for each, up to the task group. -/
def start (allMods : List (Mod × Answers)) : Start :=
  let tracked := allMods.filter (·.1.installed)
  if tracked.isEmpty then .returned ⟨0, [], [], []⟩
  else if engine.apiSemaphoreLimit < 0 then
    .raised ⟨.valueError, "Semaphore initial value must be >= 0"⟩
  else .running (group engine tracked)

/-- Every tracked mod is in one of the three lists, and nothing else is. -/
def Payload.Accounts (payload : Payload) (tracked : List Mod) : Prop :=
  payload.totalChecked = tracked.length ∧
    ∃ updated upToDate failed : List Mod, (updated ++ upToDate ++ failed).Perm tracked ∧
      payload.updatedMods.map (fun entry => (entry.name, entry.nexusId)) =
        updated.map (fun mod => (mod.name, mod.nexusId)) ∧
      payload.upToDateMods = upToDate.map Mod.name ∧
      payload.failedMods.map (fun entry => (entry.name, entry.nexusId)) =
        failed.map (fun mod => (mod.name, mod.nexusId))

/-- **The cycle always completes**: whichever task goes on next, it comes to its end, returns, and
each tracked mod is accounted for. -/
def AlwaysCompletes (allMods : List (Mod × Answers)) : Prop :=
  let tracked := (allMods.filter (·.1.installed)).map Prod.fst
  match start engine allMods with
  | .returned payload => payload.Accounts tracked
  | .raised _ => False
  | .running s =>
      (∃ bound, ∀ schedule t, Runs.exec (step engine) s schedule = some t →
        schedule.length ≤ bound) ∧
      ∀ schedule t, Runs.exec (step engine) s schedule = some t → Runs.Final (step engine) t →
        ∃ payload, t.returns = some payload ∧ payload.Accounts tracked

/-! ## The calls for a mod -/

/-- The transaction is there, or not needed. -/
def Begins : Prop := beginTransaction engine answers = .ok transaction

/-- Metadata comes back. -/
def Fetched (info : Json) : Prop :=
  Begins engine answers transaction ∧ safeFetchInfo mod.nexusId answers.fetch = .ok info

end

/-- The metadata has a version. -/
def HasVersion (info : Json) (nexusVersion : String) : Prop :=
  info.truthy = true ∧ ∃ version, getInfo info "version" (.str "") = .ok version ∧
    engine.str version = nexusVersion

/-- There is a new version, and a downloader for it. -/
def Outdated (info : Json) (nexusVersion : String) : Prop :=
  HasVersion engine info nexusVersion ∧ nexusVersion ≠ "" ∧ nexusVersion ≠ mod.version ∧
    engine.downloader = true

/-- Nothing is downloaded. -/
def Settled (info : Json) : Prop :=
  info.truthy = false ∨ ∃ nexusVersion, HasVersion engine info nexusVersion ∧
    (nexusVersion = "" ∨ nexusVersion = mod.version ∨ engine.downloader = false)

/-- The operator, where one is asked, approves. -/
def Approved (nexusVersion : String) (fileInfo : FileInfo) : Prop :=
  engine.hitl = true →
    answers.requestApproval (approvalRequest mod nexusVersion fileInfo) = .approved

/-- **A call that the update of a mod comes to raises an exception.** -/
inductive CallRaises : Raised → Prop
  | begin {e : Raised} (hraised : beginTransaction engine answers = .error e) : CallRaises e
  | fetch {transaction : Option Nat} {e : Raised} (hbegins : Begins engine answers transaction)
      (hraised : Retry.LastRaises fetchAgain
        (fun attempt => fetchModInfo mod.nexusId (answers.fetch attempt)) furtherFetches 0 e) :
      CallRaises e
  /-- what is no dict has no `get` -/
  | metadata {transaction : Option Nat} {info : Json} {e : Raised}
      (hfetched : Fetched engine mod answers transaction info) (htruthy : info.truthy = true)
      (hraised : getInfo info "version" (.str "") = .error e) : CallRaises e
  | commit {transaction : Option Nat} {info : Json} {e : Raised}
      (hfetched : Fetched engine mod answers transaction info) (hsettled : Settled engine mod info)
      (hraised : forTransaction transaction answers.commitTransaction = .error e) : CallRaises e
  | fileInfo {transaction : Option Nat} {info : Json} {nexusVersion : String} {e : Raised}
      (hfetched : Fetched engine mod answers transaction info)
      (houtdated : Outdated engine mod info nexusVersion)
      (hraised : answers.getFileInfo = .error e) : CallRaises e
  | refusal {transaction : Option Nat} {info : Json} {nexusVersion : String} {file : FileInfo}
      {e : Raised} (hfetched : Fetched engine mod answers transaction info)
      (houtdated : Outdated engine mod info nexusVersion) (hfile : answers.getFileInfo = .ok file)
      (hrefused : ¬ Approved engine mod answers nexusVersion file)
      (hraised : forTransaction transaction answers.markTransactionRolledBack = .error e) :
      CallRaises e
  /-- the download, the two calls of the registry and the last commit -/
  | update {transaction : Option Nat} {info : Json} {nexusVersion : String} {file : FileInfo}
      {e : Raised} (hfetched : Fetched engine mod answers transaction info)
      (houtdated : Outdated engine mod info nexusVersion) (hfile : answers.getFileInfo = .ok file)
      (happroved : Approved engine mod answers nexusVersion file)
      (hraised : answers.download file = .error e ∨
        (∃ path, answers.download file = .ok path) ∧
          ∃ row, upsertRow engine mod info nexusVersion file = .ok row ∧
            (answers.upsertMod row = .error e ∨ answers.upsertMod row = .ok () ∧
              (answers.logTasks (mod.name ++ ": " ++ mod.version ++ " -> " ++ nexusVersion) =
                  .error e ∨
                answers.logTasks (mod.name ++ ": " ++ mod.version ++ " -> " ++ nexusVersion) =
                  .ok () ∧ forTransaction transaction answers.commitTransaction = .error e))) :
      CallRaises e

/-! ## What the update of a mod comes to -/

section OneMod

variable {engine mod answers}

/-- A result is about its mod. -/
def Result.Names (mod : Mod) : Result → Prop
  | updated entry => entry.name = mod.name ∧ entry.nexusId = mod.nexusId
  | upToDate name => name = mod.name
  | error entry => entry.name = mod.name ∧ entry.nexusId = mod.nexusId

variable {info version : Json}

theorem exists_getInfo
    (h : getInfo info "version" (.str "") = .ok version) (name : String) (fallback : Json) :
    ∃ value, getInfo info name fallback = .ok value := by
  cases info with
  | obj fields => exact ⟨_, rfl⟩
  | null | bool | int | float | str | arr => cases h

theorem exists_upsertRow
    (h : getInfo info "version" (.str "") = .ok version) (nexusVersion : String)
    (file : FileInfo) : ∃ row, upsertRow engine mod info nexusVersion file = .ok row := by
  obtain ⟨name, hname⟩ := exists_getInfo h "name" (.str mod.name)
  obtain ⟨author, hauthor⟩ := exists_getInfo h "author" (.str "")
  obtain ⟨category, hcategory⟩ := exists_getInfo h "category_id" (.str "")
  unfold upsertRow
  rw [hname, hauthor, hcategory]
  exact ⟨_, rfl⟩

variable {e : Raised}

theorem check_eq_error_iff {check : Except Raised Unit} {result : Result} :
    (check >>= fun _ => (.ok result : Except Raised Result)) = .error e ↔ check = .error e := by
  rw [bind_eq_error_iff]
  exact or_iff_left fun ⟨_, _, h⟩ => by cases h

theorem afterFetch_of_settled (answers : Answers) (h : Settled engine mod info)
    (transaction : Option Nat) :
    ∃ result, result.Names mod ∧ afterFetch engine mod answers transaction info =
      forTransaction transaction answers.commitTransaction >>= fun _ => .ok result := by
  rcases h with hfalse | ⟨nexusVersion, ⟨htruthy, version, hversion, rfl⟩, hreason⟩
  · refine ⟨failed mod "No metadata returned", ⟨rfl, rfl⟩, ?_⟩
    unfold afterFetch
    rw [hfalse]
    rfl
  · unfold afterFetch
    rw [htruthy, hversion]
    simp only [Bool.not_true, Bool.false_eq_true, if_false]
    by_cases hsame : engine.str version = "" ∨ engine.str version = mod.version
    · exact ⟨.upToDate mod.name, rfl, if_pos hsame⟩
    · have hnone : engine.downloader = false :=
        hreason.elim (fun h => absurd (.inl h) hsame)
          (fun h => h.elim (fun h => absurd (.inr h) hsame) id)
      refine ⟨failed mod "Downloader not configured", ⟨rfl, rfl⟩, ?_⟩
      refine (if_neg hsame).trans (if_pos ?_)
      rw [hnone]
      rfl

variable {nexusVersion : String}

theorem afterFetch_of_outdated
    (h : Outdated engine mod info nexusVersion) (transaction : Option Nat) :
    afterFetch engine mod answers transaction info =
      downloadUpdate engine mod answers transaction info nexusVersion := by
  obtain ⟨⟨htruthy, version, hversion, rfl⟩, hne, hnew, hdownloader⟩ := h
  unfold afterFetch
  rw [htruthy, hversion]
  refine (if_neg (not_or.mpr ⟨hne, hnew⟩)).trans (if_neg ?_)
  rw [hdownloader]
  exact Bool.false_ne_true

theorem afterFetch_of_no_dict (htruthy : info.truthy = true)
    (h : getInfo info "version" (.str "") = .error e) (transaction : Option Nat) :
    afterFetch engine mod answers transaction info = .error e := by
  unfold afterFetch
  rw [htruthy, h]
  rfl

theorem info_cases (engine : Engine) (mod : Mod) (info : Json) :
    Settled engine mod info ∨ (∃ nexusVersion, Outdated engine mod info nexusVersion) ∨
      info.truthy = true ∧ ∃ e, getInfo info "version" (.str "") = .error e := by
  by_cases htruthy : info.truthy = true
  · cases hversion : getInfo info "version" (.str "") with
    | error e => exact .inr (.inr ⟨htruthy, e, rfl⟩)
    | ok version =>
        have hhas : HasVersion engine info (engine.str version) := ⟨htruthy, version, hversion, rfl⟩
        by_cases hempty : engine.str version = ""
        · exact .inl (.inr ⟨_, hhas, .inl hempty⟩)
        by_cases hsame : engine.str version = mod.version
        · exact .inl (.inr ⟨_, hhas, .inr (.inl hsame)⟩)
        cases hdownloader : engine.downloader with
        | false => exact .inl (.inr ⟨_, hhas, .inr (.inr hdownloader)⟩)
        | true => exact .inr (.inl ⟨_, hhas, hempty, hsame, hdownloader⟩)
  · exact .inl (.inl (eq_false_of_ne_true htruthy))

variable {file : FileInfo}

theorem downloadUpdate_of_approved
    (hfile : answers.getFileInfo = .ok file)
    (h : Approved engine mod answers nexusVersion file) (transaction : Option Nat) (info : Json) :
    downloadUpdate engine mod answers transaction info nexusVersion =
      updateMod engine mod answers transaction info nexusVersion file := by
  unfold downloadUpdate
  rw [hfile]
  exact if_neg fun hasked => hasked.2 (h hasked.1)

theorem downloadUpdate_of_refused
    (hfile : answers.getFileInfo = .ok file)
    (h : ¬ Approved engine mod answers nexusVersion file) (transaction : Option Nat) (info : Json) :
    downloadUpdate engine mod answers transaction info nexusVersion =
      forTransaction transaction answers.markTransactionRolledBack >>= fun _ =>
        .ok (failed mod "Descarga abortada por HITL") := by
  obtain ⟨hhitl, hdecision⟩ := Classical.not_imp.mp h
  unfold downloadUpdate
  rw [hfile]
  exact if_pos ⟨hhitl, hdecision⟩

variable {transaction : Option Nat}

theorem updateMod_eq_error_iff
    (hversion : getInfo info "version" (.str "") = .ok version) :
    updateMod engine mod answers transaction info nexusVersion file = .error e ↔
      answers.download file = .error e ∨
        (∃ path, answers.download file = .ok path) ∧
          ∃ row, upsertRow engine mod info nexusVersion file = .ok row ∧
            (answers.upsertMod row = .error e ∨ answers.upsertMod row = .ok () ∧
              (answers.logTasks (mod.name ++ ": " ++ mod.version ++ " -> " ++ nexusVersion) =
                  .error e ∨
                answers.logTasks (mod.name ++ ": " ++ mod.version ++ " -> " ++ nexusVersion) =
                  .ok () ∧ forTransaction transaction answers.commitTransaction = .error e)) := by
  obtain ⟨row, hrow⟩ := exists_upsertRow hversion nexusVersion file
  have hunit : ∀ check : Except Raised Unit, (∃ u, check = .ok u) ↔ check = .ok () :=
    fun check => ⟨fun ⟨_, h⟩ => h, fun h => ⟨(), h⟩⟩
  unfold updateMod
  rw [bind_eq_error_iff, hrow]
  simp only [bind_eq_error_iff, hunit, reduceCtorEq, false_or, Except.ok.injEq,
    exists_eq_left', exists_and_right, and_false, exists_false, or_false, pure, Except.pure]

/-- **The exceptions of an update** are those of the calls that it comes to. -/
theorem tryUpdate_eq_error_iff :
    tryUpdate engine mod answers = .error e ↔ CallRaises engine mod answers e := by
  have hfetch : safeFetchInfo mod.nexusId answers.fetch = .error e ↔ Retry.LastRaises fetchAgain
      (fun attempt => fetchModInfo mod.nexusId (answers.fetch attempt)) furtherFetches 0 e :=
    Retry.stateless_eq_error_iff
  unfold tryUpdate
  rw [bind_eq_error_iff]
  constructor
  · rintro (hbegin | ⟨transaction, hbegins, h⟩)
    · exact .begin hbegin
    rcases bind_eq_error_iff.mp h with hraised | ⟨info, hinfo, h⟩
    · exact .fetch hbegins (hfetch.mp hraised)
    have hfetched : Fetched engine mod answers transaction info := ⟨hbegins, hinfo⟩
    rcases info_cases engine mod info with hsettled | ⟨nexusVersion, houtdated⟩ | ⟨htruthy, e', hnone⟩
    · obtain ⟨result, _, hafter⟩ := afterFetch_of_settled answers hsettled transaction
      exact .commit hfetched hsettled (check_eq_error_iff.mp (hafter ▸ h))
    · rw [afterFetch_of_outdated houtdated] at h
      cases hfile : answers.getFileInfo with
      | error e' =>
          unfold downloadUpdate at h
          rw [hfile] at h
          cases h
          exact .fileInfo hfetched houtdated hfile
      | ok file =>
          by_cases happroved : Approved engine mod answers nexusVersion file
          · rw [downloadUpdate_of_approved hfile happroved] at h
            obtain ⟨version, hversion, _⟩ := houtdated.1.2
            exact .update hfetched houtdated hfile happroved
              ((updateMod_eq_error_iff hversion).mp h)
          · rw [downloadUpdate_of_refused hfile happroved] at h
            exact .refusal hfetched houtdated hfile happroved (check_eq_error_iff.mp h)
    · rw [afterFetch_of_no_dict htruthy hnone] at h
      cases h
      exact .metadata hfetched htruthy hnone
  · have hstages : ∀ {transaction info}, Fetched engine mod answers transaction info →
        afterFetch engine mod answers transaction info = .error e →
        beginTransaction engine answers = .error e ∨ ∃ transaction,
          beginTransaction engine answers = .ok transaction ∧
            (safeFetchInfo mod.nexusId answers.fetch >>=
              afterFetch engine mod answers transaction) = .error e :=
      fun {transaction info} hfetched h => Or.inr
        ⟨transaction, hfetched.1, bind_eq_error_iff.mpr (.inr ⟨info, hfetched.2, h⟩)⟩
    intro h
    cases h with
    | begin hraised => exact .inl hraised
    | fetch hbegins hraised =>
        exact .inr ⟨_, hbegins, bind_eq_error_iff.mpr (.inl (hfetch.mpr hraised))⟩
    | metadata hfetched htruthy hraised =>
        exact hstages hfetched (afterFetch_of_no_dict htruthy hraised _)
    | commit hfetched hsettled hraised =>
        obtain ⟨result, _, hafter⟩ := afterFetch_of_settled answers hsettled _
        exact hstages hfetched (hafter.trans (check_eq_error_iff.mpr hraised))
    | fileInfo hfetched houtdated hraised =>
        refine hstages hfetched ((afterFetch_of_outdated houtdated _).trans ?_)
        unfold downloadUpdate
        rw [hraised]
        rfl
    | refusal hfetched houtdated hfile hrefused hraised =>
        refine hstages hfetched ((afterFetch_of_outdated houtdated _).trans ?_)
        rw [downloadUpdate_of_refused hfile hrefused]
        exact check_eq_error_iff.mpr hraised
    | update hfetched houtdated hfile happroved hraised =>
        obtain ⟨version, hversion, _⟩ := houtdated.1.2
        refine hstages hfetched ((afterFetch_of_outdated houtdated _).trans ?_)
        rw [downloadUpdate_of_approved hfile happroved]
        exact (updateMod_eq_error_iff hversion).mpr hraised

theorem updateMod_names {result : Result}
    (h : updateMod engine mod answers transaction info nexusVersion file = .ok result) :
    result.Names mod := by
  obtain ⟨path, _, h⟩ := bind_eq_ok_iff.mp h
  obtain ⟨row, _, h⟩ := bind_eq_ok_iff.mp h
  obtain ⟨_, _, h⟩ := bind_eq_ok_iff.mp h
  obtain ⟨_, _, h⟩ := bind_eq_ok_iff.mp h
  obtain ⟨_, _, h⟩ := bind_eq_ok_iff.mp h
  cases h
  exact ⟨rfl, rfl⟩

theorem tryUpdate_names {result : Result} (h : tryUpdate engine mod answers = .ok result) :
    result.Names mod := by
  obtain ⟨transaction, _, h⟩ := bind_eq_ok_iff.mp h
  obtain ⟨info, _, h⟩ := bind_eq_ok_iff.mp h
  rcases info_cases engine mod info with hsettled | ⟨nexusVersion, houtdated⟩ | ⟨htruthy, e, hnone⟩
  · obtain ⟨settled, hnames, hafter⟩ := afterFetch_of_settled answers hsettled transaction
    rw [hafter] at h
    obtain ⟨_, _, h⟩ := bind_eq_ok_iff.mp h
    exact Except.ok.inj h ▸ hnames
  · rw [afterFetch_of_outdated houtdated] at h
    obtain ⟨file, hfile, _⟩ := bind_eq_ok_iff.mp h
    by_cases happroved : Approved engine mod answers nexusVersion file
    · rw [downloadUpdate_of_approved hfile happroved] at h
      exact updateMod_names h
    · rw [downloadUpdate_of_refused hfile happroved] at h
      obtain ⟨_, _, h⟩ := bind_eq_ok_iff.mp h
      exact Except.ok.inj h ▸ ⟨rfl, rfl⟩
  · rw [afterFetch_of_no_dict htruthy hnone] at h
    cases h

/-- What a task writes is about its mod. -/
def Outcome.Names (mod : Mod) : Outcome → Prop
  | .result value => value.Names mod
  | .exception _ => True

theorem expected_of_network (h : e.isinstance networkErrors = true) :
    e.isinstance expectedErrors = true := by
  unfold expectedErrors
  rw [Raised.isinstance_append, h]
  rfl

theorem wrapped_of_unexpected (h : e.isinstance expectedErrors = false) (mod : Mod) :
    wrapped (handled mod (.error e)) = .error e := by
  have hnetwork : ¬ e.isinstance networkErrors = true := by
    intro hnetwork
    rw [expected_of_network hnetwork] at h
    cases h
  unfold handled
  dsimp only
  rw [if_neg hnetwork]
  unfold wrapped
  dsimp only
  rw [h]
  rfl

theorem exists_wrapped_of_expected (h : e.isinstance expectedErrors = true)
    (mod : Mod) : ∃ outcome : Outcome, outcome.Names mod ∧
      wrapped (handled mod (.error e)) = .ok outcome := by
  unfold handled
  dsimp only
  by_cases hnetwork : e.isinstance networkErrors = true
  · rw [if_pos hnetwork]
    exact ⟨.result (failed mod e.text), ⟨rfl, rfl⟩, rfl⟩
  · rw [if_neg hnetwork]
    exact ⟨.exception e, trivial, if_pos h⟩

/-- **A task raises** what its update raises and no handler expects. -/
theorem wrapped_handled_eq_error_iff {result : Except Raised Result} :
    wrapped (handled mod result) = .error e ↔
      result = .error e ∧ e.isinstance expectedErrors = false := by
  constructor
  · intro h
    cases result with
    | ok value => cases h
    | error raised =>
        cases hexpected : raised.isinstance expectedErrors with
        | true =>
            obtain ⟨outcome, _, hwrapped⟩ := exists_wrapped_of_expected hexpected mod
            rw [hwrapped] at h
            cases h
        | false =>
            rw [wrapped_of_unexpected hexpected] at h
            cases h
            exact ⟨rfl, hexpected⟩
  · rintro ⟨rfl, h⟩
    exact wrapped_of_unexpected h mod

theorem outcome_names {outcome : Outcome}
    (h : wrapped (handled mod (tryUpdate engine mod answers)) = .ok outcome) :
    outcome.Names mod := by
  cases hresult : tryUpdate engine mod answers with
  | ok value =>
      rw [hresult] at h
      cases h
      exact tryUpdate_names hresult
  | error e =>
      rw [hresult] at h
      cases hexpected : e.isinstance expectedErrors with
      | true =>
          obtain ⟨expected, hnames, hwrapped⟩ := exists_wrapped_of_expected hexpected mod
          cases hwrapped.symm.trans h
          exact hnames
      | false =>
          rw [wrapped_of_unexpected hexpected] at h
          cases h

end OneMod

/-! ## The steps of a task -/

section Steps

variable {engine}

/-- A step, by the phase that it begins in. -/
inductive Task.Moves (engine : Engine) : Semaphores → Task → Semaphores → Task → Prop
  | enter {concurrency api : Nat} {mod : Mod} {answers : Answers} :
      Moves engine ⟨concurrency + 1, api⟩ ⟨mod, answers, .queued⟩
        ⟨concurrency, api⟩ ⟨mod, answers, .beginning⟩
  | begin {semaphores : Semaphores} {mod : Mod} {answers : Answers} {transaction : Option Nat}
      (hbegins : Begins engine answers transaction) :
      Moves engine semaphores ⟨mod, answers, .beginning⟩
        semaphores ⟨mod, answers, .waiting transaction furtherFetches 0⟩
  | refuse {semaphores : Semaphores} {mod : Mod} {answers : Answers} {e : Raised}
      (hraised : beginTransaction engine answers = .error e) :
      Moves engine semaphores ⟨mod, answers, .beginning⟩
        (Task.leave ⟨mod, answers, .beginning⟩ semaphores (.error e)).1
        (Task.leave ⟨mod, answers, .beginning⟩ semaphores (.error e)).2
  | acquire {concurrency api : Nat} {mod : Mod} {answers : Answers} {transaction : Option Nat}
      {left attempt : Nat} :
      Moves engine ⟨concurrency, api + 1⟩ ⟨mod, answers, .waiting transaction left attempt⟩
        ⟨concurrency, api⟩ ⟨mod, answers, .requesting transaction left attempt⟩
  | fetched {concurrency api : Nat} {mod : Mod} {answers : Answers} {transaction : Option Nat}
      {left attempt : Nat} {info : Json}
      (hinfo : fetchModInfo mod.nexusId (answers.fetch attempt) = .ok info) :
      Moves engine ⟨concurrency, api⟩ ⟨mod, answers, .requesting transaction left attempt⟩
        ⟨concurrency, api + 1⟩ ⟨mod, answers, .updating transaction (.ok info)⟩
  | again {concurrency api : Nat} {mod : Mod} {answers : Answers} {transaction : Option Nat}
      {left attempt : Nat} {e : Raised}
      (hraised : fetchModInfo mod.nexusId (answers.fetch attempt) = .error e)
      (hretry : fetchAgain e = true) :
      Moves engine ⟨concurrency, api⟩ ⟨mod, answers, .requesting transaction (left + 1) attempt⟩
        ⟨concurrency, api + 1⟩ ⟨mod, answers, .waiting transaction left (attempt + 1)⟩
  | giveUp {concurrency api : Nat} {mod : Mod} {answers : Answers} {transaction : Option Nat}
      {left attempt : Nat} {e : Raised}
      (hraised : fetchModInfo mod.nexusId (answers.fetch attempt) = .error e)
      (hlast : left = 0 ∨ fetchAgain e = false) :
      Moves engine ⟨concurrency, api⟩ ⟨mod, answers, .requesting transaction left attempt⟩
        ⟨concurrency, api + 1⟩ ⟨mod, answers, .updating transaction (.error e)⟩
  | leave {semaphores : Semaphores} {mod : Mod} {answers : Answers} {transaction : Option Nat}
      {info : Except Raised Json} :
      Moves engine semaphores ⟨mod, answers, .updating transaction info⟩
        (Task.leave ⟨mod, answers, .updating transaction info⟩ semaphores
          (info.bind (afterFetch engine mod answers transaction))).1
        (Task.leave ⟨mod, answers, .updating transaction info⟩ semaphores
          (info.bind (afterFetch engine mod answers transaction))).2

variable {semaphores semaphores' : Semaphores} {task task' : Task}

theorem Task.moves_of_next
    (h : Task.next engine semaphores task = some (semaphores', task')) :
    Task.Moves engine semaphores task semaphores' task' := by
  obtain ⟨concurrency, api⟩ := semaphores
  obtain ⟨mod, answers, phase⟩ := task
  unfold Task.next at h
  cases phase with
  | queued =>
      cases concurrency with
      | zero => cases h
      | succ concurrency =>
          cases h
          exact .enter
  | beginning =>
      dsimp only at h
      cases hbegin : beginTransaction engine answers with
      | ok transaction =>
          rw [hbegin] at h
          cases h
          exact .begin hbegin
      | error e =>
          rw [hbegin] at h
          cases h
          exact .refuse hbegin
  | waiting transaction left attempt =>
      cases api with
      | zero => cases h
      | succ api =>
          cases h
          exact .acquire
  | requesting transaction left attempt =>
      dsimp only at h
      cases hfetch : fetchModInfo mod.nexusId (answers.fetch attempt) with
      | ok info =>
          rw [hfetch] at h
          cases h
          exact .fetched hfetch
      | error e =>
          rw [hfetch] at h
          cases left with
          | zero =>
              cases h
              exact .giveUp hfetch (.inl rfl)
          | succ left =>
              dsimp only at h
              cases hretry : fetchAgain e with
              | true =>
                  rw [hretry] at h
                  cases h
                  exact .again hfetch hretry
              | false =>
                  rw [hretry] at h
                  cases h
                  exact .giveUp hfetch (.inr hretry)
  | updating transaction info =>
      cases h
      exact .leave
  | finished | raised => cases h

/-! ### What a step keeps -/

/-- The steps that a task has left, at most. -/
def Task.stepsLeft (task : Task) : Nat :=
  match task.phase with
  | .queued => 2 * furtherFetches + 5
  | .beginning => 2 * furtherFetches + 4
  | .waiting _ left _ => 2 * left + 3
  | .requesting _ left _ => 2 * left + 2
  | .updating _ _ => 1
  | .finished _ => 0
  | .raised _ => 0

/-- The permits of the concurrency limit that a task holds. -/
def Task.inside (task : Task) : Nat :=
  match task.phase with
  | .beginning | .waiting _ _ _ | .requesting _ _ _ | .updating _ _ => 1
  | .queued | .finished _ | .raised _ => 0

/-- The permits of the API semaphore that a task holds. -/
def Task.calling (task : Task) : Nat :=
  match task.phase with
  | .requesting _ _ _ => 1
  | _ => 0

@[simp] theorem Task.stepsLeft_leave (task : Task) (semaphores : Semaphores)
    (result : Except Raised Result) : (task.leave semaphores result).2.stepsLeft = 0 := by
  unfold leave stepsLeft
  cases wrapped (handled task.mod result) <;> rfl

@[simp] theorem Task.inside_leave (task : Task) (semaphores : Semaphores)
    (result : Except Raised Result) : (task.leave semaphores result).2.inside = 0 := by
  unfold leave inside
  cases wrapped (handled task.mod result) <;> rfl

@[simp] theorem Task.calling_leave (task : Task) (semaphores : Semaphores)
    (result : Except Raised Result) : (task.leave semaphores result).2.calling = 0 := by
  unfold leave calling
  cases wrapped (handled task.mod result) <;> rfl

theorem Task.Moves.stepsLeft_lt
    (h : Task.Moves engine semaphores task semaphores' task') : task'.stepsLeft < task.stepsLeft := by
  cases h with
  | refuse hraised =>
      rw [stepsLeft_leave]
      exact Nat.succ_pos _
  | leave =>
      rw [stepsLeft_leave]
      exact Nat.one_pos
  | enter | begin | acquire => exact Nat.lt_succ_self _
  | fetched | giveUp =>
      show 1 < 2 * _ + 2
      omega
  | again hraised hretry =>
      show 2 * _ + 3 < 2 * (_ + 1) + 2
      omega

theorem Task.Moves.permits
    (h : Task.Moves engine semaphores task semaphores' task') :
    semaphores'.concurrency + task'.inside = semaphores.concurrency + task.inside ∧
      semaphores'.api + task'.calling = semaphores.api + task.calling := by
  cases h with
  | refuse | leave =>
      rw [inside_leave, calling_leave]
      exact ⟨rfl, rfl⟩
  | enter | begin | acquire | fetched | again | giveUp => exact ⟨rfl, rfl⟩

theorem Task.Moves.mod_eq
    (h : Task.Moves engine semaphores task semaphores' task') :
    (task'.mod, task'.answers) = (task.mod, task.answers) := by
  cases h <;> rfl

/-- What a task has done is the beginning of its update. -/
def Task.OnTrack (engine : Engine) (task : Task) : Prop :=
  match task.phase with
  | .queued | .beginning => True
  | .waiting transaction left attempt | .requesting transaction left attempt =>
      Begins engine task.answers transaction ∧
        safeFetchInfo task.mod.nexusId task.answers.fetch =
          fetchFrom task.mod.nexusId task.answers.fetch left attempt
  | .updating transaction info =>
      Begins engine task.answers transaction ∧
        safeFetchInfo task.mod.nexusId task.answers.fetch = info
  | .finished outcome =>
      wrapped (handled task.mod (tryUpdate engine task.mod task.answers)) = .ok outcome
  | .raised e =>
      wrapped (handled task.mod (tryUpdate engine task.mod task.answers)) = .error e

theorem Task.onTrack_leave {result : Except Raised Result}
    (h : tryUpdate engine task.mod task.answers = result) (semaphores : Semaphores) :
    (task.leave semaphores result).2.OnTrack engine := by
  subst h
  unfold leave OnTrack
  dsimp only
  cases hwrapped : wrapped (handled task.mod (tryUpdate engine task.mod task.answers)) with
  | ok | error => rfl

theorem Task.Moves.onTrack
    (h : Task.Moves engine semaphores task semaphores' task') (htrack : task.OnTrack engine) :
    task'.OnTrack engine := by
  cases h with
  | enter => trivial
  | begin hbegins => exact ⟨hbegins, rfl⟩
  | refuse hraised =>
      refine onTrack_leave ?_ semaphores
      exact bind_eq_error_iff.mpr (.inl hraised)
  | acquire => exact htrack
  | fetched hinfo => exact ⟨htrack.1, htrack.2.trans (Retry.stateless_of_ok hinfo _)⟩
  | again hraised hretry =>
      exact ⟨htrack.1, htrack.2.trans (Retry.stateless_of_again hraised hretry _)⟩
  | giveUp hraised hlast =>
      exact ⟨htrack.1, htrack.2.trans (Retry.stateless_of_last hraised hlast)⟩
  | leave =>
      refine onTrack_leave ?_ semaphores
      unfold tryUpdate
      obtain ⟨hbegins, hinfo⟩ := htrack
      rw [show beginTransaction engine _ = .ok _ from hbegins, hinfo]
      rfl

/-- Without a permit for the API no task gets beyond the semaphore. -/
def Task.Unserved (engine : Engine) (task : Task) : Prop :=
  match task.phase with
  | .queued | .beginning | .waiting _ _ _ => True
  | .requesting _ _ _ | .updating _ _ => False
  | .finished _ | .raised _ => ∀ transaction, ¬ Begins engine task.answers transaction

theorem Task.unserved_leave (h : ∀ transaction, ¬ Begins engine task.answers transaction)
    (semaphores : Semaphores) (result : Except Raised Result) :
    (task.leave semaphores result).2.Unserved engine := by
  unfold leave Unserved
  dsimp only
  cases wrapped (handled task.mod result) with
  | ok | error => exact h

theorem Task.Moves.unserved
    (h : Task.Moves engine semaphores task semaphores' task') (hapi : semaphores.api = 0)
    (hunserved : task.Unserved engine) : task'.Unserved engine := by
  cases h with
  | enter | begin => trivial
  | refuse hraised =>
      refine unserved_leave (fun transaction hbegins => ?_) semaphores _
      rw [Begins, hraised] at hbegins
      cases hbegins
  | acquire => cases hapi
  | fetched | again | giveUp | leave => exact hunserved.elim

/-- Where a task cannot take a step. -/
theorem Task.stuck_cases
    (h : Task.next engine semaphores task = none) :
    task.phase = .queued ∧ semaphores.concurrency = 0 ∨
      (∃ transaction left attempt, task.phase = .waiting transaction left attempt) ∧
        semaphores.api = 0 ∨
      (∃ outcome, task.phase = .finished outcome) ∨ ∃ e, task.phase = .raised e := by
  unfold next at h
  cases hphase : task.phase with
  | queued =>
      simp only [hphase] at h
      exact .inl ⟨rfl, by_contra fun hfree => by rw [if_neg hfree] at h; cases h⟩
  | beginning =>
      simp only [hphase] at h
      split at h
      · cases h
      · cases h
  | waiting transaction left attempt =>
      simp only [hphase] at h
      exact .inr (.inl ⟨⟨_, _, _, rfl⟩,
        by_contra fun hfree => by rw [if_neg hfree] at h; cases h⟩)
  | requesting | updating =>
      simp only [hphase] at h
      cases h
  | finished outcome => exact .inr (.inr (.inl ⟨outcome, rfl⟩))
  | raised e => exact .inr (.inr (.inr ⟨e, rfl⟩))

end Steps

/-! ## The group -/

section Group

variable {engine}

variable {s t : Cycle} {i : Nat}

theorem step_cases (h : step engine s i = some t) :
    (∀ task ∈ s.tasks, task.hasRaised = false) ∧
      Interleave.stepAt (Task.next engine) s.semaphores s.tasks i =
        some (t.semaphores, t.tasks) := by
  unfold step at h
  by_cases hraised : s.tasks.any Task.hasRaised = true
  · rw [if_pos hraised] at h
    cases h
  · rw [if_neg hraised] at h
    obtain ⟨⟨semaphores, tasks⟩, hstep, rfl⟩ := Option.map_eq_some_iff.mp h
    refine ⟨fun task hmem => ?_, hstep⟩
    exact eq_false_of_ne_true fun htrue => hraised (List.any_eq_true.mpr ⟨task, hmem, htrue⟩)

theorem stepsLeft_of_step (h : step engine s i = some t) :
    (t.tasks.map Task.stepsLeft).sum < (s.tasks.map Task.stepsLeft).sum := by
  obtain ⟨task, task', hnext, hsum⟩ :=
    Interleave.sum_of_stepAt Task.stepsLeft (step_cases h).2
  have hless := (Task.moves_of_next hnext).stepsLeft_lt
  omega

/-- What holds of a group with a limit for the API. -/
structure Cycle.WellFormed (engine : Engine) (limit : Nat) (tracked : List (Mod × Answers))
    (s : Cycle) : Prop where
  tracked_eq : s.tasks.map (fun task => (task.mod, task.answers)) = tracked
  concurrency : s.semaphores.concurrency + (s.tasks.map Task.inside).sum = 15
  api : s.semaphores.api + (s.tasks.map Task.calling).sum = limit
  onTrack : ∀ task ∈ s.tasks, task.OnTrack engine
  unserved : limit = 0 → ∀ task ∈ s.tasks, task.Unserved engine

variable {limit : Nat} {tracked : List (Mod × Answers)}

theorem wellFormed_of_step
    (hs : s.WellFormed engine limit tracked) (h : step engine s i = some t) :
    t.WellFormed engine limit tracked := by
  obtain ⟨_, hstep⟩ := step_cases h
  constructor
  · rw [Interleave.map_of_stepAt (fun _ _ _ _ hnext => (Task.moves_of_next hnext).mod_eq) hstep]
    exact hs.tracked_eq
  · obtain ⟨task, task', hnext, hsum⟩ := Interleave.sum_of_stepAt Task.inside hstep
    have hpermits := (Task.moves_of_next hnext).permits.1
    have hbefore := hs.concurrency
    omega
  · obtain ⟨task, task', hnext, hsum⟩ := Interleave.sum_of_stepAt Task.calling hstep
    have hpermits := (Task.moves_of_next hnext).permits.2
    have hbefore := hs.api
    omega
  · exact Interleave.forall_mem_of_stepAt
      (fun _ _ _ _ htrack hnext => (Task.moves_of_next hnext).onTrack htrack) hs.onTrack hstep
  · intro hlimit
    have hapi : s.semaphores.api = 0 := by
      have hpermits := hs.api
      omega
    have hunserved := hs.unserved hlimit
    obtain ⟨before, task, after, task', htasks, hnext, htasks'⟩ := Interleave.stepAt_cases hstep
    rw [htasks, List.forall_mem_append, List.forall_mem_cons] at hunserved
    rw [htasks', List.forall_mem_append, List.forall_mem_cons]
    exact ⟨hunserved.1, (Task.moves_of_next hnext).unserved hapi hunserved.2.1, hunserved.2.2⟩

/-- A group that can do nothing more, and in which no task has raised, has finished, if no task is
left at the API semaphore. -/
theorem finished_of_final
    (hs : s.WellFormed engine limit tracked) (hfinal : Runs.Final (step engine) s)
    (hraised : ∀ task ∈ s.tasks, task.hasRaised = false)
    (hpermit : ∀ entry ∈ tracked, 0 < limit ∨ ∀ transaction, ¬ Begins engine entry.2 transaction) :
    ∀ task ∈ s.tasks, ∃ outcome, task.phase = .finished outcome := by
  have hany : ¬ s.tasks.any Task.hasRaised = true := by
    intro hany
    obtain ⟨task, hmem, htrue⟩ := List.any_eq_true.mp hany
    rw [hraised task hmem] at htrue
    cases htrue
  have hstuck : ∀ task ∈ s.tasks, Task.next engine s.semaphores task = none := by
    intro task hmem
    by_contra hsome
    obtain ⟨result, hnext⟩ := Option.ne_none_iff_exists'.mp hsome
    obtain ⟨i, result, hstep⟩ := Interleave.exists_stepAt hmem hnext
    have hnone := hfinal i
    rw [step, if_neg hany, hstep] at hnone
    cases hnone
  have hcalling : (s.tasks.map Task.calling).sum = 0 := by
    refine List.sum_eq_zero fun n hn => ?_
    obtain ⟨task, hmem, rfl⟩ := List.mem_map.mp hn
    unfold Task.calling
    rcases Task.stuck_cases (hstuck task hmem) with ⟨h, _⟩ | ⟨⟨_, _, _, h⟩, _⟩ | ⟨_, h⟩ | ⟨_, h⟩ <;>
      rw [h]
  have hwaiting : ∀ task ∈ s.tasks, ∀ transaction left attempt,
      task.phase = .waiting transaction left attempt → s.semaphores.api ≠ 0 := by
    intro task hmem transaction left attempt hphase hapi
    have htrack := hs.onTrack task hmem
    unfold Task.OnTrack at htrack
    rw [hphase] at htrack
    have hlimit := hs.api
    rw [hcalling, hapi] at hlimit
    have hentry : (task.mod, task.answers) ∈ tracked := hs.tracked_eq ▸ List.mem_map_of_mem hmem
    rcases hpermit _ hentry with hpos | hnone
    · omega
    · exact hnone transaction htrack.1
  have hinside : (s.tasks.map Task.inside).sum = 0 := by
    refine List.sum_eq_zero fun n hn => ?_
    obtain ⟨task, hmem, rfl⟩ := List.mem_map.mp hn
    unfold Task.inside
    rcases Task.stuck_cases (hstuck task hmem) with
      ⟨h, _⟩ | ⟨⟨_, _, _, h⟩, hapi⟩ | ⟨_, h⟩ | ⟨_, h⟩
    · rw [h]
    · exact absurd hapi (hwaiting task hmem _ _ _ h)
    · rw [h]
    · rw [h]
  intro task hmem
  rcases Task.stuck_cases (hstuck task hmem) with
    ⟨_, hfull⟩ | ⟨⟨_, _, _, h⟩, hapi⟩ | hfinished | ⟨e, h⟩
  · have hpermits := hs.concurrency
    omega
  · exact absurd hapi (hwaiting task hmem _ _ _ h)
  · exact hfinished
  · have hnone := hraised task hmem
    unfold Task.hasRaised at hnone
    rw [h] at hnone
    cases hnone

variable {results : List (Mod × Outcome)}

/-- The three lists of the results. -/
theorem exists_lists
    (h : ∀ entry ∈ results, entry.2.Names entry.1) :
    ∃ updated upToDate failed : List Mod,
      (updated ++ upToDate ++ failed).Perm (results.map Prod.fst) ∧
      (payload results).updatedMods.map (fun entry => (entry.name, entry.nexusId)) =
        updated.map (fun mod => (mod.name, mod.nexusId)) ∧
      (payload results).upToDateMods = upToDate.map Mod.name ∧
      (payload results).failedMods.map (fun entry => (entry.name, entry.nexusId)) =
        failed.map (fun mod => (mod.name, mod.nexusId)) := by
  induction results with
  | nil => exact ⟨[], [], [], List.Perm.refl _, rfl, rfl, rfl⟩
  | cons entry results ih =>
      obtain ⟨mod, outcome⟩ := entry
      rw [List.forall_mem_cons] at h
      obtain ⟨hnames, hrest⟩ := h
      obtain ⟨updated, upToDate, failed, hperm, hupdated, hupToDate, hfailed⟩ := ih hrest
      have hlast : (updated ++ upToDate ++ mod :: failed).Perm (mod :: results.map Prod.fst) :=
        List.perm_middle.trans (hperm.cons mod)
      cases outcome with
      | exception e =>
          exact ⟨updated, upToDate, mod :: failed, hlast, hupdated, hupToDate,
            congrArg (List.cons _) hfailed⟩
      | result value =>
          cases value with
          | updated entry =>
              refine ⟨mod :: updated, upToDate, failed, hperm.cons mod, ?_, hupToDate, hfailed⟩
              have hentry : (entry.name, entry.nexusId) = (mod.name, mod.nexusId) :=
                Prod.ext hnames.1 hnames.2
              exact congrArg₂ List.cons hentry hupdated
          | upToDate name =>
              refine ⟨updated, mod :: upToDate, failed, ?_, hupdated, ?_, hfailed⟩
              · rw [List.append_assoc]
                exact List.perm_middle.trans ((List.append_assoc _ _ _ ▸ hperm).cons mod)
              · exact congrArg₂ List.cons hnames hupToDate
          | error entry =>
              refine ⟨updated, upToDate, mod :: failed, hlast, hupdated, hupToDate, ?_⟩
              have hentry : (entry.name, entry.nexusId) = (mod.name, mod.nexusId) :=
                Prod.ext hnames.1 hnames.2
              exact congrArg₂ List.cons hentry hfailed

theorem accounts_payload
    (h : ∀ entry ∈ results, entry.2.Names entry.1) :
    (payload results).Accounts (results.map Prod.fst) :=
  ⟨(List.length_map _).symm, exists_lists h⟩

theorem outcome?_eq_some_iff {task : Task} {entry : Mod × Outcome} :
    task.outcome? = some entry ↔ task.phase = .finished entry.2 ∧ task.mod = entry.1 := by
  obtain ⟨mod, outcome⟩ := entry
  unfold Task.outcome?
  cases task.phase with
  | finished found =>
      dsimp only
      rw [Option.some.injEq, Prod.mk.injEq, Phase.finished.injEq]
      exact and_comm
  | queued | beginning | updating | raised
      => exact iff_of_false nofun fun h => by cases h.1
  | waiting | requesting =>
      exact iff_of_false nofun fun h => by cases h.1

theorem map_outcomes {tasks : List Task}
    (h : ∀ task ∈ tasks, ∃ outcome, task.phase = .finished outcome) :
    (tasks.filterMap Task.outcome?).map Prod.fst = tasks.map Task.mod := by
  induction tasks with
  | nil => rfl
  | cons task tasks ih =>
      rw [List.forall_mem_cons] at h
      obtain ⟨⟨outcome, hphase⟩, hrest⟩ := h
      have hsome : task.outcome? = some (task.mod, outcome) :=
        outcome?_eq_some_iff.mpr ⟨hphase, rfl⟩
      rw [List.filterMap_cons_some hsome, List.map_cons, List.map_cons, ih hrest]

/-- A group that has finished returns, and accounts for every mod. -/
theorem returns_of_finished
    (hs : s.WellFormed engine limit tracked)
    (h : ∀ task ∈ s.tasks, ∃ outcome, task.phase = .finished outcome) :
    ∃ payload, s.returns = some payload ∧ payload.Accounts (tracked.map Prod.fst) := by
  refine ⟨payload (s.tasks.filterMap Task.outcome?), if_pos ?_, ?_⟩
  · refine List.all_eq_true.mpr fun task hmem => ?_
    obtain ⟨outcome, hphase⟩ := h task hmem
    have hsome : task.outcome? = some (task.mod, outcome) :=
      outcome?_eq_some_iff.mpr ⟨hphase, rfl⟩
    rw [hsome]
    rfl
  · have hmods : (s.tasks.filterMap Task.outcome?).map Prod.fst = tracked.map Prod.fst := by
      rw [map_outcomes h, ← hs.tracked_eq, List.map_map]
      rfl
    rw [← hmods]
    refine accounts_payload fun entry hentry => ?_
    obtain ⟨task, hmem, hsome⟩ := List.mem_filterMap.mp hentry
    obtain ⟨hphase, hmod⟩ := outcome?_eq_some_iff.mp hsome
    have htrack := hs.onTrack task hmem
    unfold Task.OnTrack at htrack
    rw [hphase] at htrack
    exact hmod ▸ outcome_names htrack

theorem finished_of_returns {payload : Payload} (h : s.returns = some payload) :
    ∀ task ∈ s.tasks, ∃ outcome, task.phase = .finished outcome := by
  intro task hmem
  unfold Cycle.returns at h
  split at h
  · next hall =>
      obtain ⟨entry, hentry⟩ := Option.isSome_iff_exists.mp (List.all_eq_true.mp hall task hmem)
      exact ⟨entry.2, (outcome?_eq_some_iff.mp hentry).1⟩
  · cases h

/-! ## The verdict -/

/-- The update of a mod gets its permit, where it wants one, and every exception of a call that it
comes to is one that the cycle expects. -/
structure Completable (engine : Engine) (mod : Mod) (answers : Answers) : Prop where
  permit : 0 < engine.apiSemaphoreLimit ∨ ∀ transaction, ¬ Begins engine answers transaction
  expected : ∀ e, CallRaises engine mod answers e → e.isinstance expectedErrors = true

variable (engine)

theorem wellFormed_group (tracked : List (Mod × Answers)) :
    (group engine tracked).WellFormed engine engine.apiSemaphoreLimit.toNat tracked := by
  have hqueued : ∀ task ∈ (group engine tracked).tasks, task.phase = .queued := by
    intro task hmem
    obtain ⟨entry, _, rfl⟩ := List.mem_map.mp hmem
    rfl
  constructor
  · unfold group
    rw [List.map_map]
    exact List.map_id _
  · rw [show ((group engine tracked).tasks.map Task.inside).sum = 0 from
      List.sum_eq_zero fun n hn => by
        obtain ⟨task, hmem, rfl⟩ := List.mem_map.mp hn
        rw [Task.inside, hqueued task hmem]]
    rfl
  · rw [show ((group engine tracked).tasks.map Task.calling).sum = 0 from
      List.sum_eq_zero fun n hn => by
        obtain ⟨task, hmem, rfl⟩ := List.mem_map.mp hn
        rw [Task.calling, hqueued task hmem]]
    rfl
  · intro task hmem
    rw [Task.OnTrack, hqueued task hmem]
    trivial
  · intro _ task hmem
    rw [Task.Unserved, hqueued task hmem]
    trivial

variable {engine}

theorem wellFormed_of_exec {schedule : List Nat}
    (hrun : Runs.exec (step engine) (group engine tracked) schedule = some t) :
    t.WellFormed engine engine.apiSemaphoreLimit.toNat tracked :=
  (Runs.throughout_of_step (fun _ _ _ hs hstep => wellFormed_of_step hs hstep)
    (wellFormed_group engine tracked) schedule).exec hrun

theorem not_raised
    (hs : s.WellFormed engine limit tracked)
    (h : ∀ entry ∈ tracked, Completable engine entry.1 entry.2) :
    ∀ task ∈ s.tasks, task.hasRaised = false := by
  intro task hmem
  have htrack := hs.onTrack task hmem
  have hentry : (task.mod, task.answers) ∈ tracked := hs.tracked_eq ▸ List.mem_map_of_mem hmem
  unfold Task.OnTrack at htrack
  unfold Task.hasRaised
  cases hphase : task.phase with
  | raised e =>
      rw [hphase] at htrack
      obtain ⟨hraised, hunexpected⟩ := wrapped_handled_eq_error_iff.mp htrack
      rw [(h _ hentry).expected e (tryUpdate_eq_error_iff.mp hraised)] at hunexpected
      cases hunexpected
  | _ => rfl

/-- The update of a mod whose task has finished was completable. -/
theorem completable_of_finished
    (hlimit : 0 ≤ engine.apiSemaphoreLimit)
    (hs : s.WellFormed engine engine.apiSemaphoreLimit.toNat tracked)
    (h : ∀ task ∈ s.tasks, ∃ outcome, task.phase = .finished outcome) :
    ∀ entry ∈ tracked, Completable engine entry.1 entry.2 := by
  intro entry hentry
  rw [← hs.tracked_eq] at hentry
  obtain ⟨task, hmem, rfl⟩ := List.mem_map.mp hentry
  obtain ⟨outcome, hphase⟩ := h task hmem
  have htrack := hs.onTrack task hmem
  unfold Task.OnTrack at htrack
  rw [hphase] at htrack
  refine ⟨?_, fun e hraises => ?_⟩
  · by_cases hzero : engine.apiSemaphoreLimit = 0
    · have hunserved := hs.unserved (by rw [hzero]; rfl) task hmem
      unfold Task.Unserved at hunserved
      rw [hphase] at hunserved
      exact .inr hunserved
    · exact .inl (by omega)
  · by_contra hunexpected
    have hraised : wrapped (handled task.mod (tryUpdate engine task.mod task.answers)) = .error e :=
      wrapped_handled_eq_error_iff.mpr
        ⟨tryUpdate_eq_error_iff.mpr hraises, eq_false_of_ne_true hunexpected⟩
    rw [hraised] at htrack
    cases htrack

end Group

/-- The cycle completes if nothing is tracked, or every update is completable; in all other cases
some interleaving does not. -/
theorem alwaysCompletes_iff (engine : Engine) (allMods : List (Mod × Answers)) :
    AlwaysCompletes engine allMods ↔
      (∀ entry ∈ allMods, entry.1.installed = false) ∨
        0 ≤ engine.apiSemaphoreLimit ∧ ∀ entry ∈ allMods, entry.1.installed = true →
          Completable engine entry.1 entry.2 := by
  have htracked : (∀ entry ∈ allMods, entry.1.installed = true →
      Completable engine entry.1 entry.2) ↔ ∀ entry ∈ allMods.filter (·.1.installed),
        Completable engine entry.1 entry.2 := by
    simp only [List.mem_filter, and_imp]
  have hnone : (∀ entry ∈ allMods, entry.1.installed = false) ↔
      (allMods.filter (·.1.installed)).isEmpty = true := by
    rw [List.isEmpty_iff, List.filter_eq_nil_iff]
    simp only [Bool.not_eq_true]
  rw [htracked, hnone]
  unfold AlwaysCompletes start
  generalize allMods.filter (·.1.installed) = tracked
  dsimp only
  by_cases hempty : tracked.isEmpty = true
  · rw [if_pos hempty]
    obtain rfl := List.isEmpty_iff.mp hempty
    exact iff_of_true ⟨rfl, [], [], [], List.Perm.refl _, rfl, rfl, rfl⟩ (Or.inl hempty)
  rw [if_neg hempty, or_iff_right hempty]
  by_cases hlimit : engine.apiSemaphoreLimit < 0
  · rw [if_pos hlimit]
    exact iff_of_false not_false fun h => Int.not_lt.mpr h.1 hlimit
  rw [if_neg hlimit]
  have hbounded : ∃ bound, ∀ schedule t,
      Runs.exec (step engine) (group engine tracked) schedule = some t →
        schedule.length ≤ bound :=
    ⟨_, fun schedule t hrun =>
      Runs.length_le_of_decreasing (fun s i t hstep => stepsLeft_of_step hstep) hrun⟩
  constructor
  · rintro ⟨_, hcompletes⟩
    refine ⟨Int.not_lt.mp hlimit, ?_⟩
    obtain ⟨schedule, t, hrun, hfinal⟩ := Runs.exists_final
      (fun s i t hstep => stepsLeft_of_step hstep) (group engine tracked)
    obtain ⟨payload, hreturns, _⟩ := hcompletes schedule t hrun hfinal
    exact completable_of_finished (Int.not_lt.mp hlimit) (wellFormed_of_exec hrun)
      (finished_of_returns hreturns)
  · rintro ⟨_, hcompletable⟩
    refine ⟨hbounded, fun schedule t hrun hfinal => ?_⟩
    have hwf := wellFormed_of_exec hrun
    refine returns_of_finished hwf (finished_of_final hwf hfinal (not_raised hwf hcompletable) ?_)
    exact fun entry hentry => (hcompletable entry hentry).permit.imp_left fun hpos => by omega

/-- A gateway whose only request times out. -/
def timedOut : Answers where
  beginTransaction := .ok 1
  commitTransaction := .ok ()
  markTransactionRolledBack := .ok ()
  fetch := fun _ => ⟨true, .sent "https://api.nexusmods.com/v1/games/skyrimspecialedition/mods/1.json"
    (.error ⟨.timeoutError, ""⟩)⟩
  getFileInfo := .error ⟨.downloadError, "Invalid or missing Nexus API key"⟩
  requestApproval := fun _ => .denied
  download := fun _ => .ok ""
  upsertMod := fun _ => .ok ()
  logTasks := fun _ => .ok ()

/-- A timeout of the gateway is no error that the cycle expects: it takes the group down. -/
theorem alwaysCompletes_counterexample :
    ¬ AlwaysCompletes ⟨false, true, false, 4, fun _ => ""⟩
      [(⟨1, "SkyUI", "5.2", true⟩, timedOut)] := by
  rintro ⟨_, hcompletes⟩
  -- the task enters, begins, takes the permit, times out, and leaves with the exception
  obtain ⟨payload, hreturns, _⟩ := hcompletes [0, 0, 0, 0, 0] _ rfl (by
    intro i
    rfl)
  cases hreturns

/-! ## Runs of the group -/

/-- What `_wrapped_worker` writes for a mod whose update nothing runs beside. -/
def outcomeOf (engine : Engine) (entry : Mod × Answers) : Except Raised (Mod × Outcome) :=
  (entry.1, ·) <$> wrapped (handled entry.1 (tryUpdate engine entry.1 entry.2))

/-- The cycle without concurrency: one mod after the other. -/
def oneByOne (engine : Engine) (tracked : List (Mod × Answers)) : Except Raised Payload :=
  payload <$> tracked.mapM (outcomeOf engine)

theorem mapM_outcomeOf {tasks : List Task} (htrack : ∀ task ∈ tasks, task.OnTrack engine)
    (h : ∀ task ∈ tasks, ∃ outcome, task.phase = .finished outcome) :
    (tasks.map fun task => (task.mod, task.answers)).mapM (outcomeOf engine) =
      .ok (tasks.filterMap Task.outcome?) := by
  induction tasks with
  | nil => rfl
  | cons task tasks ih =>
      rw [List.forall_mem_cons] at htrack h
      obtain ⟨⟨outcome, hphase⟩, hrest⟩ := h
      have hsome : task.outcome? = some (task.mod, outcome) :=
        outcome?_eq_some_iff.mpr ⟨hphase, rfl⟩
      have hown := htrack.1
      rw [Task.OnTrack, hphase] at hown
      rw [List.map_cons, List.mapM_cons, ih htrack.2 hrest, List.filterMap_cons_some hsome,
        outcomeOf, hown]
      rfl

/-- **The cycle refines the updates one after the other**, in every interleaving: it returns
nothing else, and a task raises only if they do. -/
theorem group_refines_oneByOne (engine : Engine) (tracked : List (Mod × Answers))
    (schedule : List Nat) :
    Runs.Throughout (step engine)
      (fun s => (∀ payload, s.returns = some payload → oneByOne engine tracked = .ok payload) ∧
        (s.tasks.any Task.hasRaised = true → ∃ e, oneByOne engine tracked = .error e))
      (group engine tracked) schedule := by
  refine (Runs.throughout_of_step (fun _ _ _ hs hstep => wellFormed_of_step hs hstep)
    (wellFormed_group engine tracked) schedule).mono fun s hs => ⟨fun returned h => ?_, fun h => ?_⟩
  · have hfinished := finished_of_returns h
    unfold Cycle.returns at h
    split at h
    · rw [← Option.some.inj h, oneByOne, ← hs.tracked_eq, mapM_outcomeOf engine hs.onTrack hfinished]
      rfl
    · cases h
  · obtain ⟨task, hmem, hraised⟩ := List.any_eq_true.mp h
    have htrack := hs.onTrack task hmem
    unfold Task.hasRaised at hraised
    unfold Task.OnTrack at htrack
    cases hresults : tracked.mapM (outcomeOf engine) with
    | error e => exact ⟨e, by rw [oneByOne, hresults]; rfl⟩
    | ok results =>
        rw [← hs.tracked_eq] at hresults
        obtain ⟨_, hown⟩ := exists_mapM_eq_ok_iff.mp ⟨results, hresults⟩ _
          (List.mem_map_of_mem hmem)
        split at hraised
        · next e hphase =>
            rw [hphase] at htrack
            rw [outcomeOf, htrack] at hown
            cases hown
        · cases hraised

theorem Task.calling_le_inside (task : Task) : task.calling ≤ task.inside := by
  unfold calling inside
  cases task.phase <;> simp

/-- **The limits are kept** in every interleaving, whatever is raised: at most 15 updates are under
way, at most `api_semaphore_limit` of them in a request, and no permit is lost. -/
theorem group_keeps_limits (engine : Engine) (tracked : List (Mod × Answers))
    (schedule : List Nat) :
    Runs.Throughout (step engine)
      (fun s => (s.tasks.map Task.inside).sum ≤ 15 ∧
        (s.tasks.map Task.calling).sum ≤ engine.apiSemaphoreLimit.toNat ∧
        ((∀ task ∈ s.tasks, task.inside = 0) → s.semaphores = (group engine tracked).semaphores))
      (group engine tracked) schedule := by
  refine (Runs.throughout_of_step (fun _ _ _ hs hstep => wellFormed_of_step hs hstep)
    (wellFormed_group engine tracked) schedule).mono fun s hs => ?_
  have hconcurrency := hs.concurrency
  have hapi := hs.api
  refine ⟨by omega, by omega, fun h => ?_⟩
  have hinside : (s.tasks.map Task.inside).sum = 0 := List.sum_eq_zero fun n hn => by
    obtain ⟨task, hmem, rfl⟩ := List.mem_map.mp hn
    exact h task hmem
  have hcalling : (s.tasks.map Task.calling).sum = 0 := List.sum_eq_zero fun n hn => by
    obtain ⟨task, hmem, rfl⟩ := List.mem_map.mp hn
    exact Nat.eq_zero_of_le_zero (task.calling_le_inside.trans_eq (h task hmem))
  cases hsemaphores : s.semaphores with
  | mk concurrency api =>
      rw [hsemaphores, hinside] at hconcurrency
      rw [hsemaphores, hcalling] at hapi
      exact congrArg₂ Semaphores.mk hconcurrency hapi

end SkyClaw.Orchestrator.UpdateCycle
