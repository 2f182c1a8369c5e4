import SkyClaw.Scraper.NexusDownloader
import SkyClaw.Security.HitlGuard

/-!
# The approved download

`download_mod` asks Nexus for the metadata of a file, asks the operator, and enqueues a
job that asks Nexus again and downloads what the second answer describes.
`asApproved_iff` says when the stored file is the approved one.
-/

namespace SkyClaw.Agent

open Scraper
open Security.Hitl (Decision HITLRequest)

variable {Content : Type}

/-! ## The tool -/

/-- Which of the collaborators are there. -/
structure ToolSettings where
  downloader : Bool
  hitl : Bool
  syncEngine : Bool
  gateway : Bool

/-- How `await hitl.request_approval(...)` ends. -/
inductive ApprovalEnd
  | decided (decision : Decision)
  | raises

/-- What a call and its job are answered. -/
structure DownloadEnvironment (Content : Type) where
  metadata : Nat → Attempt
  approval : ApprovalEnd
  /-- `enqueue_download` returns, and the engine runs the job. -/
  enqueues : Bool
  jobRuns : Bool
  jobMetadata : Nat → Attempt
  jobDownload : DownloadAnswers Content

inductive ToolResult
  | error (message : String)
  | metadataError (error : NexusError)
  | denied (decision : Decision) (fileName : String)
  | enqueued (fileName : String) (sizeBytes : Int)
  | raised

structure StoredFile (Content : Type) where
  fileId : Int
  fileName : String
  content : Content

/-- What a call shows the operator, the metadata that was approved, and what the job
stores. -/
structure DownloadRun (Content : Type) where
  request : Option HITLRequest
  approved : Option FileInfo
  stored : Option (StoredFile Content)
  result : ToolResult

/-- `{file_id}` in an f-string. -/
def fileIdText : Option Int → String
  | some id => toString id
  | none => "None"

variable (lib : Library Content)

/-- The request the operator sees. -/
def approvalRequest (nexusId : Int) (fileId : Option Int) (info : FileInfo) : HITLRequest :=
  HITLRequest.new
    ("download-" ++ toString nexusId ++ "-" ++ fileIdText fileId)
    ("Operator approval required to download mod " ++ toString nexusId ++ " / file " ++
      fileIdText fileId ++ " (" ++ info.fileName ++ ", " ++ lib.megabytes info.sizeBytes ++ " MB)")
    (some info.downloadUrl)
    ("File: " ++ info.fileName ++ "  |  Size: " ++ lib.megabytes info.sizeBytes ++
      " MB  |  MD5: " ++ (if info.md5 = "" then "n/a" else info.md5) ++ "  |  URL: " ++
      info.downloadUrl)

def doDownload (nexusId : Int) (fileId : Option Int) (env : DownloadEnvironment Content) :
    Option (StoredFile Content) :=
  -- The job asks again; what the operator was shown is not passed to it.
  match getFileInfo lib nexusId fileId env.jobMetadata with
  | .error _ => none
  | .ok fresh =>
      -- Whatever is left at the destination counts, also when the download raised.
      (download lib fresh env.jobDownload).1.map fun content =>
        ⟨fresh.fileId, fresh.fileName, content⟩

/-- A call that ends before the operator is asked. -/
def DownloadRun.early (result : ToolResult) : DownloadRun Content := ⟨none, none, none, result⟩

/-- `download_mod`, with its job. -/
def downloadMod (settings : ToolSettings) (nexusId : Int) (fileId : Option Int)
    (env : DownloadEnvironment Content) : DownloadRun Content :=
  if settings.downloader = false then
    .early (.error "Nexus downloader is not configured")
  else if settings.hitl = false then .early (.error "HITL guard is not configured")
  else if settings.syncEngine = false then .early (.error "SyncEngine is not configured")
  else if settings.gateway = false then
    .early (.error ("NetworkGateway is required for all egress. " ++
      "Configure the gateway before calling this tool."))
  else
    match getFileInfo lib nexusId fileId env.metadata with
    | .error error => .early (.metadataError error)
    | .ok info =>
        let request := some (approvalRequest lib nexusId fileId info)
        match env.approval with
        | .raises => ⟨request, none, none, .raised⟩
        | .decided decision =>
            if decision ≠ .approved then ⟨request, none, none, .denied decision info.fileName⟩
            else if env.enqueues = false then ⟨request, some info, none, .raised⟩
            else
              ⟨request, some info,
                if env.jobRuns then doDownload lib nexusId fileId env else none,
                .enqueued info.fileName info.sizeBytes⟩

/-- What is stored was approved: the file, its name, and its MD5 if one was shown. -/
def DownloadRun.AsApproved (run : DownloadRun Content) : Prop :=
  ∀ stored, run.stored = some stored → ∃ shown, run.approved = some shown ∧
    stored.fileId = shown.fileId ∧ stored.fileName = shown.fileName ∧
      hashMatches shown.md5 (lib.md5 stored.content) = true

/-- The MD5 of the bytes was compared with that of the metadata. -/
def Verified (fresh : FileInfo) (answers : DownloadAnswers Content) : Prop :=
  (download lib fresh answers).2 = .ok () ∧ fresh.downloadUrl ≠ freeFallback ∧ fresh.md5 ≠ ""

/-- The condition on the second answer, where the job leaves a file: it picks the same
file if none was asked for, gives it the same name, and has the MD5 that was shown; and
bytes that were not compared with it have the MD5 that was shown. -/
structure SameFile (fileId : Option Int) (shown fresh : FileInfo)
    (answers : DownloadAnswers Content) (content : Content) : Prop where
  sameId : fileId = none → fresh.fileId = shown.fileId
  sameName : fresh.fileName = shown.fileName
  sameHash : Verified lib fresh answers → hashMatches shown.md5 fresh.md5 = true
  ownHash : ¬Verified lib fresh answers → hashMatches shown.md5 (lib.md5 content) = true

/-- The approved download finds the same file. -/
def AnswersAgree (settings : ToolSettings) (nexusId : Int) (fileId : Option Int)
    (env : DownloadEnvironment Content) : Prop :=
  ∀ shown fresh content, settings = ⟨true, true, true, true⟩ →
    getFileInfo lib nexusId fileId env.metadata = .ok shown →
    env.approval = .decided .approved → env.enqueues = true → env.jobRuns = true →
    getFileInfo lib nexusId fileId env.jobMetadata = .ok fresh →
    (download lib fresh env.jobDownload).1 = some content →
      SameFile lib fileId shown fresh env.jobDownload content

/-! ## When they agree -/

variable {lib} {settings : ToolSettings} {nexusId : Int} {fileId : Option Int}
  {env : DownloadEnvironment Content}

theorem doDownload_eq_some {stored : StoredFile Content}
    (h : doDownload lib nexusId fileId env = some stored) :
    ∃ fresh, getFileInfo lib nexusId fileId env.jobMetadata = .ok fresh ∧
      (download lib fresh env.jobDownload).1 = some stored.content ∧
      stored.fileId = fresh.fileId ∧ stored.fileName = fresh.fileName := by
  unfold doDownload at h
  split at h
  · cases h
  · rename_i fresh hfresh
    obtain ⟨content, hcontent, rfl⟩ := Option.map_eq_some_iff.mp h
    exact ⟨fresh, hfresh, hcontent, rfl, rfl⟩

/-- A call that stores something was complete and approved, and its job ran. -/
theorem downloadMod_stored {stored : StoredFile Content}
    (h : (downloadMod lib settings nexusId fileId env).stored = some stored) :
    ∃ shown, settings = ⟨true, true, true, true⟩ ∧
      getFileInfo lib nexusId fileId env.metadata = .ok shown ∧
      env.approval = .decided .approved ∧ env.enqueues = true ∧ env.jobRuns = true ∧
      doDownload lib nexusId fileId env = some stored := by
  unfold downloadMod at h
  split at h
  · cases h
  · rename_i hdownloader
    split at h
    · cases h
    · rename_i hhitl
      split at h
      · cases h
      · rename_i hsync
        split at h
        · cases h
        · rename_i hgateway
          split at h
          · cases h
          · rename_i shown hshown
            simp only at h
            split at h
            · cases h
            · rename_i decision happroval
              split at h
              · cases h
              · rename_i hdecision
                split at h
                · cases h
                · rename_i henqueues
                  by_cases hruns : env.jobRuns = true
                  · simp only [hruns, if_true] at h
                    have happroved : decision = .approved := not_not.mp hdecision
                    rw [happroved] at happroval
                    refine ⟨shown, ?_, hshown, happroval, eq_true_of_ne_false henqueues, hruns, h⟩
                    obtain ⟨downloader, hitl, syncEngine, gateway⟩ := settings
                    simp only [Bool.not_eq_false] at hdownloader hhitl hsync hgateway
                    rw [hdownloader, hhitl, hsync, hgateway]
                  · simp only [hruns] at h
                    cases h

theorem downloadMod_approved {shown : FileInfo} (hsettings : settings = ⟨true, true, true, true⟩)
    (hshown : getFileInfo lib nexusId fileId env.metadata = .ok shown)
    (happroval : env.approval = .decided .approved) (henqueues : env.enqueues = true)
    (hruns : env.jobRuns = true) :
    (downloadMod lib settings nexusId fileId env).approved = some shown ∧
      (downloadMod lib settings nexusId fileId env).stored =
        doDownload lib nexusId fileId env := by
  subst hsettings
  unfold downloadMod
  simp only [hshown, happroval, henqueues, hruns]
  exact ⟨rfl, rfl⟩

/-- Whether or not the bytes were compared with the second MD5, they have the one shown
exactly under the condition. -/
theorem hashMatches_iff {shown fresh : FileInfo} {answers : DownloadAnswers Content}
    {content : Content} (hleft : (download lib fresh answers).1 = some content) :
    hashMatches shown.md5 (lib.md5 content) = true ↔
      (Verified lib fresh answers → hashMatches shown.md5 fresh.md5 = true) ∧
        (¬Verified lib fresh answers → hashMatches shown.md5 (lib.md5 content) = true) := by
  by_cases hverified : Verified lib fresh answers
  · obtain ⟨hreturned, hurl, hmd5⟩ := hverified
    have hdownload : download lib fresh answers = (some content, .ok ()) :=
      Prod.ext hleft hreturned
    obtain ⟨content', hcontent, hmatches⟩ := download_spec hurl hdownload
    cases hcontent
    have hlower : (lib.md5 content).toLower = fresh.md5.toLower := by
      unfold hashMatches at hmatches
      rw [Bool.or_eq_true, beq_iff_eq, beq_iff_eq] at hmatches
      exact hmatches.resolve_left hmd5
    have hsame : hashMatches shown.md5 (lib.md5 content) = hashMatches shown.md5 fresh.md5 := by
      unfold hashMatches
      rw [hlower]
    rw [hsame]
    exact ⟨fun h => ⟨fun _ => h, fun hnot => absurd ⟨hreturned, hurl, hmd5⟩ hnot⟩,
      fun h => h.1 ⟨hreturned, hurl, hmd5⟩⟩
  · exact ⟨fun h => ⟨fun hyes => absurd hyes hverified, fun _ => h⟩, fun h => h.2 hverified⟩

/-- **The approved download, exactly.**  Whatever Nexus, the operator, the content server
and the browser answer, what is stored was approved exactly when the second answer
agrees with the first. -/
theorem asApproved_iff (lib : Library Content) (settings : ToolSettings) (nexusId : Int)
    (fileId : Option Int) (env : DownloadEnvironment Content) :
    (downloadMod lib settings nexusId fileId env).AsApproved lib ↔
      AnswersAgree lib settings nexusId fileId env := by
  constructor
  · intro h shown fresh content hsettings hshown happroval henqueues hruns hfresh hleft
    obtain ⟨happroved, hstored⟩ :=
      downloadMod_approved hsettings hshown happroval henqueues hruns
    have hjob : doDownload lib nexusId fileId env =
        some ⟨fresh.fileId, fresh.fileName, content⟩ := by
      unfold doDownload
      simp only [hfresh, hleft, Option.map_some]
    obtain ⟨shown', hshown', hid, hname, hhash⟩ := h _ (hstored.trans hjob)
    obtain rfl := Option.some.inj (happroved.symm.trans hshown')
    obtain ⟨hsame, hown⟩ := (hashMatches_iff hleft).mp hhash
    exact ⟨fun _ => hid, hname, hsame, hown⟩
  · intro h stored hstored
    obtain ⟨shown, hsettings, hshown, happroval, henqueues, hruns, hjob⟩ :=
      downloadMod_stored hstored
    obtain ⟨fresh, hfresh, hleft, hid, hname⟩ := doDownload_eq_some hjob
    have hagree := h shown fresh stored.content hsettings hshown happroval henqueues hruns hfresh
      hleft
    refine ⟨shown, (downloadMod_approved hsettings hshown happroval henqueues hruns).1, ?_, ?_, ?_⟩
    · rw [hid]
      cases hasked : fileId with
      | none => exact hagree.sameId hasked
      | some id =>
          rw [(getFileInfo_spec hfresh).2.1 id hasked, (getFileInfo_spec hshown).2.1 id hasked]
    · rw [hname]
      exact hagree.sameName
    · exact (hashMatches_iff hleft).mpr ⟨hagree.sameHash, hagree.ownHash⟩

/-- Digests and printing that keep the text. -/
def textLibrary : Library String :=
  ⟨id, id, fun bytes => toString bytes, id, id, fun text => text.length⟩

/-- Nexus describes a file whose MD5 is its name. -/
def describes (name : String) : Attempt :=
  ⟨.json [], .json ⟨some name, some 1, none, some name⟩, .json ["cdn"]⟩

/-- `a.7z` is shown and approved; when the job asks again, the file is `b.7z`. -/
def renamedFile : DownloadEnvironment String where
  metadata := fun _ => describes "a.7z"
  approval := .decided .approved
  enqueues := true
  jobRuns := true
  jobMetadata := fun _ => describes "b.7z"
  jobDownload := ⟨true, fun _ => ⟨.completed "b.7z", true⟩,
    fun _ => ⟨false, none, true, none, true, true, none, true⟩⟩

/-- **The approved download is not the downloaded file.**  `b.7z` is stored under the
approval of `a.7z`. -/
theorem asApproved_counterexample :
    ¬(downloadMod textLibrary ⟨true, true, true, true⟩ 1 (some 20) renamedFile).AsApproved
      textLibrary := by
  intro h
  have hfresh : getFileInfo textLibrary 1 (some 20) renamedFile.jobMetadata =
      .ok ⟨1, 20, "b.7z", 1, "b.7z", "", "cdn"⟩ := rfl
  have hstored : (downloadMod textLibrary ⟨true, true, true, true⟩ 1 (some 20)
      renamedFile).stored = some ⟨20, "b.7z", "b.7z"⟩ := by
    show doDownload textLibrary 1 (some 20) renamedFile = _
    have hvalid : validateHashes textLibrary ⟨1, 20, "b.7z", 1, "b.7z", "", "cdn"⟩ "b.7z" =
        .ok () := by
      simp [validateHashes, hashMatches, textLibrary, validateSha256Format]
    have hdownload : download textLibrary ⟨1, 20, "b.7z", 1, "b.7z", "", "cdn"⟩
        renamedFile.jobDownload = (some "b.7z", .ok ()) := by
      show Retry.run shouldRetryNexus _ furtherAttempts 0 none = _
      simp only [furtherAttempts, Retry.run, attemptDownload, renamedFile, hvalid]
    unfold doDownload
    simp only [hfresh, hdownload, Option.map_some]
  obtain ⟨shown, hshown, -, hname, -⟩ := h _ hstored
  have happroved : (downloadMod textLibrary ⟨true, true, true, true⟩ 1 (some 20)
      renamedFile).approved = some ⟨1, 20, "a.7z", 1, "a.7z", "", "cdn"⟩ := rfl
  obtain rfl := Option.some.inj (happroved.symm.trans hshown)
  exact absurd hname (by decide)

end SkyClaw.Agent
