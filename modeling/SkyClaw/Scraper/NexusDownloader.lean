import SkyClaw.Lib.Retry

/-!
# The Nexus downloader

`get_file_info` and `download` of `NexusDownloader` with their retries.  What the Nexus
API, the content server, the operator's browser and the file system answer is given per
attempt.  Of the disk only the file at the destination is kept, as far as the call has
put it there.
-/

namespace SkyClaw.Scraper

/-! ## What comes from the libraries -/

/-- `pathlib.Path(s).name`, `repr(s)`, the megabytes as printed, the digests as
hexadecimal text, and the size. -/
structure Library (Content : Type) where
  pathName : String → String
  repr : String → String
  megabytes : Int → String
  md5 : Content → String
  sha256 : Content → String
  size : Content → Int

inductive NexusError
  /-- `DownloadError`. -/
  | download (message : String)
  /-- `HashValidationError`. -/
  | hashValidation (message : String)
  /-- `PremiumRequiredError`. -/
  | premiumRequired (message : String)
  /-- `ClientConnectionError`, a timeout or an `OSError`. -/
  | connection
  /-- `ClientResponseError`. -/
  | response (status : Nat)
  | other
deriving DecidableEq

/-- `part in text`. -/
def contains (part : List Char) : List Char → Bool
  | [] => part.isEmpty
  | c :: rest => part.isPrefixOf (c :: rest) || contains part rest

/-- The test of the message of a `DownloadError`. -/
def temporary (message : String) : Bool :=
  let text := message.toLower.toList
  ["429", "502", "503", "timeout"].any fun part => contains part.toList text

def shouldRetryNexus : NexusError → Bool
  | .connection => true
  | .hashValidation _ => true
  | .response status => status = 429 || 500 ≤ status
  | .download message | .premiumRequired message => temporary message
  | .other => false

/-- `stop_after_attempt(5)`: four more after the first. -/
def furtherAttempts : Nat := 4

/-- `{:04X}`. -/
def hex4 (n : Nat) : String :=
  let digits := (Nat.toDigits 16 n).map Char.toUpper
  String.ofList (List.replicate (4 - digits.length) '0' ++ digits)

/-- `assert_safe_component`; the error is the text of the `PathViolationError`. -/
def assertSafeComponent (repr : String → String) (field name : String) : Except String Unit :=
  if name = "" then .error (field ++ ": must not be empty")
  else if name = "." ∨ name = ".." then
    .error (field ++ ": traversal segment " ++ repr name ++ " is not a valid component")
  else if '/' ∈ name.toList ∨ '\\' ∈ name.toList then
    .error (field ++ ": path separators are not allowed in a component, got " ++ repr name)
  else if Char.ofNat 0 ∈ name.toList then .error (field ++ ": NUL byte is not allowed")
  else
    match name.toList.find? fun c => c.toNat < 0x20 with
    | some c =>
        .error (field ++ ": control character " ++ repr (String.singleton c) ++ " (U+" ++
          hex4 c.toNat ++ ") is not allowed")
    | none => .ok ()

/-! ## Metadata -/

structure FileInfo where
  nexusId : Int
  fileId : Int
  fileName : String
  sizeBytes : Int
  md5 : String
  sha256 : String
  downloadUrl : String
deriving DecidableEq

/-- An authorised request: the JSON of the answer, an error status, or an exception. -/
inductive Answer (α : Type)
  | json (value : α)
  | status (code : Nat)
  | raises (error : NexusError)

/-- The field `file_id` of an entry of `files.json`. -/
inductive FileIdField
  | number (id : Int)
  | list (ids : List Int)
  | missing

structure FileEntry where
  fileId : FileIdField
  isPrimary : Bool

/-- The fields read from the metadata of a file, as text where the code applies `str`. -/
structure MetaData where
  fileName : Option String
  sizeInBytes : Option Int
  size : Option Int
  md5 : Option String

/-- What one attempt of `get_file_info` is answered. -/
structure Attempt where
  files : Answer (List FileEntry)
  metadata : Answer MetaData
  links : Answer (List String)

/-- The file picked when none was given: the first primary one, else the last. -/
def targetFile (files : List FileEntry) : Option FileEntry :=
  match files.filter (·.isPrimary) with
  | primary :: _ => some primary
  | [] => files.getLast?

def resolveFileId (nexusId : Int) : Answer (List FileEntry) → Except NexusError Int
  | .raises error => .error error
  | .status code =>
      if code = 401 ∨ code = 403 then .error (.download "Invalid or missing Nexus API key")
      else if code = 404 then .error (.download ("Mod " ++ toString nexusId ++ " not found"))
      else .error (.response code)
  | .json files =>
      match targetFile files with
      | none => .error (.download ("No files found for mod " ++ toString nexusId))
      | some file =>
          match file.fileId with
          | .number id => .ok id
          | .list ids =>
              match ids[1]? with
              | some id => .ok id
              | none => .error .other
          | .missing => .error .other

def fetchMetaData (nexusId fileId : Int) : Answer MetaData → Except NexusError MetaData
  | .raises error => .error error
  | .status code =>
      if code = 401 then .error (.download "Invalid or missing Nexus API key")
      else if code = 403 then
        .error (.download "Nexus API key does not have premium access")
      else if code = 404 then
        .error (.download ("File " ++ toString fileId ++ " not found for mod " ++
          toString nexusId))
      else .error (.response code)
  | .json data => .ok data

def getDownloadUrl (nexusId fileId : Int) : Answer (List String) → Except NexusError String
  | .raises error => .error error
  | .status code =>
      if code = 401 ∨ code = 403 then
        .error (.premiumRequired "Premium API key required to generate download links")
      else if code = 404 then
        .error (.download ("Download link not found for file " ++ toString fileId ++ " of mod " ++
          toString nexusId))
      else .error (.response code)
  | .json links =>
      match links with
      | [] => .error (.download ("No CDN download links available for file " ++ toString fileId))
      | uri :: _ => .ok uri

def freeFallback : String := "FREE_FALLBACK"

/-- `PremiumRequiredError` is caught. -/
def downloadUrlOrFallback (nexusId fileId : Int) (links : Answer (List String)) :
    Except NexusError String :=
  match getDownloadUrl nexusId fileId links with
  | .error (.premiumRequired _) => .ok freeFallback
  | result => result

/-- `int(data.get("size_in_bytes") or data.get("size", 0) * 1024)`. -/
def MetaData.sizeBytes (data : MetaData) : Int :=
  if data.sizeInBytes.getD 0 ≠ 0 then data.sizeInBytes.getD 0 else data.size.getD 0 * 1024

/-- The last path component of the file name the API gave. -/
def MetaData.storedName (data : MetaData) (pathName : String → String) (nexusId fileId : Int) :
    String × String :=
  let raw := data.fileName.getD ("mod_" ++ toString nexusId ++ "_file_" ++ toString fileId)
  (raw, if pathName raw = "" then raw else pathName raw)

section Calls

variable {Content : Type} (lib : Library Content)

/-- An attempt once the file id is known. -/
def fileInfoOf (nexusId fileId : Int) (answers : Attempt) : Except NexusError FileInfo :=
  match fetchMetaData nexusId fileId answers.metadata with
  | .error error => .error error
  | .ok data =>
      let (raw, name) := data.storedName lib.pathName nexusId fileId
      match assertSafeComponent lib.repr "file_name" name with
      | .error text =>
          .error (.download ("Nexus API returned unsafe filename " ++ lib.repr raw ++ ": " ++ text))
      | .ok () =>
          match downloadUrlOrFallback nexusId fileId answers.links with
          | .error error => .error error
          | .ok url =>
              -- The API gives no SHA-256.
              .ok { nexusId := nexusId, fileId := fileId, fileName := name,
                    sizeBytes := data.sizeBytes, md5 := data.md5.getD "", sha256 := "",
                    downloadUrl := url }

/-- One attempt; a file id that was picked stays for the next one. -/
def attemptFileInfo (nexusId : Int) (answers : Nat → Attempt) (i : Nat) (fileId : Option Int) :
    Option Int × Except NexusError FileInfo :=
  match fileId with
  | some id => (some id, fileInfoOf lib nexusId id (answers i))
  | none =>
      match resolveFileId nexusId (answers i).files with
      | .error error => (none, .error error)
      | .ok id => (some id, fileInfoOf lib nexusId id (answers i))

def getFileInfo (nexusId : Int) (fileId : Option Int) (answers : Nat → Attempt) :
    Except NexusError FileInfo :=
  (Retry.run shouldRetryNexus (attemptFileInfo lib nexusId answers) furtherAttempts 0 fileId).2

/-! ## The download -/

/-- How the transfer of an attempt ends; `written` is what was written if the file was
opened. -/
inductive Transfer (Content : Type)
  /-- Before the `try`: the path is refused, the URL not authorised. -/
  | refused (error : NexusError)
  /-- An `aiohttp.ClientError`, or a timeout or `OSError`, with its text. -/
  | failed (written : Option Content) (client : Bool) (text : String)
  /-- Any other exception, such as `CancelledError`. -/
  | interrupted (written : Option Content)
  | completed (content : Content)

structure TransferAttempt (Content : Type) where
  transfer : Transfer Content
  /-- `_cleanup` can remove the file. -/
  cleans : Bool

/-- What is at the destination when `_cleanup` is done. -/
def cleanup (cleans : Bool) (left : Option Content) : Option Content :=
  if cleans then none else left

def validateSha256Format (hash : String) : Bool :=
  hash.length == 64 && hash.toList.all fun c => c ∈ "0123456789abcdefABCDEF".toList

/-- The check of a hash, if there is one to check. -/
def hashMatches (expected actual : String) : Bool :=
  expected == "" || actual.toLower == expected.toLower

/-- The hash checks after the transfer. -/
def validateHashes (info : FileInfo) (content : Content) : Except NexusError Unit :=
  if ¬hashMatches info.md5 (lib.md5 content) then
    .error (.hashValidation ("MD5 mismatch for " ++ lib.repr info.fileName ++ ": expected=" ++
      lib.repr info.md5 ++ " got=" ++ lib.repr (lib.md5 content)))
  else if validateSha256Format info.sha256 ∧ ¬hashMatches info.sha256 (lib.sha256 content) then
    .error (.hashValidation ("SHA256 mismatch for " ++ lib.repr info.fileName ++ ": expected=" ++
      lib.repr info.sha256 ++ " got=" ++ lib.repr (lib.sha256 content)))
  else .ok ()

/-- One attempt of `download`; the state is what is at the destination. -/
def attemptDownload (info : FileInfo) (answers : Nat → TransferAttempt Content) (i : Nat)
    (left : Option Content) : Option Content × Except NexusError Unit :=
  match (answers i).transfer with
  | .refused error => (left, .error error)
  | .failed written client text =>
      let message := if client then
          "Download failed for " ++ lib.repr info.fileName ++ ": " ++ text
        else "I/O or timeout error for " ++ lib.repr info.fileName ++ ": " ++ text
      (cleanup (answers i).cleans (written <|> left), .error (.download message))
  -- No `except` clause runs: what was written stays.
  | .interrupted written => (written <|> left, .error .other)
  | .completed content =>
      match validateHashes lib info content with
      | .ok () => (some content, .ok ())
      | .error error => (cleanup (answers i).cleans (some content), .error error)

/-- What one poll of the manual fallback finds: the file in the staging directory, or in
the downloads of the mod manager, and whether each can be opened. -/
structure Poll (Content : Type) where
  /-- An exception the poll does not catch. -/
  raises : Bool
  staging : Option Content
  stagingFree : Bool
  downloads : Option Content
  downloadsFree : Bool
  /-- The size is the same a second later. -/
  stable : Bool
  /-- What `copy2` puts into the staging directory, and whether it succeeds. -/
  copied : Option Content
  copies : Bool

/-- The size is as expected, as far as it is known. -/
def sizeMet (info : FileInfo) (content : Content) : Bool :=
  0 < lib.size content && (info.sizeBytes == 0 || lib.size content == info.sizeBytes)

/-- The file in the staging directory is complete and released. -/
def Poll.inStaging (info : FileInfo) (poll : Poll Content) : Option Content :=
  poll.staging.filter fun content =>
    0 < lib.size content && (info.sizeBytes ≤ 0 || lib.size content == info.sizeBytes) &&
      poll.stagingFree

/-- The file in the downloads is copied. -/
def Poll.tries (info : FileInfo) (poll : Poll Content) : Bool :=
  poll.downloads.any fun content =>
    sizeMet lib info content && poll.downloadsFree && (info.sizeBytes != 0 || poll.stable)

/-- An hour of polls, two seconds apart. -/
def furtherPolls : Nat := 1800

/-- `_handle_manual_fallback`. -/
def manualFallback (info : FileInfo) (polls : Nat → Poll Content) :
    Nat → Nat → Option Content → Option Content × Except NexusError Unit
  | 0, _, left => (left, .error (.download
      ("Manual download for " ++ info.fileName ++ " timed out after 1 hour.")))
  | n + 1, i, left =>
      if (polls i).raises then (left, .error .other)
      else
        match (polls i).inStaging lib info with
        -- A file of the right size is taken as it is; no hash is compared here.
        | some content => (some content, .ok ())
        | none =>
            if (polls i).tries lib info then
              if (polls i).copies then ((polls i).copied <|> left, .ok ())
              -- The `OSError` is dropped, and the part that was copied stays.
              else manualFallback info polls n (i + 1) ((polls i).copied <|> left)
            else manualFallback info polls n (i + 1) left

/-- What a `download` is answered. -/
structure DownloadAnswers (Content : Type) where
  /-- The first `safe_join` and `mkdir` succeed. -/
  joins : Bool
  transfers : Nat → TransferAttempt Content
  polls : Nat → Poll Content

/-- `download`: what it leaves at the destination, and how it ends. -/
def download (info : FileInfo) (answers : DownloadAnswers Content) :
    Option Content × Except NexusError Unit :=
  match assertSafeComponent lib.repr "file_name" info.fileName with
  | .error _ => (none, .error .other)
  | .ok () =>
      if answers.joins = false then (none, .error .other)
      else if info.downloadUrl = freeFallback then
        manualFallback lib info answers.polls furtherPolls 0 none
      else
        Retry.run shouldRetryNexus (attemptDownload lib info answers.transfers) furtherAttempts 0
          none

/-! ## What they guarantee -/

variable {lib}

variable {info : FileInfo}

theorem fileInfoOf_spec {nexusId fileId : Int} {answers : Attempt}
    (h : fileInfoOf lib nexusId fileId answers = .ok info) :
    info.nexusId = nexusId ∧ info.fileId = fileId ∧ info.sha256 = "" ∧
      assertSafeComponent lib.repr "file_name" info.fileName = .ok () := by
  unfold fileInfoOf at h
  split at h
  · cases h
  · rename_i data hdata
    simp only at h
    split at h
    · cases h
    · rename_i hsafe
      split at h
      · cases h
      · cases h
        exact ⟨rfl, rfl, rfl, hsafe⟩

/-- **Spec of `get_file_info`.**  It describes the file that was asked for, under a safe
name. -/
theorem getFileInfo_spec {nexusId : Int} {fileId : Option Int} {answers : Nat → Attempt} (h : getFileInfo lib nexusId fileId answers = .ok info) :
    info.nexusId = nexusId ∧ (∀ id, fileId = some id → info.fileId = id) ∧ info.sha256 = "" ∧
      assertSafeComponent lib.repr "file_name" info.fileName = .ok () := by
  have hkeep : ∀ i s t e, (∀ id, fileId = some id → s = some id) →
      attemptFileInfo lib nexusId answers i s = (t, .error e) →
        ∀ id, fileId = some id → t = some id := by
    intro i s t e hs hattempt id hid
    rw [hs id hid] at hattempt
    exact (Prod.mk.inj hattempt).1.symm
  have hstart : ∀ id, fileId = some id → fileId = some id := fun _ hid => hid
  obtain ⟨j, u, hu, hrun⟩ := Retry.run_eq_attempt shouldRetryNexus
    (attemptFileInfo lib nexusId answers) hkeep furtherAttempts 0 hstart
  rw [getFileInfo, hrun] at h
  unfold attemptFileInfo at h
  cases hpicked : u with
  | some id =>
      rw [hpicked] at h
      obtain ⟨hnexus, hfile, hsha, hsafe⟩ := fileInfoOf_spec h
      refine ⟨hnexus, fun id' hid' => ?_, hsha, hsafe⟩
      have hsame : u = some id' := hu id' hid'
      rw [hpicked] at hsame
      rw [hfile]
      exact Option.some.inj hsame
  | none =>
      rw [hpicked] at h
      simp only at h
      split at h
      · cases h
      · obtain ⟨hnexus, -, hsha, hsafe⟩ := fileInfoOf_spec h
        refine ⟨hnexus, fun id' hid' => ?_, hsha, hsafe⟩
        have hsame : u = some id' := hu id' hid'
        rw [hpicked] at hsame
        cases hsame

/-- **Spec of `download`.**  A transfer that succeeds has left a file with the expected
MD5, if there was one to expect. -/
theorem download_spec {answers : DownloadAnswers Content}
    {left : Option Content} (hurl : info.downloadUrl ≠ freeFallback)
    (h : download lib info answers = (left, .ok ())) :
    ∃ content, left = some content ∧ hashMatches info.md5 (lib.md5 content) = true := by
  unfold download at h
  split at h
  · cases h
  · split at h
    · cases h
    · obtain ⟨j, u, -, hrun⟩ := Retry.run_eq_attempt (I := fun _ => True) shouldRetryNexus
        (attemptDownload lib info answers.transfers) (fun _ _ _ _ _ _ => trivial)
        furtherAttempts 0 (s := none) trivial
      rw [hrun] at h
      unfold attemptDownload at h
      split at h
      · cases h
      · cases h
      · cases h
      · rename_i content htransfer
        split at h
        · rename_i hvalid
          cases h
          refine ⟨content, rfl, ?_⟩
          unfold validateHashes at hvalid
          by_cases hmatches : hashMatches info.md5 (lib.md5 content) = true
          · exact hmatches
          · rw [if_pos hmatches] at hvalid
            cases hvalid
        · cases h

end Calls

end SkyClaw.Scraper
