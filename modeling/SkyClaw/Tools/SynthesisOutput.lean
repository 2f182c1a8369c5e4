import Mathlib.Data.List.Sort
import SkyClaw.Tools.SnapshotPipelines
import SkyClaw.Tools.ToolOutput

/-!
# The plugin that a Synthesis run reports

`SynthesisRunner.run_pipeline` and `validate_synthesis_esp` on the output folder, inside
`execute_pipeline`.

The runner takes `Synthesis.esp`, or else any plugin that is there, for the output of the run, and
a run without any plugin is a success as well.  `synthesisTruthful_iff` says which runs
report their own output.
-/

namespace SkyClaw.Tools

open Regex PyRe
open Db.Journal

/-! ## The runner -/

/-- A plugin file: its size, and its first four bytes, unless a read raises. -/
structure PluginFile where
  size : Nat
  head : Option (List UInt8)
deriving DecidableEq, Repr

abbrev PluginFolder := List (OutputFile PluginFile)

/-- How the process ends: `_execute_process` or its caller raises, it reports another failure, or
the process exits. -/
inductive ProcessEnd
  | raises (exc : Exc)
  | fails (message : String)
  | exits (stdout stderr : String) (returnCode : Int)

/-- A run of the tool. -/
structure SynthesisTool where
  changes : FolderChanges PluginFile
  ends : ProcessEnd

/-- Which names `*.esp` matches, and the order in which `glob` yields them. -/
structure Listing where
  isEsp : String → Bool
  position : String → Nat

/-- `_ERROR_PATTERN` -/
def errorWords : List String := ["ERROR", "Error", "FAIL", "Exception", "Critical"]

def successPattern : Regex Char :=
  sequence [oneOf (["Successfully", "Complete", "Finished", "Generated"].map word), spaces1,
    oneOf (["patch", "output", "plugin"].map word)]

/-- `parse_output`: the success and the errors. -/
def parseOutput (stdout stderr : String) : Bool × List String :=
  let errors := parseMessages errorWords stdout stderr
  (successPattern.contains (stdout ++ "\n" ++ stderr).toList && errors.isEmpty, errors)

def fileNamed (folder : PluginFolder) (name : String) : Option (OutputFile PluginFile) :=
  folder.find? (·.name == name)

/-- `list(output_path.glob("*.esp"))` -/
def espFiles (listing : Listing) (folder : PluginFolder) : List String :=
  ((folder.map OutputFile.name).filter listing.isEsp).insertionSort fun name other =>
    listing.position name ≤ listing.position other

/-- The plugin that `run_pipeline` takes for its output. -/
def outputEsp (listing : Listing) (folder : PluginFolder) : Option String :=
  if (fileNamed folder targetEsp).isSome then some targetEsp
  else (espFiles listing folder).head?

def runPipeline (listing : Listing) (tool : SynthesisTool) : Proc PluginFolder Exc SynthesisResult :=
  fun folder =>
    let folder := tool.changes.apply folder
    match tool.ends with
    | .raises exc => (.error exc, folder)
    | .fails message =>
        (.ok { success := false, outputEsp := none, errors := [message] }, folder)
    | .exits stdout stderr returnCode =>
        let parsed := parseOutput stdout stderr
        (.ok {
          success := parsed.1 && returnCode == 0
          outputEsp := if parsed.1 then outputEsp listing folder else none
          errors := parsed.2 }, folder)

/-- A plugin of a hundred bytes or more that starts with `TES4`. -/
def PluginFile.isValid (file : PluginFile) : Bool :=
  decide (100 ≤ file.size) && file.head == some [0x54, 0x45, 0x53, 0x34]

def validateSynthesisEsp (name : String) : Proc PluginFolder Exc Bool :=
  .read fun folder => (fileNamed folder name).any (·.content.isValid)

/-! ## The service -/

/-- What the other calls of a run answer.  A restore puts an earlier plugin back. -/
structure ServiceAnswers where
  ensureRunner : Except Exc (List String)
  publishStarted : Except Exc Unit
  publishCompleted : Except Exc Unit
  enter : Except Exc Unit
  restore : PluginFolder → PluginFolder
  release : Except Exc Unit
  beginEnd : JournalEnd
  commitEnd : JournalEnd
  markEnd : JournalEnd

def ServiceAnswers.service (answers : ServiceAnswers) (listing : Listing) (tool : SynthesisTool) :
    SynthesisPipelineService PluginFolder where
  publishStarted := .reply answers.publishStarted
  publishCompleted := .reply answers.publishCompleted
  enter _ := .reply answers.enter
  exit
    | none => .reply answers.release
    | some _ => do
        .modify answers.restore
        .reply answers.release
  beginEnd := answers.beginEnd
  commitEnd := answers.commitEnd
  markEnd := answers.markEnd
  ensureRunner := .reply answers.ensureRunner
  targetExists folder := (fileNamed folder targetEsp).isSome
  runPipeline _ := runPipeline listing tool
  validateSynthesisEsp := validateSynthesisEsp

/-- A run of `execute_pipeline`. -/
structure SynthesisRun where
  answers : ServiceAnswers
  journal : OperationJournal
  patcherIds : Option (List String)
  createSnapshot : Bool

/-- What the run returns, and what it leaves. -/
def SynthesisRun.execute (run : SynthesisRun) (listing : Listing) (tool : SynthesisTool)
    (folder : PluginFolder) : Except Exc Report × Run PluginFolder :=
  (run.answers.service listing tool).executePipeline run.patcherIds run.createSnapshot
    (Run.initial run.journal folder)

/-- The promise: whenever `execute_pipeline` reports a success, the plugin that the runner has
returned is there, it is valid, and the tool has written it in this run. -/
def SynthesisTruthful (listing : Listing) (tool : SynthesisTool)
    (before : List (String × PluginFile)) : Prop :=
  ∀ run : SynthesisRun, reportsSuccess (run.execute listing tool (stale before)).1 = true →
    ∃ result name file, (runPipeline listing tool (stale before)).1 = .ok result ∧
      result.outputEsp = some name ∧
      fileNamed (run.execute listing tool (stale before)).2.world name = some file ∧
      file.content.isValid = true ∧ file.fresh = true

/-- When it is kept: a tool that exits with 0 and a success message leaves a plugin, and if the one
that the runner takes is valid the tool has written it. -/
def WritesOutput (listing : Listing) (tool : SynthesisTool)
    (before : List (String × PluginFile)) : Prop :=
  match tool.ends with
  | .exits stdout stderr returnCode =>
      returnCode = 0 → (parseOutput stdout stderr).1 = true →
        ∃ name ∈ outputEsp listing (tool.changes.apply (stale before)),
          ∀ file ∈ fileNamed (tool.changes.apply (stale before)) name,
            file.content.isValid = true → name ∈ tool.changes.writes.map Prod.fst
  | _ => True

/-! ## Reported successes -/

open Proc

theorem recover_fails {ω : Type} (c : Collaborators ω) (targetFiles : List String) (exc : Exc)
    (s : Run ω) : reportsSuccess (recover c targetFiles exc s).1 = false := by
  have hmark : ∀ (p : Proc (Run ω) Exc Unit) (q : Proc (Run ω) Exc Unit) (report : Report),
      report.success = false → reportsSuccess ((do p; q; pure report : Proc _ _ _) s).1 = false := by
    intro p q report hreport
    simp only [bind_apply]
    split
    · split
      · exact hreport
      · rfl
    · rfl
  cases exc with
  | domain | timeout | other => exact hmark _ _ _ rfl
  | lockAcquisition | cancelled => rfl

variable {answers : ServiceAnswers} {listing : Listing} {tool : SynthesisTool}

theorem exists_report {ω : Type} {result : Except Exc Report × Run ω}
    (h : reportsSuccess result.1 = true) :
    ∃ report, report.success = true ∧ result = (.ok report, result.2) := by
  obtain ⟨r, s⟩ := result
  cases r with
  | error exc => cases h
  | ok report => exact ⟨report, h, rfl⟩

@[simp] theorem beginTransaction_world {ω : Type} (description : String) (ending : JournalEnd)
    (s : Run ω) : (beginTransaction description ending s).2.world = s.world := by
  unfold beginTransaction
  split
  · split <;> rfl
  · rfl

@[simp] theorem commitTransaction_world {ω : Type} (ending : JournalEnd) (s : Run ω) :
    (commitTransaction ending s).2.world = s.world := by
  unfold commitTransaction
  split
  · rfl
  · split
    · split <;> rfl
    · rfl

theorem onWorld_eq_ok {ω α : Type} {p : Proc ω Exc α} {s t : Run ω} {a : α}
    (h : onWorld p s = (.ok a, t)) : p s.world = (.ok a, t.world) := by
  simp only [onWorld, focus_apply, Prod.mk.injEq] at h
  rw [← h.1, ← h.2]

theorem onWorld_of_ok {ω α : Type} {p : Proc ω Exc α} {s : Run ω} {a : α} {world : ω}
    (h : p s.world = (.ok a, world)) : onWorld p s = (.ok a, { s with world := world }) := by
  simp only [onWorld, focus_apply, h]

variable {r : Except Exc Unit}

theorem onWorld_reply {ω : Type} {s t : Run ω}
    (h : onWorld (.reply r) s = (.ok (), t)) : t.world = s.world := by
  have hreply := onWorld_eq_ok h
  simp only [reply_apply, Prod.mk.injEq] at hreply
  exact hreply.2.symm

theorem finish_eq_ok {ω : Type} {report returned : Report} {s t : Run ω}
    (h : finish (.reply r) report s = (.ok returned, t)) :
    returned = report ∧ t.world = s.world := by
  obtain ⟨⟨⟩, u, hpublish, hpure⟩ := bind_eq_ok_iff.mp h
  obtain ⟨⟨⟩, v, hcall, hevent⟩ := bind_eq_ok_iff.mp hpublish
  obtain ⟨hreturned, rfl⟩ := Prod.mk.inj hpure
  cases hevent
  have hworld : v.world = s.world := onWorld_reply hcall
  exact ⟨(Except.ok.inj hreturned).symm, hworld⟩

variable {answers : ServiceAnswers} {listing : Listing} {tool : SynthesisTool}

variable {description : String} {body : Proc PluginFolder Exc Report} {s t : Run PluginFolder}

/-- The block returns what its body returned. -/
theorem lockedBlock_eq_ok {targetFiles : List String} {report : Report}
    (h : lockedBlock (answers.service listing tool).toCollaborators description targetFiles body s =
      (.ok report, t)) : body s.world = (.ok report, t.world) := by
  unfold lockedBlock at h
  rcases henter : onWorld ((answers.service listing tool).enter targetFiles) s with ⟨e | ⟨⟨⟩⟩, u⟩
  · rw [asyncWith_of_enter_error henter] at h
    cases h
  · have hentered : u.world = s.world := onWorld_reply henter
    rcases hbody : (do
        setInLockContext true
        beginTransaction description (answers.service listing tool).beginEnd
        onWorld body : Proc (Run PluginFolder) Exc Report) u with ⟨e | returned, v⟩
    · rw [asyncWith_of_error henter hbody] at h
      obtain ⟨_, _, -, hraise⟩ := bind_eq_ok_iff.mp h
      cases hraise
    · rw [asyncWith_of_ok henter hbody] at h
      obtain ⟨⟨⟩, w, hexit, hpure⟩ := bind_eq_ok_iff.mp h
      obtain ⟨hreturned, rfl⟩ := Prod.mk.inj hpure
      cases hreturned
      have hleft : w.world = v.world := onWorld_reply hexit
      obtain ⟨⟨⟩, x, hflag, hrest⟩ := bind_eq_ok_iff.mp hbody
      obtain ⟨⟨⟩, y, hbegin, hran⟩ := bind_eq_ok_iff.mp hrest
      cases hflag
      have hbegun : y.world = u.world := by
        have := beginTransaction_world description (answers.service listing tool).beginEnd
          { u with inLockContext := true }
        rwa [hbegin] at this
      rw [← hentered, ← hbegun, hleft]
      exact onWorld_eq_ok hran

/-- A success that the service reports is one of the block, and nothing touches the folder after
that. -/
theorem runTransaction_success {targetFiles : List String} {report : Report}
    (h : runTransaction (answers.service listing tool).toCollaborators description targetFiles body
      s = (.ok report, t)) (hsuccess : report.success = true) :
    body s.world = (.ok report, t.world) := by
  obtain ⟨returned, u, hhandle, hfinish⟩ := bind_eq_ok_iff.mp h
  obtain ⟨rfl, hworld⟩ := finish_eq_ok hfinish
  rcases hlocked : lockedTransaction (answers.service listing tool).toCollaborators description
      targetFiles body s with ⟨exc | fromBlock, v⟩
  · rw [handle_of_error hlocked] at hhandle
    have hfails := recover_fails (answers.service listing tool).toCollaborators targetFiles exc v
    rw [hhandle] at hfails
    exact absurd hsuccess (by simpa [reportsSuccess] using hfails)
  · rw [handle_of_ok hlocked] at hhandle
    obtain ⟨hreturned, rfl⟩ := Prod.mk.inj hhandle
    cases hreturned
    obtain ⟨fromBody, w, hblock, hrest⟩ := bind_eq_ok_iff.mp hlocked
    obtain ⟨⟨⟩, x, hflag, hrest⟩ := bind_eq_ok_iff.mp hrest
    obtain ⟨⟨⟩, y, hcommit, hpure⟩ := bind_eq_ok_iff.mp hrest
    obtain ⟨hsame, rfl⟩ := Prod.mk.inj hpure
    cases hsame
    cases hflag
    have hcommitted : y.world = w.world := by
      have := commitTransaction_world (answers.service listing tool).commitEnd
        { w with inLockContext := false }
      rwa [hcommit] at this
    rw [hworld, hcommitted]
    exact lockedBlock_eq_ok hblock

variable {folder : PluginFolder}

/-- A success that `execute_pipeline` reports is one of its block, on the folder as it was. -/
theorem execute_success {run : SynthesisRun}
    (h : reportsSuccess (run.execute listing tool folder).1 = true) :
    ∃ patcherIds report, report.success = true ∧
      (run.answers.service listing tool).runAndValidate patcherIds folder =
        (.ok report, (run.execute listing tool folder).2.world) := by
  obtain ⟨report, hsuccess, hrun⟩ := exists_report h
  obtain ⟨ensured, s, hensure, hrest⟩ := bind_eq_ok_iff.mp hrun
  obtain ⟨rfl, rfl⟩ : ensured = run.answers.ensureRunner ∧ s = Run.initial run.journal folder := by
    simp only [attempt_apply, onWorld, focus_apply, Prod.mk.injEq] at hensure
    exact ⟨(Except.ok.inj hensure.1).symm, hensure.2.symm⟩
  cases hensured : run.answers.ensureRunner with
  | error exc =>
      rw [hensured] at hrest
      cases exc with
      | domain message =>
          obtain ⟨hreport, -⟩ := Prod.mk.inj hrest
          rw [← Except.ok.inj hreport] at hsuccess
          cases hsuccess
      | timeout | lockAcquisition | other | cancelled => cases hrest
  | ok enabled =>
    rw [hensured] at hrest
    cases hids : run.patcherIds.getD enabled with
    | nil =>
      simp only [hids] at hrest
      obtain ⟨hreport, -⟩ := Prod.mk.inj hrest
      rw [← Except.ok.inj hreport] at hsuccess
      cases hsuccess
    | cons first rest =>
      simp only [hids] at hrest
      obtain ⟨⟨⟩, t, hpublish, hrest⟩ := bind_eq_ok_iff.mp hrest
      obtain ⟨⟨⟩, u, hcall, hevent⟩ := bind_eq_ok_iff.mp hpublish
      cases hevent
      obtain ⟨targetFiles, v, hread, hrun⟩ := bind_eq_ok_iff.mp hrest
      cases hread
      have hworld : u.world = folder := onWorld_reply hcall
      refine ⟨first :: rest, report, hsuccess, ?_⟩
      have := runTransaction_success hrun hsuccess
      rwa [show ({ u with events := u.events ++ [.started] } : Run PluginFolder).world = folder
        from hworld] at this

/-! ## What the block does -/

variable {name : String}

theorem mem_map_name :
    name ∈ folder.map OutputFile.name ↔ ∃ file, fileNamed folder name = some file := by
  unfold fileNamed
  rw [← Option.isSome_iff_exists, List.find?_isSome, List.mem_map]
  constructor
  · rintro ⟨file, hfile, rfl⟩
    exact ⟨file, hfile, beq_self_eq_true _⟩
  · rintro ⟨file, hfile, heq⟩
    exact ⟨file, hfile, eq_of_beq heq⟩

theorem exists_of_outputEsp
    (h : outputEsp listing folder = some name) : ∃ file, fileNamed folder name = some file := by
  unfold outputEsp at h
  split at h
  · rename_i hsome
    cases h
    exact Option.isSome_iff_exists.mp hsome
  · have hmem : name ∈ espFiles listing folder := List.mem_of_mem_head? h
    unfold espFiles at hmem
    rw [List.mem_insertionSort] at hmem
    exact mem_map_name.mp (List.mem_filter.mp hmem).1

theorem fresh_iff {changes : FolderChanges PluginFile} {before : List (String × PluginFile)}
    {file : OutputFile PluginFile}
    (h : fileNamed (changes.apply (stale before)) name = some file) :
    file.fresh = true ↔ name ∈ changes.writes.map Prod.fst := by
  unfold fileNamed at h
  have hname := List.find?_some h
  rw [beq_iff_eq] at hname
  rcases List.mem_append.mp (List.mem_of_find?_eq_some h) with hold | hnew
  · obtain ⟨hstale, huntouched⟩ := List.mem_filter.mp hold
    obtain ⟨entry, -, rfl⟩ := List.mem_map.mp hstale
    refine iff_of_false Bool.false_ne_true fun hwritten => ?_
    rw [← hname] at hwritten
    simp [FolderChanges.touches, hwritten] at huntouched
  · obtain ⟨entry, hentry, rfl⟩ := List.mem_map.mp hnew
    refine iff_of_true rfl ?_
    rw [← hname]
    exact List.mem_map_of_mem hentry

variable {left : PluginFolder}

/-- The block returns exactly when the runner has a success and its plugin, if there is one, is
valid. -/
theorem runAndValidate_eq_ok_iff {patcherIds : List String} :
    (∃ report, (answers.service listing tool).runAndValidate patcherIds folder =
        (.ok report, left)) ↔
      ∃ result, runPipeline listing tool folder = (.ok result, left) ∧ result.success = true ∧
        ∀ name ∈ result.outputEsp, (fileNamed left name).any (·.content.isValid) = true := by
  have hrun : (answers.service listing tool).runPipeline patcherIds = runPipeline listing tool := rfl
  unfold SynthesisPipelineService.runAndValidate
  rw [hrun]
  rcases hpipeline : runPipeline listing tool folder with ⟨exc | ⟨success, output, errors⟩, after⟩
  · simp [bind_of_error hpipeline]
  · rw [bind_of_ok hpipeline]
    simp only [Prod.mk.injEq, Except.ok.injEq]
    cases success with
    | false =>
        refine iff_of_false ?_ ?_
        · rintro ⟨report, h⟩
          cases h
        · rintro ⟨result, ⟨rfl, -⟩, hsuccess, -⟩
          cases hsuccess
    | true =>
        cases output with
        | none =>
            constructor
            · rintro ⟨report, h⟩
              cases h
              exact ⟨_, ⟨rfl, rfl⟩, rfl, fun name hname => by cases hname⟩
            · rintro ⟨result, ⟨rfl, rfl⟩, -, -⟩
              exact ⟨_, rfl⟩
        | some name =>
            have hvalidate : (answers.service listing tool).validateSynthesisEsp name after =
                (.ok ((fileNamed after name).any (·.content.isValid)), after) := rfl
            simp only [bind_of_ok hvalidate]
            cases hvalid : (fileNamed after name).any (·.content.isValid) with
            | false =>
                refine iff_of_false ?_ ?_
                · rintro ⟨report, h⟩
                  cases h
                · rintro ⟨result, ⟨rfl, rfl⟩, -, hall⟩
                  rw [hall name rfl] at hvalid
                  cases hvalid
            | true =>
                constructor
                · rintro ⟨report, h⟩
                  cases h
                  refine ⟨_, ⟨rfl, rfl⟩, rfl, fun other hother => ?_⟩
                  cases hother
                  exact hvalid
                · rintro ⟨result, ⟨rfl, rfl⟩, -, -⟩
                  exact ⟨_, rfl⟩

/-- How a successful run of the runner ends. -/
theorem runPipeline_success_iff {result : SynthesisResult} :
    (runPipeline listing tool folder = (.ok result, left) ∧ result.success = true) ↔
      ∃ stdout stderr, tool.ends = .exits stdout stderr 0 ∧ (parseOutput stdout stderr).1 = true ∧
        left = tool.changes.apply folder ∧ result = {
          success := true
          outputEsp := outputEsp listing (tool.changes.apply folder)
          errors := (parseOutput stdout stderr).2 } := by
  unfold runPipeline
  cases hends : tool.ends with
  | raises exc => simp
  | fails message =>
      simp only [Prod.mk.injEq, Except.ok.injEq, reduceCtorEq, false_and, exists_false, iff_false]
      rintro ⟨⟨rfl, -⟩, hsuccess⟩
      cases hsuccess
  | exits stdout stderr returnCode =>
      simp only [Prod.mk.injEq, Except.ok.injEq, ProcessEnd.exits.injEq]
      constructor
      · rintro ⟨⟨rfl, rfl⟩, hsuccess⟩
        simp only [Bool.and_eq_true, beq_iff_eq] at hsuccess
        obtain ⟨hparsed, rfl⟩ := hsuccess
        exact ⟨stdout, stderr, ⟨rfl, rfl, rfl⟩, hparsed, rfl, by simp [hparsed]⟩
      · rintro ⟨_, _, ⟨rfl, rfl, rfl⟩, hparsed, rfl, rfl⟩
        simp [hparsed]

/-- A run of which no other call fails. -/
def quietRun : SynthesisRun where
  answers :=
    { ensureRunner := .ok ["patcher"]
      publishStarted := .ok ()
      publishCompleted := .ok ()
      enter := .ok ()
      restore := id
      release := .ok ()
      beginEnd := .done .ok
      commitEnd := .done .ok
      markEnd := .done .ok }
  journal := .empty
  patcherIds := none
  createSnapshot := true

/-- It reports what its block returns. -/
theorem execute_quietRun {report : Report}
    (h : (quietRun.answers.service listing tool).runAndValidate ["patcher"] folder =
      (.ok report, left)) :
    (quietRun.execute listing tool folder).1 = .ok report ∧
      (quietRun.execute listing tool folder).2.world = left := by
  -- the run once its started event is published
  let started : Run PluginFolder := { Run.initial .empty folder with events := [.started] }
  let begun : Run PluginFolder := { (beginTransaction "synthesis_pipeline" (.done .ok)
    { started with inLockContext := true }).2 with world := left }
  have hblock : ∀ targetFiles, lockedBlock (quietRun.answers.service listing tool).toCollaborators
      "synthesis_pipeline" targetFiles
      ((quietRun.answers.service listing tool).runAndValidate ["patcher"]) started =
        (.ok report, begun) := by
    intro targetFiles
    have hbody : (do
        setInLockContext true
        beginTransaction "synthesis_pipeline" (.done .ok)
        onWorld ((quietRun.answers.service listing tool).runAndValidate ["patcher"]) :
          Proc (Run PluginFolder) Exc Report) started = (.ok report, begun) :=
      onWorld_of_ok (s := (beginTransaction "synthesis_pipeline" (.done .ok)
        { started with inLockContext := true }).2) h
    exact asyncWith_of_ok rfl hbody
  have htransaction : ∀ targetFiles, ∃ t, t.world = left ∧
      runTransaction (quietRun.answers.service listing tool).toCollaborators "synthesis_pipeline"
        targetFiles ((quietRun.answers.service listing tool).runAndValidate ["patcher"]) started =
          (.ok report, t) := by
    intro targetFiles
    obtain ⟨u, hleft, hlocked⟩ : ∃ u, u.world = left ∧
        lockedTransaction (quietRun.answers.service listing tool).toCollaborators
          "synthesis_pipeline" targetFiles
          ((quietRun.answers.service listing tool).runAndValidate ["patcher"]) started =
            (.ok report, u) := by
      unfold lockedTransaction
      rw [bind_of_ok (hblock targetFiles)]
      exact ⟨_, rfl, rfl⟩
    unfold runTransaction
    rw [bind_of_ok (handle_of_ok hlocked)]
    refine ⟨_, ?_, rfl⟩
    exact hleft
  obtain ⟨t, hworld, hrun⟩ := htransaction _
  exact ⟨congrArg Prod.fst hrun, (congrArg (·.2.world) hrun).trans hworld⟩

theorem exists_fresh_of_truthful {before : List (String × PluginFile)} {stdout stderr : String}
    (h : SynthesisTruthful listing tool before) (hends : tool.ends = .exits stdout stderr 0)
    (hparsed : (parseOutput stdout stderr).1 = true)
    (hvalid : ∀ name ∈ outputEsp listing (tool.changes.apply (stale before)),
      (fileNamed (tool.changes.apply (stale before)) name).any (·.content.isValid) = true) :
    ∃ name file, outputEsp listing (tool.changes.apply (stale before)) = some name ∧
      fileNamed (tool.changes.apply (stale before)) name = some file ∧ file.fresh = true := by
  obtain ⟨hrun, hsuccess⟩ :=
    runPipeline_success_iff.mpr ⟨stdout, stderr, hends, hparsed, rfl, rfl⟩
  obtain ⟨report, hreport⟩ := runAndValidate_eq_ok_iff.mpr ⟨_, hrun, hsuccess, hvalid⟩
  obtain ⟨hreports, hleft⟩ := execute_quietRun hreport
  obtain ⟨result, name, file, hresult, hname, hfile, -, hfresh⟩ :=
    h quietRun (by rw [hreports]; exact runAndValidate_success hreport)
  rw [hrun] at hresult
  cases hresult
  rw [hleft] at hfile
  exact ⟨name, file, hname, hfile, hfresh⟩

theorem writesOutput_of_truthful {before : List (String × PluginFile)}
    (h : SynthesisTruthful listing tool before) : WritesOutput listing tool before := by
  unfold WritesOutput
  cases hends : tool.ends with
  | raises | fails => trivial
  | exits stdout stderr returnCode =>
      rintro rfl hparsed
      cases hpicked : outputEsp listing (tool.changes.apply (stale before)) with
      | none =>
          -- nothing is picked, and that is a success as well
          obtain ⟨name, file, hname, -⟩ := exists_fresh_of_truthful h hends hparsed
            fun name hname => by rw [hpicked] at hname; cases hname
          rw [hname] at hpicked
          cases hpicked
      | some name =>
          refine ⟨name, rfl, fun file hfile hvalid => ?_⟩
          have hpickedValid : ∀ other ∈ outputEsp listing (tool.changes.apply (stale before)),
              (fileNamed (tool.changes.apply (stale before)) other).any (·.content.isValid) =
                true := by
            intro other hother
            rw [hpicked] at hother
            cases hother
            rw [show fileNamed _ name = some file from hfile]
            exact hvalid
          obtain ⟨other, found, hother, hfound, hfresh⟩ :=
            exists_fresh_of_truthful h hends hparsed hpickedValid
          cases hpicked.symm.trans hother
          exact (fresh_iff hfound).mp hfresh

theorem truthful_of_writesOutput {before : List (String × PluginFile)}
    (h : WritesOutput listing tool before) : SynthesisTruthful listing tool before := by
  intro run hreports
  obtain ⟨patcherIds, report, -, hbody⟩ := execute_success hreports
  obtain ⟨result, hrun, hsuccess, hvalid⟩ := runAndValidate_eq_ok_iff.mp ⟨report, hbody⟩
  obtain ⟨stdout, stderr, hends, hparsed, hleft, rfl⟩ :=
    runPipeline_success_iff.mp ⟨hrun, hsuccess⟩
  unfold WritesOutput at h
  rw [hends] at h
  obtain ⟨name, hname, hwritten⟩ := h rfl hparsed
  obtain ⟨file, hfile⟩ := exists_of_outputEsp hname
  have hisValid : file.content.isValid = true := by
    have hpicked := hvalid name hname
    rwa [hleft, hfile] at hpicked
  refine ⟨_, name, file, congrArg Prod.fst hrun, hname, by rw [hleft]; exact hfile, hisValid, ?_⟩
  exact (fresh_iff hfile).mpr (hwritten file hfile hisValid)

/-- **The plugin of a Synthesis run.**  Every success that `execute_pipeline` reports has a valid
plugin of this run if and only if the tool, when it succeeds, writes the plugin that the runner
finds. -/
theorem synthesisTruthful_iff (listing : Listing) (tool : SynthesisTool)
    (before : List (String × PluginFile)) :
    SynthesisTruthful listing tool before ↔ WritesOutput listing tool before :=
  ⟨writesOutput_of_truthful, truthful_of_writesOutput⟩

end SkyClaw.Tools
