import SkyClaw.Lib.Runs
import SkyClaw.Security.PurpleScanner
import Mathlib.Tactic.Linarith

/-!
# Scan verdicts

An audit cycle skips a file whose hash is on the whitelist or has a CLEAN row in the cache of
the governance manager, scans the others by their extension and stores what it found.
`verdictsSound_iff` says in which runs only content that the Python scanner has passed is
taken for a clean Python file.
-/

namespace SkyClaw.Security.ScanVerdicts

open PurpleScanner (Finding ParseError Node isPython scanPython runScan)
open TextInspector (Severity)

/-! ## Files and their scan -/

/-- What a scan is made with. -/
structure Tools (Bytes Digest : Type) where
  unicode : Unicode
  /-- `_hash_file_blocking`, of a file that can be read. -/
  digest : Bytes → Digest
  /-- The text of a file, `encoding="utf-8", errors="ignore"`. -/
  decode : Bytes → List Char
  parse : List Char → Except ParseError Node

/-- A file that a cycle comes to, as it is during the cycle, and what works on the way. -/
structure Visit (Bytes : Type) where
  path : String
  content : Bytes
  hashed : Bool := true
  /-- The lifecycle is set and the query of the cache succeeds. -/
  lookedUp : Bool := true
  opened : Bool := true
  /-- The scanner raises something that is no `SyntaxError`. -/
  scanRaises : Bool := false
  rehashed : Bool := true
  /-- The lifecycle is set and the row is written. -/
  stored : Bool := true

/-- `status` in the cache. -/
inductive Status
  | clean
  | suspicious
deriving DecidableEq, Repr

/-- The cache and the whitelist of the manager, and the content that the Python scanner has
passed. -/
structure State (Digest : Type) where
  cache : Digest → Option Status
  whitelist : List Digest
  passed : List Digest

/-- A manager with an empty cache. -/
def State.initial {Digest : Type} (whitelist : List Digest) : State Digest :=
  { cache := fun _ => none, whitelist := whitelist, passed := [] }

/-- How a cycle deals with a file. -/
inductive Outcome
  | skipped
  /-- An exception, which is logged. -/
  | failed
  | scanned (findings : List Finding)

variable {Bytes Digest : Type} [DecidableEq Digest] (tools : Tools Bytes Digest)

def ofText (f : TextInspector.Finding) : Finding :=
  { message := f.message, line := f.line, col := none, severity := f.severity
    confidence := f.confidence, file := f.file, matchedLine := none }

/-- `file_path.endswith((".md", ".txt"))`. -/
def isText (path : String) : Bool :=
  ".md".toList.isSuffixOf path.toList || ".txt".toList.isSuffixOf path.toList

/-- The scanner for the extension; none if it raises. -/
def scan (v : Visit Bytes) : Option (List Finding) :=
  let content := tools.decode v.content
  if isPython v.path then some (runScan tools.parse v.scanRaises content v.path)
  else if isText v.path then
    if v.scanRaises then none
    else some ((TextInspector.scanText tools.unicode content v.path).map ofText)
  else some []

section

variable (s : State Digest)

def isScannedAndClean (v : Visit Bytes) : Bool :=
  v.hashed && (s.whitelist.contains (tools.digest v.content) ||
    (v.lookedUp && s.cache (tools.digest v.content) == some .clean))

def updateScanResult (v : Visit Bytes) (status : Status) : State Digest :=
  if v.rehashed && v.stored then
    { s with cache := Function.update s.cache (tools.digest v.content) (some status) }
  else s

/-- The Python scanner goes through the content and finds nothing. -/
def passes (v : Visit Bytes) : Bool :=
  isPython v.path && v.opened &&
    (scanPython tools.parse v.scanRaises (tools.decode v.content) v.path).any List.isEmpty

/-- Keep in mind what the Python scanner has passed. -/
def State.withPass (v : Visit Bytes) : State Digest :=
  if passes tools v then { s with passed := tools.digest v.content :: s.passed } else s

/-- One file in `_phase_resolve`. -/
def resolveFile (v : Visit Bytes) : Outcome × State Digest :=
  if isScannedAndClean tools s v then (.skipped, s)
  else if v.opened then
    match scan tools v with
    | none => (.failed, s)
    | some findings =>
        let status := if findings.isEmpty then .clean else .suspicious
        (.scanned findings, (updateScanResult tools s v status).withPass tools v)
  else (.failed, s)

/-- What an outcome adds to the findings of the session. -/
def Outcome.findings : Outcome → List Finding
  | .scanned findings => findings
  | _ => []

/-- A call of the manager or a cycle. -/
inductive Activity (Bytes : Type)
  | cycle (visits : List (Visit Bytes))
  /-- `approve_file`, for a file that may be unreadable. -/
  | approveFile (content : Bytes) (hashed : Bool)

/-- The parts that activities consist of. -/
inductive Event (Bytes : Type)
  | visit (v : Visit Bytes)
  | approve (content : Bytes) (hashed : Bool)

def Activity.events : Activity Bytes → List (Event Bytes)
  | .cycle visits => visits.map .visit
  | .approveFile content hashed => [.approve content hashed]

def step : Event Bytes → Option (State Digest)
  | .visit v => some (resolveFile tools s v).2
  | .approve content hashed =>
      some (if hashed then { s with whitelist := tools.digest content :: s.whitelist } else s)

/-- The content of this hash was approved or passed by the Python scanner. -/
def Vetted (digest : Digest) : Prop :=
  digest ∈ s.whitelist ∨ digest ∈ s.passed

instance (s : State Digest) (digest : Digest) : Decidable (Vetted s digest) :=
  inferInstanceAs (Decidable (_ ∨ _))

/-- A file of this hash is skipped if it is looked at next. -/
def WouldSkip (digest : Digest) : Prop :=
  digest ∈ s.whitelist ∨ s.cache digest = some .clean

/-- Any Python file that would now be skipped is vetted, and so is a Python file to which the
cycle has just found nothing to object. -/
def VerdictSound (e : Event Bytes) (t : State Digest) : Prop :=
  (∀ digest, WouldSkip t digest → Vetted t digest) ∧
    ∀ v, e = .visit v → isPython v.path = true → (resolveFile tools s v).1.findings = [] →
      Vetted t (tools.digest v.content)

/-- The content is vetted already, or a Python scanner that raises nothing gets to see it, or
its clean verdict is not one of another scanner that is stored. -/
def Scrutinized : Event Bytes → Prop
  | .approve _ _ => True
  | .visit v =>
      Vetted s (tools.digest v.content) ∨
        if isPython v.path then
          v.opened = true ∧
            (scanPython tools.parse v.scanRaises (tools.decode v.content) v.path).isSome = true
        else ¬(v.opened = true ∧ v.rehashed = true ∧ v.stored = true ∧ scan tools v = some [])

/-! ## A step -/

def Sound : Prop := ∀ digest, WouldSkip s digest → Vetted s digest

end

omit [DecidableEq Digest] in
theorem sound_initial (whitelist : List Digest) : Sound (State.initial whitelist) := by
  rintro digest (h | h)
  · exact .inl h
  · cases h

variable {tools}

variable {s : State Digest} {v : Visit Bytes} {digest : Digest}

omit [DecidableEq Digest] in
theorem vetted_withPass :
    Vetted (s.withPass tools v) digest ↔
      Vetted s digest ∨ (passes tools v = true ∧ digest = tools.digest v.content) := by
  unfold State.withPass Vetted
  by_cases hpass : passes tools v = true
  · rw [if_pos hpass]
    simp only [List.mem_cons, hpass, true_and]
    tauto
  · rw [if_neg hpass]
    simp only [hpass]
    tauto

variable {status : Status}

theorem vetted_updateScanResult : Vetted (updateScanResult tools s v status) digest ↔ Vetted s digest := by
  unfold updateScanResult
  split <;> exact Iff.rfl

omit [DecidableEq Digest] in
theorem cache_withPass (s : State Digest) (v : Visit Bytes) :
    (s.withPass tools v).cache = s.cache := by
  unfold State.withPass
  split <;> rfl

/-- Another hash keeps its row; the hash of the file has the new one if it is stored. -/
theorem wouldSkip_update
    (h : WouldSkip ((updateScanResult tools s v status).withPass tools v) digest) :
    WouldSkip s digest ∨ (digest = tools.digest v.content ∧ status = .clean ∧
      v.rehashed = true ∧ v.stored = true) := by
  have hwhitelist : ((updateScanResult tools s v status).withPass tools v).whitelist =
      s.whitelist := by
    unfold State.withPass updateScanResult
    split <;> split <;> rfl
  rw [WouldSkip, hwhitelist, cache_withPass] at h
  rcases h with h | h
  · exact .inl (.inl h)
  · unfold updateScanResult at h
    split at h
    · rename_i hstored
      rw [Bool.and_eq_true] at hstored
      by_cases hdigest : digest = tools.digest v.content
      · subst hdigest
        dsimp only at h
        rw [Function.update_self] at h
        exact .inr ⟨rfl, Option.some.inj h, hstored⟩
      · dsimp only at h
        rw [Function.update_of_ne hdigest] at h
        exact .inl (.inr h)
    · exact .inl (.inr h)

theorem wouldSkip_of_scannedAndClean
    (h : isScannedAndClean tools s v = true) : WouldSkip s (tools.digest v.content) := by
  unfold isScannedAndClean at h
  rw [Bool.and_eq_true, Bool.or_eq_true, Bool.and_eq_true, List.contains_iff_mem, beq_iff_eq] at h
  exact h.2.imp_right And.right

omit [DecidableEq Digest] in
theorem scan_of_isPython (h : isPython v.path = true) :
    scan tools v =
      some ((scanPython tools.parse v.scanRaises (tools.decode v.content) v.path).getD []) := by
  unfold scan
  dsimp only
  rw [if_pos h, PurpleScanner.runScan_of_isPython h]

omit [DecidableEq Digest] in
theorem passes_iff :
    passes tools v = true ↔ isPython v.path = true ∧ v.opened = true ∧
      scanPython tools.parse v.scanRaises (tools.decode v.content) v.path = some [] := by
  unfold passes
  rw [Bool.and_eq_true, Bool.and_eq_true, and_assoc]
  refine and_congr_right fun _ => and_congr_right fun _ => ?_
  cases scanPython tools.parse v.scanRaises (tools.decode v.content) v.path with
  | none | some => simp

theorem resolveFile_cases (tools : Tools Bytes Digest) (s : State Digest) (v : Visit Bytes) :
    (WouldSkip s (tools.digest v.content) ∧ resolveFile tools s v = (.skipped, s)) ∨
      ((v.opened = false ∨ scan tools v = none) ∧ resolveFile tools s v = (.failed, s)) ∨
      ∃ findings, v.opened = true ∧ scan tools v = some findings ∧
        resolveFile tools s v = (.scanned findings,
          (updateScanResult tools s v (if findings.isEmpty then .clean else .suspicious)).withPass
            tools v) := by
  unfold resolveFile
  by_cases hclean : isScannedAndClean tools s v = true
  · exact .inl ⟨wouldSkip_of_scannedAndClean hclean, by rw [if_pos hclean]⟩
  · rw [if_neg hclean]
    right
    by_cases hopened : v.opened = true
    · rw [if_pos hopened]
      cases hscan : scan tools v with
      | none => exact .inl ⟨.inr rfl, rfl⟩
      | some findings => exact .inr ⟨findings, hopened, rfl, rfl⟩
    · rw [if_neg hopened]
      exact .inl ⟨.inl (Bool.not_eq_true _ ▸ hopened), rfl⟩

theorem vetted_scanned :
    Vetted ((updateScanResult tools s v status).withPass tools v) digest ↔
      Vetted s digest ∨ (passes tools v = true ∧ digest = tools.digest v.content) := by
  rw [vetted_withPass, vetted_updateScanResult]

theorem wouldSkip_scanned (hrehashed : v.rehashed = true)
    (hstored : v.stored = true) :
    WouldSkip ((updateScanResult tools s v .clean).withPass tools v)
      (tools.digest v.content) := by
  right
  rw [cache_withPass, updateScanResult, hrehashed, hstored, Bool.and_self, if_pos rfl]
  exact Function.update_self _ _ _

theorem scrutinized_of_verdictSound (hs : Sound s)
    (h : VerdictSound tools s (.visit v) (resolveFile tools s v).2) :
    Scrutinized tools s (.visit v) := by
  obtain ⟨hskips, hvisit⟩ := h
  by_cases hvetted : Vetted s (tools.digest v.content)
  · exact .inl hvetted
  right
  have hpasses : ∀ status, Vetted ((updateScanResult tools s v status).withPass tools v)
      (tools.digest v.content) → passes tools v = true := by
    intro status hnew
    rcases vetted_scanned.mp hnew with hold | ⟨hpass, _⟩
    · exact absurd hold hvetted
    · exact hpass
  rcases resolveFile_cases tools s v with
    ⟨hskip, _⟩ | ⟨hfailed, heq⟩ | ⟨findings, hopened, hscan, heq⟩
  · exact absurd (hs _ hskip) hvetted
  · rw [heq] at hvisit
    by_cases hpython : isPython v.path = true
    · exact absurd (hvisit v rfl hpython (by rw [heq]; rfl)) hvetted
    · rw [if_neg hpython]
      rintro ⟨hopened, _, _, hscan⟩
      rcases hfailed with hclosed | hnone
      · rw [hclosed] at hopened
        exact Bool.false_ne_true hopened
      · rw [hnone] at hscan
        cases hscan
  · rw [heq] at hskips hvisit
    by_cases hpython : isPython v.path = true
    · rw [if_pos hpython]
      refine ⟨hopened, ?_⟩
      by_contra hraised
      rw [Bool.not_eq_true, Option.isSome_eq_false_iff, Option.isNone_iff_eq_none] at hraised
      -- what was raised is an empty list of findings
      rw [scan_of_isPython hpython, hraised] at hscan
      cases hscan
      have hpass := (passes_iff.mp (hpasses _ (hvisit v rfl hpython (by rw [heq]; rfl)))).2.2
      rw [hraised] at hpass
      cases hpass
    · rw [if_neg hpython]
      rintro ⟨_, hrehashed, hstored, hempty⟩
      rw [hscan] at hempty
      cases hempty
      have hpass := hpasses _ (hskips _ (wouldSkip_scanned hrehashed hstored))
      exact hpython (passes_iff.mp hpass).1

theorem verdictSound_of_scrutinized (hs : Sound s)
    (h : Scrutinized tools s (.visit v)) :
    VerdictSound tools s (.visit v) (resolveFile tools s v).2 := by
  rcases resolveFile_cases tools s v with
    ⟨hskip, heq⟩ | ⟨hfailed, heq⟩ | ⟨findings, hopened, hscan, heq⟩
  · rw [VerdictSound, heq]
    refine ⟨hs, ?_⟩
    rintro w hw _ _
    cases hw
    exact hs _ hskip
  · rw [VerdictSound, heq]
    refine ⟨hs, ?_⟩
    rintro w hw hpython _
    cases hw
    rcases h with hvetted | h
    · exact hvetted
    · rw [if_pos hpython] at h
      rcases hfailed with hclosed | hnone
      · rw [hclosed] at h
        exact absurd h.1 Bool.false_ne_true
      · rw [scan_of_isPython hpython] at hnone
        cases hnone
  · -- a scan without findings is one that the Python scanner has made, or is not kept
    have hempty : findings = [] → Vetted s (tools.digest v.content) ∨
        passes tools v = true ∨ (isPython v.path ≠ true ∧
          ¬(v.rehashed = true ∧ v.stored = true)) := by
      rintro rfl
      rcases h with hvetted | h
      · exact .inl hvetted
      · right
        by_cases hpython : isPython v.path = true
        · left
          rw [if_pos hpython] at h
          obtain ⟨found, hfound⟩ := Option.isSome_iff_exists.mp h.2
          rw [scan_of_isPython hpython, hfound] at hscan
          cases hscan
          exact passes_iff.mpr ⟨hpython, hopened, hfound⟩
        · right
          rw [if_neg hpython] at h
          exact ⟨hpython, fun hkept => h ⟨hopened, hkept.1, hkept.2, hscan⟩⟩
    rw [VerdictSound, heq]
    constructor
    · intro digest hskip
      rw [vetted_scanned]
      rcases wouldSkip_update hskip with hold | ⟨rfl, hclean, hkept⟩
      · exact .inl (hs digest hold)
      · have hnone : findings = [] := by
          by_contra hsome
          rw [if_neg (by simpa using hsome)] at hclean
          cases hclean
        rcases hempty hnone with hvetted | hpass | ⟨_, hnotKept⟩
        · exact .inl hvetted
        · exact .inr ⟨hpass, rfl⟩
        · exact absurd hkept hnotKept
    · rintro w hw hpython hnone
      cases hw
      rw [heq] at hnone
      rw [vetted_scanned]
      rcases hempty hnone with hvetted | hpass | ⟨hother, _⟩
      · exact .inl hvetted
      · exact .inr ⟨hpass, rfl⟩
      · exact absurd hpython hother

theorem verdictSound_step_iff {t : State Digest} {e : Event Bytes} (hs : Sound s)
    (hstep : step tools s e = some t) :
    VerdictSound tools s e t ↔ Scrutinized tools s e := by
  cases e with
  | visit v =>
      cases hstep
      exact ⟨scrutinized_of_verdictSound hs, verdictSound_of_scrutinized hs⟩
  | approve content hashed =>
      cases hstep
      refine iff_of_true ⟨?_, fun v hv => by cases hv⟩ trivial
      intro digest hskip
      cases hashed with
      | false => exact hs digest hskip
      | true =>
          rcases hskip with hnew | hcached
          · exact .inl hnew
          · exact (hs digest (.inr hcached)).imp_left (List.mem_cons_of_mem _)

variable (tools)

/-- **Exactly when the verdicts are sound.**  In a run of cycles and approvals from an empty
cache, the verdicts are sound at every step exactly when every file is scrutinized: its content
is vetted, or a Python file is opened and its scan raises nothing, or the scan of another file
leaves no clean row. -/
theorem verdictsSound_iff (whitelist : List Digest) (activities : List (Activity Bytes)) :
    Runs.Always (step tools) (VerdictSound tools) (State.initial whitelist)
        (activities.flatMap Activity.events) ↔
      Runs.Always (step tools) (fun s e _ => Scrutinized tools s e) (State.initial whitelist)
        (activities.flatMap Activity.events) := by
  refine Runs.always_iff_of_guarded (I := Sound) ?_ ?_ (sound_initial whitelist) _
  · intro s e t hs hstep hscrutinized
    exact ((verdictSound_step_iff hs hstep).mpr hscrutinized).1
  · intro s e t hs hstep
    exact verdictSound_step_iff hs hstep

/-- Tools that know two programs: `eval(x)`, and one with a null byte, which is not parsed. -/
def sampleTools : Tools String String where
  unicode := Unicode.basic
  digest content := content
  decode content := content.toList
  parse code :=
    if code = "eval(x)".toList then
      .ok (.other [.other [.call (.name "eval") [.name "x"] [] 1 0]])
    else .error .other

/-- A program that was looked at as a text is skipped when it comes as a Python file, and one
that cannot be parsed has no findings. -/
theorem verdictsSound_counterexample :
    ¬Runs.Always (step sampleTools) (VerdictSound sampleTools) (State.initial [])
        ([.cycle [{ path := "mod/notes.md", content := "eval(x)" }],
          .cycle [{ path := "mod/evil.py", content := "eval(x)" }]].flatMap Activity.events) ∧
      ¬Runs.Always (step sampleTools) (VerdictSound sampleTools) (State.initial [])
        ([.cycle [{ path := "mod/evil.py", content := "\x00" }]].flatMap Activity.events) := by
  constructor
  · intro h
    obtain ⟨_, hrest⟩ := h _ rfl
    obtain ⟨⟨_, hvisit⟩, _⟩ := hrest _ rfl
    have hvetted := hvisit _ rfl (by decide) (List.isEmpty_iff.mp (by decide))
    exact absurd hvetted (by decide)
  · intro h
    obtain ⟨⟨_, hvisit⟩, _⟩ := h _ rfl
    have hvetted := hvisit _ rfl (by decide) (List.isEmpty_iff.mp (by decide))
    exact absurd hvetted (by decide)

end SkyClaw.Security.ScanVerdicts
