import SkyClaw.Lib.PartialMap
import SkyClaw.Lib.Runs

/-!
# The gate in front of destructive tools

`HitlGateMiddleware` with any number of tool executions and `resolve` calls.  The gate
keeps two maps: the events it waits for and the decisions it has been told.
`gateSound_iff` says when a tool runs only on the operator's first word and nothing
stays behind in either map.
-/

namespace SkyClaw.Orchestrator.HitlGate

open Function

/-! ## The gate -/

def destructiveToolPatterns : List String :=
  ["execute_loot_sorting", "generate_bashed_patch", "generate_lods", "resolve_conflict_patch"]

/-- What the gate is constructed with; `timeoutText` is the timeout as printed. -/
structure GateSettings where
  notifies : Bool
  timeoutText : String
  destructiveTools : List String

section

variable (settings : GateSettings)

/-- `destructive_tools or DESTRUCTIVE_TOOL_PATTERNS`. -/
def GateSettings.tools : List String :=
  if settings.destructiveTools = [] then destructiveToolPatterns else settings.destructiveTools

/-- The error dict of a refused execution. -/
structure Refusal where
  reason : String
  details : String
deriving DecidableEq

def Refusal.timeout (toolName : String) : Refusal :=
  { reason := "HITLApprovalTimeout"
    details := "Human approval timed out for '" ++ toolName ++ "' after " ++
      settings.timeoutText ++ "s." }

def Refusal.denied (toolName : String) : Refusal :=
  { reason := "HITLApprovalDenied"
    details := "Human operator denied execution of '" ++ toolName ++ "'." }

/-- How a gated execution ended. -/
inductive GateEnd
  | refused (refusal : Refusal)
  /-- `next_call` ended, in any way. -/
  | ran
  /-- The notifier raised, or the execution was cancelled before the tool ran. -/
  | raised
deriving DecidableEq

/-- Where an execution is. -/
inductive GatePhase
  | notifying
  | waiting
  /-- In `next_call`; `seen` answers had been given when the decision was taken. -/
  | running (seen : Nat)
  | finished (ended : GateEnd)
deriving DecidableEq

/-- An execution the gate holds up. -/
structure Execution where
  toolName : String
  requestId : String
  event : Bool
  phase : GatePhase
deriving DecidableEq

/-- The two maps, the executions, those let through without a gate, the ids that
`uuid4` has given, and all answers for an id, the first one first. -/
structure Gate where
  pending : String → Option Nat
  decisions : String → Option Bool
  execution : Nat → Option Execution
  passed : Nat → Bool
  issued : List String
  answers : String → List Bool

def Gate.initial : Gate :=
  ⟨fun _ => none, fun _ => none, fun _ => none, fun _ => false, [], fun _ => []⟩

inductive NotifyEnd
  | returns
  | raises
  | cancelled

/-- How `asyncio.wait_for` ends; the timeout may win although the event is set. -/
inductive WaitEnd
  | decided
  | timesOut
  | cancelled

inductive Action
  /-- `__call__`; `requestId` is what `uuid4` gives. -/
  | execute (w : Nat) (toolName requestId : String)
  | notifyEnds (w : Nat) (ended : NotifyEnd)
  | wakes (w : Nat) (ended : WaitEnd)
  | finishes (w : Nat)
  | resolve (requestId : String) (approved : Bool)

def Gate.moveTo (s : Gate) (w : Nat) (e : Execution) (phase : GatePhase) : Gate :=
  { s with execution := update s.execution w (some { e with phase := phase }) }

/-- `__call__`, up to its first wait. -/
def Gate.execute (s : Gate) (w : Nat) (toolName requestId : String) :
    Gate :=
  if toolName ∈ settings.tools ∧ settings.notifies = true then
    { s with
      pending := update s.pending requestId (some w)
      execution := update s.execution w
        (some ⟨toolName, requestId, false, .notifying⟩)
      issued := requestId :: s.issued }
  else
    -- Not destructive, or no notifier: `return await next_call()`.
    { s with passed := update s.passed w true }

/-- The notifier is awaited outside the `try`: nothing is popped when it raises. -/
def Gate.notifyEnds (s : Gate) (w : Nat) (e : Execution) : NotifyEnd → Gate
  | .returns => s.moveTo w e .waiting
  | .raises | .cancelled => s.moveTo w e (.finished .raised)

/-- The `finally` clause of the wait. -/
def Gate.popPending (s : Gate) (requestId : String) : Gate :=
  { s with pending := update s.pending requestId none }

/-- From the wait to the tool, or out. -/
def Gate.wakes (s : Gate) (w : Nat) (e : Execution) :
    WaitEnd → Option Gate
  | .decided =>
      if e.event then
        let t := s.popPending e.requestId
        -- `_decisions.pop(request_id, False)`: the last answer counts.
        let u := { t with decisions := update s.decisions e.requestId none }
        some (u.moveTo w e
          (if (s.decisions e.requestId).getD false then
            .running (s.answers e.requestId).length
          else .finished (.refused (Refusal.denied e.toolName))))
      else none
  | .timesOut =>
      some ((s.popPending e.requestId).moveTo w e
        (.finished (.refused (Refusal.timeout settings e.toolName))))
  | .cancelled => some ((s.popPending e.requestId).moveTo w e (.finished .raised))

def Gate.resolve (s : Gate) (requestId : String) (approved : Bool) : Gate :=
  -- The decision is stored whether or not anybody waits for it.
  let t := { s with
    decisions := update s.decisions requestId (some approved)
    answers := update s.answers requestId (s.answers requestId ++ [approved]) }
  match s.pending requestId with
  | none => t
  | some w =>
      { t with
        execution := update s.execution w
          ((s.execution w).map fun e => { e with event := true }) }

/-- One step; `uuid4` does not repeat itself. -/
def step (s : Gate) : Action → Option Gate
  | .execute w toolName requestId =>
      if (s.execution w).isNone ∧ s.passed w = false ∧ requestId ∉ s.issued then
        some (s.execute settings w toolName requestId)
      else none
  | .notifyEnds w ended =>
      (s.execution w).bind fun e =>
        if e.phase = .notifying then some (s.notifyEnds w e ended) else none
  | .wakes w ended =>
      (s.execution w).bind fun e => if e.phase = .waiting then s.wakes settings w e ended else none
  | .finishes w =>
      (s.execution w).bind fun e =>
        match e.phase with
        | .running _ => some (s.moveTo w e (.finished .ran))
        | .notifying | .waiting | .finished _ => none
  | .resolve requestId approved => some (s.resolve requestId approved)

end

def GatePhase.isOver : GatePhase → Bool
  | .finished _ => true
  | .notifying | .waiting | .running _ => false

/-- The tool was started. -/
def GatePhase.hasRun : GatePhase → Bool
  | .running _ | .finished .ran => true
  | .notifying | .waiting | .finished (.refused _) | .finished .raised => false

/-- A gated tool runs only if the first answer was yes, and an execution that is over has
left nothing in the maps. -/
def GateSound (s : Gate) : Prop :=
  ∀ w e, s.execution w = some e →
    (e.phase.hasRun = true → (s.answers e.requestId).head? = some true) ∧
      (e.phase.isOver = true → s.pending e.requestId = none ∧ s.decisions e.requestId = none)

/-- The condition on a step.  Nobody answers an execution that is over; the notifier
returns; a wait that times out or is cancelled was not answered; the last answer is no
yes after a no; and nobody answers while the tool runs. -/
def Orderly (s : Gate) (act : Action) (_t : Gate) : Prop :=
  match act with
  | .execute _ _ _ | .notifyEnds _ .returns => True
  | .notifyEnds _ .raises | .notifyEnds _ .cancelled => False
  | .wakes w .decided => ∀ e, s.execution w = some e →
      (s.answers e.requestId).getLast? = some true → (s.answers e.requestId).head? = some true
  | .wakes w .timesOut | .wakes w .cancelled => ∀ e, s.execution w = some e →
      s.answers e.requestId = []
  | .finishes w => ∀ e seen, s.execution w = some e → e.phase = .running seen →
      (s.answers e.requestId).length = seen
  | .resolve requestId _ => ∀ w e, s.execution w = some e → e.requestId = requestId →
      e.phase.isOver = false

/-! ## The invariant -/

/-- Where the two maps stand for an execution: while it waits the decision is the last
answer, afterwards there is one only if it was answered again. -/
def Execution.Fits (s : Gate) (w : Nat) (e : Execution) : Prop :=
  match e.phase with
  | .notifying | .waiting =>
      s.pending e.requestId = some w ∧
        s.decisions e.requestId = (s.answers e.requestId).getLast? ∧
        (e.event = true → s.answers e.requestId ≠ [])
  | .running seen =>
      s.pending e.requestId = none ∧ seen ≤ (s.answers e.requestId).length ∧
        s.decisions e.requestId = ((s.answers e.requestId).drop seen).getLast? ∧
        (s.answers e.requestId).head? = some true
  | .finished ended =>
      s.pending e.requestId = none ∧ s.decisions e.requestId = none ∧
        (ended = .ran → (s.answers e.requestId).head? = some true)

structure Gate.Sound (s : Gate) : Prop where
  issued : ∀ w e, s.execution w = some e → e.requestId ∈ s.issued
  unique : ∀ w w' e e', s.execution w = some e → s.execution w' = some e' →
    e.requestId = e'.requestId → w = w'
  free : ∀ id, id ∉ s.issued → s.pending id = none ∧ s.decisions id = (s.answers id).getLast?
  pending : ∀ id w, s.pending id = some w → ∃ e, s.execution w = some e ∧ e.requestId = id
  fits : ∀ w e, s.execution w = some e → e.Fits s w

theorem sound_initial : Gate.initial.Sound where
  issued _ _ hexecution := nomatch hexecution
  unique _ _ _ _ hexecution := nomatch hexecution
  free _ _ := ⟨rfl, rfl⟩
  pending _ _ hpending := nomatch hpending
  fits _ _ hexecution := nomatch hexecution

section Invariant

variable {settings : GateSettings} {s t : Gate} {w : Nat} {e : Execution}

theorem Execution.Fits.congr (h : e.Fits s w) (hpending : t.pending e.requestId = s.pending e.requestId)
    (hdecisions : t.decisions e.requestId = s.decisions e.requestId)
    (hanswers : t.answers e.requestId = s.answers e.requestId) : e.Fits t w := by
  unfold Execution.Fits at h ⊢
  rw [hpending, hdecisions, hanswers]
  exact h

theorem Gate.Sound.gateSound (h : s.Sound) : GateSound s := by
  intro w e hexecution
  have hfits := h.fits w e hexecution
  unfold Execution.Fits at hfits
  cases hphase : e.phase with
  | notifying | waiting => exact ⟨nofun, nofun⟩
  | running seen =>
      rw [hphase] at hfits
      exact ⟨fun _ => hfits.2.2.2, nofun⟩
  | finished ended =>
      rw [hphase] at hfits
      refine ⟨fun hrun => hfits.2.2 ?_, fun _ => ⟨hfits.1, hfits.2.1⟩⟩
      cases ended with
      | ran => rfl
      | refused | raised => cases hrun

variable {e' : Execution}

/-- An execution moves on; the maps change at its own id only. -/
theorem sound_move (h : s.Sound) (hexecution : s.execution w = some e)
    (hid : e'.requestId = e.requestId) {pending : String → Option Nat}
    {decisions : String → Option Bool}
    (hpending : ∀ id, id ≠ e.requestId → pending id = s.pending id)
    (hdecisions : ∀ id, id ≠ e.requestId → decisions id = s.decisions id)
    (hown : ∀ w', pending e.requestId = some w' → w' = w)
    (hfits : e'.Fits { s with pending := pending, decisions := decisions } w) :
    ({ s with
        pending := pending
        decisions := decisions
        execution := update s.execution w (some e') } : Gate).Sound := by
  have hforeign : ∀ w' d, w' ≠ w → s.execution w' = some d → d.requestId ≠ e.requestId :=
    fun w' d hw hd hsame => hw (h.unique w' w d e hd hexecution hsame)
  have hids : ∀ w' d, update s.execution w (some e') w' = some d →
      ∃ d', s.execution w' = some d' ∧ d'.requestId = d.requestId := by
    intro w' d hd
    rcases PartialMap.update_some_eq_some_iff.mp hd with ⟨rfl, rfl⟩ | ⟨-, hold⟩
    · exact ⟨e, hexecution, hid.symm⟩
    · exact ⟨d, hold, rfl⟩
  constructor
  · intro w' d hd
    obtain ⟨d', hd', hsame⟩ := hids w' d hd
    exact hsame ▸ h.issued w' d' hd'
  · intro w₁ w₂ d₁ d₂ hd₁ hd₂ hsame
    obtain ⟨d₁', hd₁', hsame₁⟩ := hids w₁ d₁ hd₁
    obtain ⟨d₂', hd₂', hsame₂⟩ := hids w₂ d₂ hd₂
    exact h.unique w₁ w₂ d₁' d₂' hd₁' hd₂' (hsame₁.trans (hsame.trans hsame₂.symm))
  · intro id hfree
    have hne : id ≠ e.requestId := by
      rintro rfl
      exact hfree (h.issued w e hexecution)
    obtain ⟨hnone, hlast⟩ := h.free id hfree
    exact ⟨(hpending id hne).trans hnone, (hdecisions id hne).trans hlast⟩
  · intro id w' hid'
    by_cases hsame : id = e.requestId
    · subst hsame
      obtain rfl := hown w' hid'
      exact ⟨e', update_self _ _ _, hid⟩
    · obtain ⟨d, hd, hdid⟩ := h.pending id w' ((hpending id hsame).symm.trans hid')
      have hw : w' ≠ w := by
        rintro rfl
        cases hexecution.symm.trans hd
        exact hsame hdid.symm
      exact ⟨d, (update_of_ne hw _ _).trans hd, hdid⟩
  · intro w' d hd
    rcases PartialMap.update_some_eq_some_iff.mp hd with ⟨rfl, rfl⟩ | ⟨hw, hold⟩
    · exact hfits.congr rfl rfl rfl
    · have hne := hforeign w' d hw hold
      exact (h.fits w' d hold).congr (hpending _ hne) (hdecisions _ hne) rfl

variable {requestId : String}

theorem sound_execute (h : s.Sound) (hnew : s.execution w = none) {toolName : String}
    (hfresh : requestId ∉ s.issued) : (s.execute settings w toolName requestId).Sound := by
  unfold Gate.execute
  by_cases hgated : toolName ∈ settings.tools ∧ settings.notifies = true
  · rw [if_pos hgated]
    obtain ⟨hnone, hlast⟩ := h.free requestId hfresh
    have hneid : ∀ w' d, s.execution w' = some d → d.requestId ≠ requestId := by
      rintro w' d hd rfl
      exact hfresh (h.issued w' d hd)
    constructor
    · intro w' d hd
      rcases PartialMap.update_some_eq_some_iff.mp hd with ⟨rfl, rfl⟩ | ⟨-, hold⟩
      · exact List.mem_cons_self
      · exact List.mem_cons_of_mem _ (h.issued w' d hold)
    · intro w₁ w₂ d₁ d₂ hd₁ hd₂ hsame
      rcases PartialMap.update_some_eq_some_iff.mp hd₁ with ⟨rfl, rfl⟩ | ⟨-, hold₁⟩
      · rcases PartialMap.update_some_eq_some_iff.mp hd₂ with ⟨rfl, -⟩ | ⟨-, hold₂⟩
        · rfl
        · exact absurd hsame.symm (hneid w₂ d₂ hold₂)
      · rcases PartialMap.update_some_eq_some_iff.mp hd₂ with ⟨rfl, rfl⟩ | ⟨-, hold₂⟩
        · exact absurd hsame (hneid w₁ d₁ hold₁)
        · exact h.unique w₁ w₂ d₁ d₂ hold₁ hold₂ hsame
    · intro id hfree
      have hne : id ≠ requestId := by
        rintro rfl
        exact hfree List.mem_cons_self
      obtain ⟨hidnone, hidlast⟩ := h.free id fun hmem => hfree (List.mem_cons_of_mem _ hmem)
      exact ⟨(update_of_ne hne _ _).trans hidnone, hidlast⟩
    · intro id w' hid
      rcases PartialMap.update_some_eq_some_iff.mp hid with ⟨rfl, rfl⟩ | ⟨-, hold⟩
      · exact ⟨_, update_self _ _ _, rfl⟩
      · obtain ⟨d, hd, hdid⟩ := h.pending id w' hold
        have hw : w' ≠ w := by
          rintro rfl
          rw [hnew] at hd
          cases hd
        exact ⟨d, (update_of_ne hw _ _).trans hd, hdid⟩
    · intro w' d hd
      rcases PartialMap.update_some_eq_some_iff.mp hd with ⟨rfl, rfl⟩ | ⟨-, hold⟩
      · exact ⟨update_self _ _ _, hlast, nofun⟩
      · exact (h.fits w' d hold).congr (update_of_ne (hneid w' d hold) _ _) rfl rfl
  · rw [if_neg hgated]
    exact ⟨h.issued, h.unique, h.free, h.pending, fun w' d hd => (h.fits w' d hd).congr rfl rfl rfl⟩

theorem resolve_maps (s : Gate) (requestId : String) (approved : Bool) :
    (s.resolve requestId approved).pending = s.pending ∧
      (s.resolve requestId approved).decisions =
        update s.decisions requestId (some approved) ∧
      (s.resolve requestId approved).answers =
        update s.answers requestId (s.answers requestId ++ [approved]) ∧
      (s.resolve requestId approved).issued = s.issued := by
  unfold Gate.resolve
  cases s.pending requestId with
  | none | some => exact ⟨rfl, rfl, rfl, rfl⟩

variable {approved : Bool}

theorem resolve_execution (h : s.Sound)
    (hafter : (s.resolve requestId approved).execution w = some e') :
    ∃ e, s.execution w = some e ∧ e'.requestId = e.requestId ∧ e'.phase = e.phase ∧
      (e.requestId ≠ requestId → e' = e) := by
  unfold Gate.resolve at hafter
  cases hpending : s.pending requestId with
  | none =>
      simp only [hpending] at hafter
      exact ⟨e', hafter, rfl, rfl, fun _ => rfl⟩
  | some w' =>
      obtain ⟨e, hexecution, hid⟩ := h.pending requestId w' hpending
      simp only [hpending, hexecution, Option.map_some] at hafter
      by_cases hw : w = w'
      · subst hw
        rw [update_self] at hafter
        cases hafter
        exact ⟨e, hexecution, rfl, rfl, fun hne => absurd hid hne⟩
      · rw [update_of_ne hw] at hafter
        exact ⟨e', hafter, rfl, rfl, fun _ => rfl⟩

theorem resolve_execution_some
    (hexecution : s.execution w = some e) :
    ∃ e', (s.resolve requestId approved).execution w = some e' ∧
      e'.requestId = e.requestId ∧ e'.phase = e.phase := by
  unfold Gate.resolve
  cases s.pending requestId with
  | none => exact ⟨e, hexecution, rfl, rfl⟩
  | some w' =>
      by_cases hw : w = w'
      · subst hw
        simp only [hexecution, Option.map_some, update_self]
        exact ⟨_, rfl, rfl, rfl⟩
      · simp only [update_of_ne hw]
        exact ⟨e, hexecution, rfl, rfl⟩

theorem sound_resolve (h : s.Sound)
    (hcond : ∀ w e, s.execution w = some e → e.requestId = requestId → e.phase.isOver = false) :
    (s.resolve requestId approved).Sound := by
  obtain ⟨hpending, hdecisions, hanswers, hissued⟩ := resolve_maps s requestId approved
  have hother : ∀ id, id ≠ requestId →
      (s.resolve requestId approved).decisions id = s.decisions id ∧
        (s.resolve requestId approved).answers id = s.answers id := by
    intro id hid
    rw [hdecisions, hanswers]
    exact ⟨update_of_ne hid _ _, update_of_ne hid _ _⟩
  have hown : (s.resolve requestId approved).decisions requestId = some approved ∧
      (s.resolve requestId approved).answers requestId = s.answers requestId ++ [approved] := by
    rw [hdecisions, hanswers]
    exact ⟨update_self _ _ _, update_self _ _ _⟩
  constructor
  · intro w' d' hd'
    obtain ⟨d, hd, hid, -⟩ := resolve_execution h hd'
    rw [hissued, hid]
    exact h.issued w' d hd
  · intro w₁ w₂ d₁' d₂' hd₁' hd₂' hsame
    obtain ⟨d₁, hd₁, hid₁, -⟩ := resolve_execution h hd₁'
    obtain ⟨d₂, hd₂, hid₂, -⟩ := resolve_execution h hd₂'
    exact h.unique w₁ w₂ d₁ d₂ hd₁ hd₂ (hid₁.symm.trans (hsame.trans hid₂))
  · intro id hfree
    rw [hissued] at hfree
    obtain ⟨hnone, hlast⟩ := h.free id hfree
    rw [hpending]
    refine ⟨hnone, ?_⟩
    by_cases hid : id = requestId
    · subst hid
      rw [hown.1, hown.2, List.getLast?_concat]
    · rw [(hother id hid).1, (hother id hid).2]
      exact hlast
  · intro id w' hid
    rw [hpending] at hid
    obtain ⟨d, hd, hdid⟩ := h.pending id w' hid
    obtain ⟨d', hd', hsame, -⟩ := @resolve_execution_some s w' d requestId approved hd
    exact ⟨d', hd', hsame.trans hdid⟩
  · intro w' d' hd'
    obtain ⟨d, hd, hid, hphase, hunchanged⟩ := resolve_execution h hd'
    have hfits := h.fits w' d hd
    by_cases hsame : d.requestId = requestId
    · have hlive := hcond w' d hd hsame
      unfold Execution.Fits at hfits ⊢
      rw [hphase, hid, hpending]
      rw [hsame] at hfits ⊢
      rw [hown.1, hown.2, List.getLast?_concat]
      cases hcase : d.phase with
      | notifying | waiting =>
          rw [hcase] at hfits
          exact ⟨hfits.1, rfl, fun _ => by simp⟩
      | running seen =>
          rw [hcase] at hfits
          obtain ⟨hnone, hseen, -, hhead⟩ := hfits
          refine ⟨hnone, ?_, ?_, ?_⟩
          · rw [List.length_append]
            omega
          · rw [List.drop_append_of_le_length hseen, List.getLast?_concat]
          · cases hanswered : s.answers requestId with
            | nil =>
                rw [hanswered] at hhead
                cases hhead
            | cons first rest =>
                rw [hanswered] at hhead
                exact hhead
      | finished ended =>
          rw [hcase] at hlive
          cases hlive
    · obtain rfl := hunchanged hsame
      exact hfits.congr (by rw [hpending]) (hother _ hsame).1 (hother _ hsame).2

theorem sound_notifyEnds (h : s.Sound) (hexecution : s.execution w = some e)
    (hnotifying : e.phase = .notifying) : (s.notifyEnds w e .returns).Sound := by
  have hfits := h.fits w e hexecution
  unfold Execution.Fits at hfits
  rw [hnotifying] at hfits
  refine sound_move h hexecution ?_ (fun _ _ => rfl) (fun _ _ => rfl) ?_ ?_
  · rfl
  · intro w' hw'
    exact (Option.some.inj (hfits.1.symm.trans hw')).symm
  · exact hfits

/-- The wait is over; the id is in no map, and a tool that runs was allowed at once. -/
theorem sound_wakes (h : s.Sound) (hexecution : s.execution w = some e)
    (hwaiting : e.phase = .waiting) {ended : WaitEnd}
    (hcond : Orderly s (.wakes w ended) t) (hstep : s.wakes settings w e ended = some t) :
    t.Sound := by
  have hfits := h.fits w e hexecution
  unfold Execution.Fits at hfits
  rw [hwaiting] at hfits
  obtain ⟨-, hdecision, hanswered⟩ := hfits
  have hpopped : update s.pending e.requestId none e.requestId = none :=
    update_self _ _ _
  have hforeign : ∀ id, id ≠ e.requestId →
      update s.pending e.requestId none id = s.pending id :=
    fun id hid => update_of_ne hid _ _
  have hown : ∀ w', update s.pending e.requestId none e.requestId = some w' → w' = w := by
    intro w' hw'
    rw [hpopped] at hw'
    cases hw'
  cases ended with
  | decided =>
      simp only [Gate.wakes] at hstep
      split at hstep
      · rename_i hset
        cases hstep
        have htaken : update s.decisions e.requestId none e.requestId = none :=
          update_self _ _ _
        have hothers : ∀ id, id ≠ e.requestId →
            update s.decisions e.requestId none id = s.decisions id :=
          fun id hid => update_of_ne hid _ _
        refine sound_move h hexecution ?_ hforeign hothers hown ?_
        · rfl
        · unfold Execution.Fits
          by_cases hyes : (s.decisions e.requestId).getD false = true
          · have hlast : (s.answers e.requestId).getLast? = some true := by
              rw [← hdecision]
              cases hvalue : s.decisions e.requestId with
              | none =>
                  rw [hvalue] at hyes
                  cases hyes
              | some value =>
                  rw [hvalue] at hyes
                  exact congrArg some hyes
            simp only [if_pos hyes]
            refine ⟨hpopped, Nat.le_refl _, ?_, hcond e hexecution hlast⟩
            rw [List.drop_length]
            exact htaken
          · simp only [if_neg hyes]
            exact ⟨hpopped, htaken, nofun⟩
      · cases hstep
  | timesOut | cancelled =>
      cases hstep
      refine sound_move h hexecution ?_ hforeign (fun _ _ => rfl) hown ?_
      · rfl
      · refine ⟨hpopped, ?_, nofun⟩
        show s.decisions e.requestId = none
        rw [hdecision, hcond e hexecution]
        rfl

theorem sound_finishes (h : s.Sound) (hexecution : s.execution w = some e) {seen : Nat}
    (hrunning : e.phase = .running seen) (hquiet : (s.answers e.requestId).length = seen) :
    (s.moveTo w e (.finished .ran)).Sound := by
  have hfits := h.fits w e hexecution
  unfold Execution.Fits at hfits
  rw [hrunning] at hfits
  obtain ⟨hnone, -, hdecision, hhead⟩ := hfits
  refine sound_move h hexecution ?_ (fun _ _ => rfl) (fun _ _ => rfl) ?_ ?_
  · rfl
  · intro w' hw'
    rw [hnone] at hw'
    cases hw'
  · refine ⟨hnone, ?_, fun _ => hhead⟩
    show s.decisions e.requestId = none
    rw [hdecision, ← hquiet, List.drop_length]
    rfl

/-- **The invariant is kept** by a step that meets the condition. -/
theorem sound_step (h : s.Sound) {act : Action} (hstep : step settings s act = some t)
    (hcond : Orderly s act t) : t.Sound := by
  cases act with
  | execute w toolName requestId =>
      simp only [step] at hstep
      split at hstep
      · rename_i hnew
        cases hstep
        exact sound_execute h (Option.isNone_iff_eq_none.mp hnew.1) hnew.2.2
      · cases hstep
  | notifyEnds w ended =>
      obtain ⟨e, hexecution, hstep⟩ := Option.bind_eq_some_iff.mp hstep
      split at hstep
      · rename_i hnotifying
        cases hstep
        cases ended with
        | returns => exact sound_notifyEnds h hexecution hnotifying
        | raises | cancelled => exact hcond.elim
      · cases hstep
  | wakes w ended =>
      obtain ⟨e, hexecution, hstep⟩ := Option.bind_eq_some_iff.mp hstep
      split at hstep
      · rename_i hwaiting
        exact sound_wakes h hexecution hwaiting hcond hstep
      · cases hstep
  | finishes w =>
      obtain ⟨e, hexecution, hstep⟩ := Option.bind_eq_some_iff.mp hstep
      split at hstep
      · rename_i seen hrunning
        cases hstep
        exact sound_finishes h hexecution hrunning (hcond e seen hexecution hrunning)
      · cases hstep
      · cases hstep
      · cases hstep
  | resolve requestId approved =>
      cases hstep
      exact sound_resolve h hcond

theorem decision_of_answers (h : s.Sound) (hexecution : s.execution w = some e)
    (hlive : e.phase = .notifying ∨ e.phase = .waiting)
    (hnone : s.decisions e.requestId = none) : s.answers e.requestId = [] := by
  have hfits := h.fits w e hexecution
  unfold Execution.Fits at hfits
  have hlast : s.decisions e.requestId = (s.answers e.requestId).getLast? := by
    rcases hlive with hphase | hphase
    · rw [hphase] at hfits
      exact hfits.2.1
    · rw [hphase] at hfits
      exact hfits.2.1
  exact List.getLast?_eq_none_iff.mp (hlast.symm.trans hnone)

theorem gateSound_step_iff (h : s.Sound) {act : Action} (hstep : step settings s act = some t) :
    GateSound t ↔ Orderly s act t := by
  refine ⟨fun ht => ?_, fun hcond => (sound_step h hstep hcond).gateSound⟩
  cases act with
  | execute w toolName requestId => trivial
  | notifyEnds w ended =>
      obtain ⟨e, hexecution, hstep⟩ := Option.bind_eq_some_iff.mp hstep
      split at hstep
      · rename_i hnotifying
        cases hstep
        have hfits := h.fits w e hexecution
        unfold Execution.Fits at hfits
        rw [hnotifying] at hfits
        -- The event of an execution that has raised is still in `_pending`.
        have hleft : (s.moveTo w e (.finished .raised)).execution w =
            some { e with phase := .finished .raised } := update_self _ _ _
        cases ended with
        | returns => trivial
        | raises | cancelled => exact absurd (hfits.1.symm.trans ((ht w _ hleft).2 rfl).1) nofun
      · cases hstep
  | wakes w ended =>
      obtain ⟨e, hexecution, hstep⟩ := Option.bind_eq_some_iff.mp hstep
      split at hstep
      · rename_i hwaiting
        cases ended with
        | decided =>
            intro e' hexecution' hlast
            cases hexecution.symm.trans hexecution'
            have hfits := h.fits w e hexecution
            unfold Execution.Fits at hfits
            rw [hwaiting] at hfits
            have hyes : (s.decisions e.requestId).getD false = true := by
              rw [hfits.2.1, hlast]
              rfl
            simp only [Gate.wakes, if_pos hyes] at hstep
            split at hstep
            · cases hstep
              exact (ht w _ (update_self _ _ _)).1 rfl
            · cases hstep
        | timesOut | cancelled =>
            cases hstep
            intro e' hexecution'
            cases hexecution.symm.trans hexecution'
            exact decision_of_answers h hexecution (.inr hwaiting)
              ((ht w _ (update_self _ _ _)).2 rfl).2
      · cases hstep
  | finishes w =>
      intro e seen hexecution hrunning
      obtain ⟨e', hexecution', hstep⟩ := Option.bind_eq_some_iff.mp hstep
      cases hexecution.symm.trans hexecution'
      rw [hrunning] at hstep
      cases hstep
      have hfits := h.fits w e hexecution
      unfold Execution.Fits at hfits
      rw [hrunning] at hfits
      obtain ⟨-, hseen, hdecision, -⟩ := hfits
      have hnone : s.decisions e.requestId = none :=
        ((ht w _ (update_self _ _ _)).2 rfl).2
      have hquiet : (s.answers e.requestId).drop seen = [] :=
        List.getLast?_eq_none_iff.mp (hdecision.symm.trans hnone)
      have hle : (s.answers e.requestId).length ≤ seen := List.drop_eq_nil_iff.mp hquiet
      omega
  | resolve requestId approved =>
      cases hstep
      intro w e hexecution hid
      obtain ⟨e', hafter, hsame, hphase⟩ :=
        @resolve_execution_some s w e requestId approved hexecution
      obtain ⟨-, hdecisions, -⟩ := resolve_maps s requestId approved
      cases hover : e.phase.isOver with
      | false => rfl
      | true =>
          have hnone := ((ht w e' hafter).2 (by rw [hphase]; exact hover)).2
          rw [hdecisions, hsame, hid, update_self] at hnone
          cases hnone

end Invariant

/-- **The gate, exactly.**  Along every run of any number of executions and answers the
gate is sound in every state exactly when every step is orderly. -/
theorem gateSound_iff (settings : GateSettings) (schedule : List Action) :
    Runs.Always (step settings) (fun _ _ t => GateSound t) Gate.initial schedule ↔
      Runs.Always (step settings) Orderly Gate.initial schedule := by
  refine Runs.always_iff_of_guarded (I := Gate.Sound) ?_ ?_ sound_initial schedule
  · intro s act t h hstep hcond
    exact sound_step h hstep hcond
  · intro s act t h hstep
    exact gateSound_step_iff h hstep

def production : GateSettings := ⟨true, "120.0", []⟩

/-- A destructive tool waits for the operator. -/
def gateWaits : List Action :=
  [.execute 0 "generate_lods" "id", .notifyEnds 0 .returns]

theorem gateSound_counterexample :
    ¬Runs.Always (step production) (fun _ _ t => GateSound t) Gate.initial
        (gateWaits ++ [.resolve "id" false, .resolve "id" true] ++ [.wakes 0 .decided]) ∧
      ¬Runs.Always (step production) (fun _ _ t => GateSound t) Gate.initial
        (gateWaits ++ [.wakes 0 .timesOut] ++ [.resolve "id" true]) ∧
      ¬Runs.Always (step production) (fun _ _ t => GateSound t) Gate.initial
        ([.execute 0 "generate_lods" "id"] ++ [.notifyEnds 0 .raises]) := by
  refine ⟨fun h => ?_, fun h => ?_, fun h => ?_⟩
  · have hlast := h.at_prefix rfl rfl
    exact absurd ((hlast 0 _ rfl).1 rfl) (by decide)
  · have hlast := h.at_prefix rfl rfl
    exact absurd ((hlast 0 _ rfl).2 rfl).2 (by decide)
  · have hlast := h.at_prefix rfl rfl
    exact absurd ((hlast 0 _ rfl).2 rfl).1 (by decide)

end SkyClaw.Orchestrator.HitlGate
