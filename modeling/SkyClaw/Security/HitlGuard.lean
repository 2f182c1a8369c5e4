import SkyClaw.Lib.PartialMap
import SkyClaw.Lib.Runs

/-!
# The human-in-the-loop guard

`HITLGuard` with any number of `request_approval` calls and responders on one event
loop.  Nothing is awaited while its lock is held, so each locked block is part of one
step; what is awaited is the notifier and the operator.  `hitlAgreement_iff` says when
the operator's answers and the decisions returned agree.
-/

namespace SkyClaw.Security.Hitl

open Function

/-! ## Requests and calls -/

inductive Decision
  | approved
  | denied
  | timeout
deriving DecidableEq

/-- `Decision.APPROVED if approved else Decision.DENIED`. -/
def Decision.ofAnswer (approved : Bool) : Decision :=
  if approved then .approved else .denied

structure HITLRequest where
  requestId : String
  reason : String
  url : Option String
  detail : String
  event : Bool
  decision : Decision
deriving DecidableEq

/-- `HITLRequest(...)` with its defaults. -/
def HITLRequest.new (requestId reason : String) (url : Option String) (detail : String) :
    HITLRequest :=
  { requestId := requestId, reason := reason, url := url, detail := detail,
    event := false, decision := .timeout }

/-- Where a `request_approval` call is. -/
inductive CallPhase
  | notifying
  | waiting
  /-- It returned; `waited` if it had begun to wait for the operator. -/
  | returned (decision : Decision) (waited : Bool)
  /-- The id was pending already: `Decision.DENIED`, nothing registered. -/
  | rejected
  | raised
deriving DecidableEq

def CallPhase.live : CallPhase → Bool
  | .notifying | .waiting => true
  | .returned _ _ | .rejected | .raised => false

/-- A call with its request and the answers for which `respond` returned `True`, the
latest first. -/
structure Call where
  request : HITLRequest
  phase : CallPhase
  answers : List Bool
deriving DecidableEq

/-- `_pending` holds the request of a call. -/
structure Guard where
  pending : String → Option Nat
  call : Nat → Option Call

def Guard.initial : Guard := ⟨fun _ => none, fun _ => none⟩

/-- How `await self._notify(req)` ends. -/
inductive NotifyEnd
  | returns
  | raises
  /-- With an exception that is no `Exception`, such as `CancelledError`. -/
  | cancelled
deriving DecidableEq

/-- How `asyncio.wait_for` ends; the timeout may win although the event is set. -/
inductive WaitEnd
  | decided
  | timesOut
  | cancelled
deriving DecidableEq

inductive Action
  | requestApproval (w : Nat) (requestId : Option String) (uuid reason : String)
      (url : Option String) (detail : String)
  | notifyEnds (w : Nat) (ended : NotifyEnd)
  | wakes (w : Nat) (ended : WaitEnd)
  | respond (requestId : String) (approved : Bool)

/-- The call leaves; `finally` and the `except` clause pop the id, a cancelled notifier
does not. -/
def Guard.leave (s : Guard) (w : Nat) (c : Call) (phase : CallPhase) : Guard :=
  { pending := update s.pending c.request.requestId none
    call := update s.call w (some { c with phase := phase }) }

def Guard.moveTo (s : Guard) (w : Nat) (c : Call) (phase : CallPhase) : Guard :=
  { s with call := update s.call w (some { c with phase := phase }) }

/-- `request_approval`, up to its first wait. -/
def Guard.requestApproval (notifies : Bool) (s : Guard) (w : Nat) (requestId : Option String)
    (uuid reason : String) (url : Option String) (detail : String) : Guard :=
  let id := requestId.getD uuid
  let request := HITLRequest.new id reason url detail
  if (s.pending id).isSome then
    -- A duplicate is denied at once, and never registered.
    { s with call := update s.call w (some ⟨request, .rejected, []⟩) }
  else
    { pending := update s.pending id (some w)
      call := update s.call w
        (some ⟨request, if notifies then .notifying else .waiting, []⟩) }

def Guard.respond (s : Guard) (requestId : String) (approved : Bool) : Guard :=
  match s.pending requestId with
  | none => s
  | some w =>
      { s with call := update s.call w ((s.call w).map fun c =>
          { c with
            request := { c.request with decision := Decision.ofAnswer approved, event := true }
            answers := approved :: c.answers }) }

/-- `request_approval` when the notifier ended. -/
def Guard.notifyEnds (s : Guard) (w : Nat) (c : Call) : NotifyEnd → Guard
  | .returns => s.moveTo w c .waiting
  | .raises => s.leave w c (.returned .timeout false)
  -- `except Exception` does not see a `CancelledError`: the id stays pending.
  | .cancelled => s.moveTo w c .raised

/-- `request_approval` when the wait ended; `decided` needs the event. -/
def Guard.wakes (s : Guard) (w : Nat) (c : Call) : WaitEnd → Option Guard
  | .decided =>
      if c.request.event then some (s.leave w c (.returned c.request.decision true)) else none
  | .timesOut =>
      -- The denial overwrites an answer that came before the call woke.
      some (s.leave w { c with request := { c.request with decision := .denied } }
        (.returned .denied true))
  | .cancelled => some (s.leave w c .raised)

/-- One step; `notifies` says whether there is a notifier. -/
def step (notifies : Bool) (s : Guard) : Action → Option Guard
  | .requestApproval w requestId uuid reason url detail =>
      if (s.call w).isNone then
        some (s.requestApproval notifies w requestId uuid reason url detail)
      else none
  | .notifyEnds w ended =>
      (s.call w).bind fun c => if c.phase = .notifying then some (s.notifyEnds w c ended) else none
  | .wakes w ended =>
      (s.call w).bind fun c => if c.phase = .waiting then s.wakes w c ended else none
  | .respond requestId approved => some (s.respond requestId approved)

/-- What the operator's answers mean for a call. -/
structure Call.Agreed (c : Call) : Prop where
  once : c.answers.length ≤ 1
  exact : ∀ decision, c.phase = .returned decision true → ∀ approved ∈ c.answers,
    decision = Decision.ofAnswer approved
  approved : ∀ waited, c.phase = .returned .approved waited → true ∈ c.answers

/-- Every registered call agrees with its answers, and its id is free once it is over. -/
def Agreed (s : Guard) : Prop :=
  ∀ w c, s.call w = some c → c.phase ≠ .rejected →
    c.Agreed ∧ (c.phase.live = false → ∀ id, s.pending id ≠ some w)

/-- The condition on a step: a request is answered only once, its wait does not time out
after an approval, and the notifier is not cancelled. -/
def Undisturbed (s : Guard) (act : Action) (_t : Guard) : Prop :=
  match act with
  | .respond requestId _ =>
      ∀ w c, s.pending requestId = some w → s.call w = some c → c.request.event = false
  | .wakes w .timesOut => ∀ c, s.call w = some c → c.request.decision ≠ .approved
  | .notifyEnds _ .cancelled => False
  | _ => True

/-! ## The invariant -/

/-- A request that was not answered, or once. -/
def Call.Answered (c : Call) : Prop :=
  (c.answers = [] ∧ c.request.event = false ∧ c.request.decision = .timeout) ∨
    ∃ approved, c.answers = [approved] ∧ c.request.event = true ∧
      c.request.decision = Decision.ofAnswer approved

/-- The pending ids are those of the calls that are not over. -/
structure Guard.Sound (s : Guard) : Prop where
  pending : ∀ id w, s.pending id = some w →
    ∃ c, s.call w = some c ∧ c.request.requestId = id ∧ c.phase.live = true
  live : ∀ w c, s.call w = some c → c.phase.live = true →
    s.pending c.request.requestId = some w ∧ c.Answered
  settled : ∀ w c, s.call w = some c → c.phase ≠ .rejected → c.phase.live = false → c.Agreed

theorem sound_initial : Guard.initial.Sound where
  pending _ _ hpending := nomatch hpending
  live _ _ hcall := nomatch hcall
  settled _ _ hcall := nomatch hcall

section Invariant

variable {notifies : Bool} {s t : Guard} {w : Nat} {c : Call}

theorem Call.Answered.agreed (h : c.Answered) (hlive : c.phase.live = true) : c.Agreed := by
  have hreturned : ∀ decision waited, c.phase ≠ .returned decision waited := by
    intro decision waited hphase
    rw [hphase] at hlive
    cases hlive
  refine ⟨?_, fun decision hphase => absurd hphase (hreturned decision true),
    fun waited hphase => absurd hphase (hreturned .approved waited)⟩
  rcases h with ⟨hnone, -⟩ | ⟨approved, hone, -⟩
  · rw [hnone]
    exact Nat.zero_le 1
  · rw [hone]
    exact Nat.le_refl 1

theorem Guard.Sound.agreed (h : s.Sound) : Agreed s := by
  intro w c hcall hregistered
  by_cases hlive : c.phase.live = true
  · exact ⟨(h.live w c hcall hlive).2.agreed hlive, fun hover => absurd hover (by rw [hlive]; decide)⟩
  · have hover : c.phase.live = false := eq_false_of_ne_true hlive
    refine ⟨h.settled w c hcall hregistered hover, fun _ id hpending => ?_⟩
    obtain ⟨c', hcall', -, hlive'⟩ := h.pending id w hpending
    cases hcall.symm.trans hcall'
    exact hlive hlive'

variable {c' : Call}

open PartialMap

/-- A call that is not over leaves, and its id is free. -/
theorem sound_leave (h : s.Sound) (hcall : s.call w = some c) (hlive : c.phase.live = true) (hid : c'.request.requestId = c.request.requestId) {phase : CallPhase}
    (hover : phase.live = false) (hagreed : Call.Agreed { c' with phase := phase }) :
    (s.leave w c' phase).Sound := by
  have hpending := (h.live w c hcall hlive).1
  constructor
  · intro id w' hid'
    obtain ⟨hne, hold⟩ := update_none_eq_some_iff.mp hid'
    obtain ⟨d, hd, hdid, hdlive⟩ := h.pending id w' hold
    have hw : w' ≠ w := by
      rintro rfl
      cases hcall.symm.trans hd
      exact hne (hdid.symm.trans hid.symm)
    exact ⟨d, (update_of_ne hw _ _).trans hd, hdid, hdlive⟩
  · intro w' d hd hdlive
    rcases update_some_eq_some_iff.mp hd with ⟨rfl, rfl⟩ | ⟨hw, hold⟩
    · rw [hover] at hdlive
      cases hdlive
    · obtain ⟨hdpending, hanswered⟩ := h.live w' d hold hdlive
      refine ⟨(update_of_ne ?_ _ _).trans hdpending, hanswered⟩
      intro hsame
      rw [hsame, hid, hpending] at hdpending
      exact hw (Option.some.inj hdpending).symm
  · intro w' d hd hregistered hdover
    rcases update_some_eq_some_iff.mp hd with ⟨rfl, rfl⟩ | ⟨-, hold⟩
    · exact hagreed
    · exact h.settled w' d hold hregistered hdover

/-- A call that is not over moves on, and stays pending. -/
theorem sound_update (h : s.Sound) (hcall : s.call w = some c) (hlive : c.phase.live = true) (hid : c'.request.requestId = c.request.requestId)
    (hlive' : c'.phase.live = true) (hanswered : c'.Answered) :
    ({ s with call := update s.call w (some c') } : Guard).Sound := by
  constructor
  · intro id w' hid'
    obtain ⟨d, hd, hdid, hdlive⟩ := h.pending id w' hid'
    by_cases hw : w' = w
    · subst hw
      cases hcall.symm.trans hd
      exact ⟨c', update_self _ _ _, hid.trans hdid, hlive'⟩
    · exact ⟨d, (update_of_ne hw _ _).trans hd, hdid, hdlive⟩
  · intro w' d hd hdlive
    rcases update_some_eq_some_iff.mp hd with ⟨rfl, rfl⟩ | ⟨-, hold⟩
    · exact ⟨hid ▸ (h.live w' c hcall hlive).1, hanswered⟩
    · exact h.live w' d hold hdlive
  · intro w' d hd hregistered hdover
    rcases update_some_eq_some_iff.mp hd with ⟨rfl, rfl⟩ | ⟨-, hold⟩
    · rw [hlive'] at hdover
      cases hdover
    · exact h.settled w' d hold hregistered hdover

theorem sound_reject (h : s.Sound) (hnew : s.call w = none) (hrejected : c.phase = .rejected) :
    ({ s with call := update s.call w (some c) } : Guard).Sound := by
  constructor
  · intro id w' hid
    obtain ⟨d, hd, hdid, hdlive⟩ := h.pending id w' hid
    have hw : w' ≠ w := by
      rintro rfl
      rw [hnew] at hd
      cases hd
    exact ⟨d, (update_of_ne hw _ _).trans hd, hdid, hdlive⟩
  · intro w' d hd hdlive
    rcases update_some_eq_some_iff.mp hd with ⟨rfl, rfl⟩ | ⟨-, hold⟩
    · rw [hrejected] at hdlive
      cases hdlive
    · exact h.live w' d hold hdlive
  · intro w' d hd hregistered hdover
    rcases update_some_eq_some_iff.mp hd with ⟨rfl, rfl⟩ | ⟨-, hold⟩
    · exact absurd hrejected hregistered
    · exact h.settled w' d hold hregistered hdover

/-- A call whose id is free is registered. -/
theorem sound_register (h : s.Sound) (hnew : s.call w = none)
    (hfree : s.pending c.request.requestId = none) (hlive : c.phase.live = true)
    (hanswered : c.Answered) :
    (Guard.mk (update s.pending c.request.requestId (some w))
      (update s.call w (some c))).Sound := by
  constructor
  · intro id w' hid
    rcases update_some_eq_some_iff.mp hid with ⟨rfl, rfl⟩ | ⟨-, hold⟩
    · exact ⟨c, update_self _ _ _, rfl, hlive⟩
    · obtain ⟨d, hd, hdid, hdlive⟩ := h.pending id w' hold
      have hw : w' ≠ w := by
        rintro rfl
        rw [hnew] at hd
        cases hd
      exact ⟨d, (update_of_ne hw _ _).trans hd, hdid, hdlive⟩
  · intro w' d hd hdlive
    rcases update_some_eq_some_iff.mp hd with ⟨rfl, rfl⟩ | ⟨-, hold⟩
    · exact ⟨update_self _ _ _, hanswered⟩
    · obtain ⟨hdpending, hdanswered⟩ := h.live w' d hold hdlive
      refine ⟨(update_of_ne ?_ _ _).trans hdpending, hdanswered⟩
      intro hsame
      rw [hsame, hfree] at hdpending
      cases hdpending
  · intro w' d hd hregistered hdover
    rcases update_some_eq_some_iff.mp hd with ⟨rfl, rfl⟩ | ⟨-, hold⟩
    · rw [hlive] at hdover
      cases hdover
    · exact h.settled w' d hold hregistered hdover

theorem sound_requestApproval (h : s.Sound) (hnew : s.call w = none) (requestId : Option String)
    (uuid reason : String) (url : Option String) (detail : String) :
    (s.requestApproval notifies w requestId uuid reason url detail).Sound := by
  unfold Guard.requestApproval
  simp only
  by_cases hduplicate : (s.pending (requestId.getD uuid)).isSome = true
  · rw [if_pos hduplicate]
    exact sound_reject h hnew rfl
  · rw [if_neg hduplicate]
    have hfree : s.pending (requestId.getD uuid) = none :=
      Option.isNone_iff_eq_none.mp (by simpa using hduplicate)
    have hlive : (if notifies then CallPhase.notifying else .waiting).live = true := by
      cases notifies with
      | true | false => rfl
    exact sound_register (c := ⟨HITLRequest.new (requestId.getD uuid) reason url detail, _, []⟩)
      h hnew hfree hlive (.inl ⟨rfl, rfl, rfl⟩)

theorem sound_respond (h : s.Sound) {requestId : String} {approved : Bool}
    (hfirst : ∀ w c, s.pending requestId = some w → s.call w = some c → c.request.event = false) :
    (s.respond requestId approved).Sound := by
  unfold Guard.respond
  cases hpending : s.pending requestId with
  | none => exact h
  | some w =>
      obtain ⟨c, hcall, hid, hlive⟩ := h.pending requestId w hpending
      simp only [hcall, Option.map_some]
      refine sound_update h hcall hlive ?_ hlive (.inr ⟨approved, ?_, rfl, rfl⟩)
      · rfl
      · have hunset := hfirst w c hpending hcall
        rcases (h.live w c hcall hlive).2 with ⟨hnone, -⟩ | ⟨earlier, -, hset, -⟩
        · show approved :: c.answers = [approved]
          rw [hnone]
        · rw [hunset] at hset
          cases hset

/-- The wait ends, and the decision returned is the operator's. -/
theorem sound_wakes (h : s.Sound) (hcall : s.call w = some c) (hwaiting : c.phase = .waiting)
    {ended : WaitEnd} (hcond : ended = .timesOut → c.request.decision ≠ .approved)
    (hstep : s.wakes w c ended = some t) : t.Sound := by
  have hlive : c.phase.live = true := by rw [hwaiting]; rfl
  have hanswered := (h.live w c hcall hlive).2
  have honce : c.answers.length ≤ 1 := (hanswered.agreed hlive).once
  cases ended with
  | decided =>
      simp only [Guard.wakes] at hstep
      split at hstep
      · rename_i hset
        cases hstep
        rcases hanswered with ⟨-, hunset, -⟩ | ⟨approved, hone, -, hdecision⟩
        · rw [hunset] at hset
          cases hset
        · refine sound_leave h hcall hlive rfl rfl ⟨honce, ?_, ?_⟩
          · intro decision hphase approved' hmem
            obtain rfl := (CallPhase.returned.inj hphase).1
            rw [show c.answers = [approved] from hone] at hmem
            obtain rfl := List.mem_singleton.mp hmem
            exact hdecision
          · intro waited hphase
            have happroved := (CallPhase.returned.inj hphase).1
            rw [hdecision] at happroved
            cases approved with
            | true =>
                show true ∈ c.answers
                rw [hone]
                exact List.mem_singleton_self true
            | false => cases happroved
      · cases hstep
  | timesOut =>
      cases hstep
      show (s.leave w { c with request := { c.request with decision := .denied } }
        (.returned .denied true)).Sound
      refine sound_leave h hcall hlive ?_ ?_ ⟨honce, ?_, fun waited hphase => nomatch hphase⟩
      · rfl
      · rfl
      · intro decision hphase approved hmem
        obtain rfl := (CallPhase.returned.inj hphase).1
        rcases hanswered with ⟨hnone, -⟩ | ⟨approved', hone, -, hdecision⟩
        · rw [show c.answers = [] from hnone] at hmem
          cases hmem
        · rw [show c.answers = [approved'] from hone] at hmem
          obtain rfl := List.mem_singleton.mp hmem
          cases approved with
          | true => exact absurd hdecision (hcond rfl)
          | false => rfl
  | cancelled =>
      cases hstep
      have hagreed : Call.Agreed { c with phase := .raised } :=
        ⟨honce, fun _ hphase => (nomatch hphase), fun _ hphase => nomatch hphase⟩
      exact sound_leave h hcall hlive rfl rfl hagreed

/-- **The invariant is kept** by a step that meets the condition. -/
theorem sound_step (h : s.Sound) {act : Action} (hstep : step notifies s act = some t)
    (hcond : Undisturbed s act t) : t.Sound := by
  cases act with
  | requestApproval w requestId uuid reason url detail =>
      simp only [step] at hstep
      split at hstep
      · rename_i hnew
        cases hstep
        exact sound_requestApproval h (Option.isNone_iff_eq_none.mp hnew) requestId uuid reason
          url detail
      · cases hstep
  | notifyEnds w ended =>
      obtain ⟨c, hcall, hstep⟩ := Option.bind_eq_some_iff.mp hstep
      split at hstep
      · rename_i hnotifying
        cases hstep
        have hlive : c.phase.live = true := by rw [hnotifying]; rfl
        have hanswered := (h.live w c hcall hlive).2
        cases ended with
        | returns =>
            exact @sound_update s w c { c with phase := .waiting } h hcall hlive rfl rfl hanswered
        | raises =>
            have hagreed : Call.Agreed { c with phase := .returned .timeout false } :=
              ⟨(hanswered.agreed hlive).once, fun _ hphase => (nomatch hphase),
                fun _ hphase => nomatch hphase⟩
            exact sound_leave h hcall hlive rfl rfl hagreed
        | cancelled => exact hcond.elim
      · cases hstep
  | wakes w ended =>
      obtain ⟨c, hcall, hstep⟩ := Option.bind_eq_some_iff.mp hstep
      split at hstep
      · rename_i hwaiting
        refine sound_wakes h hcall hwaiting ?_ hstep
        rintro rfl
        exact hcond c hcall
      · cases hstep
  | respond requestId approved =>
      cases hstep
      exact sound_respond h hcond

theorem agreed_step_iff (h : s.Sound) {act : Action} (hstep : step notifies s act = some t) :
    Agreed t ↔ Undisturbed s act t := by
  refine ⟨fun ht => ?_, fun hcond => (sound_step h hstep hcond).agreed⟩
  cases act with
  | requestApproval w requestId uuid reason url detail => trivial
  | notifyEnds w ended =>
      cases ended with
      | returns | raises => trivial
      | cancelled =>
          obtain ⟨c, hcall, hstep⟩ := Option.bind_eq_some_iff.mp hstep
          split at hstep
          · rename_i hnotifying
            cases hstep
            -- The id of the cancelled call is still pending.
            have hpending := (h.live w c hcall (by rw [hnotifying]; rfl)).1
            have hover := ht w { c with phase := .raised } (update_self _ _ _) nofun
            exact hover.2 rfl c.request.requestId hpending
          · cases hstep
  | wakes w ended =>
      cases ended with
      | decided | cancelled => trivial
      | timesOut =>
          intro c' hcall'
          obtain ⟨c, hcall, hstep⟩ := Option.bind_eq_some_iff.mp hstep
          obtain rfl := Option.some.inj (hcall.symm.trans hcall')
          split at hstep
          · rename_i hwaiting
            cases hstep
            intro happroved
            rcases (h.live w c hcall (by rw [hwaiting]; rfl)).2 with
              ⟨-, -, htimeout⟩ | ⟨approved, hone, -, hdecision⟩
            · rw [htimeout] at happroved
              cases happroved
            · obtain ⟨hagreed, -⟩ := ht w _ (update_self _ _ _) nofun
              have hdenied := hagreed.exact .denied rfl approved
                (by show approved ∈ c.answers; rw [hone]; exact List.mem_singleton_self _)
              rw [← hdecision, happroved] at hdenied
              cases hdenied
          · cases hstep
  | respond requestId approved =>
      intro w c hpending hcall
      cases hstep
      obtain ⟨c', hcall', -, hlive⟩ := h.pending requestId w hpending
      obtain rfl := Option.some.inj (hcall.symm.trans hcall')
      rcases (h.live w c hcall hlive).2 with ⟨-, hunset, -⟩ | ⟨earlier, hone, -, -⟩
      · exact hunset
      · -- A second answer is counted as well.
        have hafter : (s.respond requestId approved).call w = some
            { c with
              request := { c.request with
                decision := Decision.ofAnswer approved, event := true }
              answers := approved :: c.answers } := by
          unfold Guard.respond
          simp only [hpending, hcall, Option.map_some]
          exact update_self _ _ _
        obtain ⟨hagreed, -⟩ := ht w _ hafter (by
          show c.phase ≠ .rejected
          intro hrejected
          rw [hrejected] at hlive
          cases hlive)
        have honce : (approved :: c.answers).length ≤ 1 := hagreed.once
        rw [hone] at honce
        exact absurd honce (by simp)

end Invariant

/-- **HITL agreement, exactly.**  Along every run of any number of requests and answers
the guard agrees with the operator in every state exactly when every step meets the
condition. -/
theorem hitlAgreement_iff (notifies : Bool) (schedule : List Action) :
    Runs.Always (step notifies) (fun _ _ t => Agreed t) Guard.initial schedule ↔
      Runs.Always (step notifies) Undisturbed Guard.initial schedule := by
  refine Runs.always_iff_of_guarded (I := Guard.Sound) ?_ ?_ sound_initial schedule
  · intro s act t h hstep hcond
    exact sound_step h hstep hcond
  · intro s act t h hstep
    exact agreed_step_iff h hstep

/-- A request waits for the operator. -/
def waits : List Action :=
  [.requestApproval 0 (some "download-10-20") "" "mod" none "", .notifyEnds 0 .returns]

theorem hitlAgreement_counterexample :
    ¬Runs.Always (step true) (fun _ _ t => Agreed t) Guard.initial
        (waits ++ [.respond "download-10-20" false] ++ [.respond "download-10-20" true]) ∧
      ¬Runs.Always (step true) (fun _ _ t => Agreed t) Guard.initial
        (waits ++ [.respond "download-10-20" true] ++ [.wakes 0 .timesOut]) ∧
      ¬Runs.Always (step true) (fun _ _ t => Agreed t) Guard.initial
        ([.requestApproval 0 (some "download-10-20") "" "mod" none ""] ++
          [.notifyEnds 0 .cancelled]) := by
  refine ⟨fun h => ?_, fun h => ?_, fun h => ?_⟩
  · have hlast := h.at_prefix rfl rfl
    exact absurd (hlast 0 _ rfl nofun).1.once (by decide)
  · have hlast := h.at_prefix rfl rfl
    exact nomatch (hlast 0 _ rfl nofun).1.exact .denied rfl true List.mem_cons_self
  · have hlast := h.at_prefix rfl rfl
    exact (hlast 0 _ rfl nofun).2 rfl "download-10-20" rfl

end SkyClaw.Security.Hitl
