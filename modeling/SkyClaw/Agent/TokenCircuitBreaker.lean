import Mathlib.Data.List.Perm.Basic
import SkyClaw.Lib.Runs

/-!
# The token circuit breaker under the router

`TokenCircuitBreaker` and the provider call of `LLMRouter.chat`: any number of chats ask the breaker,
wait in turn for the provider lock, and record what the call has used when it returns.

A call that raises records nothing, and a call from before the trip records as if it were the probe.
`unwedged_of_careful`: without these the breaker has its probe out exactly when it says so, and comes
back after the recovery time.
-/

namespace SkyClaw.Agent.TokenCircuitBreaker

/-! ## The breaker -/

/-- `TokenCircuitBreakerConfig`, with durations in the unit of the clock. -/
structure Config (T : Type) where
  spikeThreshold : Int
  windowBudget : Int
  windowDuration : T
  recoveryTimeout : T

inductive State where
  | closed
  | opened
  | halfOpen
deriving DecidableEq, Repr

structure Breaker (T : Type) where
  state : State
  openedAt : T
  windowStart : T
  windowConsumed : Int
  halfOpenUsed : Bool
deriving DecidableEq, Repr

variable {T : Type} [Sub T] [LE T] [DecidableLE T]

/-- `TokenCircuitBreaker(config)`; `never` is `0.0`. -/
def Breaker.new (never now : T) : Breaker T := ⟨.closed, never, now, 0, false⟩

section

variable (c : Config T)

/-- The property `state`. -/
def readState (now : T) (b : Breaker T) : Breaker T :=
  if b.state = .opened ∧ c.recoveryTimeout ≤ now - b.openedAt then
    { b with state := .halfOpen, halfOpenUsed := false }
  else b

def trip (now : T) (b : Breaker T) : Breaker T := { b with state := .opened, openedAt := now }

def maybeResetWindow (now : T) (b : Breaker T) : Breaker T :=
  if c.windowDuration ≤ now - b.windowStart then { b with windowConsumed := 0, windowStart := now }
  else b

/-- `check_request` after its look at `state`. -/
def checkState (now : T) (b : Breaker T) (estimated : Int) : Bool × Breaker T :=
  match b.state with
  | .closed =>
      if c.spikeThreshold < estimated then (false, trip now b)
      else if c.windowBudget < (maybeResetWindow c now b).windowConsumed + estimated then
        (false, trip now (maybeResetWindow c now b))
      else (true, maybeResetWindow c now b)
  | .halfOpen => if b.halfOpenUsed then (false, b) else (true, { b with halfOpenUsed := true })
  | .opened => (false, b)

def checkRequest (now : T) (b : Breaker T) (estimated : Int) : Bool × Breaker T :=
  checkState c now (readState c now b) estimated

def recordResponse (now : T) (b : Breaker T) (used : Int) : Breaker T :=
  let b := { b with windowConsumed := b.windowConsumed + used }
  if b.state = .halfOpen then
    if used ≤ c.spikeThreshold then { b with state := .closed, halfOpenUsed := false }
    else trip now b
  else b

/-! ## The router -/

/-- A call that the breaker has allowed, and whether as a probe. -/
structure Call where
  preCallTokens : Int
  probe : Bool
deriving DecidableEq, Repr

/-- The clock, the breaker, and the calls in the order in which they get the provider lock. -/
structure Router (T : Type) where
  now : T
  breaker : Breaker T
  outstanding : List Call
deriving DecidableEq, Repr

def Router.new (never now : T) : Router T := ⟨now, .new never now, []⟩

/-- The probes in flight. -/
def Router.probes (s : Router T) : Nat := s.outstanding.countP Call.probe

/-- What happens next. -/
inductive Action (T : Type) where
  /-- the clock advances -/
  | advance (now : T)
  /-- a chat is before a round's provider call -/
  | request (preCallTokens : Int)
  /-- the call that has the lock returns data -/
  | respond (responseTokens : Int)
  /-- a call raises, times out, is cancelled, or returns no data -/
  | abandon (i : Nat)
deriving DecidableEq, Repr

/-- The check, and the line that logs a rejection with the state. -/
def request (s : Router T) (preCallTokens : Int) : Router T :=
  match checkRequest c s.now s.breaker preCallTokens with
  | (true, breaker) =>
      let probe := (readState c s.now s.breaker).state = .halfOpen
      { s with breaker := breaker, outstanding := s.outstanding ++ [⟨preCallTokens, probe⟩] }
  | (false, breaker) => { s with breaker := readState c s.now breaker }

def step (s : Router T) : Action T → Option (Router T)
  | .advance now => if s.now ≤ now then some { s with now := now } else none
  | .request preCallTokens => some (request c s preCallTokens)
  | .respond responseTokens =>
      match s.outstanding with
      | [] => none
      | call :: rest =>
          let used := call.preCallTokens + responseTokens
          some { s with breaker := recordResponse c s.now s.breaker used, outstanding := rest }
  | .abandon i =>
      if i < s.outstanding.length then some { s with outstanding := s.outstanding.eraseIdx i }
      else none

/-- A half-open breaker whose probe has been used. -/
def Breaker.armed (b : Breaker T) : Bool := b.state = .halfOpen && b.halfOpenUsed

/-- What is left of the window's budget suffices. -/
def WithinBudget (now : T) (b : Breaker T) (tokens : Int) : Prop :=
  (maybeResetWindow c now b).windowConsumed + tokens ≤ c.windowBudget

/-- What the breaker promises. -/
structure Unwedged (s : Router T) : Prop where
  probing : s.breaker.state = .halfOpen → s.breaker.halfOpenUsed = true → s.probes = 1
  single : s.probes ≤ 1
  /-- nothing is in flight, and the recovery time of an open breaker has passed -/
  recovers : s.outstanding = [] → ∀ later, s.now ≤ later →
    (s.breaker.state = .opened → c.recoveryTimeout ≤ later - s.breaker.openedAt) →
    ∀ tokens, tokens ≤ c.spikeThreshold → WithinBudget c later s.breaker tokens →
      (checkRequest c later s.breaker tokens).1 = true

/-- A probe ends with its response, and while it is out no other call records one. -/
def Careful (s : Router T) (a : Action T) (_ : Router T) : Prop :=
  match a with
  | .respond _ => s.breaker.armed = true → ∀ call ∈ s.outstanding.head?, call.probe = true
  | .abandon i => ∀ call ∈ s.outstanding[i]?, call.probe = false
  | _ => True

instance (s : Router T) (a : Action T) (t : Router T) : Decidable (Careful s a t) := by
  unfold Careful
  cases a <;> infer_instance

/-! ## What the functions do to the probe -/

theorem armed_readState (now : T) (b : Breaker T) : (readState c now b).armed = b.armed := by
  unfold readState
  split
  · rename_i hopen
    simp [Breaker.armed, hopen.1]
  · rfl

end

omit [Sub T] [LE T] [DecidableLE T] in
@[simp] theorem armed_trip (now : T) (b : Breaker T) : (trip now b).armed = false := rfl

@[simp] theorem state_maybeResetWindow (c : Config T) (now : T) (b : Breaker T) :
    (maybeResetWindow c now b).state = b.state := by
  unfold maybeResetWindow
  split <;> rfl

/-- An allowed request arms a half-open breaker and leaves a closed one as it is; a rejected one arms
nothing. -/
theorem armed_checkState (c : Config T) (now : T) (b : Breaker T) (estimated : Int) :
    ((checkState c now b estimated).1 = true →
        b.armed = false ∧ (checkState c now b estimated).2.armed = (b.state = .halfOpen : Bool)) ∧
      ((checkState c now b estimated).1 = false →
        (checkState c now b estimated).2.armed = b.armed) := by
  unfold checkState
  cases hstate : b.state with
  | closed =>
      have hbefore : b.armed = false := by simp [Breaker.armed, hstate]
      by_cases hspike : c.spikeThreshold < estimated
      · simp [hspike, hbefore]
      · by_cases hbudget : c.windowBudget < (maybeResetWindow c now b).windowConsumed + estimated
        · simp [hspike, hbudget, hbefore]
        · simp [hspike, hbudget, Breaker.armed, hstate]
  | halfOpen =>
      cases hused : b.halfOpenUsed with
      | true | false => simp [Breaker.armed, hstate, hused]
  | opened => simp

omit [Sub T] [LE T] [DecidableLE T] in
theorem armed_recordResponse (c : Config T) (now : T) (b : Breaker T) (used : Int) :
    (recordResponse c now b used).armed = false := by
  unfold recordResponse
  by_cases hstate : b.state = .halfOpen
  · by_cases hused : used ≤ c.spikeThreshold
    · simp [hstate, hused, Breaker.armed]
    · simp [hstate, hused]
  · simp [hstate, Breaker.armed]

variable {c : Config T}

/-- An unarmed breaker allows a request within its limits once the recovery time has passed. -/
theorem checkRequest_allows {now : T} {b : Breaker T} {tokens : Int}
    (harmed : b.armed = false)
    (hrecovered : b.state = .opened → c.recoveryTimeout ≤ now - b.openedAt)
    (hspike : tokens ≤ c.spikeThreshold) (hbudget : WithinBudget c now b tokens) :
    (checkRequest c now b tokens).1 = true := by
  unfold checkRequest
  cases hstate : b.state with
  | closed =>
      have hread : readState c now b = b := if_neg (by simp [hstate])
      have hnospike : ¬ c.spikeThreshold < tokens := by omega
      have hnobudget :
          ¬ c.windowBudget < (maybeResetWindow c now b).windowConsumed + tokens := by
        unfold WithinBudget at hbudget
        omega
      rw [hread]
      simp [checkState, hstate, hnospike, hnobudget]
  | opened =>
      have hread : readState c now b = { b with state := .halfOpen, halfOpenUsed := false } :=
        if_pos ⟨hstate, hrecovered hstate⟩
      rw [hread]
      simp [checkState]
  | halfOpen =>
      have hread : readState c now b = b := if_neg (by simp [hstate])
      have hunused : b.halfOpenUsed = false := by simpa [Breaker.armed, hstate] using harmed
      rw [hread]
      simp [checkState, hstate, hunused]

/-! ## Careful runs -/

/-- What careful runs keep: the probe is out exactly when the breaker is armed. -/
def Kept (s : Router T) : Prop := s.probes = s.breaker.armed.toNat

omit [Sub T] [LE T] [DecidableLE T] in
theorem Kept.new (never now : T) : Kept (Router.new never now) := rfl

variable {s : Router T}

theorem Kept.request (h : Kept s) (tokens : Int) :
    Kept (request c s tokens) := by
  have hread := armed_readState c s.now s.breaker
  obtain ⟨hallowed, hrejected⟩ :=
    armed_checkState c s.now (readState c s.now s.breaker) tokens
  unfold TokenCircuitBreaker.request
  rcases hcheck : checkRequest c s.now s.breaker tokens with ⟨allowed, breaker⟩
  have hcheck' : checkState c s.now (readState c s.now s.breaker) tokens = (allowed, breaker) :=
    hcheck
  rw [hcheck'] at hallowed hrejected
  cases allowed with
  | true =>
      obtain ⟨hbefore, hafter⟩ := hallowed rfl
      have hnone : s.probes = 0 := by
        rw [h, ← hread, hbefore]
        rfl
      show (s.outstanding ++ [_]).countP Call.probe = breaker.armed.toNat
      rw [List.countP_append, hafter]
      show s.probes + _ = _
      rw [hnone]
      by_cases hhalf : (readState c s.now s.breaker).state = .halfOpen
      · simp [hhalf]
      · simp [hhalf]
  | false =>
      show s.probes = (readState c s.now breaker).armed.toNat
      rw [armed_readState, hrejected rfl, hread]
      exact h

omit [Sub T] [LE T] [DecidableLE T] in
theorem Kept.respond (h : Kept s) {call : Call} {rest : List Call}
    (houtstanding : s.outstanding = call :: rest)
    (hcareful : s.breaker.armed = true → call.probe = true) (used : Int) :
    Kept { s with breaker := recordResponse c s.now s.breaker used, outstanding := rest } := by
  have hprobes : (call :: rest).countP Call.probe = s.breaker.armed.toNat := by
    rw [← houtstanding]
    exact h
  show rest.countP Call.probe = (recordResponse c s.now s.breaker used).armed.toNat
  rw [armed_recordResponse]
  rw [List.countP_cons] at hprobes
  cases harmed : s.breaker.armed with
  | true =>
      rw [harmed, hcareful harmed] at hprobes
      simpa using hprobes
  | false =>
      rw [harmed] at hprobes
      simp at hprobes ⊢
      exact hprobes.1

omit [Sub T] [LE T] [DecidableLE T] in
theorem Kept.abandon (h : Kept s) {i : Nat} (hi : i < s.outstanding.length)
    (hcareful : s.outstanding[i].probe = false) :
    Kept { s with outstanding := s.outstanding.eraseIdx i } := by
  have hperm := List.getElem_cons_eraseIdx_perm hi
  have hcount := hperm.countP_eq Call.probe
  rw [List.countP_cons, hcareful] at hcount
  show (s.outstanding.eraseIdx i).countP Call.probe = s.breaker.armed.toNat
  rw [← h]
  show (s.outstanding.eraseIdx i).countP Call.probe = s.outstanding.countP Call.probe
  simpa using hcount

/-- **Step lemma.** -/
theorem kept_of_step {t : Router T} {a : Action T} (h : Kept s)
    (hstep : step c s a = some t) (hcareful : Careful s a t) : Kept t := by
  cases a with
  | advance now =>
      change (if s.now ≤ now then _ else _) = _ at hstep
      split at hstep
      · cases hstep
        exact h
      · cases hstep
  | request tokens =>
      cases hstep
      exact h.request tokens
  | respond tokens =>
      unfold step at hstep
      cases houtstanding : s.outstanding with
      | nil =>
          rw [houtstanding] at hstep
          cases hstep
      | cons call rest =>
          rw [houtstanding] at hstep
          cases hstep
          refine h.respond houtstanding ?_ _
          intro harmed
          exact hcareful harmed call (by rw [houtstanding]; rfl)
  | abandon i =>
      change (if i < s.outstanding.length then _ else _) = _ at hstep
      split at hstep
      · rename_i hi
        cases hstep
        exact h.abandon hi (hcareful _ (List.getElem?_eq_getElem hi))
      · cases hstep

theorem Kept.unwedged (h : Kept s) : Unwedged c s where
  probing hstate hused := by
    rw [h]
    simp [Breaker.armed, hstate, hused]
  single := by
    rw [h]
    exact Bool.toNat_le _
  recovers hnone later _ hrecovered tokens hspike hbudget := by
    refine checkRequest_allows ?_ hrecovered hspike hbudget
    have hzero : s.breaker.armed.toNat = 0 := by
      rw [← h, Router.probes, hnone]
      rfl
    simpa using hzero

/-- **The breaker does not wedge** in a careful run. -/
theorem unwedged_of_careful (c : Config T) (never start : T) {actions : List (Action T)}
    (hcareful : Runs.Always (step c) Careful (Router.new never start) actions) :
    Runs.Throughout (step c) (Unwedged c) (Router.new never start) actions := by
  have hkept : Runs.Throughout (step c) Kept (Router.new never start) actions :=
    Runs.throughout_of_guarded (fun _ _ _ => kept_of_step) (Kept.new never start) hcareful
  exact ⟨hkept.1.unwedged, Runs.Always.mono (fun _ _ _ _ h => h.unwedged) hkept.2⟩

/-- The defaults, in seconds. -/
def defaults : Config Int := ⟨50000, 200000, 300, 60⟩

/-- A spike trips the breaker, a probe closes it after the recovery time, and two chats go on. -/
theorem unwedged_of_careful_probe :
    Runs.Throughout (step defaults) (Unwedged defaults) (Router.new 0 7)
      [.request 60000, .advance 67, .request 100, .request 100, .respond 50, .request 100,
        .request 200, .abandon 1, .respond 20] :=
  unwedged_of_careful defaults 0 7 (by decide)

/-- The provider raises on the probe. -/
theorem unwedged_counterexample :
    ¬ ∀ (c : Config Int) (start : Int) (actions : List (Action Int)),
      Runs.Throughout (step c) (Unwedged c) (Router.new 0 start) actions := by
  intro h
  have hall := h defaults 7 [.request 60000, .advance 67, .request 100, .abandon 0]
  have hlast : ∃ t, Runs.exec (step defaults) (Router.new 0 7)
      [.request 60000, .advance 67, .request 100, .abandon 0] = some t ∧
      t.breaker.state = .halfOpen ∧ t.breaker.halfOpenUsed = true ∧ t.probes = 0 :=
    ⟨_, rfl, by decide⟩
  obtain ⟨t, hrun, hstate, hused, hprobes⟩ := hlast
  have hone := (hall.exec hrun).probing hstate hused
  rw [hprobes] at hone
  cases hone

/-- No call raises: a call from before the trip responds in the place of the probe and trips again. -/
example : (Runs.exec (step defaults) (Router.new 0 7)
    [.request 40000, .request 60000, .advance 67, .request 100, .respond 20000, .advance 127,
      .request 100]).map Router.probes = some 2 := by decide

end SkyClaw.Agent.TokenCircuitBreaker
