import Mathlib.Tactic.Linarith
import SkyClaw.Lib.Runs
import SkyClaw.Orchestrator.SyncFetch

/-!
# The circuit breaker of the masterlist

`_CircuitBreaker` under `MasterlistClient.fetch_mod_info`.  A fetch asks the breaker, calls the
gateway and tells the breaker how it went, unless it ends with an exception that neither handler
takes.  `always_guards_iff` says that the breaker does what it is for exactly in the runs without
such an exception.  Fetches may overlap; between the check and the call nothing is awaited.
-/

namespace SkyClaw.Scraper.MasterlistBreaker

open Orchestrator

/-! ## The breaker -/

/-- `_state` -/
inductive Circuit
  | closed
  | opened
  | halfOpen
deriving DecidableEq

structure CircuitBreaker where
  failureThreshold : Int
  recoveryTimeout : ℚ
  failureCount : Nat
  lastFailureTime : ℚ
  circuit : Circuit

def cbFailureThreshold : Int := 5

def cbRecoveryTimeout : ℚ := 60

namespace CircuitBreaker

section

variable (breaker : CircuitBreaker)

def reset : CircuitBreaker :=
  { breaker with failureCount := 0, lastFailureTime := 0, circuit := .closed }

def init (failureThreshold : Int) (recoveryTimeout : ℚ) : CircuitBreaker :=
  reset ⟨failureThreshold, recoveryTimeout, 0, 0, .closed⟩

/-- Reading `state` makes OPEN to HALF-OPEN once the recovery timeout has elapsed. -/
def promoted (now : ℚ) : CircuitBreaker :=
  if breaker.circuit = .opened ∧ breaker.recoveryTimeout ≤ now - breaker.lastFailureTime then
    { breaker with circuit := .halfOpen }
  else breaker

def recordSuccess : CircuitBreaker :=
  { breaker with failureCount := 0, circuit := .closed }

def recordFailure (now : ℚ) : CircuitBreaker :=
  { breaker with
    failureCount := breaker.failureCount + 1
    lastFailureTime := now
    circuit := if breaker.failureThreshold ≤ breaker.failureCount + 1 then .opened
      else breaker.circuit }

/-- `allow_request`, of the breaker that `state` leaves. -/
def allowRequest (now : ℚ) : Bool :=
  (breaker.promoted now).circuit = .closed || (breaker.promoted now).circuit = .halfOpen

end

end CircuitBreaker

/-- The two handlers of `fetch_mod_info`. -/
def handled (e : Raised) : Bool :=
  e.isinstance [.masterlistFetchError] || e.isinstance [.clientError, .osError, .timeoutError]

/-- What a fetch that was let through tells the breaker. -/
def recordResult (breaker : CircuitBreaker) (now : ℚ) (result : Except Raised Json) :
    CircuitBreaker :=
  match result with
  | .ok _ => breaker.recordSuccess
  | .error e => if handled e then breaker.recordFailure now else breaker

/-! ## Fetches -/

/-- A client, with what has happened to its fetches. -/
structure State where
  breaker : CircuitBreaker
  /-- `time.monotonic()` -/
  now : ℚ
  /-- the mods whose fetches have called the gateway and not come back -/
  pending : List Int
  /-- how often the gateway was called -/
  requests : Nat
  /-- how many fetches have failed since the last success -/
  consecutive : Nat
  lastFailure : ℚ

inductive Action
  | ticks (seconds : ℚ≥0)
  /-- `circuit_state` is read. -/
  | observes
  /-- `fetch_mod_info` is called. -/
  | fetches (modId : Int)
  /-- The request of a fetch goes so. -/
  | responds (i : Nat) (request : LastHop)

/-- The result of a fetch that was let through. -/
def resultOf (modId : Int) (request : LastHop) : Except Raised Json :=
  fetchModInfo modId ⟨true, request⟩

def fetches (s : State) (modId : Int) : State :=
  if s.breaker.allowRequest s.now then
    { s with
      breaker := s.breaker.promoted s.now
      pending := s.pending ++ [modId]
      requests := s.requests + 1 }
  else { s with breaker := s.breaker.promoted s.now }

def responds (s : State) (i : Nat) (modId : Int) (request : LastHop) : State :=
  let result := resultOf modId request
  let settled : State :=
    { s with breaker := recordResult s.breaker s.now result, pending := s.pending.eraseIdx i }
  match result with
  | .ok _ => { settled with consecutive := 0 }
  | .error _ => { settled with consecutive := s.consecutive + 1, lastFailure := s.now }

def step (s : State) : Action → Option State
  | .ticks seconds => some { s with now := s.now + seconds }
  | .observes => some { s with breaker := s.breaker.promoted s.now }
  | .fetches modId => some (fetches s modId)
  | .responds i request => s.pending[i]?.map fun modId => responds s i modId request

def start (failureThreshold : Int) (recoveryTimeout now : ℚ) : State where
  breaker := .init failureThreshold recoveryTimeout
  now := now
  pending := []
  requests := 0
  consecutive := 0
  lastFailure := 0

/-- The configured number of consecutive failures is reached. -/
def State.Due (s : State) : Prop :=
  0 < s.consecutive ∧ s.breaker.failureThreshold ≤ s.consecutive

/-- And the recovery time has not passed since the last of them. -/
def State.Blocked (s : State) : Prop :=
  s.Due ∧ s.now - s.lastFailure < s.breaker.recoveryTimeout

/-- **The breaker guards**: failures are counted and successes reset the count, the circuit opens
with the configured number of failures, and a fetch calls the gateway unless it is blocked. -/
structure Guards (s : State) (action : Action) (t : State) : Prop where
  count : t.breaker.failureCount = t.consecutive
  opens : t.breaker.circuit ≠ .closed ↔ t.Due
  /-- a failure opens it again -/
  failure : t.consecutive = s.consecutive + 1 → t.Due → t.breaker.circuit = .opened
  blocked : s.Blocked → t.requests = s.requests
  sends : ∀ modId, action = .fetches modId → ¬s.Blocked → t.requests = s.requests + 1


/-- The request does not time out, and what it raises otherwise one of the handlers takes. -/
def Counted : LastHop → Prop
  | .refused e => handled e = true
  | .sent _ (.error e) => e.isinstance [.timeoutError] = false ∧ handled e = true
  | .sent _ (.ok response) =>
      if response.status ≠ 200 then ∀ e, response.text = .error e → handled e = true
      else ∀ e, response.json = .error e → handled e = true

/-- The requests that come back in this step are counted. -/
def Orderly : Action → Prop
  | .responds _ request => Counted request
  | _ => True

/-! ## How a fetch ends -/

theorem handled_gatewayTimeout (text : String) :
    handled ⟨.networkGatewayTimeoutError, text⟩ = false := rfl

variable {url : String}

theorem resultOf_timeout {modId : Int} {raised : Raised}
    (h : raised.isinstance [.timeoutError] = true) :
    resultOf modId (.sent url (.error raised)) = .error ⟨.networkGatewayTimeoutError,
      "La petición a " ++ url ++ " excedió el tiempo límite."⟩ := by
  simp only [resultOf, fetchModInfo, LastHop.result, h]
  rfl

theorem resultOf_raises {modId : Int} {raised : Raised}
    (h : raised.isinstance [.timeoutError] = false) :
    resultOf modId (.sent url (.error raised)) = .error raised := by
  simp only [resultOf, fetchModInfo, LastHop.result, h]
  rfl

theorem resultOf_answers (modId : Int) (url : String) (response : ModResponse) :
    resultOf modId (.sent url (.ok response)) =
      if response.status ≠ 200 then response.text.bind fun body =>
        .error ⟨.masterlistFetchError, "HTTP " ++ toString response.status ++
          " for mod " ++ toString modId ++ ": " ++ String.ofList (body.toList.take 200)⟩
      else response.json := rfl

theorem forall_error_iff {α : Type} (raised : Raised) :
    (∀ e, (Except.error raised : Except Raised α) = .error e → handled e = true) ↔
      handled raised = true := by
  constructor
  · exact fun h => h raised rfl
  · intro h e he
    cases he
    exact h

/-- **Which requests are counted.** -/
theorem counted_iff (modId : Int) (request : LastHop) :
    Counted request ↔ ∀ e, resultOf modId request = .error e → handled e = true := by
  cases request with
  | refused raised => exact (forall_error_iff raised).symm
  | sent url reply =>
      cases reply with
      | error raised =>
          show raised.isinstance [.timeoutError] = false ∧ handled raised = true ↔ _
          cases htimeout : raised.isinstance [.timeoutError] with
          | true =>
              -- What the gateway raises for a timeout passes every handler of `fetch_mod_info`.
              rw [resultOf_timeout htimeout, forall_error_iff, handled_gatewayTimeout]
              exact iff_of_false (fun h => by cases h.1) nofun
          | false =>
              rw [resultOf_raises htimeout, forall_error_iff]
              exact and_iff_right rfl
      | ok response =>
          show (if response.status ≠ 200 then ∀ e, response.text = .error e → handled e = true
            else ∀ e, response.json = .error e → handled e = true) ↔ _
          rw [resultOf_answers]
          by_cases hstatus : response.status ≠ 200
          · rw [if_pos hstatus, if_pos hstatus]
            cases response.text with
            | error raised => exact (forall_error_iff raised).trans (forall_error_iff raised).symm
            | ok body => exact iff_of_true nofun ((forall_error_iff _).mpr rfl)
          · rw [if_neg hstatus, if_neg hstatus]

/-! ## Along a run -/

structure Sound (s : State) : Prop where
  count : s.breaker.failureCount = s.consecutive
  opens : s.breaker.circuit ≠ .closed ↔ s.Due
  last : 0 < s.consecutive → s.breaker.lastFailureTime = s.lastFailure
  recovered : s.breaker.circuit = .halfOpen → s.breaker.recoveryTimeout ≤ s.now - s.lastFailure

theorem sound_start (failureThreshold : Int) (recoveryTimeout now : ℚ) :
    Sound (start failureThreshold recoveryTimeout now) where
  count := rfl
  opens := iff_of_false (fun h => h rfl) fun h => absurd h.1 (Nat.lt_irrefl 0)
  last := nofun
  recovered := nofun

section Steps

variable {s : State}

theorem allowRequest_iff (h : Sound s) : s.breaker.allowRequest s.now = true ↔ ¬s.Blocked := by
  unfold CircuitBreaker.allowRequest CircuitBreaker.promoted State.Blocked
  cases hcircuit : s.breaker.circuit with
  | closed =>
      have hdue : ¬s.Due := fun hdue => h.opens.mpr hdue hcircuit
      simp [hdue, hcircuit]
  | halfOpen =>
      have hpassed := h.recovered hcircuit
      simp [hcircuit, hpassed]
  | opened =>
      have hdue : s.Due := h.opens.mp (by rw [hcircuit]; nofun)
      have hlast := h.last hdue.1
      rw [hlast]
      by_cases hpassed : s.breaker.recoveryTimeout ≤ s.now - s.lastFailure
      · simp [hpassed]
      · simp [hpassed, hcircuit, hdue]

theorem sound_promoted (h : Sound s) : Sound { s with breaker := s.breaker.promoted s.now } := by
  unfold CircuitBreaker.promoted
  split
  · next hpassed =>
      have hdue : s.Due := h.opens.mp (by rw [hpassed.1]; nofun)
      have hlast := h.last hdue.1
      refine ⟨h.count, iff_of_true nofun hdue, fun _ => hlast, fun _ => ?_⟩
      show s.breaker.recoveryTimeout ≤ s.now - s.lastFailure
      rw [← hlast]
      exact hpassed.2
  · exact h

theorem sound_ticks (h : Sound s) (seconds : ℚ≥0) : Sound { s with now := s.now + seconds } := by
  refine ⟨h.count, h.opens, h.last, fun hcircuit => ?_⟩
  have hpassed := h.recovered hcircuit
  have hforward : (0 : ℚ) ≤ seconds := seconds.2
  show s.breaker.recoveryTimeout ≤ s.now + seconds - s.lastFailure
  linarith

theorem sound_fetches (h : Sound s) (modId : Int) : Sound (fetches s modId) := by
  have hpromoted := sound_promoted h
  unfold fetches
  split
  · exact ⟨hpromoted.count, hpromoted.opens, hpromoted.last, hpromoted.recovered⟩
  · exact hpromoted

variable {i : Nat}

theorem responds_ok {modId : Int} {request : LastHop} {data : Json}
    (hresult : resultOf modId request = .ok data) :
    responds s i modId request =
      { s with
        breaker := s.breaker.recordSuccess
        pending := s.pending.eraseIdx i
        consecutive := 0 } := by
  unfold responds
  rw [hresult]
  rfl

variable {e : Raised}

theorem responds_error {modId : Int} {request : LastHop}
    (hresult : resultOf modId request = .error e) :
    responds s i modId request =
      { s with
        breaker := if handled e then s.breaker.recordFailure s.now else s.breaker
        pending := s.pending.eraseIdx i
        consecutive := s.consecutive + 1
        lastFailure := s.now } := by
  unfold responds
  rw [hresult]
  rfl

theorem sound_responds_ok {modId : Int} {request : LastHop} {data : Json}
    (hresult : resultOf modId request = .ok data) : Sound (responds s i modId request) := by
  rw [responds_ok hresult]
  exact ⟨rfl, iff_of_false (fun hcircuit => hcircuit rfl) fun hdue => absurd hdue.1 (lt_irrefl 0),
    nofun, nofun⟩

/-- A counted failure opens the circuit if it was the last one of those configured. -/
theorem sound_responds_error (h : Sound s) {modId : Int} {request : LastHop}
    (hresult : resultOf modId request = .error e) (hhandled : handled e = true) :
    Sound (responds s i modId request) ∧ ((responds s i modId request).Due →
      (responds s i modId request).breaker.circuit = .opened) := by
  rw [responds_error hresult, if_pos hhandled]
  have hcount : ((s.breaker.failureCount + 1 : Nat) : Int) = (s.consecutive + 1 : Nat) := by
    rw [h.count]
  unfold CircuitBreaker.recordFailure State.Due
  by_cases hreached : s.breaker.failureThreshold ≤ s.breaker.failureCount + 1
  · have hdue : s.breaker.failureThreshold ≤ ((s.consecutive + 1 : Nat) : Int) := by omega
    rw [if_pos hreached]
    refine ⟨⟨congrArg (· + 1) h.count, iff_of_true nofun ⟨Nat.succ_pos _, hdue⟩, fun _ => rfl,
      nofun⟩, fun _ => rfl⟩
  · -- One failure less was not enough either, so the circuit is closed.
    have hearly : ¬s.breaker.failureThreshold ≤ ((s.consecutive + 1 : Nat) : Int) := by omega
    have hclosed : s.breaker.circuit = .closed := by
      by_contra hcircuit
      have hdue := (h.opens.mp hcircuit).2
      omega
    rw [if_neg hreached]
    refine ⟨⟨congrArg (· + 1) h.count, iff_of_false (fun hcircuit => hcircuit hclosed)
      fun hdue => hearly hdue.2, fun _ => rfl, fun hhalf => ?_⟩, fun hdue => absurd hdue.2 hearly⟩
    rw [show _ = Circuit.closed from hclosed] at hhalf
    cases hhalf

variable {action : Action} {t : State}

/-- **A step keeps the breaker right** if what comes back in it is counted. -/
theorem sound_step (h : Sound s) (hstep : step s action = some t)
    (horderly : Orderly action) : Sound t := by
  cases action with
  | ticks seconds =>
      cases hstep
      exact sound_ticks h seconds
  | observes =>
      cases hstep
      exact sound_promoted h
  | fetches modId =>
      cases hstep
      exact sound_fetches h modId
  | responds i request =>
      obtain ⟨modId, -, rfl⟩ := Option.map_eq_some_iff.mp hstep
      cases hresult : resultOf modId request with
      | ok data => exact sound_responds_ok hresult
      | error e =>
          have hhandled := (counted_iff modId request).mp horderly e hresult
          exact (sound_responds_error h hresult hhandled).1

theorem requests_fetches (h : Sound s) (modId : Int) :
    (s.Blocked → (fetches s modId).requests = s.requests) ∧
      (¬s.Blocked → (fetches s modId).requests = s.requests + 1) := by
  have hallowed := allowRequest_iff h
  unfold fetches
  constructor
  · intro hblocked
    rw [if_neg fun hallow => hallowed.mp hallow hblocked]
  · intro hfree
    rw [if_pos (hallowed.mpr hfree)]

/-- A fetch that comes back keeps the promise exactly if it is counted. -/
theorem guards_responds_iff (h : Sound s) (i : Nat) (modId : Int) (request : LastHop) :
    Guards s (.responds i request) (responds s i modId request) ↔ Counted request := by
  have hcounted := counted_iff modId request
  cases hresult : resultOf modId request with
  | ok data =>
      have hsound := sound_responds_ok (s := s) (i := i) hresult
      have horderly : Counted request := by
        refine hcounted.mpr fun e he => ?_
        rw [hresult] at he
        cases he
      refine iff_of_true ⟨hsound.count, hsound.opens, fun hmore => ?_, fun _ => ?_, nofun⟩ horderly
      · rw [responds_ok hresult] at hmore
        cases hmore
      · rw [responds_ok hresult]
  | error e =>
      cases hhandled : handled e with
      | true =>
          obtain ⟨hsound, hopened⟩ := sound_responds_error h (i := i) hresult hhandled
          have horderly : Counted request := by
            refine hcounted.mpr fun e' he' => ?_
            rw [hresult] at he'
            cases he'
            exact hhandled
          refine iff_of_true ⟨hsound.count, hsound.opens, fun _ => hopened, fun _ => ?_, nofun⟩
            horderly
          rw [responds_error hresult]
      | false =>
          -- The failure has passed the breaker by, which stays behind the count.
          refine iff_of_false (fun hguards => ?_) fun horderly => ?_
          · have hcount := hguards.count
            rw [responds_error hresult, hhandled] at hcount
            have hbehind : s.breaker.failureCount = s.consecutive + 1 := hcount
            have hlast := h.count
            omega
          · rw [hcounted.mp horderly e hresult] at hhandled
            cases hhandled

/-- From a sound state, a step keeps the promise exactly if what comes back in it is counted. -/
theorem guards_iff (h : Sound s) (hstep : step s action = some t) :
    Guards s action t ↔ Orderly action := by
  have hsame : t.consecutive = s.consecutive → t.requests = s.requests → Sound t →
      (∀ modId, action ≠ .fetches modId) → Guards s action t := by
    intro hconsecutive hrequests hsound hother
    refine ⟨hsound.count, hsound.opens, fun hmore => ?_, fun _ => hrequests,
      fun modId haction => absurd haction (hother modId)⟩
    omega
  cases action with
  | ticks seconds =>
      cases hstep
      exact iff_of_true (hsame rfl rfl (sound_ticks h seconds) nofun) trivial
  | observes =>
      cases hstep
      exact iff_of_true (hsame rfl rfl (sound_promoted h) nofun) trivial
  | fetches modId =>
      cases hstep
      have hsound := sound_fetches h modId
      obtain ⟨hblocked, hfree⟩ := requests_fetches h modId
      have hconsecutive : (fetches s modId).consecutive = s.consecutive := by
        unfold fetches
        split
        · rfl
        · rfl
      refine iff_of_true ⟨hsound.count, hsound.opens, fun hmore => ?_, hblocked,
        fun _ haction => ?_⟩ trivial
      · omega
      · cases haction
        exact hfree
  | responds i request =>
      obtain ⟨modId, -, rfl⟩ := Option.map_eq_some_iff.mp hstep
      exact guards_responds_iff h i modId request

end Steps

/-- **The breaker guards exactly where every failure is counted**: for any settings, any mods,
whatever their requests come to, in any order and at any times. -/
theorem always_guards_iff (failureThreshold : Int) (recoveryTimeout now : ℚ)
    (schedule : List Action) :
    Runs.Always step Guards (start failureThreshold recoveryTimeout now) schedule ↔
      Runs.Always step (fun _ action _ => Orderly action)
        (start failureThreshold recoveryTimeout now) schedule := by
  have hstart := sound_start failureThreshold recoveryTimeout now
  refine Runs.always_iff_of_guarded ?_ ?_ hstart schedule
  · intro s action t h hstep horderly
    exact sound_step h hstep horderly
  · intro s action t h hstep
    exact guards_iff h hstep

/-- A request that times out. -/
def timesOut : LastHop :=
  .sent "https://api.nexusmods.com/v1/games/skyrimspecialedition/mods/266.json"
    (.error ⟨.timeoutError, ""⟩)

/-- As many fetches as the threshold, each of which times out. -/
def timeouts : List Action :=
  (List.replicate 5 [Action.fetches 266, .ticks 45, .responds 0 timesOut]).flatten

/-- **The circuit stays closed**, and the next fetch is sent. -/
theorem guards_counterexample :
    ¬Runs.Always step Guards (start cbFailureThreshold cbRecoveryTimeout 0)
      (timeouts ++ [.fetches 266]) := by
  intro h
  obtain ⟨s, hrun, hdue, hnow, htimeout, hrequests⟩ : ∃ s,
      Runs.exec step (start cbFailureThreshold cbRecoveryTimeout 0) timeouts = some s ∧ s.Due ∧
        s.lastFailure = s.now ∧ s.breaker.recoveryTimeout = cbRecoveryTimeout ∧
          (fetches s 266).requests = s.requests + 1 :=
    ⟨_, rfl, ⟨by decide, by decide⟩, rfl, rfl, rfl⟩
  have hblocked : s.Blocked := by
    refine ⟨hdue, ?_⟩
    rw [hnow, sub_self, htimeout]
    norm_num [cbRecoveryTimeout]
  have hlast := (h.at_prefix hrun rfl).blocked hblocked
  rw [hrequests] at hlast
  omega

end SkyClaw.Scraper.MasterlistBreaker
