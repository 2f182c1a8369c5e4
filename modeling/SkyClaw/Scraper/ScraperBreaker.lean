import Mathlib.Data.NNRat.Lemmas
import Mathlib.Tactic.Positivity
import SkyClaw.Lib.Interleave
import SkyClaw.Lib.Json
import SkyClaw.Lib.PyStr
import SkyClaw.Lib.Runs

/-!
# The persistent circuit breaker of the scraper

`ScraperAgent.query_nexus` with the row of its domain in `scraper_state`.  A query reads the row,
checks the lock and sends its requests; when it fails it stores what it has read plus one.
`always_counts_iff` says which runs keep the count and the lock as they should be.
-/

namespace SkyClaw.Scraper.ScraperBreaker

/-! ## Metadata -/

/-- The exceptions that come out of the gateway, the HTTP layer and the validation. -/
inductive Failure
  | clientError
  | timeoutError
  | valueError
  | validationError
  | egressViolation
  | gatewayTimeout
  | attributeError
  | typeError
  | overflowError
deriving DecidableEq

/-- `retry_if_exception_type` -/
def Failure.retried : Failure → Bool
  | clientError => true
  | timeoutError => true
  | _ => false

/-- The exceptions that `query_nexus` catches. -/
def Failure.counted : Failure → Bool
  | timeoutError => true
  | clientError => true
  | valueError => true
  | validationError => true
  | _ => false

structure ScrapingQuery where
  query : String
  modId : Option Nat
  forceStealth : Bool

structure ModMetadata where
  modId : Int
  name : String
  version : String
  category : String
  author : String
  dependencies : List Int
  description : Option String

def categories : List String := ["armor", "weapon", "quest", "interface", "gameplay", "other"]

/-- `^\d+\.\d+\.\d+$` -/
def isVersion (text : String) : Bool :=
  let parts := PyStr.split '.' text
  parts.length = 3 && parts.all fun part =>
    part ≠ "" && part.toList.all fun c => (PyStr.decimal c).isSome

/-- `re.sub(r'[<>"\'\n\r]', "", v).strip()` -/
def sanitizeName (name : String) : String :=
  PyStr.strip <| String.ofList <| name.toList.filter fun c =>
    c.toNat ∉ [0x3C, 0x3E, 0x22, 0x27, 0x0A, 0x0D]

def asText : Json → Option String
  | .str text => some text
  | _ => none

def asOptionalText : Json → Option (Option String)
  | .null => some none
  | .str text => some (some text)
  | _ => none

def asInts : Json → Option (List Int)
  | .arr items => items.mapM fun
      | .int n => some n
      | _ => none
  | _ => none

/-- The model of the metadata, which is strict. -/
def validate (modId : Int) (name version category author dependencies description : Json) :
    Except Failure ModMetadata :=
  let validated : Option ModMetadata := do
    let name ← asText name
    let version ← asText version
    let category ← asText category
    let author ← asText author
    let dependencies ← asInts dependencies
    let description ← asOptionalText description
    if 0 < modId ∧ 1 ≤ name.length ∧ name.length ≤ 200 ∧ isVersion version ∧ category ∈ categories ∧
        author.length ≤ 100 ∧ description.all (·.length ≤ 2000) then
      some ⟨modId, sanitizeName name, version, category, author, dependencies, description⟩
    else none
  match validated with
  | some metadata => .ok metadata
  | none => .error .validationError

/-- `int(value)`; `infinite` says which of the floats that are not finite it is. -/
def intOf (infinite : Bool) : Json → Except Failure Int
  | .bool value => .ok (if value then 1 else 0)
  | .int value => .ok value
  | .float (some value) => .ok (value.num.tdiv value.den)
  | .float none => .error (if infinite then .overflowError else .valueError)
  | .str text => match PyStr.int text with
      | some value => .ok value
      | none => .error .valueError
  | _ => .error .typeError

/-- `a or b` -/
def or (a b : Json) : Json := if a.truthy then a else b

/-- `_build_mod_metadata` of a result of the API. -/
def buildModMetadata (data : Json) (infinite : Bool) (query : ScrapingQuery) :
    Except Failure ModMetadata :=
  if data.truthy = false then .error .valueError
  else match data with
    | .obj fields =>
        let get (key : String) (fallback : Json) : Json := (fields.lookup key).getD fallback
        let queried : Json := match query.modId with
          | some modId => .int modId
          | none => .null
        let modId := or (get "nexus_id" .null) (or (get "mod_id" .null) queried)
        if modId.truthy = false then .error .valueError
        else match intOf infinite modId with
          | .ok modId =>
              validate modId (or (get "name" .null) (or (get "title" .null) (.str query.query)))
                (get "version" (.str "1.0.0")) (get "category" (.str "other"))
                (get "author" (.str "Unknown")) (get "dependencies" (.arr []))
                (get "description" .null)
          | .error failure => .error failure
    | _ => .error .attributeError

/-- What is returned where scraping is blocked. -/
def placeholder (query : ScrapingQuery) : Except Failure ModMetadata :=
  let modId : Nat := match query.modId with
    | some modId => if modId = 0 then 999999 else modId
    | none => 999999
  validate modId (.str ("[ToS_Blocked] " ++ query.query)) (.str "0.0.0") (.str "other")
    (.str "N/A - ToS Blocked") (.arr [])
    (.str "Scraping evasivo deshabilitado por cumplimiento ToS Nexus Mods")

/-! ## Queries -/

structure Row where
  failures : Nat
  lockedUntil : ℚ≥0
deriving DecidableEq

structure Agent where
  nexusApiKey : Option String
  maxFailures : Nat := 3

/-- What comes of one request. -/
inductive Response
  | raises (failure : Failure)
  /-- The body as JSON. -/
  | answers (data : Json) (infinite : Bool)

inductive Outcome
  | returned (metadata : ModMetadata)
  | raised (failure : Failure)
  | tripped (lockedUntil : ℚ≥0)

inductive Phase
  | fresh
  /-- The row has been read. -/
  | checking (read : Row)
  /-- The next request is not sent yet. -/
  | sending (read : Row) (attempt : Nat)
  | waiting (read : Row) (attempt : Nat)
  /-- Awaits `update_circuit_breaker`. -/
  | failing (newFailures : Nat) (lockTime : ℚ≥0) (failure : Failure)
  | done (outcome : Outcome)

structure Call where
  query : ScrapingQuery
  phase : Phase

structure Shared where
  row : Option Row
  /-- `time.time()` -/
  now : ℚ≥0
  /-- how many queries have failed -/
  failed : Nat
  /-- how many have failed since the last success -/
  sinceSuccess : Nat
  /-- how often a lock was stored -/
  locksSet : Nat

/-- `get_circuit_breaker_state` -/
def Shared.stored (shared : Shared) : Row := shared.row.getD ⟨0, 0⟩

inductive Event
  | reads
  | checks
  | sends
  | responds (response : Response)
  | stores

def maxAttempts : Nat := 5

section Breaker

variable (agent : Agent)

/-- The API is used. -/
def usesApi (query : ScrapingQuery) : Bool :=
  !query.forceStealth && agent.nexusApiKey.any (· ≠ "")

/-- An exception inside the `try`. -/
def fails (failure : Failure) (read : Row) (shared : Shared) (call : Call) : Shared × Call :=
  if failure.counted then
    let newFailures := read.failures + 1
    let lockTime := if agent.maxFailures ≤ newFailures then shared.now + 300 * newFailures else 0
    (shared, { call with phase := .failing newFailures lockTime failure })
  else
    ({ shared with failed := shared.failed + 1, sinceSuccess := shared.sinceSuccess + 1 },
      { call with phase := .done (.raised failure) })

/-- Behind the check of the lock. -/
def checks (read : Row) (shared : Shared) (call : Call) : Shared × Call :=
  if shared.now < read.lockedUntil then
    (shared, { call with phase := .done (.tripped read.lockedUntil) })
  else if usesApi agent call.query then (shared, { call with phase := .sending read 1 })
  else match placeholder call.query with
    | .ok metadata => (shared, { call with phase := .done (.returned metadata) })
    | .error failure => fails agent failure read shared call

/-- What comes of the `attempt`th request. -/
def responds (response : Response) (read : Row) (attempt : Nat) (shared : Shared) (call : Call) :
    Shared × Call :=
  match response with
  | .raises failure =>
      if failure.retried && attempt < maxAttempts then
        (shared, { call with phase := .sending read (attempt + 1) })
      else fails agent failure read shared call
  | .answers data infinite =>
      match buildModMetadata data infinite call.query with
      | .ok metadata =>
          ({ shared with sinceSuccess := 0 }, { call with phase := .done (.returned metadata) })
      | .error failure => fails agent failure read shared call

/-- `update_circuit_breaker` -/
def stores (newFailures : Nat) (lockTime : ℚ≥0) (failure : Failure) (shared : Shared)
    (call : Call) : Shared × Call :=
  ({ shared with
      row := some ⟨newFailures, lockTime⟩
      failed := shared.failed + 1
      sinceSuccess := shared.sinceSuccess + 1
      locksSet := shared.locksSet + if lockTime = 0 then 0 else 1 },
    { call with phase := .done (.raised failure) })

def next (event : Event) (shared : Shared) (call : Call) : Option (Shared × Call) :=
  match call.phase, event with
  | .fresh, .reads => some (shared, { call with phase := .checking shared.stored })
  | .checking read, .checks => some (checks agent read shared call)
  | .sending read attempt, .sends => some (shared, { call with phase := .waiting read attempt })
  | .waiting read attempt, .responds response =>
      some (responds agent response read attempt shared call)
  | .failing newFailures lockTime failure, .stores =>
      some (stores newFailures lockTime failure shared call)
  | _, _ => none

structure State where
  shared : Shared
  calls : List Call

inductive Action
  | ticks (seconds : ℚ≥0)
  | query (i : Nat) (event : Event)

def step (s : State) : Action → Option State
  | .ticks seconds => some { s with shared := { s.shared with now := s.shared.now + seconds } }
  | .query i event =>
      (Interleave.stepAt (next agent event) s.shared s.calls i).map fun after => ⟨after.1, after.2⟩

/-- What earlier runs have left in the database, and the queries that will be made. -/
def start (row : Option Row) (now : ℚ≥0) (queries : List ScrapingQuery) : State where
  shared := ⟨row, now, 0, (row.getD ⟨0, 0⟩).failures, 0⟩
  calls := queries.map fun query => ⟨query, .fresh⟩

/-- **The breaker counts**, locks and is respected. -/
structure Counts (s : State) (action : Action) (t : State) : Prop where
  count : t.shared.stored.failures = t.shared.sinceSuccess
  lock : t.shared.locksSet = s.shared.locksSet +
    if t.shared.failed ≠ s.shared.failed ∧ agent.maxFailures ≤ t.shared.sinceSuccess then 1 else 0
  request : ∀ i, action = .query i .sends → s.shared.stored.lockedUntil ≤ s.shared.now

/-- The steps at which the breaker is not overtaken. -/
structure Orderly (s : State) (action : Action) : Prop where
  /-- every exception that ends a query is one of those that are caught -/
  caught : ∀ (i : Nat) (failure : Failure) (call : Call), action = .query i (.responds (.raises failure)) →
    s.calls[i]? = some call → failure.counted = true
  built : ∀ (i : Nat) (data : Json) (infinite : Bool) (failure : Failure) (call : Call),
    action = .query i (.responds (.answers data infinite)) → s.calls[i]? = some call →
    buildModMetadata data infinite call.query = .error failure → failure.counted = true
  /-- no query succeeds while failures are stored -/
  success : ∀ (i : Nat) (data : Json) (infinite : Bool) (metadata : ModMetadata) (call : Call),
    action = .query i (.responds (.answers data infinite)) → s.calls[i]? = some call →
    buildModMetadata data infinite call.query = .ok metadata → s.shared.stored.failures = 0
  /-- a query stores its failure only on top of the count that it has read -/
  store : ∀ (i newFailures : Nat) (lockTime : ℚ≥0) (failure : Failure) (call : Call),
    action = .query i .stores → s.calls[i]? = some call →
    call.phase = .failing newFailures lockTime failure →
    newFailures = s.shared.stored.failures + 1
  /-- a request is sent only under the row that was read, or when the lock has passed -/
  request : ∀ (i : Nat) (read : Row) (attempt : Nat) (call : Call), action = .query i .sends →
    s.calls[i]? = some call → call.phase = .sending read attempt →
    read = s.shared.stored ∨ s.shared.stored.lockedUntil ≤ s.shared.now

variable {agent : Agent}

/-! ## What a step does -/

/-- What a query knows of the row. -/
structure Call.Ok (agent : Agent) (shared : Shared) (call : Call) : Prop where
  passed : ∀ read attempt, call.phase = .sending read attempt ∨ call.phase = .waiting read attempt →
    read.lockedUntil ≤ shared.now
  lock : ∀ newFailures lockTime failure, call.phase = .failing newFailures lockTime failure →
    (lockTime = 0 ↔ ¬agent.maxFailures ≤ newFailures)

/-- What a step of a query does to the counts. -/
inductive Effect (event : Event) (shared : Shared) (call : Call) : Shared → Prop
  | same
      (raises : ∀ failure, event = .responds (.raises failure) → failure.counted = true)
      (answers : ∀ data infinite, event = .responds (.answers data infinite) →
        ∃ failure, buildModMetadata data infinite call.query = .error failure ∧
          failure.counted = true)
      (stores : event ≠ .stores) : Effect event shared call shared
  | uncounted (failure : Failure) (counted : failure.counted = false)
      (responds : event = .responds (.raises failure) ∨ ∃ data infinite,
        event = .responds (.answers data infinite) ∧
          buildModMetadata data infinite call.query = .error failure) :
      Effect event shared call
        { shared with failed := shared.failed + 1, sinceSuccess := shared.sinceSuccess + 1 }
  | success (data : Json) (infinite : Bool) (metadata : ModMetadata)
      (responds : event = .responds (.answers data infinite))
      (build : buildModMetadata data infinite call.query = .ok metadata) :
      Effect event shared call { shared with sinceSuccess := 0 }
  | stores (newFailures : Nat) (lockTime : ℚ≥0) (failure : Failure) (stores : event = .stores)
      (failing : call.phase = .failing newFailures lockTime failure) :
      Effect event shared call (ScraperBreaker.stores newFailures lockTime failure shared call).1

variable {shared : Shared}

theorem ok_of_done {call : Call} {outcome : Outcome}
    (h : call.phase = .done outcome) : call.Ok agent shared := by
  constructor
  · intro read attempt hphase
    rw [h] at hphase
    rcases hphase with hphase | hphase <;> cases hphase
  · intro newFailures lockTime failure hphase
    rw [h] at hphase
    cases hphase

theorem ok_of_passed {call : Call} {read : Row} {attempt : Nat}
    (h : call.phase = .sending read attempt ∨ call.phase = .waiting read attempt)
    (hpassed : read.lockedUntil ≤ shared.now) : call.Ok agent shared := by
  constructor
  · intro read' attempt' hphase
    rcases h with h | h
    · rw [h] at hphase
      rcases hphase with hphase | hphase
      · cases hphase
        exact hpassed
      · cases hphase
    · rw [h] at hphase
      rcases hphase with hphase | hphase
      · cases hphase
      · cases hphase
        exact hpassed
  · intro newFailures lockTime failure hphase
    rcases h with h | h
    · rw [h] at hphase
      cases hphase
    · rw [h] at hphase
      cases hphase

variable {failure : Failure}

theorem ok_fails {read : Row} {call : Call} :
    (fails agent failure read shared call).2.Ok agent (fails agent failure read shared call).1 := by
  unfold fails
  split
  · constructor
    · intro read' attempt hphase
      rcases hphase with hphase | hphase <;> cases hphase
    · intro newFailures lockTime failure' hphase
      cases hphase
      split
      · next hmax =>
        have hpositive : (0 : ℚ≥0) < shared.now + 300 * (read.failures + 1 : Nat) := by
          positivity
        exact iff_of_false hpositive.ne' (not_not_intro hmax)
      · next hmax => exact iff_of_true rfl hmax
  · exact ok_of_done rfl

theorem validate_error {modId : Int} {name version category author dependencies description : Json}
    (h : validate modId name version category author dependencies description = .error failure) :
    failure = .validationError := by
  unfold validate at h
  dsimp only at h
  split at h
  · cases h
  · exact (Except.error.inj h).symm

theorem effect_fails {event : Event} {read : Row} {call : Call}
    (hevent : event = .responds (.raises failure) ∨ ∃ data infinite,
      event = .responds (.answers data infinite) ∧
        buildModMetadata data infinite call.query = .error failure) :
    Effect event shared call (fails agent failure read shared call).1 := by
  unfold fails
  cases hcounted : failure.counted with
  | true =>
      refine .same (fun failure' heq => ?_) (fun data infinite heq => ?_) ?_
      · rcases hevent with rfl | ⟨data, infinite, rfl, -⟩
        · cases heq
          exact hcounted
        · cases heq
      · rcases hevent with rfl | ⟨data', infinite', rfl, hbuild⟩
        · cases heq
        · cases heq
          exact ⟨failure, hbuild, hcounted⟩
      · rcases hevent with rfl | ⟨data, infinite, rfl, -⟩ <;> exact Event.noConfusion
  | false => exact .uncounted failure hcounted hevent

theorem counted_of_retried (h : failure.retried = true) :
    failure.counted = true := by
  cases failure <;> first | rfl | cases h

variable {shared' : Shared}

theorem pair_of_some {pair : Shared × Call} {call' : Call}
    (h : some pair = some (shared', call')) : pair.1 = shared' ∧ pair.2 = call' := by
  cases h
  exact ⟨rfl, rfl⟩

/-- **What a step can do.** -/
theorem effect_of_next {event : Event} {call call' : Call}
    (hok : call.Ok agent shared) (h : next agent event shared call = some (shared', call')) :
    Effect event shared call shared' ∧ call'.Ok agent shared' := by
  unfold next at h
  split at h
  · -- The row is read.
    obtain ⟨rfl, rfl⟩ := pair_of_some h
    refine ⟨.same (fun _ => Event.noConfusion) (fun _ _ => Event.noConfusion) Event.noConfusion, ?_⟩
    constructor
    · intro read attempt hphase
      rcases hphase with hphase | hphase <;> cases hphase
    · intro newFailures lockTime failure hphase
      cases hphase
  · next read hphase =>
    obtain ⟨rfl, rfl⟩ := pair_of_some h
    have hsame : Effect .checks shared call shared :=
      .same (fun _ => Event.noConfusion) (fun _ _ => Event.noConfusion) Event.noConfusion
    unfold checks
    split
    · exact ⟨hsame, ok_of_done rfl⟩
    · next hlock =>
      split
      · exact ⟨hsame, ok_of_passed (.inl rfl) (not_lt.mp hlock)⟩
      · -- Without the API the placeholder is the result, and it may fail its own validation.
        split
        · exact ⟨hsame, ok_of_done rfl⟩
        · next failure hplaceholder =>
          obtain rfl := validate_error hplaceholder
          exact ⟨hsame, ok_fails⟩
  · next read attempt hphase =>
    obtain ⟨rfl, rfl⟩ := pair_of_some h
    exact ⟨.same (fun _ => Event.noConfusion) (fun _ _ => Event.noConfusion) Event.noConfusion,
      ok_of_passed (.inr rfl) (hok.passed read attempt (.inl hphase))⟩
  · next read attempt response hphase =>
    obtain ⟨rfl, rfl⟩ := pair_of_some h
    unfold responds
    cases response with
    | raises failure =>
        dsimp only
        split
        · next hretried =>
          -- What is retried would have been counted, so the step is none of those that are lost.
          have hcounted := counted_of_retried (Bool.and_eq_true_iff.mp hretried).1
          refine ⟨.same (fun failure' heq => ?_) nofun Event.noConfusion,
            ok_of_passed (.inl rfl) (hok.passed read attempt (.inr hphase))⟩
          cases heq
          exact hcounted
        · exact ⟨effect_fails (.inl rfl), ok_fails⟩
    | answers data infinite =>
        dsimp only
        split
        · next metadata hbuild => exact ⟨.success data infinite metadata rfl hbuild, ok_of_done rfl⟩
        · next failure hbuild =>
          exact ⟨effect_fails (.inr ⟨data, infinite, rfl, hbuild⟩), ok_fails⟩
  · next newFailures lockTime failure hphase =>
    obtain ⟨rfl, rfl⟩ := pair_of_some h
    exact ⟨.stores newFailures lockTime failure rfl hphase, ok_of_done rfl⟩
  · cases h

/-! ## Along a run -/

structure Sound (agent : Agent) (s : State) : Prop where
  count : s.shared.stored.failures = s.shared.sinceSuccess
  calls : ∀ (i : Nat) (call : Call), s.calls[i]? = some call → call.Ok agent s.shared

theorem sound_start (row : Option Row) (now : ℚ≥0) (queries : List ScrapingQuery) :
    Sound agent (start row now queries) := by
  refine ⟨rfl, fun i call hi => ?_⟩
  obtain ⟨query, -, rfl⟩ := List.mem_map.mp (List.mem_of_getElem? hi)
  constructor
  · intro read attempt hphase
    rcases hphase with hphase | hphase <;> cases hphase
  · intro newFailures lockTime failure hphase
    cases hphase

theorem Call.Ok.later {call : Call} (h : call.Ok agent shared)
    (hnow : shared.now ≤ shared'.now) : call.Ok agent shared' :=
  ⟨fun read attempt hphase => (h.passed read attempt hphase).trans hnow, h.lock⟩

theorem now_of_effect {event : Event} {call : Call}
    (h : Effect event shared call shared') : shared'.now = shared.now := by
  cases h <;> rfl

variable {s t : State} {action : Action}

theorem calls_of_step (h : Sound agent s)
    (hstep : step agent s action = some t) :
    ∀ (i : Nat) (call : Call), t.calls[i]? = some call → call.Ok agent t.shared := by
  cases action with
  | ticks seconds =>
      cases hstep
      intro i call hi
      exact (h.calls i call hi).later le_self_add
  | query i event =>
      obtain ⟨⟨shared', calls'⟩, hat, rfl⟩ := Option.map_eq_some_iff.mp hstep
      obtain ⟨call, call', hcall, hnext, hcall', hothers⟩ := Interleave.stepAt_getElem? hat
      obtain ⟨heffect, hok⟩ := effect_of_next (h.calls i call hcall) hnext
      intro j other hj
      by_cases hij : j = i
      · subst hij
        cases hcall'.symm.trans hj
        exact hok
      · have hj : s.calls[j]? = some other := (hothers j hij).symm.trans hj
        exact (h.calls j other hj).later (now_of_effect heffect).ge

theorem orderly_ticks (s : State) (seconds : ℚ≥0) : Orderly s (.ticks seconds) :=
  ⟨(fun _ _ _ heq => by cases heq), (fun _ _ _ _ _ heq => by cases heq),
    (fun _ _ _ _ _ heq => by cases heq), (fun _ _ _ _ _ heq => by cases heq),
    (fun _ _ _ _ heq => by cases heq)⟩

theorem phase_of_sends {call : Call} {after : Shared × Call}
    (h : next agent .sends shared call = some after) :
    ∃ read attempt, call.phase = .sending read attempt := by
  unfold next at h
  cases hphase : call.phase with
  | sending read attempt => exact ⟨read, attempt, rfl⟩
  | _ =>
      rw [hphase] at h
      cases h

theorem request_iff {i : Nat} {event : Event} {call : Call} {after : Shared × Call}
    (hok : call.Ok agent s.shared) (hcall : s.calls[i]? = some call)
    (hnext : next agent event s.shared call = some after) :
    (event = .sends → s.shared.stored.lockedUntil ≤ s.shared.now) ↔
      ∀ (read : Row) (attempt : Nat) (call : Call), event = .sends → s.calls[i]? = some call →
        call.phase = .sending read attempt →
        read = s.shared.stored ∨ s.shared.stored.lockedUntil ≤ s.shared.now := by
  constructor
  · intro hrequest read attempt call hevent _ _
    exact .inr (hrequest hevent)
  · rintro horderly rfl
    obtain ⟨read, attempt, hphase⟩ := phase_of_sends hnext
    rcases horderly read attempt call rfl hcall hphase with rfl | hpassed
    · exact hok.passed _ attempt (.inl hphase)
    · exact hpassed

/-- The conditions of `Orderly` for an event of one query. -/
theorem orderly_query_iff {i : Nat} {event : Event} {call : Call}
    (hcall : s.calls[i]? = some call) :
    Orderly s (.query i event) ↔
      (∀ failure, event = .responds (.raises failure) → failure.counted = true) ∧
      (∀ data infinite failure, event = .responds (.answers data infinite) →
        buildModMetadata data infinite call.query = .error failure → failure.counted = true) ∧
      (∀ data infinite metadata, event = .responds (.answers data infinite) →
        buildModMetadata data infinite call.query = .ok metadata → s.shared.stored.failures = 0) ∧
      (∀ newFailures lockTime failure, event = .stores →
        call.phase = .failing newFailures lockTime failure →
        newFailures = s.shared.stored.failures + 1) ∧
      (∀ (read : Row) (attempt : Nat) (call : Call), event = .sends → s.calls[i]? = some call →
        call.phase = .sending read attempt →
        read = s.shared.stored ∨ s.shared.stored.lockedUntil ≤ s.shared.now) := by
  constructor
  · rintro ⟨hcaught, hbuilt, hsuccess, hstore, hrequest⟩
    refine ⟨?_, ?_, ?_, ?_, ?_⟩
    · rintro failure rfl
      exact hcaught i failure call rfl hcall
    · rintro data infinite failure rfl
      exact hbuilt i data infinite failure call rfl hcall
    · rintro data infinite metadata rfl
      exact hsuccess i data infinite metadata call rfl hcall
    · rintro newFailures lockTime failure rfl
      exact hstore i newFailures lockTime failure call rfl hcall
    · rintro read attempt call rfl
      exact hrequest i read attempt call rfl
  · rintro ⟨hcaught, hbuilt, hsuccess, hstore, hrequest⟩
    constructor
    · rintro i failure call' heq -
      cases heq
      exact hcaught failure rfl
    · rintro i data infinite failure call' heq hcall'
      cases heq
      cases hcall.symm.trans hcall'
      exact hbuilt data infinite failure rfl
    · rintro i data infinite metadata call' heq hcall'
      cases heq
      cases hcall.symm.trans hcall'
      exact hsuccess data infinite metadata rfl
    · rintro i newFailures lockTime failure call' heq hcall'
      cases heq
      cases hcall.symm.trans hcall'
      exact hstore newFailures lockTime failure rfl
    · rintro i read attempt call' heq
      cases heq
      exact hrequest read attempt call' rfl

theorem no_lock (locksSet failed sinceSuccess : Nat) :
    locksSet = locksSet +
      if failed ≠ failed ∧ agent.maxFailures ≤ sinceSuccess then 1 else 0 := by
  rw [if_neg fun hfailed => hfailed.1 rfl, Nat.add_zero]

/-- What the counts say, by what a step does to them. -/
theorem counts_of_effect_iff {event : Event} {call : Call}
    (hcount : shared.stored.failures = shared.sinceSuccess) (hok : call.Ok agent shared)
    (h : Effect event shared call shared') :
    (shared'.stored.failures = shared'.sinceSuccess ∧
      shared'.locksSet = shared.locksSet +
        if shared'.failed ≠ shared.failed ∧ agent.maxFailures ≤ shared'.sinceSuccess then 1 else 0) ↔
      (∀ failure, event = .responds (.raises failure) → failure.counted = true) ∧
      (∀ data infinite failure, event = .responds (.answers data infinite) →
        buildModMetadata data infinite call.query = .error failure → failure.counted = true) ∧
      (∀ data infinite metadata, event = .responds (.answers data infinite) →
        buildModMetadata data infinite call.query = .ok metadata → shared.stored.failures = 0) ∧
      (∀ newFailures lockTime failure, event = .stores →
        call.phase = .failing newFailures lockTime failure →
        newFailures = shared.stored.failures + 1) := by
  cases h with
  | same hraises hanswers hstores =>
      refine iff_of_true ⟨hcount, no_lock ..⟩
        ⟨hraises, ?_, ?_, fun _ _ _ hevent => absurd hevent hstores⟩
      · intro data infinite failure hevent hbuild
        obtain ⟨failure', hbuild', hcounted⟩ := hanswers data infinite hevent
        cases hbuild'.symm.trans hbuild
        exact hcounted
      · intro data infinite metadata hevent hbuild
        obtain ⟨failure', hbuild', -⟩ := hanswers data infinite hevent
        cases hbuild'.symm.trans hbuild
  | uncounted failure hcounted hresponds =>
      -- The failure is not stored, so the row stays behind the count.
      refine iff_of_false (fun hafter => ?_) (fun horderly => ?_)
      · have hafter : shared.stored.failures = shared.sinceSuccess + 1 := hafter.1
        rw [hcount] at hafter
        exact absurd hafter (Nat.succ_ne_self _).symm
      · rcases hresponds with rfl | ⟨data, infinite, rfl, hbuild⟩
        · exact absurd ((horderly.1 failure rfl).symm.trans hcounted) (by decide)
        · exact absurd ((horderly.2.1 data infinite failure rfl hbuild).symm.trans hcounted)
            (by decide)
  | success data infinite metadata hresponds hbuild =>
      -- Nothing resets the row, so it is right only if it has been zero.
      subst hresponds
      constructor
      · rintro ⟨hafter, -⟩
        refine ⟨nofun, fun data' infinite' failure heq hbuild' => ?_,
          fun _ _ _ _ _ => hafter, fun _ _ _ heq => by cases heq⟩
        cases heq
        cases hbuild.symm.trans hbuild'
      · rintro ⟨-, -, hsuccess, -⟩
        exact ⟨hsuccess data infinite metadata rfl hbuild, no_lock ..⟩
  | stores newFailures lockTime failure hevent hfailing =>
      -- What is stored was computed from the row that was read before.
      subst hevent
      constructor
      · rintro ⟨hafter, -⟩
        refine ⟨nofun, nofun,
          nofun, fun newFailures' lockTime' failure' _ hfailing' => ?_⟩
        cases hfailing.symm.trans hfailing'
        exact hafter.trans (congrArg (· + 1) hcount.symm)
      · rintro ⟨-, -, -, hstore⟩
        have hnew : newFailures = shared.sinceSuccess + 1 :=
          (hstore newFailures lockTime failure rfl hfailing).trans (congrArg (· + 1) hcount)
        refine ⟨hnew, ?_⟩
        have hlock := hok.lock newFailures lockTime failure hfailing
        have hfailed : shared.failed + 1 ≠ shared.failed := Nat.succ_ne_self _
        change shared.locksSet + (if lockTime = 0 then 0 else 1) = shared.locksSet +
          if shared.failed + 1 ≠ shared.failed ∧ agent.maxFailures ≤ shared.sinceSuccess + 1 then 1
          else 0
        rw [← hnew]
        by_cases hmax : agent.maxFailures ≤ newFailures
        · rw [if_neg fun hzero => hlock.mp hzero hmax, if_pos ⟨hfailed, hmax⟩]
        · rw [if_pos (hlock.mpr hmax), if_neg fun hboth => hmax hboth.2]

/-- From a sound state, a step keeps the breaker exactly if it is orderly. -/
theorem counts_iff (h : Sound agent s)
    (hstep : step agent s action = some t) : Counts agent s action t ↔ Orderly s action := by
  cases action with
  | ticks seconds =>
      cases hstep
      exact iff_of_true ⟨h.count, no_lock .., fun _ heq => by cases heq⟩ (orderly_ticks s seconds)
  | query i event =>
      obtain ⟨⟨shared', calls'⟩, hat, rfl⟩ := Option.map_eq_some_iff.mp hstep
      obtain ⟨call, call', hcall, hnext, -, -⟩ := Interleave.stepAt_getElem? hat
      have hok := h.calls i call hcall
      have hcounts := counts_of_effect_iff h.count hok (effect_of_next hok hnext).1
      have hrequest := request_iff hok hcall hnext
      rw [orderly_query_iff hcall]
      constructor
      · rintro ⟨hafter, hlock, hsent⟩
        obtain ⟨hcaught, hbuilt, hsuccess, hstore⟩ := hcounts.mp ⟨hafter, hlock⟩
        exact ⟨hcaught, hbuilt, hsuccess, hstore, hrequest.mp fun hevent => hsent i (hevent ▸ rfl)⟩
      · rintro ⟨hcaught, hbuilt, hsuccess, hstore, hsent⟩
        obtain ⟨hafter, hlock⟩ := hcounts.mpr ⟨hcaught, hbuilt, hsuccess, hstore⟩
        refine ⟨hafter, hlock, fun j heq => ?_⟩
        obtain ⟨rfl, rfl⟩ := Action.query.inj heq
        exact hrequest.mpr hsent rfl

theorem sound_of_step (h : Sound agent s)
    (hstep : step agent s action = some t) (horderly : Orderly s action) : Sound agent t :=
  ⟨((counts_iff h hstep).mpr horderly).count, calls_of_step h hstep⟩

/-- **The breaker counts if and only if it is not overtaken**: for any queries, in every interleaving and
with every outcome, from any row that is stored at the beginning. -/
theorem always_counts_iff (agent : Agent) (row : Option Row) (now : ℚ≥0)
    (queries : List ScrapingQuery) (schedule : List Action) :
    Runs.Always (step agent) (Counts agent) (start row now queries) schedule ↔
      Runs.Always (step agent) (fun s action _ => Orderly s action) (start row now queries)
        schedule := by
  have hstart : Sound agent (start row now queries) := sound_start row now queries
  refine Runs.always_iff_of_guarded ?_ ?_ hstart schedule
  · intro s action t h hstep horderly
    exact sound_of_step h hstep horderly
  · intro s action t h hstep
    exact counts_iff h hstep

def keyed : Agent := ⟨some "key", 3⟩

/-- The gateway refuses the request of a query. -/
def refused : List Action :=
  [.query 0 .reads, .query 0 .checks, .query 0 .sends,
    .query 0 (.responds (.raises .egressViolation))]

/-- **The failure is not stored.** -/
theorem always_counts_counterexample :
    ¬Runs.Always (step keyed) (Counts keyed) (start none 0 [⟨"SkyUI", none, false⟩]) refused := by
  intro h
  have hlast : Runs.Always (step keyed) (Counts keyed) (start none 0 [⟨"SkyUI", none, false⟩])
      (refused.take 3 ++ [.query 0 (.responds (.raises .egressViolation))]) := h
  have hcount := (hlast.at_prefix rfl rfl).count
  cases hcount

end Breaker

end SkyClaw.Scraper.ScraperBreaker
