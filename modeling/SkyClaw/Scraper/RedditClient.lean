import SkyClaw.Lib.Interleave
import SkyClaw.Lib.PartialMap
import SkyClaw.Lib.PyRe
import SkyClaw.Lib.Runs

/-!
# Lookups of known issues on Reddit

`RedditKnowledgeResolver.search_known_issues`, with any number of calls on one event loop.  The first
call for a name owns the lookup; those that come while it runs await its future, and a call that is
cancelled at this await takes the future with it.  `always_singleFlight_iff` says when that does harm.

The locks of the cache are never held over an await, so to take one of them is no interleaving point.
-/

namespace SkyClaw.Scraper.RedditClient

open Function

/-! ## Names -/

def modNameMax : Nat := 100

/-- `[\x00-\x1f\x7f]` -/
def isControl (c : Char) : Bool := c.toNat ≤ 0x1F || c.toNat = 0x7F

/-- `_validate_mod_name`, with the text of the `ValueError`. -/
def validateModName (modName : String) : Except String String :=
  let stripped := PyStr.strip modName
  if stripped = "" then .error "mod_name must be non-empty"
  else if modNameMax < stripped.length then .error "mod_name exceeds 100 characters"
  else if stripped.toList.any isControl then .error "mod_name contains control characters"
  else .ok stripped

/-- A valid name. -/
structure ModName where
  raw : String
  cleaned : String
  valid : validateModName raw = .ok cleaned

/-- The normalised name. -/
def ModName.key (u : UnicodeText) (name : ModName) : String :=
  String.ofList (u.lower name.cleaned.toList)

/-! ## A fetch -/

structure RedditPostData where
  title : String
  score : Int
  subreddit : String
  permalink : String
  selftext : String

inductive Body
  | posts (posts : List RedditPostData)
  /-- The model does not validate. -/
  | invalid
  /-- `response.json()` raises a `ValueError`. -/
  | undecodable

inductive NetworkFailure
  | clientError
  | timeout
  | egressViolation
  | gatewayTimeout

inductive Response
  | raises (failure : NetworkFailure)
  | answers (status : Nat) (body : Body)

/-- What comes out of a request as an exception. -/
inductive Failure
  | network (failure : NetworkFailure)
  | transient (status : Nat)
  | valueError

def Failure.isTransient : Failure → Bool
  | transient _ => true
  | _ => false

/-- The exceptions that `search_known_issues` catches. -/
def Failure.caught : Failure → Bool
  | valueError => false
  | _ => true

def executeRequest : Response → Except Failure (List RedditPostData)
  | .raises failure => .error (.network failure)
  | .answers status body =>
      if status = 200 then
        match body with
        | .posts posts => .ok posts
        | .invalid => .ok []
        | .undecodable => .error .valueError
      else if status = 429 then .ok []
      else if 500 ≤ status ∧ status < 600 then .error (.transient status)
      else .ok []

def snippetMax : Nat := 500

def formatPost (post : RedditPostData) : String :=
  let title := if PyStr.strip post.title = "" then "(untitled)" else PyStr.strip post.title
  let subreddit := if post.subreddit = "" then "?" else post.subreddit
  let url := if post.permalink = "" then "" else "https://www.reddit.com" ++ post.permalink
  let snippetRaw := PyStr.strip post.selftext
  let snippet := String.ofList (snippetRaw.toList.take snippetMax) ++
    if snippetMax < snippetRaw.length then "..." else ""
  "- [r/" ++ subreddit ++ " score=" ++ toString post.score ++ "] " ++ title ++
    (if url = "" then "" else " (" ++ url ++ ")") ++
    if snippet = "" then "" else "\n    " ++ snippet

def formatPosts (modName : String) (posts : List RedditPostData) : String :=
  "\n".intercalate (("Reddit findings for '" ++ modName ++ "':") :: posts.map formatPost)

/-- The end of `_fetch_and_format`. -/
def report (modName : String) (posts : List RedditPostData) : String :=
  if posts.isEmpty then "No known issues found for '" ++ modName ++ "'."
  else formatPosts modName posts

def unavailable (modName : String) : String := "Reddit lookup unavailable for '" ++ modName ++ "'."

/-- `stop_after_attempt` -/
def maxAttempts : Nat := 3

/-! ## Calls -/

inductive Future
  | pending
  | result (text : String)
  | cancelled

structure Lookup where
  future : Future
  /-- what its owner returned -/
  answer : Option String
  /-- one of its calls was cancelled before it came to an end -/
  cut : Bool

/-- `cancel()` of its future. -/
def Lookup.cancel (lookup : Lookup) : Lookup :=
  match lookup.future with
  | .pending => { lookup with future := .cancelled, cut := true }
  | _ => lookup

/-- The end of the owner; `none`: it raises. -/
def Lookup.settle (answer : Option String) (lookup : Lookup) : Lookup :=
  match lookup.future, answer with
  | .pending, some text => { lookup with future := .result text, answer := some text }
  | .pending, none => { lookup with future := .cancelled }
  | _, answer => { lookup with answer := answer }

structure Shared where
  cache : String → Option String
  /-- `_inflight`; a future is known by its place -/
  inflight : String → Option Nat
  lookups : List Lookup

inductive Outcome
  | returned (text : String)
  | valueError
  | cancelledError

inductive Phase
  | fresh
  /-- Awaits `_acquire_slot`. -/
  | acquiring (future : Nat)
  | requesting (future attempt : Nat)
  /-- Awaits the next attempt. -/
  | backingOff (future attempt : Nat)
  /-- Awaits the future of another call. -/
  | joined (future : Nat)
  | done (outcome : Outcome)

/-- The future of the lookup that a call owns. -/
def Phase.fetching : Phase → Option Nat
  | acquiring future => some future
  | requesting future _ => some future
  | backingOff future _ => some future
  | _ => none

def Phase.running : Phase → Bool
  | fresh => false
  | done _ => false
  | _ => true

structure Call where
  name : ModName
  phase : Phase
  /-- the call itself was cancelled -/
  cancelled : Bool
  /-- the lookup that it owns or has joined -/
  lookup : Option Nat

inductive Event
  | begins
  | acquires
  | responds (response : Response)
  | retries
  | wakes
  | cancels

section Resolver

variable (u : UnicodeText)

def Call.key (call : Call) : String := call.name.key u

def Call.ends (outcome : Outcome) (call : Call) : Call := { call with phase := .done outcome }

/-- `await pending`; `none`: it goes on waiting. -/
def awaited (lookup : Lookup) : Option Outcome :=
  match lookup.future with
  | .pending => none
  | .result text => some (.returned text)
  | .cancelled => some .cancelledError

/-- Up to the first await. -/
def begins (shared : Shared) (call : Call) : Shared × Call :=
  match shared.cache (call.key u) with
  | some text => (shared, call.ends (.returned text))
  | none =>
      match shared.inflight (call.key u) with
      | none =>
          let future := shared.lookups.length
          ({ shared with
              inflight := update shared.inflight (call.key u) (some future)
              lookups := shared.lookups ++ [⟨.pending, none, false⟩] },
            { call with phase := .acquiring future, lookup := some future })
      | some future =>
          let call := { call with lookup := some future }
          match shared.lookups[future]?.bind awaited with
          | some outcome => (shared, call.ends outcome)
          | none => (shared, { call with phase := .joined future })

/-- The `finally` block: the entry is taken off the map, and its future changed. -/
def pop (change : Lookup → Lookup) (shared : Shared) (call : Call) : Shared :=
  { shared with
    inflight := update shared.inflight (call.key u) none
    lookups :=
      match shared.inflight (call.key u) with
      | some future => shared.lookups.modify future change
      | none => shared.lookups }

/-- The owner has its result. -/
def completes (text : String) (shared : Shared) (call : Call) : Shared × Call :=
  (pop u (Lookup.settle (some text)) shared call, call.ends (.returned text))

/-- The response to a request, the `attempt`th one. -/
def responds (response : Response) (future attempt : Nat) (shared : Shared) (call : Call) :
    Shared × Call :=
  match executeRequest response with
  | .ok posts =>
      let text := report call.name.cleaned posts
      completes u text
        { shared with cache := update shared.cache (call.key u) (some text) } call
  | .error failure =>
      if failure.isTransient && attempt < maxAttempts then
        (shared, { call with phase := .backingOff future attempt })
      else if failure.caught then completes u (unavailable call.name.cleaned) shared call
      else (pop u (Lookup.settle none) shared call, call.ends .valueError)

/-- The call is cancelled where it awaits something. -/
def cancels (shared : Shared) (call : Call) : Shared × Call :=
  let after := { call.ends .cancelledError with cancelled := true }
  match call.phase with
  | .joined future =>
      ({ shared with lookups := shared.lookups.modify future Lookup.cancel }, after)
  | .fresh => (shared, after)
  | _ => (pop u Lookup.cancel shared call, after)

def next (event : Event) (shared : Shared) (call : Call) : Option (Shared × Call) :=
  match call.phase, event with
  | .fresh, .begins => some (begins u shared call)
  | .acquiring future, .acquires => some (shared, { call with phase := .requesting future 1 })
  | .requesting future attempt, .responds response =>
      some (responds u response future attempt shared call)
  | .backingOff future attempt, .retries =>
      some (shared, { call with phase := .requesting future (attempt + 1) })
  | .joined future, .wakes =>
      (shared.lookups[future]?.bind awaited).map fun outcome => (shared, call.ends outcome)
  | .done _, _ => none
  | _, .cancels => some (cancels u shared call)
  | _, _ => none

structure State where
  shared : Shared
  calls : List Call

/-- An event of one of the calls. -/
structure Action where
  call : Nat
  event : Event

def step (s : State) (action : Action) : Option State :=
  (Interleave.stepAt (next u action.event) s.shared s.calls action.call).map fun after =>
    ⟨after.1, after.2⟩

/-- An open resolver, and the calls that will be made. -/
def start (names : List ModName) : State where
  shared := ⟨fun _ => none, fun _ => none, []⟩
  calls := names.map fun name => ⟨name, .fresh, false, none⟩

structure SingleFlight (s : State) : Prop where
  strings : ∀ (i : Nat) (call : Call) (outcome : Outcome), s.calls[i]? = some call →
    call.phase = .done outcome → call.cancelled = false → ∃ text, outcome = .returned text
  same : ∀ (i j : Nat) (call call' : Call) (future : Nat) (text text' : String),
    s.calls[i]? = some call → s.calls[j]? = some call' →
    call.lookup = some future → call'.lookup = some future →
    call.phase = .done (.returned text) → call'.phase = .done (.returned text') → text = text'
  oneFetch : ∀ (i j : Nat) (call call' : Call), s.calls[i]? = some call → s.calls[j]? = some call' →
    call.phase.fetching.isSome → call'.phase.fetching.isSome → call.key u = call'.key u → i = j
  empty : (∀ (i : Nat) (call : Call), s.calls[i]? = some call → call.phase.running = false) →
    ∀ key, s.shared.inflight key = none
  /-- no call waits for a lookup that nobody owns -/
  owned : ∀ (i : Nat) (call : Call) (future : Nat), s.calls[i]? = some call →
    call.phase = .joined future → (s.shared.lookups[future]?.bind awaited) = none →
    ∃ (j : Nat) (call' : Call), s.calls[j]? = some call' ∧ call'.phase.fetching = some future

/-- The call takes its result from a lookup of another one. -/
def TakesFrom (s : State) (action : Action) (call : Call) (future : Nat) : Prop :=
  s.calls[action.call]? = some call ∧
    (action.event = .wakes ∧ call.phase = .joined future ∨
      action.event = .begins ∧ call.phase = .fresh ∧ s.shared.cache (call.key u) = none ∧
        s.shared.inflight (call.key u) = some future)

/-- Every body can be decoded, and no call takes its result from a lookup one of whose calls was
cancelled before it came to an end. -/
structure Undisturbed (s : State) (action : Action) : Prop where
  decodable : action.event ≠ .responds (.answers 200 .undecodable)
  uncut : ∀ (call : Call) (future : Nat) (lookup : Lookup), TakesFrom u s action call future →
    s.shared.lookups[future]? = some lookup → lookup.cut = false

variable {u : UnicodeText}

/-! ## What one call keeps -/

/-- Its owner has not come to an end. -/
structure Lookup.Open (lookup : Lookup) : Prop where
  answer : lookup.answer = none
  result : ∀ text, lookup.future ≠ .result text

structure Lookup.Sound (lookup : Lookup) : Prop where
  cut : lookup.future = .cancelled ↔ lookup.cut = true
  result : ∀ text, lookup.future = .result text → lookup.answer = some text

/-- What holds of a call, whatever the others do. -/
structure Call.Ok (u : UnicodeText) (shared : Shared) (call : Call) : Prop where
  owner : ∀ future, call.phase.fetching = some future →
    shared.inflight (call.key u) = some future ∧ call.lookup = some future ∧
      ∃ lookup, shared.lookups[future]? = some lookup ∧ lookup.Open
  joined : ∀ future, call.phase = .joined future → call.lookup = some future ∧
    ∃ lookup, shared.lookups[future]? = some lookup ∧
      (lookup.future = .pending → ∃ key, shared.inflight key = some future)
  returned : ∀ text future, call.phase = .done (.returned text) → call.lookup = some future →
    ∃ lookup, shared.lookups[future]? = some lookup ∧ lookup.answer = some text
  strings : ∀ outcome, call.phase = .done outcome → call.cancelled = false →
    ∃ text, outcome = .returned text
  cancelled : call.cancelled = true → ∃ outcome, call.phase = .done outcome
  fresh : call.phase = .fresh → call.lookup = none

structure Sound (u : UnicodeText) (s : State) : Prop where
  calls : ∀ (i : Nat) (call : Call), s.calls[i]? = some call → call.Ok u s.shared
  lookups : ∀ (future : Nat) (lookup : Lookup), s.shared.lookups[future]? = some lookup → lookup.Sound
  owned : ∀ key future, s.shared.inflight key = some future →
    ∃ (i : Nat) (call : Call), s.calls[i]? = some call ∧ call.phase.fetching = some future ∧
      call.key u = key
  unique : ∀ (i j : Nat) (call call' : Call) (future : Nat), s.calls[i]? = some call →
    s.calls[j]? = some call' → call.phase.fetching = some future →
    call'.phase.fetching = some future → i = j

theorem sound_start (names : List ModName) : Sound u (start names) := by
  have hfresh : ∀ (i : Nat) (call : Call), (start names).calls[i]? = some call →
      call.phase = .fresh ∧ call.cancelled = false ∧ call.lookup = none := by
    intro i call hi
    obtain ⟨name, -, rfl⟩ := List.mem_map.mp (List.mem_of_getElem? hi)
    exact ⟨rfl, rfl, rfl⟩
  refine ⟨fun i call hi => ?_, fun future lookup h => ?_, nofun, ?_⟩
  · obtain ⟨hphase, hcancelled, hlookup⟩ := hfresh i call hi
    constructor
    · intro future h
      rw [hphase] at h
      cases h
    · intro future h
      rw [hphase] at h
      cases h
    · intro text future h
      rw [hphase] at h
      cases h
    · intro outcome h
      rw [hphase] at h
      cases h
    · intro h
      rw [hcancelled] at h
      cases h
    · exact fun _ => hlookup
  · cases h
  · intro i j call call' future hi _ h
    rw [(hfresh i call hi).1] at h
    cases h

variable {shared : Shared}

/-- A call that has come to an end with an outcome that it may have. -/
theorem ok_of_done {call : Call} {outcome : Outcome}
    (hphase : call.phase = .done outcome)
    (hreturned : ∀ text future, outcome = .returned text → call.lookup = some future →
      ∃ lookup, shared.lookups[future]? = some lookup ∧ lookup.answer = some text)
    (hstrings : call.cancelled = false → ∃ text, outcome = .returned text) :
    call.Ok u shared := by
  constructor
  · intro future h
    rw [hphase] at h
    cases h
  · intro future h
    rw [hphase] at h
    cases h
  · intro text future h
    exact hreturned text future (Phase.done.inj (hphase.symm.trans h))
  · intro outcome' h
    cases hphase.symm.trans h
    exact hstrings
  · exact fun _ => ⟨outcome, hphase⟩
  · intro h
    rw [hphase] at h
    cases h

variable {future : Nat}

/-- A call that goes on. -/
theorem ok_of_fetching {call : Call} {lookup : Lookup}
    (hphase : call.phase.fetching = some future) (hcancelled : call.cancelled = false)
    (hinflight : shared.inflight (call.key u) = some future) (hlookup : call.lookup = some future)
    (hfuture : shared.lookups[future]? = some lookup) (hopen : lookup.Open) : call.Ok u shared := by
  have hnot : ∀ outcome, call.phase ≠ .done outcome := by
    intro outcome h
    rw [h] at hphase
    cases hphase
  constructor
  · intro future' h
    cases hphase.symm.trans h
    exact ⟨hinflight, hlookup, lookup, hfuture, hopen⟩
  · intro future' h
    rw [h] at hphase
    cases hphase
  · exact fun text future' h => absurd h (hnot _)
  · exact fun outcome h => absurd h (hnot _)
  · intro h
    rw [hcancelled] at h
    cases h
  · intro h
    rw [h] at hphase
    cases hphase

theorem not_cancelled {call : Call} (h : call.Ok u shared)
    (hphase : ∀ outcome, call.phase ≠ .done outcome) : call.cancelled = false := by
  cases hcancelled : call.cancelled with
  | false => rfl
  | true =>
      obtain ⟨outcome, hdone⟩ := h.cancelled hcancelled
      exact absurd hdone (hphase outcome)

variable {shared' : Shared}

/-- What becomes of the other calls when the shared state changes. -/
theorem Call.Ok.mono {call : Call} (h : call.Ok u shared)
    (hfetching : ∀ (future : Nat) (lookup : Lookup), call.phase.fetching = some future →
      shared.inflight (call.key u) = some future → shared.lookups[future]? = some lookup →
      lookup.Open → shared'.inflight (call.key u) = some future ∧
        ∃ lookup', shared'.lookups[future]? = some lookup' ∧ lookup'.Open)
    (hinflight : ∀ future lookup, call.phase = .joined future →
      shared.lookups[future]? = some lookup → ∃ lookup', shared'.lookups[future]? = some lookup' ∧
        (lookup'.future = .pending → lookup.future = .pending ∧
          ∀ key, shared.inflight key = some future → shared'.inflight key = some future))
    (hanswer : ∀ (future : Nat) (lookup : Lookup) (text : String),
      shared.lookups[future]? = some lookup → lookup.answer = some text →
      ∃ lookup', shared'.lookups[future]? = some lookup' ∧ lookup'.answer = some text) :
    call.Ok u shared' := by
  refine ⟨fun future hphase => ?_, fun future hphase => ?_, fun text future hphase hlookup => ?_,
    h.strings, h.cancelled, h.fresh⟩
  · obtain ⟨hheld, hlookup, lookup, hfuture, hopen⟩ := h.owner future hphase
    obtain ⟨hheld', hopen'⟩ := hfetching future lookup hphase hheld hfuture hopen
    exact ⟨hheld', hlookup, hopen'⟩
  · obtain ⟨hlookup, lookup, hfuture, hpending⟩ := h.joined future hphase
    obtain ⟨lookup', hfuture', hpending'⟩ := hinflight future lookup hphase hfuture
    refine ⟨hlookup, lookup', hfuture', fun h => ?_⟩
    obtain ⟨key, hkey⟩ := hpending (hpending' h).1
    exact ⟨key, (hpending' h).2 key hkey⟩
  · obtain ⟨lookup, hfuture, htext⟩ := h.returned text future hphase hlookup
    exact hanswer future lookup text hfuture htext

/-! ## What one step keeps -/

/-- What a step of a call may do to the shared state. -/
structure Keeps (u : UnicodeText) (shared : Shared) (call : Call) (shared' : Shared) (call' : Call) :
    Prop where
  name : call'.name = call.name
  ok : call'.Ok u shared'
  others : ∀ other : Call, other.Ok u shared →
    (∀ future, other.phase.fetching = some future → call.phase.fetching ≠ some future) →
    other.Ok u shared'
  lookups : ∀ (future : Nat) (lookup : Lookup), shared'.lookups[future]? = some lookup → lookup.Sound
  fetching : ∀ future, call'.phase.fetching = some future →
    call.phase.fetching = some future ∨ future = shared.lookups.length
  inflight : ∀ key future, shared'.inflight key = some future →
    (shared.inflight key = some future ∧ (call.phase.fetching = none ∨ key ≠ call.key u)) ∨
      (call'.phase.fetching = some future ∧ key = call.key u)

theorem lt_of_fetching {call : Call} (h : call.Ok u shared)
    (hphase : call.phase.fetching = some future) : future < shared.lookups.length := by
  obtain ⟨-, -, lookup, hlookup, -⟩ := h.owner future hphase
  exact (List.getElem?_eq_some_iff.mp hlookup).1

variable {s : State} {call' : Call}

theorem sound_of_keeps {i : Nat} {call : Call}
    {calls' : List Call} (h : Sound u s) (hcall : s.calls[i]? = some call)
    (hcall' : calls'[i]? = some call') (hothers : ∀ j, j ≠ i → calls'[j]? = s.calls[j]?)
    (hkeeps : Keeps u s.shared call shared' call') : Sound u ⟨shared', calls'⟩ := by
  have hkey : call'.key u = call.key u := congrArg (ModName.key u) hkeeps.name
  refine ⟨fun j other hj => ?_, hkeeps.lookups, fun key future hinflight => ?_, ?_⟩
  · by_cases hij : j = i
    · subst hij
      cases hcall'.symm.trans hj
      exact hkeeps.ok
    · have hj : s.calls[j]? = some other := (hothers j hij).symm.trans hj
      refine hkeeps.others other (h.calls j other hj) fun future hother hfetching => ?_
      exact hij (h.unique j i other call future hj hcall hother hfetching)
  · rcases hkeeps.inflight key future hinflight with ⟨hold, hcase⟩ | ⟨hfetching, rfl⟩
    · obtain ⟨j, other, hj, hfetching, rfl⟩ := h.owned key future hold
      have hij : j ≠ i := by
        rintro rfl
        cases hcall.symm.trans hj
        rcases hcase with hnone | hne
        · rw [hnone] at hfetching
          cases hfetching
        · exact hne rfl
      -- The owner of an old entry is another call, as this one has given its own up.
      exact ⟨j, other, (hothers j hij).trans hj, hfetching, rfl⟩
    · exact ⟨i, call', hcall', hfetching, hkey⟩
  · -- A call that owns a lookup owned it before, or the lookup is new.
    have hone : ∀ (j : Nat) (other : Call) (future : Nat), j ≠ i → calls'[j]? = some other →
        other.phase.fetching = some future → call'.phase.fetching = some future → False := by
      intro j other future hij hj hother hfetching
      have hj : s.calls[j]? = some other := (hothers j hij).symm.trans hj
      rcases hkeeps.fetching future hfetching with hbefore | rfl
      · exact hij (h.unique j i other call future hj hcall hother hbefore)
      · exact absurd (lt_of_fetching (h.calls j other hj) hother) (Nat.lt_irrefl _)
    intro j k one two future hj hk hone' htwo
    by_cases hji : j = i
    · by_cases hki : k = i
      · exact hji.trans hki.symm
      · subst hji
        cases hcall'.symm.trans hj
        exact (hone k two future hki hk htwo hone').elim
    · by_cases hki : k = i
      · subst hki
        cases hcall'.symm.trans hk
        exact (hone j one future hji hj hone' htwo).elim
      · have hj : s.calls[j]? = some one := (hothers j hji).symm.trans hj
        have hk : s.calls[k]? = some two := (hothers k hki).symm.trans hk
        exact h.unique j k one two future hj hk hone' htwo

/-- The future of every lookup tells what has become of it. -/
def Shared.Sound (shared : Shared) : Prop :=
  ∀ (future : Nat) (lookup : Lookup), shared.lookups[future]? = some lookup → lookup.Sound

theorem keeps_of_same {call : Call}
    (hlookups : shared.Sound)
    (h : call.Ok u shared) (hname : call'.name = call.name) (hok : call'.Ok u shared)
    (hfetching : call'.phase.fetching = call.phase.fetching) : Keeps u shared call shared call' := by
  refine ⟨hname, hok, fun _ hother _ => hother, hlookups, fun future hfuture => ?_,
    fun key future hinflight => ?_⟩
  · exact .inl (hfetching.symm.trans hfuture)
  · cases hcase : call.phase.fetching with
    | none => exact .inl ⟨hinflight, .inl rfl⟩
    | some held =>
        by_cases hkey : key = call.key u
        · obtain ⟨hheld, -⟩ := h.owner held hcase
          cases hinflight.symm.trans (hkey ▸ hheld)
          exact .inr ⟨hfetching.trans hcase, hkey⟩
        · exact .inl ⟨hinflight, .inr hkey⟩

theorem keeps_of_goes_on {call : Call}
    (hlookups : shared.Sound) (h : call.Ok u shared) (hphase : call.phase.fetching = some future)
    (hafter : call'.phase.fetching = some future) (hname : call'.name = call.name)
    (hlookup : call'.lookup = call.lookup) (hcancelled : call'.cancelled = call.cancelled) :
    Keeps u shared call shared call' := by
  obtain ⟨hinflight, hheld, lookup, hfuture, hopen⟩ := h.owner future hphase
  have hkey : call'.key u = call.key u := congrArg (ModName.key u) hname
  have hnot : call.cancelled = false := not_cancelled h fun outcome hdone => by
    rw [hdone] at hphase
    cases hphase
  refine keeps_of_same hlookups h hname ?_ (hafter.trans hphase.symm)
  exact ok_of_fetching hafter (hcancelled.trans hnot) (by rw [hkey]; exact hinflight)
    (hlookup.trans hheld) hfuture hopen

theorem settle_sound {lookup : Lookup} (h : lookup.Sound) (hopen : lookup.Open) (text : String) :
    (lookup.settle (some text)).Sound ∧ (lookup.settle (some text)).answer = some text ∧
      (lookup.settle (some text)).future ≠ .pending := by
  obtain ⟨future, answer, cut⟩ := lookup
  cases future with
  | pending =>
      refine ⟨⟨⟨nofun, fun hcut => ?_⟩, ?_⟩, rfl, Future.noConfusion⟩
      · cases h.cut.mpr hcut
      · rintro text' ⟨⟩
        rfl
  | result text' => exact absurd rfl (hopen.result text')
  | cancelled =>
      exact ⟨⟨⟨fun _ => h.cut.mp rfl, fun _ => rfl⟩, nofun⟩, rfl,
        Future.noConfusion⟩

theorem cancel_sound {lookup : Lookup} (h : lookup.Sound) :
    lookup.cancel.Sound ∧ lookup.cancel.answer = lookup.answer ∧ lookup.cancel.future ≠ .pending := by
  obtain ⟨future, answer, cut⟩ := lookup
  cases future with
  | pending =>
      exact ⟨⟨⟨fun _ => rfl, fun _ => rfl⟩, nofun⟩, rfl,
        Future.noConfusion⟩
  | result | cancelled => exact ⟨h, rfl, Future.noConfusion⟩

theorem open_cancel {lookup : Lookup} (h : lookup.Open) : lookup.cancel.Open := by
  obtain ⟨future, answer, cut⟩ := lookup
  cases future with
  | pending => exact ⟨h.answer, fun _ hresult => by cases hresult⟩
  | result | cancelled => exact h

theorem pop_eq {call : Call} (change : Lookup → Lookup)
    (h : shared.inflight (call.key u) = some future) :
    pop u change shared call =
      { shared with
        inflight := update shared.inflight (call.key u) none
        lookups := shared.lookups.modify future change } := by
  unfold pop
  rw [h]

/-- **The owner takes its lookup off the map.** -/
theorem keeps_of_pop {call : Call}
    {change : Lookup → Lookup}
    (hlookups : shared.Sound) (h : call.Ok u shared) (hphase : call.phase.fetching = some future)
    (hchange : ∀ lookup : Lookup, lookup.Sound → lookup.Open →
      (change lookup).Sound ∧ (change lookup).future ≠ .pending)
    (hname : call'.name = call.name) (hfetching : call'.phase.fetching = none)
    (hok : call'.Ok u (pop u change shared call)) :
    Keeps u shared call (pop u change shared call) call' := by
  obtain ⟨hinflight, -, mine, hmine, hopen⟩ := h.owner future hphase
  obtain ⟨hsound, hpending⟩ := hchange mine (hlookups future mine hmine) hopen
  have hmodified : (shared.lookups.modify future change)[future]? = some (change mine) := by
    rw [List.getElem?_modify_eq, hmine]
    rfl
  rw [pop_eq change hinflight] at hok ⊢
  -- Another owner has another lookup; who has joined this one finds its future settled.
  refine ⟨hname, hok, fun other hother hdifferent => ?_, fun future' lookup hlookup => ?_,
    fun _ hnone => ?_, fun key future' hkey => ?_⟩
  · refine hother.mono (fun future' lookup hfuture' hheld hlookup hopen' => ?_)
      (fun future' lookup _ hlookup => ?_) (fun future' lookup text hlookup htext => ?_)
    · have hne : future ≠ future' := by
        rintro rfl
        exact hdifferent future hfuture' hphase
      have hkeys : other.key u ≠ call.key u := by
        intro hkey
        rw [hkey, hinflight] at hheld
        exact hne (Option.some.inj hheld)
      exact ⟨(update_of_ne hkeys ..).trans hheld, lookup,
        (List.getElem?_modify_ne change _ hne).trans hlookup, hopen'⟩
    · by_cases hne : future = future'
      · subst hne
        exact ⟨change mine, hmodified, fun hpending' => absurd hpending' hpending⟩
      · refine ⟨lookup, (List.getElem?_modify_ne change _ hne).trans hlookup, fun hpending' => ?_⟩
        refine ⟨hpending', fun key hkey => ?_⟩
        have hkeys : key ≠ call.key u := by
          rintro rfl
          exact hne (Option.some.inj (hinflight.symm.trans hkey))
        exact (update_of_ne hkeys ..).trans hkey
    · by_cases hne : future = future'
      · subst hne
        cases hmine.symm.trans hlookup
        rw [hopen.answer] at htext
        cases htext
      · exact ⟨lookup, (List.getElem?_modify_ne change _ hne).trans hlookup, htext⟩
  · by_cases hne : future = future'
    · subst hne
      cases hmodified.symm.trans hlookup
      exact hsound
    · exact hlookups future' lookup ((List.getElem?_modify_ne change _ hne).symm.trans hlookup)
  · rw [hfetching] at hnone
    cases hnone
  · obtain ⟨hkeys, hold⟩ := PartialMap.update_none_eq_some_iff.mp hkey
    exact .inl ⟨hold, .inr hkeys⟩

theorem keeps_completes {call : Call} (text : String)
    (hlookups : shared.Sound) (h : call.Ok u shared) (hphase : call.phase.fetching = some future) :
    Keeps u shared call (completes u text shared call).1 (completes u text shared call).2 := by
  obtain ⟨hinflight, hlookup, mine, hmine, hopen⟩ := h.owner future hphase
  have hsettled := settle_sound (hlookups future mine hmine) hopen text
  refine keeps_of_pop hlookups h hphase (fun lookup hsound hopen => ?_) rfl rfl ?_
  · obtain ⟨hsound, -, hpending⟩ := settle_sound hsound hopen text
    exact ⟨hsound, hpending⟩
  · refine ok_of_done rfl (fun text' future' htext hfuture' => ?_) fun _ => ⟨text, rfl⟩
    cases htext
    cases hlookup.symm.trans hfuture'
    refine ⟨mine.settle (some text), ?_, hsettled.2.1⟩
    rw [pop_eq _ hinflight]
    dsimp only
    rw [List.getElem?_modify_eq, hmine]
    rfl

variable {cache : String → Option String}

theorem ok_cache {call : Call}
    (h : call.Ok u shared) : call.Ok u { shared with cache := cache } :=
  ⟨h.owner, h.joined, h.returned, h.strings, h.cancelled, h.fresh⟩

theorem keeps_cache {call : Call}
    (h : Keeps u { shared with cache := cache } call shared' call') :
    Keeps u shared call shared' call' :=
  ⟨h.name, h.ok, fun other hother => h.others other (ok_cache hother), h.lookups, h.fetching,
    h.inflight⟩

/-- A call that finds no lookup for its name starts one, with a new future. -/
theorem keeps_starts {call : Call} (hlookups : shared.Sound)
    (hnone : call.phase.fetching = none)
    (hfree : shared.inflight (call.key u) = none) (hname : call'.name = call.name)
    (hfetching : call'.phase.fetching = some shared.lookups.length)
    (hlookup : call'.lookup = some shared.lookups.length) (hcancelled : call'.cancelled = false) :
    Keeps u shared call
      { shared with
        inflight := update shared.inflight (call.key u) (some shared.lookups.length)
        lookups := shared.lookups ++ [⟨.pending, none, false⟩] } call' := by
  have hkey : call'.key u = call.key u := congrArg (ModName.key u) hname
  have hlast : (shared.lookups ++ [⟨.pending, none, false⟩])[shared.lookups.length]? =
      some (⟨.pending, none, false⟩ : Lookup) := List.getElem?_concat_length
  have hold : ∀ {future : Nat} {lookup : Lookup}, shared.lookups[future]? = some lookup →
      (shared.lookups ++ [⟨.pending, none, false⟩])[future]? = some lookup := by
    intro future lookup hlookup
    rw [List.getElem?_append_left (List.getElem?_eq_some_iff.mp hlookup).1]
    exact hlookup
  have hkeys : ∀ {key : String} {future : Nat}, shared.inflight key = some future →
      update shared.inflight (call.key u) (some shared.lookups.length) key =
        some future := by
    intro key future hkey
    have hne : key ≠ call.key u := by
      rintro rfl
      rw [hfree] at hkey
      cases hkey
    exact (update_of_ne hne ..).trans hkey
  have hheld : update shared.inflight (call.key u) (some shared.lookups.length)
      (call'.key u) = some shared.lookups.length := by
    rw [hkey]
    exact update_self ..
  refine ⟨hname, ok_of_fetching hfetching hcancelled hheld hlookup hlast
    ⟨rfl, fun _ => Future.noConfusion⟩, fun other hother _ => ?_, fun future lookup hlookup => ?_,
    fun future hfuture => .inr (Option.some.inj (hfetching.symm.trans hfuture)).symm,
    fun key future hkey => ?_⟩
  · refine hother.mono (fun future lookup _ hkey hlookup hopen => ?_)
      (fun future lookup _ hlookup => ?_) (fun future lookup text hlookup htext => ?_)
    · exact ⟨hkeys hkey, lookup, hold hlookup, hopen⟩
    · exact ⟨lookup, hold hlookup, fun hpending => ⟨hpending, fun key hkey => hkeys hkey⟩⟩
    · exact ⟨lookup, hold hlookup, htext⟩
  · rcases List.mem_append.mp (List.mem_of_getElem? hlookup) with hmem | hmem
    · obtain ⟨i, hi⟩ := List.getElem?_of_mem hmem
      exact hlookups i lookup hi
    · obtain rfl := List.mem_singleton.mp hmem
      exact ⟨⟨Future.noConfusion, Bool.noConfusion⟩, fun _ => Future.noConfusion⟩
  · rcases PartialMap.update_some_eq_some_iff.mp hkey with ⟨rfl, rfl⟩ | ⟨-, hkey⟩
    · exact .inr ⟨hfetching, rfl⟩
    · exact .inl ⟨hkey, .inl hnone⟩

theorem pending_of_uncut {lookup : Lookup} (h : lookup.Sound) (hopen : lookup.Open)
    (hcut : lookup.cut = false) : lookup.future = .pending := by
  cases hfuture : lookup.future with
  | pending => rfl
  | result text => exact absurd hfuture (hopen.result text)
  | cancelled => cases (h.cut.mp hfuture).symm.trans hcut

/-- A call that finds a text in the cache, starts a lookup, or joins one that was not cut off. -/
theorem keeps_begins {call : Call} (hlookups : shared.Sound)
    (hheld : ∀ key future, shared.inflight key = some future →
      ∃ lookup, shared.lookups[future]? = some lookup ∧ lookup.Open)
    (h : call.Ok u shared) (hphase : call.phase = .fresh)
    (huncut : ∀ (future : Nat) (lookup : Lookup), shared.cache (call.key u) = none →
      shared.inflight (call.key u) = some future → shared.lookups[future]? = some lookup →
      lookup.cut = false) :
    Keeps u shared call (begins u shared call).1 (begins u shared call).2 := by
  have hnot : call.cancelled = false := not_cancelled h fun outcome hdone => by
    rw [hdone] at hphase
    cases hphase
  have hnone : call.phase.fetching = none := by
    rw [hphase]
    rfl
  unfold begins
  split
  · next text _ =>
    refine keeps_of_same hlookups h rfl (ok_of_done rfl ?_ fun _ => ⟨text, rfl⟩) hnone.symm
    intro _ future _ hlookup
    have hlookup : call.lookup = some future := hlookup
    rw [h.fresh hphase] at hlookup
    cases hlookup
  · next hcache =>
    split
    · next hfree => exact keeps_starts hlookups hnone hfree rfl rfl rfl hnot
    · next future hinflight =>
      obtain ⟨lookup, hlookup, hopen⟩ := hheld _ future hinflight
      have hpending := pending_of_uncut (hlookups future lookup hlookup) hopen
        (huncut future lookup hcache hinflight hlookup)
      have hawaited : (shared.lookups[future]?.bind awaited) = none := by
        rw [hlookup, Option.bind_some]
        unfold awaited
        rw [hpending]
      simp only [hawaited]
      -- It waits, and its future is the one that the map has for its name.
      refine keeps_of_same hlookups h rfl ?_ hnone.symm
      refine ⟨nofun, ?_, nofun,
        nofun, fun hcancelled => ?_, nofun⟩
      · rintro future' hjoined
        cases hjoined
        exact ⟨rfl, lookup, hlookup, fun _ => ⟨call.key u, hinflight⟩⟩
      · have hcancelled : call.cancelled = true := hcancelled
        rw [hnot] at hcancelled
        cases hcancelled

/-- A call that was waiting is cancelled, and the future with it. -/
theorem keeps_leaves {call : Call}
    (hlookups : shared.Sound)
    (hphase : call.phase = .joined future) (hname : call'.name = call.name)
    (hdone : call'.phase = .done .cancelledError) (hcancelled : call'.cancelled = true) :
    Keeps u shared call { shared with lookups := shared.lookups.modify future Lookup.cancel }
      call' := by
  have hnone : call.phase.fetching = none := by
    rw [hphase]
    rfl
  have hmodified : ∀ {future' : Nat} {lookup : Lookup}, shared.lookups[future']? = some lookup →
      (shared.lookups.modify future Lookup.cancel)[future']? =
        some (if future = future' then lookup.cancel else lookup) := by
    intro future' lookup hlookup
    rw [List.getElem?_modify, hlookup]
    rfl
  refine ⟨hname, ok_of_done hdone nofun (fun hfalse => ?_),
    fun other hother _ => ?_, fun future' lookup hlookup => ?_, (fun future' hfuture => ?_),
    fun key future' hkey => .inl ⟨hkey, .inl hnone⟩⟩
  · rw [hcancelled] at hfalse
    cases hfalse
  · refine hother.mono (fun future' lookup _ hkey hlookup hopen => ?_)
      (fun future' lookup _ hlookup => ?_) (fun future' lookup text hlookup htext => ?_)
    · refine ⟨hkey, _, hmodified hlookup, ?_⟩
      split
      · exact open_cancel hopen
      · exact hopen
    · refine ⟨_, hmodified hlookup, fun hpending => ?_⟩
      split at hpending
      · exact absurd hpending (cancel_sound (hlookups future' lookup hlookup)).2.2
      · exact ⟨hpending, fun key hkey => hkey⟩
    · refine ⟨_, hmodified hlookup, ?_⟩
      split
      · exact (cancel_sound (hlookups future' lookup hlookup)).2.1.trans htext
      · exact htext
  · have hlookup : (shared.lookups.modify future Lookup.cancel)[future']? = some lookup := hlookup
    rw [List.getElem?_modify] at hlookup
    obtain ⟨before, hbefore, rfl⟩ := Option.map_eq_some_iff.mp hlookup
    split
    · exact (cancel_sound (hlookups future' before hbefore)).1
    · exact hlookups future' before hbefore
  · rw [hdone] at hfuture
    cases hfuture

theorem keeps_wakes {call : Call} {outcome : Outcome}
    (hlookups : shared.Sound) (h : call.Ok u shared) (hphase : call.phase = .joined future)
    (houtcome : (shared.lookups[future]?.bind awaited) = some outcome)
    (huncut : ∀ lookup, shared.lookups[future]? = some lookup → lookup.cut = false) :
    Keeps u shared call shared (call.ends outcome) := by
  obtain ⟨hlookup, -⟩ := h.joined future hphase
  obtain ⟨lookup, hfuture, hawaited⟩ := Option.bind_eq_some_iff.mp houtcome
  have hsound := hlookups future lookup hfuture
  have hnone : call.phase.fetching = none := by
    rw [hphase]
    rfl
  refine keeps_of_same hlookups h rfl ?_ hnone.symm
  unfold awaited at hawaited
  split at hawaited
  · cases hawaited
  · next text hresult =>
    cases hawaited
    refine ok_of_done rfl (fun text' future' htext hfuture' => ?_) fun _ => ⟨text, rfl⟩
    cases htext
    cases hlookup.symm.trans hfuture'
    exact ⟨lookup, hfuture, hsound.result text hresult⟩
  · next hcancelled =>
    have hcut := hsound.cut.mp hcancelled
    rw [huncut lookup hfuture] at hcut
    cases hcut

variable {response : Response}

theorem undecodable_of_valueError
    (h : executeRequest response = .error .valueError) : response = .answers 200 .undecodable := by
  cases response with
  | raises failure => cases h
  | answers status body =>
      simp only [executeRequest] at h
      split at h
      · next hstatus =>
        cases body with
        | posts | invalid => cases h
        | undecodable => rw [hstatus]
      · split at h
        · cases h
        · split at h <;> cases h

theorem keeps_responds {call : Call} {attempt : Nat}
    (hlookups : shared.Sound)
    (h : call.Ok u shared) (hphase : call.phase = .requesting future attempt)
    (hdecodable : response ≠ .answers 200 .undecodable) :
    Keeps u shared call (responds u response future attempt shared call).1
      (responds u response future attempt shared call).2 := by
  have hfetching : call.phase.fetching = some future := by
    rw [hphase]
    rfl
  unfold responds
  split
  · exact keeps_cache (keeps_completes _ hlookups (ok_cache h) hfetching)
  · next failure hfailure =>
    split
    · exact keeps_of_goes_on hlookups h hfetching rfl rfl rfl rfl
    · split
      · exact keeps_completes _ hlookups h hfetching
      · next hcaught =>
        have hvalue : failure = .valueError := by
          cases failure with
          | valueError => rfl
          | network | transient => exact absurd rfl hcaught
        rw [hvalue] at hfailure
        exact absurd (undecodable_of_valueError hfailure) hdecodable

/-- A call that is cancelled while it awaits something. -/
theorem keeps_cancels {call : Call}
    (hlookups : shared.Sound)
    (h : call.Ok u shared) (hphase : ∀ outcome, call.phase ≠ .done outcome) :
    Keeps u shared call (cancels u shared call).1 (cancels u shared call).2 := by
  have hok : ∀ shared' : Shared,
      Call.Ok u shared' { call.ends .cancelledError with cancelled := true } := fun shared' =>
    ok_of_done rfl nofun nofun
  unfold cancels
  split
  · next future hjoined => exact keeps_leaves hlookups hjoined rfl rfl rfl
  · next hfresh =>
    refine keeps_of_same hlookups h rfl (hok shared) ?_
    rw [hfresh]
    rfl
  · next hjoined hfresh =>
    obtain ⟨future, hfetching⟩ : ∃ future, call.phase.fetching = some future := by
      cases hcase : call.phase with
      | fresh => exact absurd hcase hfresh
      | acquiring future | requesting future | backingOff future => exact ⟨future, rfl⟩
      | joined future => exact absurd hcase (hjoined future)
      | done outcome => exact absurd hcase (hphase outcome)
    refine keeps_of_pop hlookups h hfetching (fun lookup hsound _ => ?_) rfl rfl (hok _)
    exact ⟨(cancel_sound hsound).1, (cancel_sound hsound).2.2⟩

theorem keeps_of_next {event : Event} {call : Call}
    (hlookups : shared.Sound)
    (hheld : ∀ key future, shared.inflight key = some future →
      ∃ lookup, shared.lookups[future]? = some lookup ∧ lookup.Open)
    (h : call.Ok u shared) (hdecodable : event ≠ .responds (.answers 200 .undecodable))
    (huncut : ∀ (future : Nat) (lookup : Lookup),
      (event = .wakes ∧ call.phase = .joined future ∨
        event = .begins ∧ call.phase = .fresh ∧ shared.cache (call.key u) = none ∧
          shared.inflight (call.key u) = some future) →
      shared.lookups[future]? = some lookup → lookup.cut = false)
    (hnext : next u event shared call = some (shared', call')) :
    Keeps u shared call shared' call' := by
  unfold next at hnext
  split at hnext
  · next hphase =>
    obtain ⟨rfl, rfl⟩ := Prod.mk.inj (Option.some.inj hnext)
    exact keeps_begins hlookups hheld h hphase fun future lookup hcache hinflight =>
      huncut future lookup (.inr ⟨rfl, hphase, hcache, hinflight⟩)
  · next future hphase =>
    obtain ⟨rfl, rfl⟩ := Prod.mk.inj (Option.some.inj hnext)
    exact keeps_of_goes_on hlookups h (hphase ▸ rfl) rfl rfl rfl rfl
  · next future attempt response hphase =>
    obtain ⟨rfl, rfl⟩ := Prod.mk.inj (Option.some.inj hnext)
    exact keeps_responds hlookups h hphase fun heq => hdecodable (heq ▸ rfl)
  · next future attempt hphase =>
    obtain ⟨rfl, rfl⟩ := Prod.mk.inj (Option.some.inj hnext)
    exact keeps_of_goes_on hlookups h (hphase ▸ rfl) rfl rfl rfl rfl
  · next future hphase =>
    obtain ⟨outcome, houtcome, heq⟩ := Option.map_eq_some_iff.mp hnext
    obtain ⟨rfl, rfl⟩ := Prod.mk.inj heq
    exact keeps_wakes hlookups h hphase houtcome fun lookup hlookup =>
      huncut future lookup (.inl ⟨rfl, hphase⟩) hlookup
  · cases hnext
  · next hdone =>
    obtain ⟨rfl, rfl⟩ := Prod.mk.inj (Option.some.inj hnext)
    exact keeps_cancels hlookups h hdone
  · cases hnext

variable {action : Action}

variable {t : State}

/-- **Step lemma.** -/
theorem sound_of_step (h : Sound u s)
    (hstep : step u s action = some t) (hundisturbed : Undisturbed u s action) : Sound u t := by
  obtain ⟨⟨shared', calls'⟩, hat, rfl⟩ := Option.map_eq_some_iff.mp hstep
  obtain ⟨call, call', hcall, hnext, hcall', hothers⟩ := Interleave.stepAt_getElem? hat
  refine sound_of_keeps h hcall hcall' hothers ?_
  refine keeps_of_next h.lookups (fun key future hinflight => ?_) (h.calls _ call hcall)
    hundisturbed.decodable (fun future lookup htakes => ?_) hnext
  · obtain ⟨i, owner, hi, hfetching, -⟩ := h.owned key future hinflight
    exact ((h.calls i owner hi).owner future hfetching).2.2
  · exact hundisturbed.uncut call future lookup ⟨hcall, htakes⟩

/-! ## Along a run -/

theorem singleFlight_of_sound (h : Sound u s) : SingleFlight u s := by
  constructor
  · intro i call outcome hi
    exact (h.calls i call hi).strings outcome
  · intro i j call call' future text text' hi hj hlookup hlookup' hphase hphase'
    obtain ⟨lookup, hfuture, htext⟩ := (h.calls i call hi).returned text future hphase hlookup
    obtain ⟨lookup', hfuture', htext'⟩ :=
      (h.calls j call' hj).returned text' future hphase' hlookup'
    obtain rfl := Option.some.inj (hfuture.symm.trans hfuture')
    exact Option.some.inj (htext.symm.trans htext')
  · intro i j call call' hi hj hfetching hfetching' hkey
    obtain ⟨future, hfuture⟩ := Option.isSome_iff_exists.mp hfetching
    obtain ⟨future', hfuture'⟩ := Option.isSome_iff_exists.mp hfetching'
    have hheld := ((h.calls i call hi).owner future hfuture).1
    have hheld' := ((h.calls j call' hj).owner future' hfuture').1
    rw [hkey, hheld'] at hheld
    obtain rfl := Option.some.inj hheld
    exact h.unique i j call call' future' hi hj hfuture hfuture'
  · intro hidle key
    cases hinflight : s.shared.inflight key with
    | none => rfl
    | some future =>
        obtain ⟨i, call, hi, hfetching, -⟩ := h.owned key future hinflight
        have hrunning := hidle i call hi
        revert hfetching hrunning
        cases call.phase with
        | fresh | done => exact fun hfetching => by cases hfetching
        | _ => exact fun _ hrunning => by cases hrunning
  · intro i call future hi hjoined hawaited
    obtain ⟨-, lookup, hfuture, hpending⟩ := (h.calls i call hi).joined future hjoined
    rw [hfuture, Option.bind_some] at hawaited
    have hstill : lookup.future = .pending := by
      unfold awaited at hawaited
      split at hawaited
      · assumption
      · cases hawaited
      · cases hawaited
    obtain ⟨key, hinflight⟩ := hpending hstill
    obtain ⟨j, owner, hj, hfetching, -⟩ := h.owned key future hinflight
    exact ⟨j, owner, hj, hfetching⟩

/-- An end without a text, of a call that was not cancelled. -/
structure EndsBadly (call call' : Call) : Prop where
  before : ∀ outcome, call.phase ≠ .done outcome
  after : ∃ outcome, call'.phase = .done outcome ∧ ∀ text, outcome ≠ .returned text
  cancelled : call'.cancelled = call.cancelled

theorem endsBadly_of_undecodable {call : Call}
    (h : next u (.responds (.answers 200 .undecodable)) shared call = some (shared', call')) :
    EndsBadly call call' := by
  unfold next at h
  cases hphase : call.phase with
  | requesting future attempt =>
      rw [hphase] at h
      cases h
      exact ⟨(fun outcome hdone => by rw [hphase] at hdone; cases hdone),
        ⟨.valueError, rfl, fun _ => Outcome.noConfusion⟩, rfl⟩
  | _ =>
      rw [hphase] at h
      cases h

theorem awaited_of_cut {lookup : Lookup} (h : lookup.Sound) (hcut : lookup.cut = true) :
    awaited lookup = some .cancelledError := by
  unfold awaited
  rw [h.cut.mpr hcut]

theorem endsBadly_of_cut {call : Call}
    {lookup : Lookup} (h : Sound u s) (htakes : TakesFrom u s action call future)
    (hlookup : s.shared.lookups[future]? = some lookup) (hcut : lookup.cut = true)
    (hnext : next u action.event s.shared call = some (shared', call')) : EndsBadly call call' := by
  have hawaited : (s.shared.lookups[future]?.bind awaited) = some .cancelledError := by
    rw [hlookup, Option.bind_some]
    exact awaited_of_cut (h.lookups future lookup hlookup) hcut
  obtain ⟨-, ⟨hevent, hphase⟩ | ⟨hevent, hphase, hcache, hinflight⟩⟩ := htakes
  · rw [hevent] at hnext
    unfold next at hnext
    simp only [hphase, hawaited, Option.map_some] at hnext
    cases hnext
    exact ⟨(fun outcome hdone => by rw [hphase] at hdone; cases hdone),
      ⟨.cancelledError, rfl, fun _ => Outcome.noConfusion⟩, rfl⟩
  · rw [hevent] at hnext
    unfold next begins at hnext
    simp only [hphase, hcache, hinflight, hawaited] at hnext
    cases hnext
    exact ⟨(fun outcome hdone => by rw [hphase] at hdone; cases hdone),
      ⟨.cancelledError, rfl, fun _ => Outcome.noConfusion⟩, rfl⟩

theorem singleFlight_iff (h : Sound u s)
    (hstep : step u s action = some t) : SingleFlight u t ↔ Undisturbed u s action := by
  constructor
  · intro hflight
    obtain ⟨⟨shared', calls'⟩, hat, rfl⟩ := Option.map_eq_some_iff.mp hstep
    obtain ⟨call, call', hcall, hnext, hcall', -⟩ := Interleave.stepAt_getElem? hat
    have hwell : ¬EndsBadly call call' := by
      rintro ⟨hbefore, ⟨outcome, hafter, htext⟩, hcancelled⟩
      have huncancelled := not_cancelled (h.calls _ call hcall) hbefore
      obtain ⟨text, hreturned⟩ := hflight.strings action.call call' outcome hcall' hafter
        (hcancelled.trans huncancelled)
      exact htext text hreturned
    refine ⟨fun hevent => hwell ?_, fun taker future lookup htakes hlookup => ?_⟩
    · rw [hevent] at hnext
      exact endsBadly_of_undecodable hnext
    · cases hcall.symm.trans htakes.1
      exact (Bool.not_eq_true _).mp fun hcut => hwell (endsBadly_of_cut h htakes hlookup hcut hnext)
  · intro hundisturbed
    exact singleFlight_of_sound (sound_of_step h hstep hundisturbed)

/-- **Lookups are single-flight if and only if no call takes its result from one that was cut off**,
and no body is undecodable: for any calls, in every interleaving and with every cancellation. -/
theorem always_singleFlight_iff (u : UnicodeText) (names : List ModName) (schedule : List Action) :
    Runs.Always (step u) (fun _ _ t => SingleFlight u t) (start names) schedule ↔
      Runs.Always (step u) (fun s action _ => Undisturbed u s action) (start names) schedule := by
  refine Runs.always_iff_of_guarded ?_ ?_ (sound_start (u := u) names) schedule
  · intro s action t h hstep hundisturbed
    exact sound_of_step h hstep hundisturbed
  · intro s action t h hstep
    exact singleFlight_iff h hstep

def skyUI : ModName := ⟨"SkyUI", "SkyUI", by rfl⟩

/-- Two calls join the lookup of a third one, and one of them is cancelled. -/
def leaving : List Action := [⟨0, .begins⟩, ⟨1, .begins⟩, ⟨2, .begins⟩, ⟨1, .cancels⟩, ⟨2, .wakes⟩]

/-- **The other one gets no text**, though nobody has cancelled it. -/
theorem always_singleFlight_counterexample :
    ¬Runs.Always (step .basic) (fun _ _ t => SingleFlight .basic t) (start [skyUI, skyUI, skyUI])
      leaving := by
  intro h
  have hlast : Runs.Always (step .basic) (fun _ _ t => SingleFlight .basic t)
      (start [skyUI, skyUI, skyUI]) (leaving.take 4 ++ [⟨2, .wakes⟩]) := h
  obtain ⟨text, htext⟩ := (hlast.at_prefix rfl rfl).strings 2 _ _ rfl rfl rfl
  cases htext

end Resolver

end SkyClaw.Scraper.RedditClient
