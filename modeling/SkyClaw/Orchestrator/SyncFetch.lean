import SkyClaw.Lib.Json
import SkyClaw.Lib.Retry

/-!
# Fetching the metadata of a mod

`MasterlistClient.fetch_mod_info` behind `NetworkGateway.request`, and `SyncEngine._safe_fetch_info`
over it: which exceptions come out of them.
-/

namespace SkyClaw.Orchestrator

/-! ## Exceptions -/

/-- The classes that the handlers tell apart; a class of `aiohttp` that is no timeout counts as
`ClientError`. -/
inductive ExceptionClass
  | masterlistFetchError
  | circuitOpenError
  | retryError
  | clientError
  /-- of `aiohttp` -/
  | serverTimeoutError
  | valueError
  | osError
  | timeoutError
  | networkGatewayTimeoutError
  | egressViolationError
  | pathViolationError
  | downloadError
  | hashValidationError
  | databaseError
  | journalError
  | runtimeError
  | attributeError
  | other
deriving DecidableEq

/-- A class and what it is derived from. -/
def ExceptionClass.bases : ExceptionClass → List ExceptionClass
  | circuitOpenError => [circuitOpenError, masterlistFetchError]
  | serverTimeoutError => [serverTimeoutError, clientError, timeoutError, osError]
  | timeoutError => [timeoutError, osError]
  | hashValidationError => [hashValidationError, downloadError]
  | raised => [raised]

/-- An exception: its class and its text. -/
structure Raised where
  cls : ExceptionClass
  text : String
deriving DecidableEq

/-- `isinstance`, or an `except` clause. -/
def Raised.isinstance (e : Raised) (classes : List ExceptionClass) : Bool :=
  e.cls.bases.any classes.contains

/-- What `_check_and_update_mod` and the sync take for a network failure. -/
def networkErrors : List ExceptionClass :=
  [.masterlistFetchError, .circuitOpenError, .retryError, .clientError]

theorem Raised.isinstance_append (e : Raised) (classes more : List ExceptionClass) :
    e.isinstance (classes ++ more) = (e.isinstance classes || e.isinstance more) := by
  unfold isinstance
  rw [Bool.eq_iff_iff]
  simp only [List.any_eq_true, Bool.or_eq_true, List.contains_iff_mem, List.mem_append]
  constructor
  · rintro ⟨cls, hcls, hmem | hmem⟩
    · exact .inl ⟨cls, hcls, hmem⟩
    · exact .inr ⟨cls, hcls, hmem⟩
  · rintro (⟨cls, hcls, hmem⟩ | ⟨cls, hcls, hmem⟩)
    · exact ⟨cls, hcls, .inl hmem⟩
    · exact ⟨cls, hcls, .inr hmem⟩

/-- What is read of a response; reading may raise. -/
structure ModResponse where
  status : Nat
  text : Except Raised String
  json : Except Raised Json

/-- How the last hop of `NetworkGateway.request` goes. -/
inductive LastHop
  /-- `authorize` or the redirect limit raises. -/
  | refused (e : Raised)
  | sent (url : String) (reply : Except Raised ModResponse)

/-- The end of `NetworkGateway.request`. -/
def LastHop.result : LastHop → Except Raised ModResponse
  | refused e => .error e
  | sent url (.error e) =>
      if e.isinstance [.timeoutError] then
        .error ⟨.networkGatewayTimeoutError,
          "La petición a " ++ url ++ " excedió el tiempo límite."⟩
      else .error e
  | sent _ (.ok response) => .ok response

/-- One call of `fetch_mod_info`: what the circuit breaker says, and how the request goes. -/
structure FetchAttempt where
  allowed : Bool
  request : LastHop

/-- `fetch_mod_info`; its handlers tell the circuit breaker and raise the exception again. -/
def fetchModInfo (modId : Int) (attempt : FetchAttempt) : Except Raised Json :=
  if !attempt.allowed then
    .error ⟨.circuitOpenError,
      "Circuit breaker is open — Nexus API calls are temporarily blocked"⟩
  else do
    let response ← attempt.request.result
    if response.status ≠ 200 then
      let body ← response.text
      .error ⟨.masterlistFetchError,
        "HTTP " ++ toString response.status ++ " for mod " ++ toString modId ++ ": " ++
          String.ofList (body.toList.take 200)⟩
    else response.json

/-- `retry_if_exception_type` of `_safe_fetch_info` -/
def fetchAgain (e : Raised) : Bool := e.isinstance [.clientError, .masterlistFetchError]

/-- `stop_after_attempt(5)`: four more after the first. -/
def furtherFetches : Nat := 4

/-- `_safe_fetch_info` from attempt `i` on, with up to `n` after it. -/
def fetchFrom (modId : Int) (attempts : Nat → FetchAttempt) (n i : Nat) : Except Raised Json :=
  Retry.stateless fetchAgain (fun j => fetchModInfo modId (attempts j)) n i

def safeFetchInfo (modId : Int) (attempts : Nat → FetchAttempt) : Except Raised Json :=
  fetchFrom modId attempts furtherFetches 0

end SkyClaw.Orchestrator
