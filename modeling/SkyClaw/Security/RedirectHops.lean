import SkyClaw.Security.NetworkGateway

/-!
# The redirect hops of the network gateway

`NetworkGateway.request` sends a request and follows the redirects of the answers itself, for
any sequence of answers.  `Chain` says which URL a hop is about, and `sentWithinPolicy` that
every URL the session is given is within the egress policy.
-/

namespace SkyClaw.Security.NetworkGateway

open Checks UrlParse
open IpAddress (Address ipAddress)

structure ClientTimeout where
  total : Option Nat
  connect : Option Nat
  sockRead : Option Nat
deriving DecidableEq, Repr

/-- A keyword argument that can be `False`. -/
inductive Setting (V : Type) where
  | off
  | given (value : V)
deriving DecidableEq, Repr

/-- The keyword arguments of a request; a field that is `none` is not among them. -/
structure Kwargs (V : Type) where
  headers : Option (List (String × String))
  timeout : Option ClientTimeout
  ssl : Option (Setting V)
  allowRedirects : Option (Setting V)
  rest : List (String × V)
deriving DecidableEq, Repr

/-- The arguments of `request`. -/
structure Call (V : Type) where
  method : List Char
  url : List Char
  maxRedirects : Int
  allowedRedirectHosts : Option (List (List Char))
  kwargs : Kwargs V

/-- What `request` reads of a response. -/
structure Response where
  status : Nat
  location : Option (List Char)
deriving DecidableEq, Repr

/-- How `session.request` ends. -/
inductive Reply where
  | response (response : Response)
  | timedOut
  /-- Any other exception. -/
  | raised
deriving DecidableEq, Repr

/-- How `request` ends without a response. -/
inductive Failure where
  | egress (violation : EgressViolation)
  /-- `NetworkGatewayTimeoutError`. -/
  | timeout (url : List Char)
  /-- The `ValueError` of `urlparse`. -/
  | valueError
  | session
deriving DecidableEq, Repr

/-- One call of `session.request`. -/
structure Sent (V : Type) where
  method : List Char
  url : List Char
  kwargs : Kwargs V
deriving DecidableEq, Repr

/-- The requests of a call, in order, and its end. -/
structure Run (V : Type) where
  sent : List (Sent V)
  result : Except Failure Response

variable {V : Type} (u : UnicodeText) (policy : EgressPolicy)

/-! ## One hop -/

/-- `urlparse`, where its `ValueError` is not caught. -/
def parse (url : List Char) : Except Failure ParseResult :=
  orRaise (urlparse u.toUnicode url) .valueError

/-- The checks at the head of the loop. -/
def checkTarget (call : Call V) (hop : Nat) (url : List Char) : Except Failure Unit :=
  match call.allowedRedirectHosts with
  | some hosts =>
      if 0 < hop then do
        let redirect ← parse u url
        if hosts.contains (hostOf u redirect) then do
          (checkSchemeAllowed u redirect).mapError .egress
          (checkLiteral policy (hostOf u redirect) .privateRedirect).mapError .egress
        else (authorize u policy call.method url).mapError .egress
      else (authorize u policy call.method url).mapError .egress
  | none => (authorize u policy call.method url).mapError .egress

/-- Everything before the request of a hop is sent. -/
def prepareHop (call : Call V) (hop : Nat) (url : List Char) : Except Failure ParseResult := do
  checkTarget u policy call hop url
  let parsed ← parse u url
  (checkSchemeAllowed u parsed).mapError .egress
  return parsed

/-- `ClientTimeout(total=45, connect=10)`. -/
def safeTimeout : ClientTimeout := ⟨some 45, some 10, none⟩

/-- `hop_kwargs`: the arguments of the call, with the gateway's own settings. -/
def hopKwargs (kwargs : Kwargs V) (parsed : ParseResult) : Kwargs V :=
  { kwargs with
    allowRedirects := some .off
    timeout := kwargs.timeout.or (some safeTimeout)
    ssl :=
      if isLoopbackHost u ((parsed.hostname u).getD []) ∧ parsed.scheme = "http".toList then
        some .off
      else kwargs.ssl }

def hopRequest (call : Call V) (url : List Char) (parsed : ParseResult) : Sent V :=
  ⟨call.method, url, hopKwargs u call.kwargs parsed⟩

/-- The location that a response asks to follow. -/
def redirection (response : Response) : Option (List Char) :=
  if response.status ∈ [301, 302, 303, 307, 308] then response.location.filter (· ≠ []) else none

/-- The next URL; a location without a host is put behind that of the current URL. -/
def nextUrl (url location : List Char) : Except Failure (List Char) := do
  let target ← parse u location
  if target.netloc = [] then do
    let base ← parse u url
    return base.scheme ++ "://".toList ++ base.netloc ++ location
  else return location

/-- The loop from a hop on, with the hops that are left. -/
def hops (call : Call V) (replies : Nat → Reply) : Nat → Nat → List Char → Run V
  | 0, _, _ => ⟨[], .error (.egress (.redirectLimit call.maxRedirects call.url))⟩
  | left + 1, hop, url =>
      match prepareHop u policy call hop url with
      | .error e => ⟨[], .error e⟩
      | .ok parsed =>
          let sent := hopRequest u call url parsed
          match replies hop with
          | .timedOut => ⟨[sent], .error (.timeout url)⟩
          | .raised => ⟨[sent], .error .session⟩
          | .response response =>
              match redirection response with
              | none => ⟨[sent], .ok response⟩
              | some location =>
                  match nextUrl u url location with
                  | .error e => ⟨[sent], .error e⟩
                  | .ok next =>
                      let run := hops call replies left (hop + 1) next
                      ⟨sent :: run.sent, run.result⟩

/-- `request`, when the session ends hop `n` with `replies n`. -/
def request (call : Call V) (replies : Nat → Reply) : Run V :=
  hops u policy call replies (call.maxRedirects + 1).toNat 0 call.url

/-- What is left of the policy for a host that only redirects may lead to. -/
def RedirectHostAllowed (call : Call V) (url : List Char) : Prop :=
  ∃ hosts parsed, call.allowedRedirectHosts = some hosts ∧
    urlparse u.toUnicode url = some parsed ∧ hostOf u parsed ∈ hosts ∧
    SchemeAllowed u parsed ∧ NotPrivate policy (hostOf u parsed)

/-- The full policy, or after the first hop the rules for redirect hosts. -/
def HopAllowed (call : Call V) (hop : Nat) (url : List Char) : Prop :=
  (∃ parsed, Authorized u policy call.method url parsed) ∨
    0 < hop ∧ RedirectHostAllowed u policy call url

/-! ## The redirect chain -/

/-- The redirect that is followed at a hop. -/
def Follows (replies : Nat → Reply) (hop : Nat) (url next : List Char) : Prop :=
  ∃ response location, replies hop = .response response ∧
    redirection response = some location ∧ nextUrl u url location = .ok next

/-- The URLs that the answers lead to, as long as the gateway goes along. -/
inductive Chain (call : Call V) (replies : Nat → Reply) : Nat → List Char → Prop
  | start : Chain call replies 0 call.url
  | redirect {hop : Nat} {url next : List Char} {parsed : ParseResult}
      (hchain : Chain call replies hop url) (hready : prepareHop u policy call hop url = .ok parsed)
      (hnext : Follows u replies hop url next) : Chain call replies (hop + 1) next

variable {u policy}

variable {hop : Nat} {url : List Char}

/-- **One hop.**  A request is sent only for a URL that is within the policy of its hop. -/
theorem hopAllowed_of_prepareHop {call : Call V}
    {parsed : ParseResult} (h : prepareHop u policy call hop url = .ok parsed) :
    HopAllowed u policy call hop url := by
  obtain ⟨htarget, _⟩ := check_bind_eq_ok_iff.mp h
  have hauthorized : (authorize u policy call.method url).mapError Failure.egress = .ok () →
      HopAllowed u policy call hop url :=
    fun hok => .inl (authorized_of_authorize (mapError_eq_ok_iff.mp hok))
  unfold checkTarget at htarget
  cases hhosts : call.allowedRedirectHosts with
  | none =>
      rw [hhosts] at htarget
      exact hauthorized htarget
  | some hosts =>
      rw [hhosts] at htarget
      dsimp only at htarget
      by_cases hhop : 0 < hop
      · rw [if_pos hhop] at htarget
        obtain ⟨redirect, hredirect, htarget⟩ := bind_eq_ok_iff.mp htarget
        by_cases hmem : hosts.contains (hostOf u redirect) = true
        · rw [if_pos hmem] at htarget
          obtain ⟨hscheme, hliteral⟩ := check_bind_eq_ok_iff.mp htarget
          exact .inr ⟨hhop, hosts, redirect, hhosts, orRaise_eq_ok_iff.mp hredirect,
            List.contains_iff_mem.mp hmem, checkSchemeAllowed_ok (mapError_eq_ok_iff.mp hscheme),
            checkLiteral_ok (mapError_eq_ok_iff.mp hliteral)⟩
        · rw [if_neg hmem] at htarget
          exact hauthorized htarget
      · rw [if_neg hhop] at htarget
        exact hauthorized htarget

variable {replies : Nat → Reply}

theorem Follows.unique {next next' : List Char}
    (h : Follows u replies hop url next) (h' : Follows u replies hop url next') : next = next' := by
  obtain ⟨response, location, hreply, hredirect, hnext⟩ := h
  obtain ⟨response', location', hreply', hredirect', hnext'⟩ := h'
  obtain rfl : response = response' := by
    rw [hreply] at hreply'
    exact Reply.response.inj hreply'
  obtain rfl : location = location' := by
    rw [hredirect] at hredirect'
    exact Option.some.inj hredirect'
  rw [hnext] at hnext'
  exact Except.ok.inj hnext'

/-- **What one round of the loop sends.**  Nothing, if the URL is stopped; otherwise its request,
and if a redirect is followed what the next round sends. -/
theorem hops_sent_cases (u : UnicodeText) (policy : EgressPolicy) (call : Call V)
    (replies : Nat → Reply) (left hop : Nat) (url : List Char) :
    ((∃ e, prepareHop u policy call hop url = .error e) ∧
        (hops u policy call replies (left + 1) hop url).sent = []) ∨
      ∃ parsed, prepareHop u policy call hop url = .ok parsed ∧
        (((∀ next, ¬Follows u replies hop url next) ∧
            (hops u policy call replies (left + 1) hop url).sent = [hopRequest u call url parsed]) ∨
          ∃ next, Follows u replies hop url next ∧
            (hops u policy call replies (left + 1) hop url).sent =
              hopRequest u call url parsed ::
                (hops u policy call replies left (hop + 1) next).sent) := by
  rw [hops]
  cases hready : prepareHop u policy call hop url with
  | error e => exact .inl ⟨⟨e, rfl⟩, rfl⟩
  | ok parsed =>
      refine .inr ⟨parsed, rfl, ?_⟩
      cases hreply : replies hop with
      | timedOut | raised =>
          refine .inl ⟨?_, rfl⟩
          rintro next ⟨response, _, hresponse, _⟩
          rw [hreply] at hresponse
          cases hresponse
      | response response =>
          cases hredirect : redirection response with
          | none =>
              refine .inl ⟨?_, by simp only [hredirect]⟩
              rintro next ⟨response', location, hresponse, hlocation, _⟩
              rw [hreply] at hresponse
              cases hresponse
              rw [hredirect] at hlocation
              cases hlocation
          | some location =>
              cases hnext : nextUrl u url location with
              | error e =>
                  refine .inl ⟨?_, by simp only [hredirect, hnext]⟩
                  rintro next ⟨response', location', hresponse, hlocation, hok⟩
                  rw [hreply] at hresponse
                  cases hresponse
                  rw [hredirect] at hlocation
                  cases hlocation
                  rw [hnext] at hok
                  cases hok
              | ok next =>
                  exact .inr ⟨next, ⟨response, location, hreply, hredirect, hnext⟩,
                    by simp only [hredirect, hnext]⟩

/-! ## Whole runs -/

theorem hops_length_le (call : Call V) (replies : Nat → Reply) (left hop : Nat) (url : List Char) :
    (hops u policy call replies left hop url).sent.length ≤ left := by
  induction left generalizing hop url with
  | zero => exact Nat.le_refl 0
  | succ left ih =>
      rcases hops_sent_cases u policy call replies left hop url with
        ⟨_, hsent⟩ | ⟨parsed, _, ⟨_, hsent⟩ | ⟨next, _, hsent⟩⟩ <;> rw [hsent]
      · exact Nat.zero_le _
      · exact Nat.succ_le_succ (Nat.zero_le left)
      · exact Nat.succ_le_succ (ih (hop + 1) next)

variable {sent : Sent V}

/-- What is sent from a hop on is about URLs of the chain. -/
theorem chain_of_hops {call : Call V} {left : Nat}
    (hchain : Chain u policy call replies hop url) {i : Nat}
    (h : (hops u policy call replies left hop url).sent[i]? = some sent) :
    i < left ∧ ∃ url parsed, Chain u policy call replies (hop + i) url ∧
      prepareHop u policy call (hop + i) url = .ok parsed ∧
        sent = hopRequest u call url parsed := by
  induction left generalizing hop url i with
  | zero => cases h
  | succ left ih =>
      rcases hops_sent_cases u policy call replies left hop url with
        ⟨_, hsent⟩ | ⟨parsed, hready, ⟨_, hsent⟩ | ⟨next, hnext, hsent⟩⟩ <;> rw [hsent] at h
      · cases h
      · cases i with
        | zero => exact ⟨Nat.succ_pos left, url, parsed, hchain, hready, (Option.some.inj h).symm⟩
        | succ i => cases h
      · cases i with
        | zero => exact ⟨Nat.succ_pos left, url, parsed, hchain, hready, (Option.some.inj h).symm⟩
        | succ i =>
            have hrest := ih (.redirect hchain hready hnext) h
            rw [Nat.add_right_comm, Nat.add_assoc] at hrest
            exact ⟨Nat.succ_lt_succ hrest.1, hrest.2⟩

theorem sent_drop_of_chain {call : Call V}
    (hchain : Chain u policy call replies hop url) (hle : hop ≤ (call.maxRedirects + 1).toNat) :
    (request u policy call replies).sent.drop hop =
      (hops u policy call replies ((call.maxRedirects + 1).toNat - hop) hop url).sent := by
  induction hchain with
  | start => rfl
  | @redirect hop url next parsed _ hready hnext ih =>
      have hstep : (call.maxRedirects + 1).toNat - hop =
          (call.maxRedirects + 1).toNat - (hop + 1) + 1 := by omega
      rw [← List.drop_drop, ih (by omega), hstep]
      rcases hops_sent_cases u policy call replies
          ((call.maxRedirects + 1).toNat - (hop + 1)) hop url with
        ⟨⟨e, he⟩, _⟩ | ⟨_, _, ⟨hnone, _⟩ | ⟨next', hnext', hsent⟩⟩
      · rw [hready] at he
        cases he
      · exact absurd hnext (hnone next)
      · rw [hsent, hnext.unique hnext']
        rfl

/-- **The requests of a call** are those of its chain: one for each URL that passes the checks. -/
theorem sent_getElem_iff {call : Call V} :
    (request u policy call replies).sent[hop]? = some sent ↔
      hop < (call.maxRedirects + 1).toNat ∧ ∃ url parsed, Chain u policy call replies hop url ∧
        prepareHop u policy call hop url = .ok parsed ∧ sent = hopRequest u call url parsed := by
  constructor
  · intro h
    have hchain := chain_of_hops .start h
    rwa [Nat.zero_add] at hchain
  · rintro ⟨hlt, url, parsed, hchain, hready, rfl⟩
    have hdrop := sent_drop_of_chain hchain (Nat.le_of_lt hlt)
    have hhead : (request u policy call replies).sent[hop]? =
        ((request u policy call replies).sent.drop hop)[0]? := by
      rw [List.getElem?_drop, Nat.add_zero]
    have hstep : (call.maxRedirects + 1).toNat - hop =
        (call.maxRedirects + 1).toNat - (hop + 1) + 1 := by omega
    rw [hhead, hdrop, hstep]
    rcases hops_sent_cases u policy call replies
        ((call.maxRedirects + 1).toNat - (hop + 1)) hop url with
      ⟨⟨e, he⟩, _⟩ | ⟨_, hready', ⟨_, hsent⟩ | ⟨_, _, hsent⟩⟩
    · rw [hready] at he
      cases he
    · rw [hsent, ← Except.ok.inj (hready.symm.trans hready')]
      rfl
    · rw [hsent, ← Except.ok.inj (hready.symm.trans hready')]
      rfl

/-- **Egress.**  For every policy, call and sequence of answers, each URL that the session is
given is within the policy of its hop, and there are at most `max_redirects + 1` of them. -/
theorem sentWithinPolicy (u : UnicodeText) (policy : EgressPolicy) (call : Call V)
    (replies : Nat → Reply) :
    (request u policy call replies).sent.length ≤ (call.maxRedirects + 1).toNat ∧
      ∀ hop sent, (request u policy call replies).sent[hop]? = some sent →
        HopAllowed u policy call hop sent.url := by
  refine ⟨hops_length_le call replies _ 0 call.url, fun hop sent hsent => ?_⟩
  obtain ⟨_, url, parsed, _, hready, rfl⟩ := sent_getElem_iff.mp hsent
  exact hopAllowed_of_prepareHop hready

end SkyClaw.Security.NetworkGateway
