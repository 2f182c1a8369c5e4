import Mathlib.Data.List.Forall2
import SkyClaw.Security.RedirectHops

/-!
# Credentials across redirect hops

The keyword arguments of a request go along with every hop, credential headers included.  Two
runs that differ in the values of these headers send the same requests in the same order, so
`credentialsStay_iff` can say exactly when no other host can tell them apart.
-/

namespace SkyClaw.Security.NetworkGateway

open Checks UrlParse

variable {V : Type} (u : UnicodeText) (policy : EgressPolicy)

/-- The headers that carry a secret of the caller.  Header names ignore case. -/
def IsCredential (name : String) : Prop :=
  name.toList.map Char.toLower ∈ ["authorization".toList, "apikey".toList]

instance (name : String) : Decidable (IsCredential name) :=
  inferInstanceAs (Decidable (_ ∈ [_, _]))

/-- The same names in the same order, and the same values but for credentials. -/
def AlikeHeaders : List (String × String) → List (String × String) → Prop :=
  List.Forall₂ fun header header' =>
    header.1 = header'.1 ∧ (header.2 = header'.2 ∨ IsCredential header.1)

def Call.withHeaders (call : Call V) (headers : List (String × String)) : Call V :=
  { call with kwargs := { call.kwargs with headers := some headers } }

/-- The request with other headers. -/
def Sent.withHeaders (headers : List (String × String)) (sent : Sent V) : Sent V :=
  { sent with kwargs := { sent.kwargs with headers := some headers } }

/-- The host that a URL is sent to. -/
def urlHost (url : List Char) : Option (List Char) := (urlparse u.toUnicode url).map (hostOf u)

/-- The requests to other hosts than that of the initial URL. -/
def elsewhere (call : Call V) (replies : Nat → Reply) : List (Sent V) :=
  (request u policy call replies).sent.filter fun sent => urlHost u sent.url ≠ urlHost u call.url

/-- Other hosts get the same requests whatever the values of the credentials are. -/
def CredentialsStay (call : Call V) (replies : Nat → Reply) : Prop :=
  ∀ headers headers', call.kwargs.headers = some headers → AlikeHeaders headers headers' →
    elsewhere u policy (call.withHeaders headers') replies = elsewhere u policy call replies

/-- No redirect that is gone along with leads to another host. -/
def StaysOnHost (call : Call V) (replies : Nat → Reply) : Prop :=
  ∀ hop url parsed, hop < (call.maxRedirects + 1).toNat → Chain u policy call replies hop url →
    prepareHop u policy call hop url = .ok parsed → urlHost u url = urlHost u call.url

variable {u policy}

/-- **The credentials do not decide where requests go.** -/
theorem hops_withHeaders (call : Call V) (replies : Nat → Reply)
    (headers : List (String × String)) (left hop : Nat) (url : List Char) :
    (hops u policy (call.withHeaders headers) replies left hop url).sent =
      (hops u policy call replies left hop url).sent.map (Sent.withHeaders headers) := by
  induction left generalizing hop url with
  | zero => rfl
  | succ left ih =>
      have hready : prepareHop u policy (call.withHeaders headers) hop url =
          prepareHop u policy call hop url := rfl
      rw [hops, hops, hready]
      cases prepareHop u policy call hop url with
      | error e => rfl
      | ok parsed =>
          have hrequest : hopRequest u (call.withHeaders headers) url parsed =
              (hopRequest u call url parsed).withHeaders headers := rfl
          dsimp only
          rw [hrequest]
          cases replies hop with
          | timedOut | raised => rfl
          | response response =>
              dsimp only
              cases redirection response with
              | none => rfl
              | some location =>
                  dsimp only
                  cases nextUrl u url location with
                  | error e => rfl
                  | ok next => exact congrArg (_ :: ·) (ih (hop + 1) next)

theorem sent_withHeaders (call : Call V) (replies : Nat → Reply)
    (headers : List (String × String)) :
    (request u policy (call.withHeaders headers) replies).sent =
      (request u policy call replies).sent.map (Sent.withHeaders headers) :=
  hops_withHeaders call replies headers _ 0 call.url

theorem elsewhere_withHeaders (call : Call V) (replies : Nat → Reply)
    (headers : List (String × String)) :
    elsewhere u policy (call.withHeaders headers) replies =
      (elsewhere u policy call replies).map (Sent.withHeaders headers) := by
  unfold elsewhere
  rw [sent_withHeaders, List.filter_map]
  rfl

variable {replies : Nat → Reply}

theorem headers_of_mem_sent {call : Call V} {sent : Sent V}
    (h : sent ∈ (request u policy call replies).sent) :
    sent.kwargs.headers = call.kwargs.headers := by
  obtain ⟨hop, hsent⟩ := List.mem_iff_getElem?.mp h
  obtain ⟨_, url, parsed, _, _, rfl⟩ := sent_getElem_iff.mp hsent
  rfl

theorem elsewhere_eq_nil_iff {call : Call V} :
    elsewhere u policy call replies = [] ↔ StaysOnHost u policy call replies := by
  unfold elsewhere
  rw [List.filter_eq_nil_iff]
  constructor
  · intro h hop url parsed hhop hchain hready
    have hsent := sent_getElem_iff.mpr ⟨hhop, url, parsed, hchain, hready, rfl⟩
    have hhost := h _ (List.mem_of_getElem? hsent)
    rw [decide_eq_true_eq, not_not] at hhost
    exact hhost
  · intro h sent hmem
    obtain ⟨hop, hsent⟩ := List.mem_iff_getElem?.mp hmem
    obtain ⟨hhop, url, parsed, hchain, hready, rfl⟩ := sent_getElem_iff.mp hsent
    rw [decide_eq_true_eq, not_not]
    exact h hop url parsed hhop hchain hready

/-- The headers with every credential replaced by another one. -/
def rekeyed (headers : List (String × String)) : List (String × String) :=
  headers.map fun header =>
    if IsCredential header.1 then (header.1, if header.2 = "" then "x" else "") else header

theorem alikeHeaders_rekeyed (headers : List (String × String)) :
    AlikeHeaders headers (rekeyed headers) := by
  unfold AlikeHeaders rekeyed
  rw [List.forall₂_map_right_iff, List.forall₂_same]
  intro header _
  by_cases hcredential : IsCredential header.1
  · rw [if_pos hcredential]
    exact ⟨rfl, .inr hcredential⟩
  · rw [if_neg hcredential]
    exact ⟨rfl, .inl rfl⟩

variable {headers : List (String × String)}

theorem rekeyed_eq_self_iff :
    rekeyed headers = headers ↔ ∀ header ∈ headers, ¬IsCredential header.1 := by
  rw [rekeyed, ← List.map_id headers, List.map_map, List.map_inj_left, List.map_id]
  refine forall₂_congr fun header _ => ?_
  show (if IsCredential header.1 then (header.1, if header.2 = "" then "x" else "") else header) =
    header ↔ _
  by_cases hcredential : IsCredential header.1
  · rw [if_pos hcredential]
    refine iff_of_false (fun heq => ?_) (not_not.mpr hcredential)
    have hvalue := congrArg Prod.snd heq
    dsimp only at hvalue
    split at hvalue
    · next hempty =>
        rw [hempty] at hvalue
        exact absurd hvalue (by decide)
    · next hne => exact hne hvalue.symm
  · rw [if_neg hcredential]
    exact iff_of_true rfl hcredential

theorem eq_of_alikeHeaders {headers' : List (String × String)}
    (h : AlikeHeaders headers headers') (hnone : ∀ header ∈ headers, ¬IsCredential header.1) :
    headers' = headers := by
  induction h with
  | nil => rfl
  | @cons header header' rest rest' hhead _ ih =>
      have hvalue : header.2 = header'.2 :=
        hhead.2.resolve_right (hnone header List.mem_cons_self)
      rw [ih fun other hother => hnone other (List.mem_cons_of_mem header hother),
        Prod.ext hhead.1 hvalue]

/-- **When credentials stay with their host.**  Exactly where the call has no credential header
or no redirect that the gateway goes along with leads to another host. -/
theorem credentialsStay_iff (u : UnicodeText) (policy : EgressPolicy) (call : Call V)
    (replies : Nat → Reply) :
    CredentialsStay u policy call replies ↔
      (∀ headers, call.kwargs.headers = some headers →
        ∀ header ∈ headers, ¬IsCredential header.1) ∨ StaysOnHost u policy call replies := by
  rw [← elsewhere_eq_nil_iff]
  constructor
  · intro hstay
    rw [or_iff_not_imp_right]
    intro hleaves headers hheaders
    have hsame := hstay headers _ hheaders (alikeHeaders_rekeyed headers)
    obtain ⟨sent, hmem⟩ := List.exists_mem_of_ne_nil _ hleaves
    -- the request to the other host has the headers of either run
    have hown := headers_of_mem_sent (List.mem_of_mem_filter hmem)
    rw [← hsame] at hmem
    have hother := headers_of_mem_sent (List.mem_of_mem_filter hmem)
    rw [hown, hheaders] at hother
    exact rekeyed_eq_self_iff.mp (Option.some.inj hother).symm
  · rintro hcondition headers headers' hheaders halike
    rw [elsewhere_withHeaders]
    rcases hcondition with hnone | hnil
    · rw [eq_of_alikeHeaders halike (hnone headers hheaders)]
      refine (List.map_congr_left fun sent hmem => ?_).trans (List.map_id _)
      have hown := headers_of_mem_sent (List.mem_of_mem_filter hmem)
      rw [hheaders] at hown
      unfold Sent.withHeaders
      rw [← hown]
      rfl
    · rw [hnil]
      rfl

/-- A mod page of Nexus that redirects to another host of the allow-list. -/
def redirectedCall : Call String where
  method := "GET".toList
  url := "https://api.nexusmods.com/v1/mods/1.json".toList
  maxRedirects := 5
  allowedRedirectHosts := none
  kwargs :=
    { headers := some [("apikey", "nexus-key")]
      timeout := none
      ssl := none
      allowRedirects := none
      rest := [] }

/-- A redirect to another host of the allow-list, and its page. -/
def redirectedReplies : Nat → Reply
  | 0 => .response ⟨302, some "https://www.reddit.com/".toList⟩
  | _ => .response ⟨200, none⟩

theorem credentialsStay_counterexample :
    ¬CredentialsStay UnicodeText.basic EgressPolicy.standard redirectedCall redirectedReplies := by
  intro hstay
  have hsame := hstay _ [("apikey", "other-key")] rfl
    (.cons ⟨rfl, Or.inr (by decide)⟩ .nil)
  revert hsame
  decide +kernel

end SkyClaw.Security.NetworkGateway
