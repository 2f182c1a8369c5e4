import Mathlib.Data.List.DropRight
import SkyClaw.Lib.Checks
import SkyClaw.Lib.UrlParse

/-!
# The SSRF validator

`SSRFValidator.validate`, with any resolver.  A resolved text that is no address is passed over, and
an IPv6 address is in none of the networks of IPv4: `sound_iff`.
-/

namespace SkyClaw.Validators.Ssrf

open Checks UrlParse
open IpAddress (Address AnyNetwork ipAddress network4 network6)

def blockedNetworks : List AnyNetwork :=
  [.v4 (network4 10 0 0 0 8), .v4 (network4 172 16 0 0 12), .v4 (network4 192 168 0 0 16),
    .v4 (network4 127 0 0 0 8), .v4 (network4 0 0 0 0 8), .v4 (network4 169 254 0 0 16),
    .v6 ⟨1, 128⟩, .v6 (network6 [0xfe80] 10)]

def blockedHostnames : List (List Char) :=
  ["localhost", "localhost.localdomain", "ip6-localhost", "ip6-loopback",
    "metadata.google.internal", "metadata", "kubernetes.default",
    "kubernetes.default.svc"].map String.toList

/-- `BLOCKED_HOSTNAME_PATTERNS`, each with a `$` behind it. -/
def blockedHostnamePatterns : List String := [".local", ".internal", ".localhost"]

def allowedSchemes : List (List Char) := ["http", "https"].map String.toList

structure SSRFValidationResult where
  isValid : Bool
  normalizedUrl : Option (List Char)
  blockedReason : Option (List Char)
  resolvedIp : Option (List Char)
deriving DecidableEq, Repr

/-- What the validator calls. -/
structure Env where
  text : UnicodeText
  /-- the text of the `ValueError` of `urlparse` -/
  parseError : List Char → List Char
  /-- the addresses of a host, or the text of the exception -/
  dnsResolver : List Char → Except (List Char) (List (List Char))

def refused (reason : List Char) : SSRFValidationResult := ⟨false, none, some reason, none⟩

/-- `url.strip()` -/
def stripped (url : List Char) : List Char := (PyStr.strip (String.ofList url)).toList

variable (env : Env)

/-- `parsed.hostname`, or none where it is empty. -/
def hostname (parsed : ParseResult) : Option (List Char) :=
  (parsed.hostname env.text).filter (· ≠ [])

/-- `hostname.lower().rstrip(".")` -/
def hostnameLower (hostname : List Char) : List Char :=
  (env.text.lower hostname).rdropWhile (· = '.')

def blockedByName (hostname : List Char) : Bool := blockedHostnames.contains hostname

def blockedByPattern (hostname : List Char) : Bool :=
  blockedHostnamePatterns.any fun pattern => PyRe.wordAtEnd pattern hostname

def blocked (address : Address) : Bool := blockedNetworks.any (·.contains address)

/-- A resolved text is refused; one that is no address is not. -/
def blockedText (ip : List Char) : Bool := (ipAddress ip).any blocked

section

variable (url : List Char)

/-- Steps 1 to 3. -/
def checkHost : Except SSRFValidationResult (ParseResult × List Char) := do
  let parsed ← orRaise (urlparse env.text.toUnicode (stripped url))
    (refused ("URL malformada: ".toList ++ env.parseError (stripped url)))
  raiseIf (!allowedSchemes.contains (env.text.lower parsed.scheme))
    (refused ("Scheme no permitido: ".toList ++ parsed.scheme ++ ". Use http o https.".toList))
  let host ← orRaise (hostname env parsed) (refused "URL sin hostname válido".toList)
  let host := hostnameLower env host
  raiseIf (blockedByName host) (refused ("Hostname bloqueado: ".toList ++ host))
  raiseIf (blockedByPattern host) (refused ("Hostname bloqueado por patrón: ".toList ++ host))
  return (parsed, host)

/-- Step 4. -/
def checkAddresses (host : List Char) : Except SSRFValidationResult (List (List Char)) := do
  let ips ← (env.dnsResolver host).mapError fun e =>
    refused ("Error resolviendo hostname: ".toList ++ e)
  raiseIf ips.isEmpty (refused ("DNS resolution returned no IPs for ".toList ++ host))
  match ips.find? blockedText with
  | some ip =>
      .error { refused ("IP resuelta ".toList ++ ip ++ " está en red bloqueada".toList) with
        resolvedIp := some ip }
  | none => return ips

/-- `f":{port}"`, where the port is not the one of the scheme. -/
def portSuffix (scheme : List Char) : Option Nat → List Char
  | some port =>
      if port = 0 ∨ scheme = "http".toList ∧ port = 80 ∨ scheme = "https".toList ∧ port = 443 then []
      else ':' :: Nat.toDigits 10 port
  | none => []

/-- `_normalize_url`; a port that is none raises. -/
def normalizeUrl (parsed : ParseResult) : Option (List Char) :=
  parsed.port.map fun port =>
    let scheme := env.text.lower parsed.scheme
    let host := ((parsed.hostname env.text).map env.text.lower).getD []
    let path := if parsed.path = [] then ['/'] else parsed.path
    let query := if parsed.query = [] then [] else '?' :: parsed.query
    scheme ++ "://".toList ++ host ++ portSuffix scheme port ++ path ++ query

/-- Steps 1 to 4. -/
def checked : Except SSRFValidationResult (ParseResult × List (List Char)) := do
  let (parsed, host) ← checkHost env url
  let ips ← checkAddresses env host
  return (parsed, ips)

/-- `validate`; no result is the `ValueError` of the port. -/
def validate : Option SSRFValidationResult :=
  match checked env url with
  | .error result => some result
  | .ok (parsed, ips) =>
      (normalizeUrl env parsed).map fun normalized => ⟨true, some normalized, none, ips.head?⟩

/-! ## What a verdict says -/

/-- A mapped IPv6 address counts as the address that it embeds. -/
def effective : Address → Address
  | .v6 ip scopeId =>
      match Address.ipv4Mapped ip with
      | some embedded => .v4 embedded
      | none => .v6 ip scopeId
  | .v4 ip => .v4 ip

/-- The resolver returns these addresses for the host of a URL. -/
def ResolvesTo (ips : List (List Char)) : Prop :=
  ∃ parsed host, urlparse env.text.toUnicode (stripped url) = some parsed ∧
    hostname env parsed = some host ∧ env.dnsResolver (hostnameLower env host) = .ok ips

/-- **A URL that is reported valid resolves to addresses outside of the blocked networks.** -/
def Sound : Prop :=
  ∀ result ∈ validate env url, result.isValid = true → ∀ ips, ResolvesTo env url ips →
    ∀ ip ∈ ips, ∃ address, ipAddress ip = some address ∧ blocked (effective address) = false

/-- A resolved text that no network is tried with, or only networks of the other version. -/
inductive Slips (ip : List Char) : Prop where
  | unparsed (h : ipAddress ip = none)
  | mapped (n : BitVec 128) (scopeId : Option (List Char)) (embedded : BitVec 32)
      (h : ipAddress ip = some (.v6 n scopeId)) (hmapped : Address.ipv4Mapped n = some embedded)
      (hblocked : blocked (.v4 embedded) = true)

/-- Nothing else about a URL is refused, and its port can be read. -/
structure Passes (parsed : ParseResult) (host : List Char) (ips : List (List Char)) : Prop where
  parse : urlparse env.text.toUnicode (stripped url) = some parsed
  scheme : allowedSchemes.contains (env.text.lower parsed.scheme) = true
  named : hostname env parsed = some host
  name : blockedByName (hostnameLower env host) = false
  pattern : blockedByPattern (hostnameLower env host) = false
  resolved : env.dnsResolver (hostnameLower env host) = .ok ips
  nonempty : ips.isEmpty = false
  addresses : ∀ ip ∈ ips, blockedText ip = false
  port : parsed.port.isSome = true

/-- Of a URL that passes otherwise, no resolved text slips through. -/
def Handles : Prop :=
  ∀ parsed host ips, Passes env url parsed host ips → ∀ ip ∈ ips, ¬ Slips ip

end

/-- A text that is not refused is right unless it slips through. -/
theorem effective_iff_not_slips {ip : List Char} (h : blockedText ip = false) :
    (∃ address, ipAddress ip = some address ∧ blocked (effective address) = false) ↔
      ¬ Slips ip := by
  unfold blockedText at h
  constructor
  · rintro ⟨address, hparse, hfree⟩ hslips
    cases hslips with
    | unparsed hnone =>
        rw [hparse] at hnone
        cases hnone
    | mapped n scopeId embedded hmapped hembedded hblocked =>
        cases hparse.symm.trans hmapped
        simp only [effective, hembedded, hblocked, Bool.true_eq_false] at hfree
  · intro hslips
    cases hparse : ipAddress ip with
    | none => exact absurd (.unparsed hparse) hslips
    | some address =>
        refine ⟨address, rfl, ?_⟩
        rw [hparse, Option.any_some] at h
        cases address with
        | v4 n => exact h
        | v6 n scopeId =>
            cases hembedded : Address.ipv4Mapped n with
            | none => simpa only [effective, hembedded] using h
            | some embedded =>
                simp only [effective, hembedded]
                cases hblocked : blocked (.v4 embedded) with
                | false => rfl
                | true => exact absurd (.mapped n scopeId embedded hparse hembedded hblocked) hslips

variable {env}

variable {url : List Char}

variable {parsed : ParseResult} {host : List Char}

theorem checkHost_eq_ok_iff :
    checkHost env url = .ok (parsed, host) ↔
      urlparse env.text.toUnicode (stripped url) = some parsed ∧
        allowedSchemes.contains (env.text.lower parsed.scheme) = true ∧
        ∃ name, hostname env parsed = some name ∧ hostnameLower env name = host ∧
          blockedByName host = false ∧ blockedByPattern host = false := by
  unfold checkHost
  simp only [bind_eq_ok_iff, orRaise_eq_ok_iff, raiseIf_eq_ok_iff, Bool.not_eq_false']
  constructor
  · rintro ⟨parsed', hparse, _, hscheme, name, hname, _, hby, _, hpattern, hpair⟩
    cases hpair
    exact ⟨hparse, hscheme, name, hname, rfl, hby, hpattern⟩
  · rintro ⟨hparse, hscheme, name, hname, rfl, hby, hpattern⟩
    exact ⟨parsed, hparse, (), hscheme, name, hname, (), hby, (), hpattern, rfl⟩

variable {ips : List (List Char)}

theorem checkAddresses_eq_ok_iff :
    checkAddresses env host = .ok ips ↔
      env.dnsResolver host = .ok ips ∧ ips.isEmpty = false ∧
        ∀ ip ∈ ips, blockedText ip = false := by
  unfold checkAddresses
  simp only [bind_eq_ok_iff, mapError_eq_ok_iff, raiseIf_eq_ok_iff]
  constructor
  · rintro ⟨answer, hresolve, _, hempty, hfind⟩
    split at hfind
    · cases hfind
    · next hnone =>
        cases hfind
        refine ⟨hresolve, hempty, fun ip hip => ?_⟩
        exact Bool.eq_false_iff.mpr (List.find?_eq_none.mp hnone ip hip)
  · rintro ⟨hresolve, hempty, hfree⟩
    refine ⟨ips, hresolve, (), hempty, ?_⟩
    have hnone : ips.find? blockedText = none :=
      List.find?_eq_none.mpr fun ip hip => Bool.eq_false_iff.mp (hfree ip hip)
    rw [hnone]
    rfl

theorem checked_eq_ok_iff :
    checked env url = .ok (parsed, ips) ↔
      ∃ host, checkHost env url = .ok (parsed, host) ∧ checkAddresses env host = .ok ips := by
  unfold checked
  simp only [bind_eq_ok_iff]
  constructor
  · rintro ⟨⟨parsed', host⟩, hhost, answer, haddresses, hpair⟩
    cases hpair
    exact ⟨host, hhost, haddresses⟩
  · rintro ⟨host, hhost, haddresses⟩
    exact ⟨(parsed, host), hhost, ips, haddresses, rfl⟩

/-- Every early return is a refusal, without a URL. -/
theorem refused_of_checked_error :
    ∀ result, checked env url = .error result →
      result.isValid = false ∧ result.normalizedUrl = none := by
  have hraise : ∀ {condition : Bool} {reason : List Char} result,
      raiseIf condition (refused reason) = .error result →
        result.isValid = false ∧ result.normalizedUrl = none :=
    fun result h => by rw [raiseIf_eq_error h]; exact ⟨rfl, rfl⟩
  have hvalue : ∀ {α : Type} {value : Option α} {reason : List Char} result,
      orRaise value (refused reason) = .error result →
        result.isValid = false ∧ result.normalizedUrl = none :=
    fun result h => by rw [orRaise_eq_error h]; exact ⟨rfl, rfl⟩
  unfold checked
  refine bind_error ?_ fun _ => bind_error ?_ fun _ _ h => by cases h
  · unfold checkHost
    refine bind_error hvalue fun _ => bind_error hraise fun _ => bind_error hvalue fun _ => ?_
    exact bind_error hraise fun _ => bind_error hraise fun _ _ h => by cases h
  · unfold checkAddresses
    refine bind_error (fun result h => ?_) fun _ => bind_error hraise fun _ result h => ?_
    · obtain ⟨e, rfl⟩ := mapError_eq_error h
      exact ⟨rfl, rfl⟩
    · split at h
      · rw [← Except.error.inj h]
        exact ⟨rfl, rfl⟩
      · cases h

/-- **When a URL is reported valid.** -/
theorem valid_iff :
    (∃ result ∈ validate env url, result.isValid = true) ↔
      ∃ parsed host ips, Passes env url parsed host ips := by
  constructor
  · rintro ⟨result, hresult, hvalid⟩
    unfold validate at hresult
    split at hresult
    · next refusal hchecked =>
        cases hresult
        rw [(refused_of_checked_error _ hchecked).1] at hvalid
        cases hvalid
    · next parsed ips hchecked =>
        obtain ⟨normalized, hnormalized, _⟩ := Option.map_eq_some_iff.mp hresult
        obtain ⟨port, hport, _⟩ := Option.map_eq_some_iff.mp hnormalized
        obtain ⟨host, hhost, haddresses⟩ := checked_eq_ok_iff.mp hchecked
        obtain ⟨hparse, hscheme, name, hname, rfl, hby, hpattern⟩ := checkHost_eq_ok_iff.mp hhost
        obtain ⟨hresolved, hnonempty, hfree⟩ := checkAddresses_eq_ok_iff.mp haddresses
        exact ⟨parsed, name, ips, hparse, hscheme, hname, hby, hpattern, hresolved, hnonempty, hfree,
          by rw [hport]; rfl⟩
  · rintro ⟨parsed, host, ips, h⟩
    have hchecked : checked env url = .ok (parsed, ips) :=
      checked_eq_ok_iff.mpr ⟨hostnameLower env host,
        checkHost_eq_ok_iff.mpr ⟨h.parse, h.scheme, host, h.named, rfl, h.name, h.pattern⟩,
        checkAddresses_eq_ok_iff.mpr ⟨h.resolved, h.nonempty, h.addresses⟩⟩
    obtain ⟨port, hport⟩ := Option.isSome_iff_exists.mp h.port
    unfold validate normalizeUrl
    rw [hchecked]
    simp only [hport, Option.map_some]
    exact ⟨_, rfl, rfl⟩

/-- The verdict on a URL is sound exactly if no resolved text slips through where nothing else is
refused. -/
theorem sound_iff (env : Env) (url : List Char) : Sound env url ↔ Handles env url := by
  constructor
  · intro hsound parsed host ips hpasses ip hip
    obtain ⟨result, hresult, hvalid⟩ := valid_iff.mpr ⟨parsed, host, ips, hpasses⟩
    exact (effective_iff_not_slips (hpasses.addresses ip hip)).mp
      (hsound result hresult hvalid ips ⟨parsed, host, hpasses.parse, hpasses.named,
        hpasses.resolved⟩ ip hip)
  · rintro hhandles result hresult hvalid ips ⟨parsed, host, hparse, hnamed, hresolved⟩ ip hip
    obtain ⟨parsed', host', ips', hpasses⟩ := valid_iff.mp ⟨result, hresult, hvalid⟩
    obtain rfl := Option.some.inj (hparse.symm.trans hpasses.parse)
    obtain rfl := Option.some.inj (hnamed.symm.trans hpasses.named)
    obtain rfl := Except.ok.inj (hresolved.symm.trans hpasses.resolved)
    exact (effective_iff_not_slips (hpasses.addresses ip hip)).mpr
      (hhandles parsed host ips hpasses ip hip)

/-- A resolver that answers with a mapped loopback address. -/
def mappedLoopback : Env :=
  ⟨.basic, fun _ => [], fun _ => .ok ["::ffff:127.0.0.1".toList]⟩

theorem sound_counterexample : ¬ Sound mappedLoopback "http://[::ffff:127.0.0.1]/".toList := by
  intro hsound
  obtain ⟨address, hparse, hfree⟩ := hsound
    ⟨true, some "http://::ffff:127.0.0.1/".toList, none, some "::ffff:127.0.0.1".toList⟩
    (by decide +kernel) rfl ["::ffff:127.0.0.1".toList]
    ⟨⟨"http".toList, "[::ffff:127.0.0.1]".toList, "/".toList, [], [], []⟩,
      "::ffff:127.0.0.1".toList, by decide +kernel, by decide +kernel, rfl⟩
    "::ffff:127.0.0.1".toList (List.mem_singleton.mpr rfl)
  have hmapped : ipAddress "::ffff:127.0.0.1".toList = some (.v6 0xffff7f000001 none) := by
    decide +kernel
  obtain rfl := Option.some.inj (hmapped.symm.trans hparse)
  have hblocked : blocked (effective (.v6 0xffff7f000001 none)) = true := by decide +kernel
  rw [hblocked] at hfree
  cases hfree

end SkyClaw.Validators.Ssrf
