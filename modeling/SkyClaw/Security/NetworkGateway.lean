import SkyClaw.Lib.Checks
import SkyClaw.Lib.UrlParse

/-!
# The egress policy of the network gateway

`NetworkGateway.authorize` as a chain of checks on a method and a URL, and the policy it is
there for, `Authorized`: which characters, hosts, methods, paths, schemes and literal addresses
a request may have.  `authorized_of_authorize` connects the two.
-/

namespace SkyClaw.Security.NetworkGateway

open Checks UrlParse
open IpAddress (Address ipAddress)

/-- `EgressPolicy`; the hosts of the frozen set stand in the order in which it is gone through. -/
structure EgressPolicy where
  allowedHosts : List (List Char)
  allowedMethods : List (List Char × List (List Char))
  telegramPathPrefix : List Char
  blockPrivateIps : Bool

def allowedHosts : List (List Char) :=
  ["api.deepseek.com", "api.openai.com", "api.telegram.org", "www.nexusmods.com",
    "api.nexusmods.com", "premium-files.nexusmods.com", "cf-files.nexusmods.com",
    "staticdelivery.nexusmods.com", "api.github.com", "raw.githubusercontent.com",
    "api.anthropic.com", "www.reddit.com"].map String.toList

def allowedMethods : List (List Char × List (List Char)) :=
  [("api.nexusmods.com", ["GET", "POST", "HEAD"]), ("raw.githubusercontent.com", ["GET"]),
    ("api.anthropic.com", ["POST"]), ("api.deepseek.com", ["POST"]), ("api.openai.com", ["POST"]),
    ("api.telegram.org", ["GET", "POST"]), ("api.github.com", ["GET"]),
    ("www.nexusmods.com", ["GET"]), ("premium-files.nexusmods.com", ["GET"]),
    ("cf-files.nexusmods.com", ["GET"]), ("staticdelivery.nexusmods.com", ["GET"]),
    ("www.reddit.com", ["GET"])].map fun (host, methods) => (host.toList, methods.map String.toList)

/-- `EgressPolicy()`. -/
def EgressPolicy.standard : EgressPolicy where
  allowedHosts := NetworkGateway.allowedHosts
  allowedMethods := NetworkGateway.allowedMethods
  telegramPathPrefix := "/bot".toList
  blockPrivateIps := true

/-- The messages of `EgressViolationError`, with what they report. -/
inductive EgressViolation where
  /-- `URL rejected: Leading or trailing whitespace not allowed.` -/
  | outerWhitespace
  /-- `URL rejected: Contains control characters or whitespace: …` -/
  | controlCharacters (url : List Char)
  /-- `URL rejected: Must start with http(s):// followed by alphanumeric: …` -/
  | badStart (url : List Char)
  /-- `URL rejected: Malformed authority (invalid IPv6 literal?): …` -/
  | malformedAuthority (url : List Char)
  /-- `URL has no hostname: …` -/
  | noHostname (url : List Char)
  /-- `Literal address … is a private/loopback IP` -/
  | privateLiteral (address : Address)
  /-- `Redirect target … is a private/loopback IP` -/
  | privateRedirect (address : Address)
  /-- `Insecure scheme '…' blocked: …` -/
  | insecureScheme (parsed : ParseResult)
  /-- `Host '…' is not in the allow-list` -/
  | hostNotAllowed (hostname : List Char)
  /-- `Method '…' is not allowed for host pattern '…'` -/
  | methodNotAllowed (method pattern : List Char)
  /-- `Telegram path '…' does not start with '…'` -/
  | telegramPath (path start : List Char)
  /-- `Maximum redirect limit (…) exceeded for URL: …` -/
  | redirectLimit (maxRedirects : Int) (url : List Char)
deriving DecidableEq, Repr

variable (u : UnicodeText) (policy : EgressPolicy)

/-! ## The checks -/

/-- `_STRICT_PREFIX_RE`. -/
def strictPrefix : Regex Char :=
  Regex.sequence [PyRe.literal "http", Regex.opt (PyRe.literal "s"), PyRe.literal "://",
    Regex.alt (Regex.char PyRe.asciiAlnum) (PyRe.literal "[")]

/-- `(parsed.hostname or "").lower()`. -/
def hostOf (parsed : ParseResult) : List Char := u.lower ((parsed.hostname u).getD [])

def isLoopbackHost (hostname : List Char) : Bool :=
  if hostname = [] then false
  else if ["localhost", "127.0.0.1", "::1"].any (·.toList = u.lower hostname) then true
  else
    match ipAddress (u.lower hostname) with
    | some address => address.isLoopback
    | none => false

def checkSchemeAllowed (parsed : ParseResult) : Except EgressViolation Unit :=
  if parsed.scheme = "https".toList then .ok ()
  else if parsed.scheme = "http".toList ∧ isLoopbackHost u ((parsed.hostname u).getD []) then .ok ()
  else .error (.insecureScheme parsed)

/-- One pattern of the allow-list, in `_matching_pattern`. -/
def patternMatches (hostname pattern : List Char) : Bool :=
  if "*.".toList.isPrefixOf (u.lower pattern) then
    ('.' :: (u.lower pattern).drop 2).isSuffixOf (u.lower hostname)
  else u.lower hostname == u.lower pattern

def matchingPattern (hostname : List Char) : Option (List Char) :=
  policy.allowedHosts.find? (patternMatches u hostname)

def checkHostAllowed (hostname : List Char) : Except EgressViolation Unit :=
  raiseIf (matchingPattern u policy hostname).isNone (.hostNotAllowed hostname)

/-- `_check_method_allowed`; a host without a pattern has been stopped before. -/
def checkMethodAllowed (method hostname : List Char) : Except EgressViolation Unit :=
  match matchingPattern u policy hostname with
  | none => .ok ()
  | some pattern =>
      match policy.allowedMethods.lookup pattern with
      | none => .ok ()
      | some allowed => raiseIf (!allowed.contains method) (.methodNotAllowed method pattern)

def checkTelegramPath (hostname path : List Char) : Except EgressViolation Unit :=
  raiseIf (hostname == "api.telegram.org".toList && !policy.telegramPathPrefix.isPrefixOf path)
    (.telegramPath path policy.telegramPathPrefix)

/-- The `try` block around `ip_address`: a host that is not an address passes. -/
def checkLiteral (hostname : List Char) (violation : Address → EgressViolation) :
    Except EgressViolation Unit :=
  match ipAddress hostname with
  | some address =>
      raiseIf (policy.blockPrivateIps &&
        (address.isPrivate || address.isLoopback || address.isLinkLocal)) (violation address)
  | none => .ok ()

def authorize (method url : List Char) : Except EgressViolation Unit := do
  raiseIf ((PyStr.strip (String.ofList url)).toList != url) .outerWhitespace
  raiseIf (url.any fun c => c.toNat ≤ 32 || 127 ≤ c.toNat) (.controlCharacters url)
  raiseIf (!Regex.startsAt strictPrefix ⟨none, url⟩) (.badStart url)
  let parsed ← orRaise (urlparse u.toUnicode url) (.malformedAuthority url)
  raiseIf (hostOf u parsed).isEmpty (.noHostname url)
  checkLiteral policy (hostOf u parsed) .privateLiteral
  checkSchemeAllowed u parsed
  checkHostAllowed u policy (hostOf u parsed)
  checkMethodAllowed u policy (u.upper method) (hostOf u parsed)
  checkTelegramPath policy (hostOf u parsed) parsed.path

/-- A host below the base domain: its labels are one label or more and then those of the base. -/
def IsSubdomain (base hostname : List Char) : Prop :=
  ∃ labels, labels ≠ [] ∧ hostname.splitOn '.' = labels ++ base.splitOn '.'

/-- A pattern names one host, or with `*.` the hosts below a domain.  Case does not matter. -/
def Covers (pattern hostname : List Char) : Prop :=
  hostname = u.lower pattern ∨
    ∃ base, u.lower pattern = '*' :: '.' :: base ∧ IsSubdomain base hostname

/-- A pattern without an entry allows every method. -/
def AllowsMethod (pattern method : List Char) : Prop :=
  ∀ allowed, policy.allowedMethods.lookup pattern = some allowed → u.upper method ∈ allowed

/-- `localhost`, or a literal address that is a loopback address. -/
def IsLoopback (hostname : List Char) : Prop :=
  hostname = "localhost".toList ∨ ∃ address, ipAddress hostname = some address ∧ address.isLoopback

/-- HTTPS, or HTTP to the machine itself. -/
def SchemeAllowed (parsed : ParseResult) : Prop :=
  parsed.scheme = "https".toList ∨ parsed.scheme = "http".toList ∧ IsLoopback (hostOf u parsed)

/-- No private, loopback or link-local address is written in the URL. -/
def NotPrivate (hostname : List Char) : Prop :=
  policy.blockPrivateIps = true → ∀ address, ipAddress hostname = some address →
    ¬(address.isPrivate ∨ address.isLoopback ∨ address.isLinkLocal)

/-- **The egress policy**, for a method and a URL. -/
structure Authorized (method url : List Char) (parsed : ParseResult) : Prop where
  parses : urlparse u.toUnicode url = some parsed
  printable : ∀ c ∈ url, 33 ≤ c.toNat ∧ c.toNat ≤ 126
  host : ∃ pattern ∈ policy.allowedHosts, Covers u pattern (hostOf u parsed) ∧
    AllowsMethod u policy pattern method
  telegram : hostOf u parsed = "api.telegram.org".toList →
    policy.telegramPathPrefix <+: parsed.path
  scheme : SchemeAllowed u parsed
  address : NotPrivate policy (hostOf u parsed)

/-! ## What each check asks -/

variable {u policy}

theorem isSubdomain_iff {base hostname : List Char} :
    IsSubdomain base hostname ↔ '.' :: base <:+ hostname := by
  constructor
  · rintro ⟨labels, hlabels, hsplit⟩
    have hclean : ∀ label ∈ labels, '.' ∉ label := fun label hlabel =>
      PyStr.not_mem_of_mem_splitOn (hsplit ▸ List.mem_append_left _ hlabel)
    have hbefore : (['.'].intercalate labels).splitOn '.' = labels :=
      List.splitOn_intercalate '.' hclean hlabels
    have hsame : (['.'].intercalate labels ++ '.' :: base).splitOn '.' = hostname.splitOn '.' := by
      rw [List.splitOn_append_cons_self, hbefore, hsplit]
    have hhost := congrArg (List.intercalate ['.']) hsame
    rw [List.intercalate_splitOn, List.intercalate_splitOn] at hhost
    exact ⟨_, hhost⟩
  · rintro ⟨before, rfl⟩
    exact ⟨before.splitOn '.', List.splitOn_ne_nil '.' before,
      List.splitOn_append_cons_self before base⟩

theorem patternMatches_iff {hostname pattern : List Char} :
    patternMatches u hostname pattern = true ↔
      if "*.".toList <+: u.lower pattern then
        IsSubdomain ((u.lower pattern).drop 2) (u.lower hostname)
      else u.lower hostname = u.lower pattern := by
  unfold patternMatches
  simp only [isSubdomain_iff, List.isPrefixOf_iff_prefix]
  split
  · exact List.isSuffixOf_iff_suffix
  · exact beq_iff_eq

theorem covers_of_patternMatches {hostname pattern : List Char}
    (hlower : u.lower hostname = hostname) (h : patternMatches u hostname pattern = true) :
    Covers u pattern hostname := by
  rw [patternMatches_iff, hlower] at h
  split at h
  · next hwild =>
      obtain ⟨base, hbase⟩ := hwild
      rw [← hbase] at h
      exact .inr ⟨base, hbase.symm, h⟩
  · exact .inl h

theorem isLoopback_of_isLoopbackHost {hostname : List Char}
    (h : isLoopbackHost u hostname = true) : IsLoopback (u.lower hostname) := by
  unfold isLoopbackHost at h
  by_cases hempty : hostname = []
  · rw [if_pos hempty] at h
    cases h
  rw [if_neg hempty] at h
  by_cases hnamed : ["localhost", "127.0.0.1", "::1"].any (·.toList = u.lower hostname) = true
  · -- the two addresses that are named are loopback addresses
    have hv4 : ∃ address, ipAddress "127.0.0.1".toList = some address ∧ address.isLoopback :=
      ⟨.v4 0x7f000001, by decide, by decide⟩
    have hv6 : ∃ address, ipAddress "::1".toList = some address ∧ address.isLoopback :=
      ⟨.v6 1 none, by decide, by decide⟩
    simp only [List.any_cons, List.any_nil, Bool.or_false, Bool.or_eq_true, decide_eq_true_eq]
      at hnamed
    rcases hnamed with hname | hname | hname
    · exact .inl hname.symm
    · exact .inr (hname ▸ hv4)
    · exact .inr (hname ▸ hv6)
  · rw [if_neg hnamed] at h
    cases haddress : ipAddress (u.lower hostname) with
    | none =>
        rw [haddress] at h
        cases h
    | some address =>
        rw [haddress] at h
        exact .inr ⟨address, haddress, h⟩

theorem checkSchemeAllowed_ok {parsed : ParseResult}
    (h : checkSchemeAllowed u parsed = .ok ()) : SchemeAllowed u parsed := by
  unfold checkSchemeAllowed at h
  split at h
  · next hhttps => exact .inl hhttps
  · split at h
    · next hhttp => exact .inr ⟨hhttp.1, isLoopback_of_isLoopbackHost hhttp.2⟩
    · cases h

theorem checkLiteral_ok {hostname : List Char} {violation : Address → EgressViolation}
    (h : checkLiteral policy hostname violation = .ok ()) : NotPrivate policy hostname := by
  intro hblock address haddress hprivate
  unfold checkLiteral at h
  rw [haddress] at h
  have hpassed := raiseIf_eq_ok_iff.mp h
  rw [hblock, Bool.true_and] at hpassed
  rcases hprivate with hprivate | hprivate | hprivate <;> simp [hprivate] at hpassed

/-- **Host and method.**  Both are checked for the pattern that comes first. -/
theorem checkHost_checkMethod_ok {method hostname : List Char}
    (hlower : u.lower hostname = hostname) (hhost : checkHostAllowed u policy hostname = .ok ())
    (hmethod : checkMethodAllowed u policy (u.upper method) hostname = .ok ()) :
    ∃ pattern ∈ policy.allowedHosts, Covers u pattern hostname ∧
      AllowsMethod u policy pattern method := by
  have hsome := raiseIf_eq_ok_iff.mp hhost
  obtain ⟨pattern, hpattern⟩ := Option.isSome_iff_exists.mp (Option.isNone_eq_false_iff.mp hsome)
  refine ⟨pattern, List.mem_of_find?_eq_some hpattern,
    covers_of_patternMatches hlower (List.find?_some hpattern), ?_⟩
  intro allowed hallowed
  unfold checkMethodAllowed at hmethod
  rw [hpattern] at hmethod
  dsimp only at hmethod
  rw [hallowed] at hmethod
  have hcontains := raiseIf_eq_ok_iff.mp hmethod
  rw [Bool.not_eq_false'] at hcontains
  exact List.contains_iff_mem.mp hcontains

theorem checkTelegramPath_ok {hostname path : List Char}
    (h : checkTelegramPath policy hostname path = .ok ())
    (hhost : hostname = "api.telegram.org".toList) : policy.telegramPathPrefix <+: path := by
  have hpassed := raiseIf_eq_ok_iff.mp h
  rw [hhost, beq_self_eq_true, Bool.true_and, Bool.not_eq_false'] at hpassed
  exact List.isPrefixOf_iff_prefix.mp hpassed

theorem lower_hostOf {url : List Char} {parsed : ParseResult} (hurl : IsAscii url)
    (hparsed : urlparse u.toUnicode url = some parsed) :
    u.lower (hostOf u parsed) = hostOf u parsed := by
  refine lower_lower ?_
  cases hname : parsed.hostname u with
  | none => exact fun c hc => absurd hc List.not_mem_nil
  | some hostname => exact hostname_ascii hurl hparsed hname

/-- **What `authorize` lets through satisfies the egress policy.** -/
theorem authorized_of_authorize {method url : List Char}
    (h : authorize u policy method url = .ok ()) :
    ∃ parsed, Authorized u policy method url parsed := by
  unfold authorize at h
  obtain ⟨_, h⟩ := check_bind_eq_ok_iff.mp h
  obtain ⟨hchars, h⟩ := check_bind_eq_ok_iff.mp h
  obtain ⟨_, h⟩ := check_bind_eq_ok_iff.mp h
  obtain ⟨parsed, hparsed, h⟩ := bind_eq_ok_iff.mp h
  obtain ⟨_, h⟩ := check_bind_eq_ok_iff.mp h
  obtain ⟨hliteral, h⟩ := check_bind_eq_ok_iff.mp h
  obtain ⟨hscheme, h⟩ := check_bind_eq_ok_iff.mp h
  obtain ⟨hhost, h⟩ := check_bind_eq_ok_iff.mp h
  obtain ⟨hmethod, htelegram⟩ := check_bind_eq_ok_iff.mp h
  have hparsed := orRaise_eq_ok_iff.mp hparsed
  have hprintable : ∀ c ∈ url, 33 ≤ c.toNat ∧ c.toNat ≤ 126 := by
    intro c hc
    have hpassed := List.any_eq_false.mp (raiseIf_eq_ok_iff.mp hchars) c hc
    rw [Bool.not_eq_true, Bool.or_eq_false_iff, decide_eq_false_iff_not, decide_eq_false_iff_not]
      at hpassed
    omega
  have hascii : IsAscii url := fun c hc => by
    have hrange := hprintable c hc
    omega
  exact ⟨parsed,
    { parses := hparsed
      printable := hprintable
      host := checkHost_checkMethod_ok (lower_hostOf hascii hparsed) hhost hmethod
      telegram := checkTelegramPath_ok htelegram
      scheme := checkSchemeAllowed_ok hscheme
      address := checkLiteral_ok hliteral }⟩

end SkyClaw.Security.NetworkGateway
