import SkyClaw.Lib.UrlBuild
import SkyClaw.Validators.Ssrf

/-!
# The URL that `SSRFValidator` returns

`_normalize_url` puts a URL together anew.  The brackets of an address and the parameters of the path
are lost on the way, a port 0 counts as none, and a port that cannot be read raises.
`faithful_iff`: otherwise the URL is the one that was checked.
-/

namespace SkyClaw.Validators.Ssrf

open UrlParse
open PyStr (partition partition_of_not_mem partition_append partition_spec)

/-- What `str.lower` does to any text: letters in lower case stay, and other characters of ASCII
neither come up nor join with their neighbours. -/
structure CaseMapping (u : UnicodeText) : Prop where
  lower_lower : ∀ text, u.lower (u.lower text) = u.lower text
  uncased : ∀ text, ∀ c ∈ u.lower text, c.toNat < 128 → c.isAlpha = false → c ∈ text
  percent : ∀ text more, u.lower (text ++ '%' :: more) = u.lower text ++ '%' :: u.lower more
  nonempty : ∀ text, text ≠ [] → u.lower text ≠ []

/-! ## What it is for -/

/-- The port that a client connects to. -/
def effectivePort (parsed : ParseResult) : Option Nat :=
  parsed.port.map fun port => port.getD (if parsed.scheme = "https".toList then 443 else 80)

/-- The path with its parameters; none counts as the root, which a client asks for then. -/
def requestPath (parsed : ParseResult) : List Char × List Char :=
  (if parsed.path = [] then ['/'] else parsed.path, parsed.params)

/-- The same request, up to the case of the scheme and the host. -/
structure SameRequest (u : UnicodeText) (parsed other : ParseResult) : Prop where
  scheme : u.lower other.scheme = u.lower parsed.scheme
  host : (other.hostname u).map u.lower = (parsed.hostname u).map u.lower
  port : effectivePort other = effectivePort parsed
  path : requestPath other = requestPath parsed
  query : other.query = parsed.query

/-- **The validator does not raise, and the URL that it returns is the one it has checked.** -/
def Faithful (env : Env) (url : List Char) : Prop :=
  ∃ result, validate env url = some result ∧
    ∀ normalized, result.normalizedUrl = some normalized →
      ∃ parsed other, urlparse env.text.toUnicode (stripped url) = some parsed ∧
        urlparse env.text.toUnicode normalized = some other ∧ SameRequest env.text parsed other

/-- The host in lower case, as it is put into the URL. -/
def hostText (u : UnicodeText) (parsed : ParseResult) : List Char :=
  ((parsed.hostname u).map u.lower).getD []

/-- The parts of the URL survive: the port can be read and is not 0, there are no parameters, the host
is no address in brackets, and in lower case it is still one that `urlsplit` takes. -/
structure Survives (u : UnicodeText) (parsed : ParseResult) : Prop where
  port : ∃ port, parsed.port = some port ∧ port ≠ some 0 ∧
    netlocValid u.toUnicode (hostText u parsed ++ portSuffix parsed.scheme port) = true
  params : parsed.params = []
  host : ':' ∉ hostText u parsed ∧ '[' ∉ hostText u parsed ∧ ']' ∉ hostText u parsed

/-- The parts of a URL that passes the checks survive. -/
def Restorable (env : Env) (url : List Char) : Prop :=
  ∀ parsed ips, checked env url = .ok (parsed, ips) → Survives env.text parsed

/-! ## The host -/

section Host

variable {u : UnicodeText} {parsed : ParseResult} {host : List Char}

variable {c : Char}

theorem mem_of_mem_hostname (hu : CaseMapping u) (h : parsed.hostname u = some host)
    (hascii : c.toNat < 128) (hletter : c.isAlpha = false) (hc : c ∈ host) :
    c ∈ (hostinfo parsed.netloc).1 := by
  unfold ParseResult.hostname at h
  dsimp only at h
  split_ifs at h
  have hspec := partition_spec '%' (hostinfo parsed.netloc).1
  have hsub := PyStr.partition_fst_subset '%' (hostinfo parsed.netloc).1
  rcases hpartition : partition '%' (hostinfo parsed.netloc).1 with ⟨name, _ | zone⟩
  · rw [hpartition] at h hsub
    cases h
    exact hsub (hu.uncased _ c hc hascii hletter)
  · rw [hpartition] at h hsub hspec
    cases h
    rw [hspec.2]
    rcases List.mem_append.mp hc with hname | hzone
    · exact List.mem_append_left _ (hu.uncased _ c hname hascii hletter)
    · exact List.mem_append_right _ hzone

theorem hostText_eq (h : parsed.hostname u = some host) : hostText u parsed = u.lower host := by
  rw [hostText, h]
  rfl

theorem mem_of_mem_hostText (hu : CaseMapping u) (h : parsed.hostname u = some host)
    (hascii : c.toNat < 128) (hletter : c.isAlpha = false) (hc : c ∈ hostText u parsed) :
    c ∈ (hostinfo parsed.netloc).1 := by
  rw [hostText_eq h] at hc
  exact mem_of_mem_hostname hu h hascii hletter (hu.uncased _ c hc hascii hletter)

/-- **A host in lower case** is read as itself. -/
theorem map_lower_hostname (hu : CaseMapping u) (hne : host ≠ []) (hlower : u.lower host = host)
    (h : (hostinfo parsed.netloc).1 = host) : (parsed.hostname u).map u.lower = some host := by
  unfold ParseResult.hostname
  dsimp only
  rw [h, if_neg hne]
  have hspec := partition_spec '%' host
  rcases hpartition : partition '%' host with ⟨name, _ | zone⟩
  · rw [hpartition] at hspec
    have hname : host = name := hspec.2
    simp only [Option.map_some, ← hname, hlower]
  · rw [hpartition] at hspec
    have hparts : u.lower name ++ '%' :: u.lower zone = host := by
      rw [← hu.percent, ← hspec.2, hlower]
    simp only [Option.map_some, hu.percent, hu.lower_lower, hparts]

theorem netloc_ne_nil (h : parsed.hostname u = some host) : parsed.netloc ≠ [] := by
  intro hempty
  unfold ParseResult.hostname at h
  rw [hempty] at h
  cases h

end Host

theorem portSuffix_cases (scheme : List Char) (port : Option Nat) :
    portSuffix scheme port = [] ∨
      ∃ n, port = some n ∧ portSuffix scheme port = ':' :: Nat.toDigits 10 n := by
  cases port with
  | none => exact .inl rfl
  | some n =>
      rw [portSuffix]
      split_ifs
      · exact .inl rfl
      · exact .inr ⟨n, rfl, rfl⟩

theorem free_of_mem_portSuffix {scheme : List Char} {port : Option Nat} {c : Char}
    (h : c ∈ portSuffix scheme port) : c = ':' ∨ c.isDigit = true := by
  rcases portSuffix_cases scheme port with hempty | ⟨n, -, hdigits⟩
  · rw [hempty] at h
    cases h
  · rw [hdigits] at h
    rcases List.mem_cons.mp h with rfl | hdigit
    · exact .inl rfl
    · exact .inr (JsonText.isDigit_of_mem_toDigits hdigit)

theorem port_le {parsed : ParseResult} {n : Nat} (h : parsed.port = some (some n)) :
    n ≤ 65535 := by
  unfold ParseResult.port at h
  split at h
  · cases h
  · dsimp only at h
    split_ifs at h with hvalid
    cases h
    exact hvalid.2.2

/-! ## The URL that is put together -/

theorem checked_spec {env : Env} {url : List Char} {parsed : ParseResult} {ips : List (List Char)}
    (h : checked env url = .ok (parsed, ips)) :
    urlparse env.text.toUnicode (stripped url) = some parsed ∧
      (parsed.scheme = "http".toList ∨ parsed.scheme = "https".toList) ∧
      ∃ host, host ≠ [] ∧ parsed.hostname env.text = some host := by
  obtain ⟨_, hhost, -⟩ := checked_eq_ok_iff.mp h
  obtain ⟨hparse, hscheme, name, hname, -⟩ := checkHost_eq_ok_iff.mp hhost
  obtain ⟨hname, hne⟩ := Option.filter_eq_some_iff.mp hname
  rw [lower_scheme hparse] at hscheme
  exact ⟨hparse, by simpa [allowedSchemes] using hscheme, name, by simpa using hne, hname⟩

section Rebuilt

variable {env : Env} {parsed : ParseResult} {url host : List Char} {port : Option Nat}

/-- The network location of the URL that is put together. -/
def rebuiltNetloc (u : UnicodeText) (parsed : ParseResult) (port : Option Nat) : List Char :=
  hostText u parsed ++ portSuffix parsed.scheme port

/-- The parse of the URL that is put together. -/
def rebuilt (u : UnicodeText) (parsed : ParseResult) (port : Option Nat) : ParseResult :=
  ⟨parsed.scheme, rebuiltNetloc u parsed port, (requestPath parsed).1, [], parsed.query, []⟩

@[simp] theorem rebuilt_netloc :
    (rebuilt env.text parsed port).netloc = rebuiltNetloc env.text parsed port := rfl

@[simp] theorem rebuilt_scheme : (rebuilt env.text parsed port).scheme = parsed.scheme := rfl

theorem normalizeUrl_eq (hparse : urlparse env.text.toUnicode url = some parsed)
    (hport : parsed.port = some port) :
    normalizeUrl env parsed = some (build parsed.scheme (rebuiltNetloc env.text parsed port)
      (requestPath parsed).1 parsed.query) := by
  rw [normalizeUrl, hport, Option.map_some, lower_scheme hparse]
  simp only [build, rebuiltNetloc, hostText, requestPath, List.append_assoc]

variable {c : Char}

theorem not_mem_hostText (hu : CaseMapping env.text)
    (hparts : ∀ c ∈ parsed.netloc, PyRe.anyOf "/?#" c = false ∧ PyRe.anyOf "\t\r\n" c = false)
    (hhost : parsed.hostname env.text = some host) (hc : c ∈ hostText env.text parsed) :
    PyRe.anyOf "/?#" c = false ∧ PyRe.anyOf "\t\r\n" c = false ∧ c ≠ '@' := by
  have hmem : c.toNat < 128 → c.isAlpha = false → c ∈ PyStr.afterLast '@' parsed.netloc :=
    fun hascii hletter =>
      hostinfo_fst_subset_afterLast _ (mem_of_mem_hostText hu hhost hascii hletter hc)
  have hnot : ∀ bad : String, (∀ d ∈ bad.toList, d.toNat < 128 ∧ d.isAlpha = false) →
      (∀ d ∈ parsed.netloc, PyRe.anyOf bad d = false) → PyRe.anyOf bad c = false := by
    intro bad hplain hfree
    refine Bool.eq_false_iff.mpr fun hbad => ?_
    have hd := hplain c (List.contains_iff_mem.mp hbad)
    have hfalse := hfree c (PyStr.afterLast_subset '@' _ (hmem hd.1 hd.2))
    rw [hbad] at hfalse
    cases hfalse
  refine ⟨hnot _ (List.all_iff_forall_prop.mp (by decide)) fun d hd => (hparts d hd).1,
    hnot _ (List.all_iff_forall_prop.mp (by decide)) fun d hd => (hparts d hd).2, ?_⟩
  rintro rfl
  exact (PyStr.afterLast_spec '@' parsed.netloc).1 (hmem (by decide) (by decide))

theorem not_mem_portSuffix {scheme : List Char} (h : c ∈ portSuffix scheme port) :
    PyRe.anyOf "/?#" c = false ∧ PyRe.anyOf "\t\r\n" c = false ∧ c ≠ '@' ∧ c ≠ '[' ∧ c ≠ ']' := by
  rcases free_of_mem_portSuffix h with rfl | hdigit
  · decide
  · have hne : ∀ d : Char, d.isDigit = false → c ≠ d := by
      rintro d hd rfl
      rw [hdigit] at hd
      cases hd
    simp [PyRe.anyOf, hne]

/-- **The parse of the URL that is put together**, which may fail. -/
theorem urlparse_rebuilt (hu : CaseMapping env.text)
    (hparse : urlparse env.text.toUnicode url = some parsed)
    (hscheme : parsed.scheme = "http".toList ∨ parsed.scheme = "https".toList)
    (hhost : parsed.hostname env.text = some host) :
    urlparse env.text.toUnicode (build parsed.scheme (rebuiltNetloc env.text parsed port)
        (requestPath parsed).1 parsed.query) =
      if bracketsValid (rebuiltNetloc env.text parsed port) &&
          netlocValid env.text.toUnicode (rebuiltNetloc env.text parsed port) then
        some (rebuilt env.text parsed port)
      else none := by
  have hparts := parts_of_urlparse hparse (netloc_ne_nil hhost) hscheme
  refine urlparse_build hscheme { hparts with netlocFree := fun c hc => ?_ }
  rcases List.mem_append.mp hc with hc | hc
  · have hfree := not_mem_hostText hu hparts.netlocFree hhost hc
    exact ⟨hfree.1, hfree.2.1⟩
  · have hfree := not_mem_portSuffix hc
    exact ⟨hfree.1, hfree.2.1⟩

theorem map_hostname (hhost : parsed.hostname env.text = some host) :
    (parsed.hostname env.text).map env.text.lower = some (hostText env.text parsed) := by
  rw [hostText_eq hhost, hhost]
  rfl

theorem hostText_ne_nil (hu : CaseMapping env.text) (hhost : parsed.hostname env.text = some host)
    (hne : host ≠ []) : hostText env.text parsed ≠ [] := by
  rw [hostText_eq hhost]
  exact hu.nonempty _ hne

theorem lower_hostText (hu : CaseMapping env.text) (hhost : parsed.hostname env.text = some host) :
    env.text.lower (hostText env.text parsed) = hostText env.text parsed := by
  rw [hostText_eq hhost, hu.lower_lower]

theorem hostinfo_rebuilt (hu : CaseMapping env.text)
    (hparts : ∀ c ∈ parsed.netloc, PyRe.anyOf "/?#" c = false ∧ PyRe.anyOf "\t\r\n" c = false)
    (hhost : parsed.hostname env.text = some host) (hopen : '[' ∉ hostText env.text parsed) :
    hostinfo (rebuiltNetloc env.text parsed port) =
      ((PyStr.partition ':' (rebuiltNetloc env.text parsed port)).1,
        (PyStr.partition ':' (rebuiltNetloc env.text parsed port)).2.filter (· ≠ [])) := by
  refine hostinfo_of_free (fun hmem => ?_) fun hmem => ?_
  · rcases List.mem_append.mp hmem with hmem | hmem
    · exact (not_mem_hostText hu hparts hhost hmem).2.2 rfl
    · exact (not_mem_portSuffix hmem).2.2.1 rfl
  · rcases List.mem_append.mp hmem with hmem | hmem
    · exact hopen hmem
    · exact (not_mem_portSuffix hmem).2.2.2.1 rfl

/-- **A plain host and its port** are read back. -/
theorem hostinfo_plain (hu : CaseMapping env.text)
    (hparts : ∀ c ∈ parsed.netloc, PyRe.anyOf "/?#" c = false ∧ PyRe.anyOf "\t\r\n" c = false)
    (hhost : parsed.hostname env.text = some host) (hopen : '[' ∉ hostText env.text parsed)
    (hcolon : ':' ∉ hostText env.text parsed) :
    hostinfo (rebuiltNetloc env.text parsed port) =
      (hostText env.text parsed,
        if portSuffix parsed.scheme port = [] then none else port.map (Nat.toDigits 10)) := by
  rw [hostinfo_rebuilt hu hparts hhost hopen, rebuiltNetloc]
  rcases portSuffix_cases parsed.scheme port with hempty | ⟨n, rfl, hdigits⟩
  · rw [hempty, List.append_nil, PyStr.partition_of_not_mem hcolon, if_pos rfl]
    rfl
  · have hne : Nat.toDigits 10 n ≠ [] := Nat.toDigits_ne_nil
    rw [hdigits, PyStr.partition_append hcolon, if_neg (List.cons_ne_nil _ _)]
    simp [Option.filter, hne]

/-- The port of the new URL, and the one that a client connects to. -/
theorem effectivePort_rebuilt (hu : CaseMapping env.text)
    (hparts : ∀ c ∈ parsed.netloc, PyRe.anyOf "/?#" c = false ∧ PyRe.anyOf "\t\r\n" c = false)
    (hhost : parsed.hostname env.text = some host) (hopen : '[' ∉ hostText env.text parsed)
    (hcolon : ':' ∉ hostText env.text parsed) (hport : parsed.port = some port) :
    effectivePort (rebuilt env.text parsed port) = effectivePort parsed ↔ port ≠ some 0 := by
  have hinfo : hostinfo (rebuiltNetloc env.text parsed port) = _ :=
    hostinfo_plain hu hparts hhost hopen hcolon
  have hnone : portSuffix parsed.scheme port = [] →
      (rebuilt env.text parsed port).port = some none := by
    intro hempty
    unfold ParseResult.port
    rw [rebuilt_netloc, hinfo, if_pos hempty]
  unfold effectivePort
  rw [rebuilt_scheme, hport]
  cases port with
  | none => simp only [hnone rfl, ne_eq, reduceCtorEq, not_false_eq_true]
  | some n =>
      by_cases hempty : portSuffix parsed.scheme (some n) = []
      · -- The port is left out: it is the one of the scheme, or 0.
        rw [hnone hempty]
        rw [portSuffix] at hempty
        split_ifs at hempty with hdefault
        rcases hdefault with rfl | ⟨hscheme, rfl⟩ | ⟨hscheme, rfl⟩
        · simp only [Option.map_some, Option.getD_none, Option.getD_some, ne_eq, not_true_eq_false,
            iff_false, Option.some.injEq]
          split_ifs <;> decide
        · rw [hscheme]
          decide
        · rw [hscheme]
          decide
      · have hread : (rebuilt env.text parsed (some n)).port = some (some n) := by
          refine port_toDigits (port_le hport) ?_
          rw [rebuilt_netloc, hinfo, if_neg hempty]
          rfl
        have hne : n ≠ 0 := by
          rintro rfl
          exact hempty (by rw [portSuffix, if_pos (.inl rfl)])
        simp [hread, hne]

/-- **When the new URL is the old one.** -/
theorem sameRequest_rebuilt_iff (hu : CaseMapping env.text)
    (hparts : ∀ c ∈ parsed.netloc, PyRe.anyOf "/?#" c = false ∧ PyRe.anyOf "\t\r\n" c = false)
    (hhost : parsed.hostname env.text = some host) (hne : host ≠ [])
    (hopen : '[' ∉ hostText env.text parsed) (hport : parsed.port = some port) :
    SameRequest env.text parsed (rebuilt env.text parsed port) ↔
      ':' ∉ hostText env.text parsed ∧ port ≠ some 0 ∧ parsed.params = [] := by
  have hrequest : (requestPath (rebuilt env.text parsed port)) = ((requestPath parsed).1, []) := by
    unfold requestPath rebuilt
    by_cases hpath : parsed.path = []
    · simp [requestPath, hpath]
    · simp [requestPath, hpath]
  constructor
  · intro hsame
    have hcolon : ':' ∉ hostText env.text parsed := by
      intro hmem
      have hhostname := hsame.host.trans (map_hostname hhost)
      obtain ⟨other, hother, hlower⟩ := Option.map_eq_some_iff.mp hhostname
      rw [← hlower] at hmem
      have hfirst := mem_of_mem_hostname hu hother (by decide) (by decide)
        (hu.uncased _ _ hmem (by decide) (by decide))
      rw [rebuilt_netloc, hostinfo_rebuilt hu hparts hhost hopen] at hfirst
      exact (PyStr.partition_spec ':' _).1 hfirst
    refine ⟨hcolon, (effectivePort_rebuilt hu hparts hhost hopen hcolon hport).mp hsame.port, ?_⟩
    exact (congrArg Prod.snd (hrequest.symm.trans hsame.path)).symm
  · rintro ⟨hcolon, hzero, hparams⟩
    refine
      { scheme := rfl
        host := ?_
        port := (effectivePort_rebuilt hu hparts hhost hopen hcolon hport).mpr hzero
        path := ?_
        query := rfl }
    · rw [map_hostname hhost]
      refine map_lower_hostname hu (hostText_ne_nil hu hhost hne) (lower_hostText hu hhost) ?_
      exact congrArg Prod.fst (hostinfo_plain hu hparts hhost hopen hcolon)
    · rw [hrequest]
      unfold requestPath
      rw [hparams]

/-- A bracket of the host would be without the other one. -/
theorem bracketsValid_rebuilt_iff (hu : CaseMapping env.text)
    (hhost : parsed.hostname env.text = some host) :
    bracketsValid (rebuiltNetloc env.text parsed port) = true ↔
      '[' ∉ hostText env.text parsed ∧ ']' ∉ hostText env.text parsed := by
  have hwhole : ∀ c, c = '[' ∨ c = ']' →
      (c ∈ rebuiltNetloc env.text parsed port ↔ c ∈ hostText env.text parsed) := by
    intro c hc
    refine ⟨fun hmem => (List.mem_append.mp hmem).resolve_right fun hsuffix => ?_,
      fun hmem => List.mem_append_left _ hmem⟩
    obtain ⟨-, -, -, hopen, hclose⟩ := not_mem_portSuffix hsuffix
    exact hc.elim hopen hclose
  rw [← hwhole _ (.inl rfl), ← hwhole _ (.inr rfl)]
  constructor
  · intro hvalid
    have hboth : ¬ ('[' ∈ rebuiltNetloc env.text parsed port ∧
        ']' ∈ rebuiltNetloc env.text parsed port) := by
      rw [hwhole _ (.inl rfl), hwhole _ (.inr rfl)]
      rintro ⟨hopen, hclose⟩
      rcases hostinfo_brackets parsed.netloc with hno | hno
      · exact hno (mem_of_mem_hostText hu hhost (by decide) (by decide) hclose)
      · exact hno (mem_of_mem_hostText hu hhost (by decide) (by decide) hopen)
    by_contra hsome
    rw [bracketsValid_of_one (by tauto)] at hvalid
    cases hvalid
  · rintro ⟨hopen, hclose⟩
    exact bracketsValid_of_free hopen hclose

/-- **The URL that is put together is parsed into the same request** exactly if the parts survive. -/
theorem rebuilt_iff_survives (hu : CaseMapping env.text)
    (hparse : urlparse env.text.toUnicode url = some parsed)
    (hscheme : parsed.scheme = "http".toList ∨ parsed.scheme = "https".toList)
    (hhost : parsed.hostname env.text = some host) (hne : host ≠ [])
    (hport : parsed.port = some port) :
    (∃ other, urlparse env.text.toUnicode (build parsed.scheme
        (rebuiltNetloc env.text parsed port) (requestPath parsed).1 parsed.query) = some other ∧
      SameRequest env.text parsed other) ↔ Survives env.text parsed := by
  have hparts := (parts_of_urlparse hparse (netloc_ne_nil hhost) hscheme).netlocFree
  rw [urlparse_rebuilt hu hparse hscheme hhost]
  constructor
  · rintro ⟨other, hother, hsame⟩
    split_ifs at hother with hvalid
    cases hother
    obtain ⟨hbrackets, hnetloc⟩ := (Bool.and_eq_true _ _).mp hvalid
    have hboth := (bracketsValid_rebuilt_iff hu hhost).mp hbrackets
    obtain ⟨hcolon, hzero, hparams⟩ :=
      (sameRequest_rebuilt_iff hu hparts hhost hne hboth.1 hport).mp hsame
    exact ⟨⟨port, hport, hzero, hnetloc⟩, hparams, hcolon, hboth⟩
  · rintro ⟨⟨port', hport', hzero, hnetloc⟩, hparams, hcolon, hboth⟩
    cases hport.symm.trans hport'
    refine ⟨rebuilt env.text parsed port, if_pos ?_,
      (sameRequest_rebuilt_iff hu hparts hhost hne hboth.1 hport).mpr ⟨hcolon, hzero, hparams⟩⟩
    exact (Bool.and_eq_true _ _).mpr ⟨(bracketsValid_rebuilt_iff hu hhost).mpr hboth, hnetloc⟩

end Rebuilt

/-- The URL that is returned is the one that was checked, and nothing raises, exactly if the parts of a
URL that passes the checks survive. -/
theorem faithful_iff_restorable (env : Env) (hu : CaseMapping env.text) (url : List Char) :
    Faithful env url ↔ Restorable env url := by
  cases hchecked : checked env url with
  | error result =>
      refine ⟨fun _ parsed ips hok => ?_, fun _ => ⟨result, ?_, fun normalized hnormalized => ?_⟩⟩
      · rw [hchecked] at hok
        cases hok
      · unfold validate
        rw [hchecked]
      · rw [(refused_of_checked_error _ hchecked).2] at hnormalized
        cases hnormalized
  | ok pair =>
      obtain ⟨parsed, ips⟩ := pair
      obtain ⟨hparse, hscheme, host, hne, hhost⟩ := checked_spec hchecked
      have hvalidate : validate env url = (normalizeUrl env parsed).map fun normalized =>
          ⟨true, some normalized, none, ips.head?⟩ := by
        unfold validate
        rw [hchecked]
      constructor
      · rintro ⟨result, hresult, hfaithful⟩ parsed' ips' hok
        obtain ⟨rfl, rfl⟩ := Prod.mk.inj (Except.ok.inj (hchecked.symm.trans hok))
        rw [hvalidate] at hresult
        obtain ⟨normalized, hnormalized, rfl⟩ := Option.map_eq_some_iff.mp hresult
        obtain ⟨port, hport, -⟩ := Option.map_eq_some_iff.mp hnormalized
        obtain ⟨parsed', other, hparse', hother, hsame⟩ := hfaithful normalized rfl
        obtain rfl := Option.some.inj (hparse.symm.trans hparse')
        rw [normalizeUrl_eq hparse hport] at hnormalized
        rw [← Option.some.inj hnormalized] at hother
        exact (rebuilt_iff_survives hu hparse hscheme hhost hne hport).mp ⟨other, hother, hsame⟩
      · intro hrestorable
        have hsurvives := hrestorable parsed ips hchecked
        obtain ⟨port, hport, -⟩ := hsurvives.port
        rw [Faithful, hvalidate, normalizeUrl_eq hparse hport]
        refine ⟨_, rfl, fun normalized hnormalized => ?_⟩
        cases hnormalized
        obtain ⟨other, hother, hsame⟩ :=
          (rebuilt_iff_survives hu hparse hscheme hhost hne hport).mpr hsurvives
        exact ⟨parsed, other, hparse, hother, hsame⟩

/-- ASCII as far as it goes. -/
theorem caseMapping_basic : CaseMapping .basic where
  lower_lower text := by
    show (text.map Char.toLower).map Char.toLower = text.map Char.toLower
    rw [List.map_map]
    exact List.map_congr_left fun c _ => toLower_toLower c
  uncased text c hc _ hletter := by
    obtain ⟨d, hd, rfl⟩ := List.mem_map.mp hc
    by_cases hupper : 65 ≤ d.toNat ∧ d.toNat ≤ 90
    · have hlower : d.toLower.isAlpha = true := by
        have hcode : d.toLower.toNat = d.toNat + 32 := by rw [toLower_toNat, if_pos hupper]
        have hge : 97 ≤ d.toLower.toNat := by omega
        have hle : d.toLower.toNat ≤ 122 := by omega
        have hrange : d.toLower.isLower = true :=
          Bool.and_eq_true_iff.mpr ⟨decide_eq_true hge, decide_eq_true hle⟩
        exact Bool.or_eq_true_iff.mpr (.inr hrange)
      rw [hlower] at hletter
      cases hletter
    · have hsame : d.toLower = d := by
        apply Char.toNat_inj.mp
        rw [toLower_toNat, if_neg hupper]
      rw [hsame]
      exact hd
  percent text more := by
    show (text ++ '%' :: more).map Char.toLower = _
    rw [List.map_append, List.map_cons]
    rfl
  nonempty text hne := fun hempty => hne (List.map_eq_nil_iff.mp hempty)

/-- A resolver that answers with a public address. -/
def publicHost : Env := ⟨.basic, fun _ => [], fun _ => .ok ["93.184.216.34".toList]⟩

/-- The normalised URL is `https://example.com/a/b?q=1`. -/
theorem faithful_iff_restorable_default_port :
    Faithful publicHost " HTTPS://user@Example.COM:443/a/b?q=1#top".toList := by
  refine (faithful_iff_restorable publicHost caseMapping_basic _).mpr fun parsed ips hchecked => ?_
  have hok : checked publicHost " HTTPS://user@Example.COM:443/a/b?q=1#top".toList =
      .ok (⟨"https".toList, "user@Example.COM:443".toList, "/a/b".toList, [], "q=1".toList,
        "top".toList⟩, ["93.184.216.34".toList]) := by decide +kernel
  obtain ⟨rfl, rfl⟩ := Prod.mk.inj (Except.ok.inj (hok.symm.trans hchecked))
  exact ⟨⟨some 443, by decide +kernel, by decide, by decide +kernel⟩, rfl, by decide +kernel⟩

theorem not_faithful {α : Type} {env : Env} {url normalized : List Char} (part : ParseResult → α)
    (hpart : ∀ parsed other, SameRequest env.text parsed other → part other = part parsed) {a b : α}
    (hnormalized : (validate env url).map (·.normalizedUrl) = some (some normalized))
    (hfirst : (urlparse env.text.toUnicode (stripped url)).map part = some a)
    (hsecond : (urlparse env.text.toUnicode normalized).map part = some b) (hne : b ≠ a) :
    ¬ Faithful env url := by
  rintro ⟨result, hresult, hfaithful⟩
  rw [hresult] at hnormalized
  obtain ⟨parsed, other, hparse, hother, hsame⟩ := hfaithful _ (Option.some.inj hnormalized)
  rw [hparse] at hfirst
  rw [hother] at hsecond
  have ha : part parsed = a := Option.some.inj hfirst
  have hb : part other = b := Option.some.inj hsecond
  exact hne (by rw [← ha, ← hb, hpart parsed other hsame])

/-- The first URL comes back without its parameters, `http://example.com/a`, the second one without the
brackets of its address, and the third one raises. -/
theorem faithful_iff_restorable_counterexample :
    ¬ Faithful publicHost "http://example.com/a;b".toList ∧
      ¬ Faithful publicHost "http://[2606:4700::1]/".toList ∧
      ¬ Faithful publicHost "http://example.com:99999/".toList := by
  refine ⟨?_, ?_, ?_⟩
  · have hnormalized : (validate publicHost "http://example.com/a;b".toList).map
        (·.normalizedUrl) = some (some "http://example.com/a".toList) := by decide +kernel
    exact not_faithful (·.params) (fun _ _ hsame => congrArg Prod.snd hsame.path) hnormalized
      (a := "b".toList) (b := []) (by decide +kernel) (by decide +kernel) (by decide)
  · have hnormalized : (validate publicHost "http://[2606:4700::1]/".toList).map
        (·.normalizedUrl) = some (some "http://2606:4700::1/".toList) := by decide +kernel
    exact not_faithful (fun parsed => (parsed.hostname .basic).map UnicodeText.basic.lower)
      (fun _ _ hsame => hsame.host) hnormalized (a := some "2606:4700::1".toList)
      (b := some "2606".toList) (by decide +kernel) (by decide +kernel) (by decide)
  · rintro ⟨result, hresult, -⟩
    have hraises : validate publicHost "http://example.com:99999/".toList = none := by
      decide +kernel
    rw [hraises] at hresult
    cases hresult

end SkyClaw.Validators.Ssrf
