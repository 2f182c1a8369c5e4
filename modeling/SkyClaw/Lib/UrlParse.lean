import SkyClaw.Lib.IpAddress
import SkyClaw.Lib.PyRe

/-!
# `urllib.parse`

`urlparse` as the standard library computes it, `ValueError` included, and the host of its
result.  `hostname_ascii` is what a caller needs who has looked at the characters of the URL.
-/

namespace UrlParse

open PyStr (partition afterLast partition_fst_subset partition_snd_subset afterLast_subset)

def IsAscii (text : List Char) : Prop := ∀ c ∈ text, c.toNat < 128

instance (text : List Char) : Decidable (IsAscii text) :=
  List.decidableBAll (fun c : Char => c.toNat < 128) text

/-! ## `urlsplit` -/

/-- `scheme_chars`. -/
def schemeChar (c : Char) : Bool := PyRe.asciiAlnum c || PyRe.anyOf "+-." c

/-- The scheme, in lower case, and the rest of the URL. -/
def splitScheme (url : List Char) : List Char × List Char :=
  match partition ':' url with
  | (scheme, some rest) =>
      if scheme.head?.any Char.isAlpha && scheme.all schemeChar then (scheme.map Char.toLower, rest)
      else ([], url)
  | (_, none) => ([], url)

/-- `re.match(r"\Av[a-fA-F0-9]+\..+\Z", hostname)`. -/
def isFutureAddress (hostname : List Char) : Bool :=
  let version := (hostname.drop 1).takeWhile fun c => (IpAddress.hexDigit c).isSome
  match (hostname.drop 1).dropWhile fun c => (IpAddress.hexDigit c).isSome with
  | '.' :: address => version ≠ [] && address ≠ [] && address.all (· ≠ '\n')
  | _ => false

/-- `_check_bracketed_host` does not raise. -/
def bracketedHostValid (hostname : List Char) : Bool :=
  if hostname.head? = some 'v' then isFutureAddress hostname
  else
    match IpAddress.ipAddress hostname with
    | some (.v6 _ _) => true
    | _ => false

/-- What `urlsplit` asks of the brackets. -/
def bracketsValid (netloc : List Char) : Bool :=
  if '[' ∈ netloc ∧ ']' ∉ netloc ∨ ']' ∈ netloc ∧ '[' ∉ netloc then false
  else if '[' ∈ netloc ∧ ']' ∈ netloc then
    bracketedHostValid (partition ']' ((partition '[' netloc).2.getD [])).1
  else true

/-- `_checknetloc` does not raise. -/
def netlocValid (u : Unicode) (netloc : List Char) : Bool :=
  if IsAscii netloc then true
  else
    let n := netloc.filter fun c => !PyRe.anyOf "@:#?" c
    u.nfkc n = n || !(u.nfkc n).any (PyRe.anyOf "/?#@:")

structure SplitResult where
  scheme : List Char
  netloc : List Char
  path : List Char
  query : List Char
  fragment : List Char
deriving DecidableEq, Repr

/-- The URL without leading control characters and blanks and without tabs and line ends. -/
def cleanUrl (url : List Char) : List Char :=
  (url.dropWhile fun c => c.toNat ≤ 0x20).filter fun c => !PyRe.anyOf "\t\r\n" c

/-- The network location and the rest. -/
def splitNetloc : List Char → List Char × List Char
  | '/' :: '/' :: url =>
      (url.takeWhile fun c => !PyRe.anyOf "/?#" c, url.dropWhile fun c => !PyRe.anyOf "/?#" c)
  | url => ([], url)

/-- `urlsplit(url)`; no result is the `ValueError`. -/
def urlsplit (u : Unicode) (url : List Char) : Option SplitResult :=
  let (scheme, rest) := splitScheme (cleanUrl url)
  let (netloc, rest) := splitNetloc rest
  let (rest, fragment) := partition '#' rest
  let (path, query) := partition '?' rest
  if bracketsValid netloc && netlocValid u netloc then
    some
      { scheme := scheme
        netloc := netloc
        path := path
        query := query.getD []
        fragment := fragment.getD [] }
  else none

/-! ## `urlparse` -/

structure ParseResult where
  scheme : List Char
  netloc : List Char
  path : List Char
  params : List Char
  query : List Char
  fragment : List Char
deriving DecidableEq, Repr

def usesParams : List String :=
  ["", "ftp", "hdl", "prospero", "http", "https", "shttp", "rtsp", "rtsps", "rtspu", "sip", "sips",
    "mms", "sftp", "tel"]

/-- `_splitparams`: parameters are looked for after the last `/`. -/
def splitParams (path : List Char) : List Char × List Char :=
  let segment := afterLast '/' path
  let before := path.take (path.length - segment.length)
  match partition ';' segment with
  | (name, some params) => (before ++ name, params)
  | (_, none) => (path, [])

/-- `urlparse(url)`; no result is the `ValueError`. -/
def urlparse (u : Unicode) (url : List Char) : Option ParseResult :=
  (urlsplit u url).map fun split =>
    let (path, params) :=
      if usesParams.any (·.toList = split.scheme) ∧ ';' ∈ split.path then splitParams split.path
      else (split.path, [])
    { scheme := split.scheme
      netloc := split.netloc
      path := path
      params := params
      query := split.query
      fragment := split.fragment }

/-- `_hostinfo`: the host, as written, and the port. -/
def hostinfo (netloc : List Char) : List Char × Option (List Char) :=
  match partition '[' (afterLast '@' netloc) with
  | (_, some bracketed) =>
      ((partition ']' bracketed).1,
        (partition ':' ((partition ']' bracketed).2.getD [])).2.filter (· ≠ []))
  | (_, none) =>
      ((partition ':' (afterLast '@' netloc)).1,
        (partition ':' (afterLast '@' netloc)).2.filter (· ≠ []))

/-- `parsed.hostname`; the zone of a scoped address is not lowered. -/
def ParseResult.hostname (u : UnicodeText) (parsed : ParseResult) : Option (List Char) :=
  let host := (hostinfo parsed.netloc).1
  if host = [] then none
  else
    match partition '%' host with
    | (name, some zone) => some (u.lower name ++ '%' :: zone)
    | (name, none) => some (u.lower name)

/-- `parsed.port`; no result is the `ValueError`. -/
def ParseResult.port (parsed : ParseResult) : Option (Option Nat) :=
  match (hostinfo parsed.netloc).2 with
  | none => some none
  | some digits =>
      let n := PyStr.ofDigits 10 (digits.map fun c => c.toNat - '0'.toNat)
      if digits.all Char.isDigit ∧ digits.length ≤ 4300 ∧ n ≤ 65535 then some (some n) else none

/-! ## Characters -/

theorem splitScheme_snd_subset (url : List Char) : (splitScheme url).2 ⊆ url := by
  unfold splitScheme
  rcases hpartition : partition ':' url with ⟨scheme, _ | rest⟩
  · exact List.Subset.refl url
  · dsimp only
    split
    · exact partition_snd_subset (congrArg Prod.snd hpartition)
    · exact List.Subset.refl url

theorem splitNetloc_fst_subset (url : List Char) : (splitNetloc url).1 ⊆ url := by
  unfold splitNetloc
  split
  · exact fun c hc =>
      List.mem_cons_of_mem _ (List.mem_cons_of_mem _ ((List.takeWhile_sublist _).subset hc))
  · exact List.nil_subset _

theorem cleanUrl_subset (url : List Char) : cleanUrl url ⊆ url :=
  fun _ hc => (List.dropWhile_sublist _).subset (List.mem_of_mem_filter hc)

variable {url : List Char} {parsed : ParseResult}

theorem netloc_subset {u : Unicode}
    (h : urlparse u url = some parsed) : parsed.netloc ⊆ url := by
  obtain ⟨split, hsplit, rfl⟩ := Option.map_eq_some_iff.mp h
  unfold urlsplit at hsplit
  dsimp only at hsplit
  split at hsplit
  · cases hsplit
    refine List.Subset.trans ?_ (cleanUrl_subset url)
    exact List.Subset.trans (splitNetloc_fst_subset _) (splitScheme_snd_subset _)
  · cases hsplit

theorem hostinfo_fst_subset (netloc : List Char) : (hostinfo netloc).1 ⊆ netloc := by
  unfold hostinfo
  have hlast := afterLast_subset '@' netloc
  split
  · next bracketed hpartition =>
      have hbracketed := partition_snd_subset (congrArg Prod.snd hpartition)
      exact List.Subset.trans (List.Subset.trans (partition_fst_subset _ _) hbracketed) hlast
  · exact List.Subset.trans (partition_fst_subset _ _) hlast

theorem toLower_toNat (c : Char) :
    c.toLower.toNat = if 65 ≤ c.toNat ∧ c.toNat ≤ 90 then c.toNat + 32 else c.toNat := by
  unfold Char.toLower
  split
  · next hupper =>
      have hge : 65 ≤ c.toNat := hupper.1
      have hle : c.toNat ≤ 90 := hupper.2
      rw [if_pos ⟨hge, hle⟩]
      show (c.val + ('a'.val - 'A'.val)).toNat = c.val.toNat + 32
      rw [UInt32.toNat_add]
      have hsum : c.val.toNat + 32 < 2 ^ 32 := by
        show c.toNat + 32 < 2 ^ 32
        omega
      exact Nat.mod_eq_of_lt hsum
  · next hupper =>
      rw [if_neg]
      exact fun hrange => hupper ⟨hrange.1, hrange.2⟩

theorem toLower_toLower (c : Char) : c.toLower.toLower = c.toLower := by
  apply Char.toNat_inj.mp
  rw [toLower_toNat c.toLower, toLower_toNat c]
  split
  · rw [if_neg]
    omega
  · rfl

variable {u : UnicodeText}

theorem lower_isAscii {text : List Char} (h : IsAscii text) :
    IsAscii (u.lower text) := by
  rw [u.lower_ascii text h]
  intro c hc
  obtain ⟨d, hd, rfl⟩ := List.mem_map.mp hc
  have hlt := h d hd
  rw [toLower_toNat]
  split
  · omega
  · exact hlt

theorem lower_lower {text : List Char} (h : IsAscii text) :
    u.lower (u.lower text) = u.lower text := by
  rw [u.lower_ascii _ (lower_isAscii h), u.lower_ascii text h, List.map_map]
  exact List.map_congr_left fun c _ => toLower_toLower c

/-- **The host of an ASCII URL is ASCII.** -/
theorem hostname_ascii {hostname : List Char}
    (hurl : IsAscii url) (hparsed : urlparse u.toUnicode url = some parsed)
    (h : parsed.hostname u = some hostname) : IsAscii hostname := by
  have hhost : IsAscii (hostinfo parsed.netloc).1 := fun c hc =>
    hurl c (netloc_subset hparsed (hostinfo_fst_subset _ hc))
  unfold ParseResult.hostname at h
  dsimp only at h
  by_cases hempty : (hostinfo parsed.netloc).1 = []
  · rw [if_pos hempty] at h
    cases h
  · rw [if_neg hempty] at h
    have hname := lower_isAscii (u := u) fun c hc => hhost c (partition_fst_subset '%' _ hc)
    rcases hpartition : partition '%' (hostinfo parsed.netloc).1 with ⟨name, _ | zone⟩ <;>
      rw [hpartition] at h hname <;> cases h
    · exact hname
    · have hzone := partition_snd_subset (congrArg Prod.snd hpartition)
      intro c hc
      rcases List.mem_append.mp hc with hc | hc
      · exact hname c hc
      · rcases List.mem_cons.mp hc with rfl | hc
        · decide
        · exact hhost c (hzone hc)

end UrlParse
