import SkyClaw.Lib.JsonLexemes
import SkyClaw.Lib.UrlParse

/-!
# A URL put together from its parts

`urlparse_build`: a URL of HTTP that is put together from a network location, a path and a query
that keep apart parses into them.  The parts of a URL that has been parsed do (`parts_of_urlparse`).
-/

namespace UrlParse

open PyRe (anyOf)
open PyStr (partition afterLast partition_of_not_mem partition_append partition_spec afterLast_append
  afterLast_of_not_mem afterLast_spec)

/-! ## Parameters -/

/-- **Once is enough**: what is left in front of the parameters has none. -/
theorem splitParams_spec (path : List Char) :
    (splitParams path).1 <+: path ∧ splitParams (splitParams path).1 = ((splitParams path).1, []) := by
  obtain ⟨hfree, hcut⟩ := afterLast_spec '/' path
  have hbefore : ∃ before, path = before ++ afterLast '/' path ∧
      ∀ name, '/' ∉ name → afterLast '/' (before ++ name) = name := by
    rcases hcut with hall | ⟨before, hsplit⟩
    · exact ⟨[], hall, fun name hname => afterLast_of_not_mem hname⟩
    · refine ⟨before ++ ['/'], ?_, fun name hname => ?_⟩
      · rw [List.append_assoc]
        exact hsplit
      · rw [List.append_assoc]
        exact afterLast_append hname before
  obtain ⟨before, hpath, hlast⟩ := hbefore
  have hwithout : ∀ name first, '/' ∉ name → partition ';' name = (first, none) →
      splitParams (before ++ name) = (before ++ name, []) := by
    intro name first hname hparts
    simp only [splitParams, hlast name hname, hparts]
  have hwith : ∀ name first params, '/' ∉ name → partition ';' name = (first, some params) →
      splitParams (before ++ name) = (before ++ first, params) := by
    intro name first params hname hparts
    have htake : (before ++ name).take ((before ++ name).length - name.length) = before := by
      rw [List.length_append, Nat.add_sub_cancel, List.take_left]
    simp only [splitParams, hlast name hname, htake, hparts]
  obtain ⟨hsemicolon, hrest⟩ := partition_spec ';' (afterLast '/' path)
  rcases hpartition : partition ';' (afterLast '/' path) with ⟨name, _ | params⟩
  · have hwhole := hwithout _ _ hfree hpartition
    rw [← hpath] at hwhole
    rw [hwhole]
    exact ⟨List.prefix_rfl, hwhole⟩
  · have hwhole := hwith _ _ _ hfree hpartition
    rw [← hpath] at hwhole
    rw [hpartition] at hsemicolon hrest
    have hslash : '/' ∉ name := fun hmem => hfree (hrest ▸ List.mem_append_left _ hmem)
    rw [hwhole]
    refine ⟨⟨';' :: params, ?_⟩, ?_⟩
    · rw [List.append_assoc, ← hrest]
      exact hpath.symm
    · show splitParams (before ++ name) = _
      exact hwithout name name hslash (partition_of_not_mem hsemicolon)

theorem splitParams_of_not_mem {path : List Char} (h : ';' ∉ path) :
    splitParams path = (path, []) := by
  have hfree : ';' ∉ afterLast '/' path := fun hmem => h (PyStr.afterLast_subset '/' path hmem)
  unfold splitParams
  dsimp only
  rw [partition_of_not_mem hfree]

/-! ## Building -/

/-- `f"{scheme}://{netloc}{path}{query}"`, with a `?` in front of a query. -/
def build (scheme netloc path query : List Char) : List Char :=
  scheme ++ "://".toList ++ netloc ++ path ++ if query = [] then [] else '?' :: query

/-- Parts that keep apart. -/
structure Parts (netloc path query : List Char) : Prop where
  netlocFree : ∀ c ∈ netloc, anyOf "/?#" c = false ∧ anyOf "\t\r\n" c = false
  rooted : path.head? = some '/'
  pathFree : ∀ c ∈ path, anyOf "?#" c = false ∧ anyOf "\t\r\n" c = false
  queryFree : ∀ c ∈ query, c ≠ '#' ∧ anyOf "\t\r\n" c = false
  /-- there are no parameters in it -/
  settled : splitParams path = (path, [])

section Build

variable {u : Unicode} {scheme netloc path query : List Char}

def queryText (query : List Char) : List Char := if query = [] then [] else '?' :: query

theorem splitScheme_build (hscheme : scheme = "http".toList ∨ scheme = "https".toList)
    (rest : List Char) : splitScheme (scheme ++ ':' :: rest) = (scheme, rest) := by
  rcases hscheme with rfl | rfl
  · rfl
  · rfl

theorem splitNetloc_build (h : Parts netloc path query) :
    splitNetloc ('/' :: '/' :: (netloc ++ (path ++ queryText query))) =
      (netloc, path ++ queryText query) := by
  obtain ⟨tail, rfl⟩ := List.head?_eq_some_iff.mp h.rooted
  have hfree : ∀ c ∈ netloc, (!anyOf "/?#" c) = true := fun c hc => by rw [(h.netlocFree c hc).1]; rfl
  have hstop : (!anyOf "/?#" '/') = false := by decide
  rw [splitNetloc, List.takeWhile_append_of_pos hfree, List.dropWhile_append_of_pos hfree,
    List.cons_append, List.takeWhile_cons, List.dropWhile_cons, hstop]
  simp

theorem cleanUrl_build (hscheme : scheme = "http".toList ∨ scheme = "https".toList)
    (h : Parts netloc path query) :
    cleanUrl (build scheme netloc path query) = build scheme netloc path query := by
  have hstart : (build scheme netloc path query).dropWhile (fun c => c.toNat ≤ 0x20) =
      build scheme netloc path query := by
    rcases hscheme with rfl | rfl
    · rfl
    · rfl
  rw [cleanUrl, hstart]
  refine List.filter_eq_self.mpr fun c hc => ?_
  have hall : ∀ text : List Char, text.all (fun d => !anyOf "\t\r\n" d) = true → c ∈ text →
      anyOf "\t\r\n" c = false := by
    intro text htext hmem
    simpa using List.all_eq_true.mp htext c hmem
  have hfree : anyOf "\t\r\n" c = false := by
    simp only [build, List.mem_append] at hc
    rcases hc with (((hc | hc) | hc) | hc) | hc
    · rcases hscheme with rfl | rfl
      · exact hall _ (by decide) hc
      · exact hall _ (by decide) hc
    · exact hall _ (by decide) hc
    · exact (h.netlocFree c hc).2
    · exact (h.pathFree c hc).2
    · split_ifs at hc with hquery
      · cases hc
      · rcases List.mem_cons.mp hc with rfl | hc
        · decide
        · exact (h.queryFree c hc).2
  rw [hfree]
  rfl

/-- **A URL that is built** is split into its parts, if its network location is one. -/
theorem urlsplit_build (hscheme : scheme = "http".toList ∨ scheme = "https".toList)
    (h : Parts netloc path query) :
    urlsplit u (build scheme netloc path query) =
      if bracketsValid netloc && netlocValid u netloc then some ⟨scheme, netloc, path, query, []⟩
      else none := by
  have hshape : build scheme netloc path query =
      scheme ++ ':' :: ('/' :: '/' :: (netloc ++ (path ++ queryText query))) := by
    simp [build, queryText]
  have hfragment : '#' ∉ path ++ queryText query := by
    intro hmem
    rcases List.mem_append.mp hmem with hmem | hmem
    · exact absurd (h.pathFree _ hmem).1 (by decide)
    · unfold queryText at hmem
      split_ifs at hmem
      · cases hmem
      · rcases List.mem_cons.mp hmem with heq | hmem
        · cases heq
        · exact (h.queryFree _ hmem).1 rfl
  have hmark : '?' ∉ path := fun hmem => absurd (h.pathFree _ hmem).1 (by decide)
  have hquery : partition '?' (path ++ queryText query) =
      (path, if query = [] then none else some query) := by
    unfold queryText
    split_ifs
    · rw [List.append_nil, partition_of_not_mem hmark]
    · rw [partition_append hmark]
  unfold urlsplit
  rw [cleanUrl_build hscheme h, hshape, splitScheme_build hscheme]
  dsimp only
  rw [splitNetloc_build h]
  dsimp only
  rw [partition_of_not_mem hfragment]
  dsimp only
  rw [hquery]
  by_cases hempty : query = []
  · simp only [hempty, if_true, Option.getD_none]
  · simp only [if_neg hempty, Option.getD_some, Option.getD_none]

theorem urlparse_build (hscheme : scheme = "http".toList ∨ scheme = "https".toList)
    (h : Parts netloc path query) :
    urlparse u (build scheme netloc path query) =
      if bracketsValid netloc && netlocValid u netloc then
        some ⟨scheme, netloc, path, [], query, []⟩
      else none := by
  rw [urlparse, urlsplit_build hscheme h]
  split_ifs with hvalid
  · rw [Option.map_some, h.settled]
    simp only [ite_self]
  · rfl

end Build

/-! ## The parts of a URL -/

section Parsed

variable {u : Unicode} {url : List Char} {parsed : ParseResult}

theorem anyOf_cleanUrl {c : Char} (h : c ∈ cleanUrl url) : anyOf "\t\r\n" c = false := by
  have hkeep := (List.mem_filter.mp h).2
  simpa using hkeep

/-- What `urlsplit` cuts out of the URL. -/
theorem urlsplit_spec {split : SplitResult} (h : urlsplit u url = some split)
    (hnetloc : split.netloc ≠ []) :
    (∀ c ∈ split.netloc, anyOf "/?#" c = false ∧ anyOf "\t\r\n" c = false) ∧
      (split.path = [] ∨ split.path.head? = some '/') ∧
      (∀ c ∈ split.path, anyOf "?#" c = false ∧ anyOf "\t\r\n" c = false) ∧
      ∀ c ∈ split.query, c ≠ '#' ∧ anyOf "\t\r\n" c = false := by
  unfold urlsplit at h
  dsimp only at h
  split_ifs at h
  cases h
  have hclean : ∀ c ∈ (splitScheme (cleanUrl url)).2, anyOf "\t\r\n" c = false :=
    fun c hc => anyOf_cleanUrl (splitScheme_snd_subset _ hc)
  generalize (splitScheme (cleanUrl url)).2 = rest at hclean hnetloc ⊢
  -- A network location is there, so the rest began with two slashes.
  obtain ⟨tail, rfl⟩ : ∃ tail, rest = '/' :: '/' :: tail := by
    by_contra hno
    refine hnetloc ?_
    show (splitNetloc rest).1 = []
    unfold splitNetloc
    split
    · next tail => exact absurd ⟨tail, rfl⟩ hno
    · rfl
  have htail : ∀ c ∈ tail, anyOf "\t\r\n" c = false := fun c hc =>
    hclean c (List.mem_cons_of_mem _ (List.mem_cons_of_mem _ hc))
  have hdrop : ∀ c ∈ tail.dropWhile (fun c => !anyOf "/?#" c), anyOf "\t\r\n" c = false :=
    fun c hc => htail c ((List.dropWhile_suffix _).subset hc)
  have hhead : ∀ c ∈ (tail.dropWhile fun c => !anyOf "/?#" c).head?, anyOf "/?#" c = true := by
    intro c hc
    have hnot := List.head?_dropWhile_not (fun c => !anyOf "/?#" c) tail
    rw [hc] at hnot
    simpa using hnot
  have hcut : splitNetloc ('/' :: '/' :: tail) =
      (tail.takeWhile fun c => !anyOf "/?#" c, tail.dropWhile fun c => !anyOf "/?#" c) := rfl
  rw [hcut]
  dsimp only
  refine ⟨fun c hc => ?_, ?_⟩
  · refine ⟨?_, htail c ((List.takeWhile_prefix _).subset hc)⟩
    simpa using List.mem_takeWhile_imp hc
  · generalize tail.dropWhile (fun c => !anyOf "/?#" c) = behind at hdrop hhead ⊢
    obtain ⟨hfragment, hbehind⟩ := partition_spec '#' behind
    have hbegins : (partition '#' behind).1 <+: behind := by
      revert hbehind
      cases (partition '#' behind).2 with
      | none => exact fun heq => heq ▸ List.prefix_rfl
      | some fragment => exact fun heq => ⟨_, heq.symm⟩
    generalize (partition '#' behind).1 = front at hfragment hbegins ⊢
    have hfront : ∀ c ∈ front, anyOf "\t\r\n" c = false := fun c hc => hdrop c (hbegins.subset hc)
    have hstart : ∀ c ∈ front.head?, anyOf "/?#" c = true := by
      intro c hc
      refine hhead c ?_
      obtain ⟨more, rfl⟩ := hbegins
      cases front with
      | nil => cases hc
      | cons d front => exact hc
    obtain ⟨hmark, hquery⟩ := partition_spec '?' front
    have hpath := PyStr.partition_fst_subset '?' front
    have hpathHead : (partition '?' front).1 = [] ∨ (partition '?' front).1.head? = front.head? := by
      revert hquery
      cases (partition '?' front).2 with
      | none => exact fun heq => .inr (congrArg List.head? heq.symm)
      | some query =>
          intro heq
          cases hfirst : (partition '?' front).1 with
          | nil => exact .inl rfl
          | cons c path =>
              rw [hfirst] at heq
              exact .inr (by rw [heq]; rfl)
    refine ⟨?_, fun c hc => ⟨?_, hfront c (hpath hc)⟩, fun c hc => ?_⟩
    · rcases hpathHead with hempty | hsame
      · exact .inl hempty
      · cases hcons : (partition '?' front).1 with
        | nil => exact .inl rfl
        | cons c path =>
            rw [hcons] at hsame hmark
            have hc := hstart c (by rw [← hsame]; rfl)
            have hne : c ≠ '?' := fun heq => hmark (heq ▸ List.mem_cons_self)
            have hne' : c ≠ '#' := by
              rintro rfl
              exact hfragment (List.mem_of_mem_head? (by rw [← hsame]; rfl))
            have hslash : c = '/' := by
              simp only [anyOf, List.contains_iff_mem] at hc
              have hmem : c = '/' ∨ c = '?' ∨ c = '#' := by simpa using hc
              rcases hmem with rfl | rfl | rfl
              · rfl
              · exact absurd rfl hne
              · exact absurd rfl hne'
            exact .inr (congrArg some hslash)
    · have hne : c ≠ '?' := fun heq => hmark (heq ▸ hc)
      have hne' : c ≠ '#' := fun heq => hfragment (heq ▸ hpath hc)
      simp [anyOf, hne, hne']
    · cases hsnd : (partition '?' front).2 with
      | none =>
          rw [hsnd] at hc
          cases hc
      | some query =>
          rw [hsnd] at hc
          have hmem := PyStr.partition_snd_subset hsnd hc
          exact ⟨fun heq => hfragment (heq ▸ hmem), hfront c hmem⟩

/-- **The parts of a URL keep apart**; a path that is empty counts as the root. -/
theorem parts_of_urlparse (h : urlparse u url = some parsed) (hnetloc : parsed.netloc ≠ [])
    (hscheme : parsed.scheme = "http".toList ∨ parsed.scheme = "https".toList) :
    Parts parsed.netloc (if parsed.path = [] then ['/'] else parsed.path) parsed.query := by
  obtain ⟨split, hsplit, rfl⟩ := Option.map_eq_some_iff.mp h
  obtain ⟨hfree, hrooted, hpath, hquery⟩ := urlsplit_spec hsplit hnetloc
  have huses : usesParams.any (·.toList = split.scheme) = true := by
    rcases hscheme with heq | heq
    · exact List.any_eq_true.mpr ⟨"http", by decide, by simpa using heq.symm⟩
    · exact List.any_eq_true.mpr ⟨"https", by decide, by simpa using heq.symm⟩
  have hparams : ∃ path, path <+: split.path ∧ splitParams path = (path, []) ∧
      (if usesParams.any (·.toList = split.scheme) = true ∧ ';' ∈ split.path then
        splitParams split.path else (split.path, [])).1 = path := by
    by_cases hsemicolon : ';' ∈ split.path
    · rw [if_pos ⟨huses, hsemicolon⟩]
      exact ⟨_, (splitParams_spec split.path).1, (splitParams_spec split.path).2, rfl⟩
    · rw [if_neg fun hboth => hsemicolon hboth.2]
      exact ⟨_, List.prefix_rfl, splitParams_of_not_mem hsemicolon, rfl⟩
  obtain ⟨path, hbegins, hsettled, hfirst⟩ := hparams
  show Parts split.netloc (if (ite _ _ _ : List Char × List Char).1 = [] then ['/'] else
    (ite _ _ _ : List Char × List Char).1) split.query
  rw [hfirst]
  by_cases hempty : path = []
  · rw [if_pos hempty]
    refine ⟨hfree, rfl, fun c hc => ?_, hquery, rfl⟩
    obtain rfl := List.mem_singleton.mp hc
    decide
  · rw [if_neg hempty]
    refine ⟨hfree, ?_, fun c hc => hpath c (hbegins.subset hc), hquery, hsettled⟩
    obtain ⟨c, tail, rfl⟩ := List.exists_cons_of_ne_nil hempty
    obtain ⟨more, hmore⟩ := hbegins
    rcases hrooted with hnil | hslash
    · rw [hnil] at hmore
      cases hmore
    · rw [← hmore] at hslash
      exact hslash

/-- The scheme is in lower case already. -/
theorem lower_scheme {u : UnicodeText} (h : urlparse u.toUnicode url = some parsed) :
    u.lower parsed.scheme = parsed.scheme := by
  have hscheme : ∃ scheme : List Char, (∀ c ∈ scheme, schemeChar c = true) ∧
      parsed.scheme = scheme.map Char.toLower := by
    obtain ⟨split, hsplit, rfl⟩ := Option.map_eq_some_iff.mp h
    unfold urlsplit at hsplit
    dsimp only at hsplit
    split_ifs at hsplit
    cases hsplit
    dsimp only
    unfold splitScheme
    split
    · next scheme rest _ =>
        split_ifs with hvalid
        · exact ⟨scheme, List.all_eq_true.mp ((Bool.and_eq_true _ _).mp hvalid).2, rfl⟩
        · exact ⟨[], fun c hc => absurd hc List.not_mem_nil, rfl⟩
    · exact ⟨[], fun c hc => absurd hc List.not_mem_nil, rfl⟩
  obtain ⟨scheme, hchars, heq⟩ := hscheme
  have hascii : IsAscii scheme := by
    intro c hc
    have hchar := hchars c hc
    simp only [schemeChar, PyRe.asciiAlnum, PyRe.range, Bool.or_eq_true, Bool.and_eq_true,
      decide_eq_true_eq] at hchar
    rcases hchar with ((⟨-, hle⟩ | ⟨-, hle⟩) | ⟨-, hle⟩) | hmark
    · exact Nat.lt_of_le_of_lt (show c.toNat ≤ 'Z'.toNat from hle) (by decide)
    · exact Nat.lt_of_le_of_lt (show c.toNat ≤ 'z'.toNat from hle) (by decide)
    · exact Nat.lt_of_le_of_lt (show c.toNat ≤ '9'.toNat from hle) (by decide)
    · have hmem : c = '+' ∨ c = '-' ∨ c = '.' := by simpa [PyRe.anyOf] using hmark
      rcases hmem with rfl | rfl | rfl
      · decide
      · decide
      · decide
  rw [heq, ← u.lower_ascii scheme hascii]
  exact lower_lower hascii

end Parsed

theorem hostinfo_fst_subset_afterLast (netloc : List Char) :
    (hostinfo netloc).1 ⊆ afterLast '@' netloc := by
  unfold hostinfo
  split
  · next bracketed hpartition =>
      exact List.Subset.trans (PyStr.partition_fst_subset _ _)
        (PyStr.partition_snd_subset (congrArg Prod.snd hpartition))
  · exact PyStr.partition_fst_subset _ _

theorem hostinfo_brackets (netloc : List Char) :
    ']' ∉ (hostinfo netloc).1 ∨ '[' ∉ (hostinfo netloc).1 := by
  unfold hostinfo
  split
  · next bracketed _ => exact .inl (partition_spec ']' bracketed).1
  · next before hpartition =>
      have hspec := partition_spec '[' (afterLast '@' netloc)
      rw [hpartition] at hspec
      refine .inr fun hmem => hspec.1 ?_
      have hsub := PyStr.partition_fst_subset ':' (afterLast '@' netloc) hmem
      rwa [hspec.2] at hsub

theorem hostinfo_of_free {netloc : List Char} (hat : '@' ∉ netloc) (hbracket : '[' ∉ netloc) :
    hostinfo netloc =
      ((partition ':' netloc).1, (partition ':' netloc).2.filter (· ≠ [])) := by
  unfold hostinfo
  rw [afterLast_of_not_mem hat, partition_of_not_mem hbracket]

theorem bracketsValid_of_free {netloc : List Char} (hopen : '[' ∉ netloc) (hclose : ']' ∉ netloc) :
    bracketsValid netloc = true := by
  unfold bracketsValid
  rw [if_neg (by tauto), if_neg (by tauto)]

theorem bracketsValid_of_one {netloc : List Char}
    (h : '[' ∈ netloc ∧ ']' ∉ netloc ∨ ']' ∈ netloc ∧ '[' ∉ netloc) :
    bracketsValid netloc = false := by
  unfold bracketsValid
  rw [if_pos h]

/-- **A port that is written is read back.** -/
theorem port_toDigits {parsed : ParseResult} {n : Nat} (hmax : n ≤ 65535)
    (h : (hostinfo parsed.netloc).2 = some (Nat.toDigits 10 n)) : parsed.port = some (some n) := by
  have hvalue : PyStr.ofDigits 10 ((Nat.toDigits 10 n).map fun c => c.toNat - '0'.toNat) = n := by
    rw [PyStr.ofDigits, List.foldl_map]
    exact Nat.ofDigitChars_ten_toDigits
  have hdigits : (Nat.toDigits 10 n).all Char.isDigit = true :=
    List.all_eq_true.mpr fun c hc => JsonText.isDigit_of_mem_toDigits hc
  have hlength : (Nat.toDigits 10 n).length ≤ 5 :=
    (Nat.length_toDigits_le_iff (by decide) (by decide)).mpr (Nat.lt_of_le_of_lt hmax (by decide))
  unfold ParseResult.port
  rw [h]
  dsimp only
  rw [hvalue, if_pos ⟨hdigits, hlength.trans (by decide), hmax⟩]

end UrlParse
