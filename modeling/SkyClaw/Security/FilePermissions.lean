import Mathlib.Data.Bool.AllAny
import SkyClaw.Lib.PyLines
import SkyClaw.Lib.PyRe
import SkyClaw.Lib.SubText

/-!
# The check that a DACL is owner-only

`_dacl_is_owner_only` reads the principals out of what `icacls` prints, and `_verify_dacl` destroys the
file when one of them is foreign.  `judges_iff`: it is right where it reads the principals whole, but for
the domains of a name that is allowed in full, and elsewhere when what it reads passes as the principals
do.
-/

namespace SkyClaw.Security.FilePermissions

open Function
open PyStr (isSpace isLineBreak splitlines trim afterLast)

abbrev Text := List Char

/-! ## The parser -/

section Parser

variable (u : UnicodeText)

/-- `ident.lstrip("*").lower()` -/
def normalized (ident : Text) : Text := u.lower (ident.dropWhile (· = '*'))

/-- The normalized form without its domain. -/
def bareName (ident : Text) : Text := afterLast '\\' (normalized u ident)

/-- `":("` -/
def separator : Text := [':', '(']

/-- `line.split(":(")` -/
def splitAces : Text → List Text
  | [] => [[]]
  | ':' :: '(' :: text => [] :: splitAces text
  | c :: text => (splitAces text).modifyHead (c :: ·)

/-- The identifier in front of a `:(`. -/
def candidate (isPathLine : Bool) (i : Nat) (segment : Text) : Text :=
  if ')' ∈ segment then trim (afterLast ')' segment)
  else if i = 0 ∧ isPathLine = false then trim segment
  else (trim segment).rtakeWhile fun c => !isSpace c

/-- The identifiers of a line. -/
def candidatesOf (line : Text) : List Text :=
  if separator <:+: line then
    let isPathLine := line.head?.any fun c => !isSpace c
    (splitAces line).dropLast.zipIdx.map fun part => candidate isPathLine part.2 part.1
  else []

def candidates (icaclsOutput : Text) : List Text := (splitlines icaclsOutput).flatMap candidatesOf

structure Seen where
  foundAny : Bool
  bareDomainMap : Text → Option Text

def allowedFull (allowed : List Text) : List Text := (allowed.filter (· ≠ [])).map (normalized u)

def allowedBare (allowed : List Text) : List Text := (allowed.filter (· ≠ [])).map (bareName u)

/-- A turn of the loop; `none` is `return False`. -/
def look (allowed : List Text) (seen : Seen) (candidate : Text) : Option Seen :=
  if candidate = [] then some seen
  else
    let ident := normalized u candidate
    let bare := bareName u candidate
    if ident ∈ allowedFull u allowed then some { seen with foundAny := true }
    else if bare ∈ allowedBare u allowed then
      if (seen.bareDomainMap bare).any (· ≠ ident) then none
      else
        some
          { foundAny := true
            bareDomainMap := update seen.bareDomainMap bare (some ident) }
    else none

def daclIsOwnerOnly (icaclsOutput : Text) (allowed : List Text) : Bool :=
  if allowed = [] then false
  else
    match (candidates icaclsOutput).foldlM (look u allowed) ⟨false, fun _ => none⟩ with
    | some seen => seen.foundAny
    | none => false

end Parser

/-! ## The verification -/

/-- What the file operations do, and how Python shows a text. -/
structure Host where
  text : UnicodeText
  /-- `path.is_file()`, false also if it raises -/
  isFile : Bool
  /-- `path.unlink` raises no `OSError` -/
  unlinks : Bool
  repr : Text → Text

structure Outcome where
  /-- the file is removed -/
  removed : Bool
  /-- the message of the `PermissionError` -/
  error : Option Text
deriving DecidableEq

def failClosed (host : Host) (path reason : Text) : Outcome :=
  let destroyed := host.isFile && host.unlinks
  let outcome := if destroyed then "artifact destroyed" else "artifact destruction attempted"
  { removed := destroyed
    error := some ("Owner-only ACL enforcement failed for ".toList ++ path ++ "; ".toList ++
      outcome.toList ++ " to prevent leak. Reason: ".toList ++ reason) }

/-- `_verify_dacl`, by what `icacls` prints or the text of the exception that is caught. -/
def verifyDacl (host : Host) (path : Text) (allowed : List Text) (icacls : Except Text Text) : Outcome :=
  match icacls with
  | .error exc => failClosed host path ("icacls verification failed: ".toList ++ exc)
  | .ok stdout =>
      if daclIsOwnerOnly host.text stdout allowed then ⟨false, none⟩
      else
        failClosed host path
          ("DACL contains non-owner ACEs after hardening: ".toList ++ host.repr stdout)

/-- What `_restrict_windows` meets: the user's name and SID, if they are known, whether the two grants
work, and what `icacls` prints after them. -/
structure Attempts where
  username : Option Text
  byName : Except Text Unit
  sid : Option Text
  bySid : Except Text Unit
  icacls : Except Text Text

/-- The second attempt of `_restrict_windows`. -/
def restrictBySid (host : Host) (path : Text) (attempts : Attempts) : Outcome :=
  match attempts.sid with
  | none =>
      failClosed host path "SID resolution failed and no icacls fallback available".toList
  | some sid =>
      match attempts.bySid with
      | .error exc => failClosed host path ("both icacls attempts failed: ".toList ++ exc)
      | .ok () =>
          let allowed := match attempts.username with
            | some username => if username = [] then [sid] else [username, sid]
            | none => [sid]
          verifyDacl host path allowed attempts.icacls

def restrictWindows (host : Host) (path : Text) (attempts : Attempts) : Outcome :=
  match attempts.username, attempts.byName with
  | some username, .ok () => verifyDacl host path [username] attempts.icacls
  | _, _ => restrictBySid host path attempts

/-! ## What `icacls` prints -/

/-- A principal, `NAME` or `DOMAIN\NAME`. -/
structure Principal where
  text : Text
  ne : text ≠ []
  oneDomain : text.count '\\' ≤ 1
  trimmed : trim text = text
  oneLine : ∀ c ∈ text, isLineBreak c = false
  plain : ¬separator <:+: text

/-- An ACE, with its rights in parentheses. -/
structure Ace where
  principal : Principal
  rights : List Text
  ne : rights ≠ []
  plain : ∀ right ∈ rights, ∀ c ∈ right, c ∉ ['(', ')', ':'] ∧ isLineBreak c = false

def Ace.rightsText (ace : Ace) : Text := ace.rights.flatMap fun right => '(' :: right ++ [')']

def Ace.text (ace : Ace) : Text := ace.principal.text ++ ':' :: ace.rightsText

/-- The report of `icacls` on a file, with the ACEs of its DACL and what is printed after them. -/
structure Report where
  path : Text
  first : Ace
  others : List Ace
  indent : Nat
  summary : List Text
  plain : ∀ line ∈ summary, ¬separator <:+: line ∧ ∀ c ∈ line, isLineBreak c = false

namespace Report

variable (report : Report)

def pathLine : Text := report.path ++ ' ' :: report.first.text

def indented (ace : Ace) : Text := List.replicate (report.indent + 1) ' ' ++ ace.text

def lines : List Text := report.pathLine :: report.others.map report.indented ++ report.summary

def output : Text := report.lines.flatMap (· ++ ['\n'])

def principals : List Text := (report.first :: report.others).map (·.principal.text)

end Report

section Purpose

variable (u : UnicodeText) (allowed : List Text)

/-- Some allowed identifier has the name, whatever its domain. -/
def Named (principal : Text) : Prop :=
  ∃ ident ∈ allowed, ident ≠ [] ∧ bareName u ident = bareName u principal

/-- Some allowed identifier is the principal, with its domain. -/
def NamedInFull (principal : Text) : Prop :=
  ∃ ident ∈ allowed, ident ≠ [] ∧ normalized u ident = normalized u principal

/-- Two principals have the same name and different domains. -/
def Clash (first second : Text) : Prop :=
  bareName u first = bareName u second ∧ normalized u first ≠ normalized u second

/-- **Each principal has the name of an allowed identifier, and principals of one name have one
domain.** -/
def OwnerOnly (principals : List Text) : Prop :=
  (∀ principal ∈ principals, Named u allowed principal) ∧
    ∀ first ∈ principals, ∀ second ∈ principals, ¬Clash u first second

end Purpose

/-- **The verdict is true exactly for an owner-only DACL**: no foreign one is accepted, and no owner-only
file is destroyed. -/
structure Judges (host : Host) (allowed : List Text) (report : Report) : Prop where
  verdict : daclIsOwnerOnly host.text report.output allowed = true ↔
    OwnerOnly host.text allowed report.principals
  accepted : (verifyDacl host report.path allowed (.ok report.output)).error = none →
    OwnerOnly host.text allowed report.principals
  kept : OwnerOnly host.text allowed report.principals →
    verifyDacl host report.path allowed (.ok report.output) = ⟨false, none⟩

/-- A path on one line, with no `:(` in it. -/
structure Ordinary (path : Text) : Prop where
  oneLine : ∀ c ∈ path, isLineBreak c = false
  plain : ¬separator <:+: path

/-- The principals are read whole: none has a closing parenthesis, and the path ends with one, or the
path has none and the first principal no blanks. -/
structure ReadWhole (report : Report) : Prop extends Ordinary report.path where
  noParen : ∀ ace ∈ report.first :: report.others, ')' ∉ ace.principal.text
  first : (∀ c ∈ afterLast ')' report.path, isSpace c = true) ∨
    ')' ∉ report.path ∧ (∀ c, report.path.head? = some c → isSpace c = false) ∧
      ∀ c ∈ report.first.principal.text, isSpace c = false

/-- What is taken for the first principal: what is behind the last parenthesis; if there is none, the
last word, or all of the line if it starts with a blank. -/
def takenFirst (path principal : Text) : Text :=
  let text := path ++ ' ' :: principal
  if ')' ∈ text then trim (afterLast ')' text)
  else if (path ++ [' ']).head?.any isSpace then trim text
  else (trim text).rtakeWhile fun c => !isSpace c

/-- What is taken for the principals of an ordinary path. -/
def taken (report : Report) : List Text :=
  (takenFirst report.path report.first.principal.text ::
    report.others.map fun ace => trim (afterLast ')' ace.principal.text)).filter (· ≠ [])

/-- Texts that pass for principals: a name that is allowed in full is not asked for its domain. -/
def Passes (u : UnicodeText) (allowed : List Text) (texts : List Text) : Prop :=
  texts ≠ [] ∧ (∀ text ∈ texts, Named u allowed text) ∧
    ∀ first ∈ texts, ∀ second ∈ texts, ¬NamedInFull u allowed first →
      ¬NamedInFull u allowed second → ¬Clash u first second

/-- What the parser takes for principals. -/
def readings (icaclsOutput : Text) : List Text := (candidates icaclsOutput).filter (· ≠ [])

/-- If all names are allowed and two principals of a name have different domains, two such are not
allowed in full. -/
def ClashSeen (u : UnicodeText) (allowed principals : List Text) : Prop :=
  (∀ principal ∈ principals, Named u allowed principal) →
    (∃ first ∈ principals, ∃ second ∈ principals, Clash u first second) →
    ∃ first ∈ principals, ∃ second ∈ principals, ¬NamedInFull u allowed first ∧
      ¬NamedInFull u allowed second ∧ Clash u first second

/-- Where the principals are read whole, a clash of domains is seen; elsewhere, what is taken for them
passes if they are owner-only, and fails if they are not. -/
structure Judgeable (u : UnicodeText) (allowed : List Text) (report : Report) : Prop where
  whole : ReadWhole report → ClashSeen u allowed report.principals
  misread : Ordinary report.path → ¬ReadWhole report →
    (Passes u allowed (taken report) ↔ OwnerOnly u allowed report.principals)
  odd : ¬Ordinary report.path →
    (Passes u allowed (readings report.output) ↔ OwnerOnly u allowed report.principals)

/-! ## The loop -/

section Loop

variable {u : UnicodeText} {allowed : List Text} {s t : Seen} {c : Text}

theorem mem_allowedFull_iff : normalized u c ∈ allowedFull u allowed ↔ NamedInFull u allowed c := by
  simp [allowedFull, NamedInFull, and_assoc]

theorem mem_allowedBare_iff : bareName u c ∈ allowedBare u allowed ↔ Named u allowed c := by
  simp [allowedBare, Named, and_assoc]

theorem NamedInFull.named (h : NamedInFull u allowed c) : Named u allowed c := by
  obtain ⟨ident, hmem, hne, heq⟩ := h
  exact ⟨ident, hmem, hne, congrArg (afterLast '\\') heq⟩

/-- No other domain is recorded for the name. -/
def Unopposed (u : UnicodeText) (s : Seen) (c : Text) : Prop :=
  ∀ prev, s.bareDomainMap (bareName u c) = some prev → prev = normalized u c

theorem look_full (hc : c ≠ []) (hfull : NamedInFull u allowed c) :
    look u allowed s c = some { s with foundAny := true } := by
  simp only [look, if_neg hc, if_pos (mem_allowedFull_iff.mpr hfull)]

theorem unopposed_iff :
    (s.bareDomainMap (bareName u c)).any (· ≠ normalized u c) = false ↔ Unopposed u s c := by
  unfold Unopposed
  cases s.bareDomainMap (bareName u c) with
  | none | some => simp

theorem look_bare (hc : c ≠ []) (hfull : ¬NamedInFull u allowed c) (hnamed : Named u allowed c)
    (hfree : Unopposed u s c) :
    look u allowed s c = some
      { foundAny := true
        bareDomainMap := update s.bareDomainMap (bareName u c) (some (normalized u c)) } := by
  have hany := unopposed_iff.mpr hfree
  simp only [look, if_neg hc, if_neg (mt mem_allowedFull_iff.mp hfull),
    if_pos (mem_allowedBare_iff.mpr hnamed), hany, Bool.false_eq_true, if_false]

theorem look_none (hc : c ≠ []) (hfull : ¬NamedInFull u allowed c)
    (hopposed : ¬(Named u allowed c ∧ Unopposed u s c)) : look u allowed s c = none := by
  simp only [look, if_neg hc, if_neg (mt mem_allowedFull_iff.mp hfull)]
  by_cases hnamed : Named u allowed c
  · have hany : (s.bareDomainMap (bareName u c)).any (· ≠ normalized u c) = true := by
      rw [← Bool.not_eq_false]
      exact fun hfalse => hopposed ⟨hnamed, unopposed_iff.mp hfalse⟩
    rw [if_pos (mem_allowedBare_iff.mpr hnamed), if_pos hany]
  · rw [if_neg (mt mem_allowedBare_iff.mp hnamed)]

/-- Texts that the loop accepts from a state on. -/
def Fits (u : UnicodeText) (allowed : List Text) (s : Seen) (texts : List Text) : Prop :=
  ∀ c ∈ texts, Named u allowed c ∧ (¬NamedInFull u allowed c → Unopposed u s c ∧
    ∀ d ∈ texts, ¬NamedInFull u allowed d → ¬Clash u c d)

theorem fits_cons_full {texts : List Text} {found : Bool} (hfull : NamedInFull u allowed c) :
    Fits u allowed s (c :: texts) ↔ Fits u allowed { s with foundAny := found } texts := by
  constructor
  · intro h x hx
    obtain ⟨hnamed, hrest⟩ := h x (List.mem_cons_of_mem _ hx)
    exact ⟨hnamed, fun hx' => ⟨(hrest hx').1, fun d hd => (hrest hx').2 d (List.mem_cons_of_mem _ hd)⟩⟩
  · intro h x hx
    rcases List.mem_cons.mp hx with rfl | hx
    · exact ⟨hfull.named, fun hnot => absurd hfull hnot⟩
    · obtain ⟨hnamed, hrest⟩ := h x hx
      refine ⟨hnamed, fun hx' => ⟨(hrest hx').1, fun d hd hd' => ?_⟩⟩
      rcases List.mem_cons.mp hd with rfl | hd
      · exact absurd hfull hd'
      · exact (hrest hx').2 d hd hd'

/-- Another text puts its domain on record. -/
theorem fits_cons_bare {texts : List Text} (hfull : ¬NamedInFull u allowed c) :
    Fits u allowed s (c :: texts) ↔ (Named u allowed c ∧ Unopposed u s c) ∧
      Fits u allowed
        { foundAny := true
          bareDomainMap := update s.bareDomainMap (bareName u c) (some (normalized u c)) }
        texts := by
  constructor
  · intro h
    obtain ⟨hnamed, hself⟩ := h c List.mem_cons_self
    obtain ⟨hfree, hpairs⟩ := hself hfull
    refine ⟨⟨hnamed, hfree⟩, fun x hx => ?_⟩
    obtain ⟨hxnamed, hrest⟩ := h x (List.mem_cons_of_mem _ hx)
    refine ⟨hxnamed, fun hx' => ⟨fun prev hprev => ?_, fun d hd =>
      (hrest hx').2 d (List.mem_cons_of_mem _ hd)⟩⟩
    by_cases hname : bareName u x = bareName u c
    · simp only [hname, update_self, Option.some.injEq] at hprev
      rw [← hprev]
      by_contra hne
      exact hpairs x (List.mem_cons_of_mem _ hx) hx' ⟨hname.symm, hne⟩
    · simp only [update_of_ne hname] at hprev
      exact (hrest hx').1 prev hprev
  · rintro ⟨⟨hnamed, hfree⟩, h⟩
    -- A later text of the name has the domain that is on record.
    have hlater : ∀ x ∈ texts, ¬NamedInFull u allowed x → bareName u x = bareName u c →
        normalized u c = normalized u x := by
      intro x hx hx' hname
      refine ((h x hx).2 hx').1 _ ?_
      simp only [hname, update_self]
    intro x hmem
    rcases List.mem_cons.mp hmem with rfl | hx
    · refine ⟨hnamed, fun _ => ⟨hfree, fun d hd hd' hclash => ?_⟩⟩
      rcases List.mem_cons.mp hd with rfl | hd
      · exact hclash.2 rfl
      · exact hclash.2 (hlater d hd hd' hclash.1.symm)
    · obtain ⟨hxnamed, hrest⟩ := h x hx
      refine ⟨hxnamed, fun hx' => ⟨fun prev hprev => ?_, fun d hd hd' hclash => ?_⟩⟩
      · by_cases hname : bareName u x = bareName u c
        · rw [hname] at hprev
          exact (hfree prev hprev).trans (hlater x hx hx' hname)
        · refine (hrest hx').1 prev ?_
          simp only [update_of_ne hname]
          exact hprev
      · rcases List.mem_cons.mp hd with rfl | hd
        · exact hclash.2 (hlater x hx hx' hclash.1).symm
        · exact (hrest hx').2 d hd hd' hclash

/-- **The loop** goes through all texts exactly if they fit. -/
theorem isSome_foldlM_iff (cs : List Text) (s : Seen) :
    (cs.foldlM (look u allowed) s).isSome = true ↔ Fits u allowed s (cs.filter (· ≠ [])) := by
  induction cs generalizing s with
  | nil => simp [Fits]
  | cons c cs ih =>
      rw [List.foldlM_cons]
      by_cases hc : c = []
      · subst hc
        rw [List.filter_cons_of_neg (by simp)]
        exact ih s
      · rw [List.filter_cons_of_pos (by simpa using hc)]
        by_cases hfull : NamedInFull u allowed c
        · rw [look_full hc hfull, fits_cons_full hfull]
          exact ih _
        · rw [fits_cons_bare hfull]
          by_cases hok : Named u allowed c ∧ Unopposed u s c
          · rw [look_bare hc hfull hok.1 hok.2, and_iff_right hok]
            exact ih _
          · rw [look_none hc hfull hok]
            simp [hok]

theorem foundAny_of_foldlM {cs : List Text} (h : cs.foldlM (look u allowed) s = some t) :
    t.foundAny = true ↔ s.foundAny = true ∨ cs.filter (· ≠ []) ≠ [] := by
  induction cs generalizing s with
  | nil =>
      cases h
      simp
  | cons c cs ih =>
      rw [List.foldlM_cons] at h
      by_cases hc : c = []
      · subst hc
        rw [List.filter_cons_of_neg (by simp)]
        exact ih h
      · rw [List.filter_cons_of_pos (by simpa using hc)]
        simp only [ne_eq, reduceCtorEq, not_false_eq_true, or_true, iff_true]
        by_cases hfull : NamedInFull u allowed c
        · rw [look_full hc hfull] at h
          exact (ih h).mpr (.inl rfl)
        · by_cases hok : Named u allowed c ∧ Unopposed u s c
          · rw [look_bare hc hfull hok.1 hok.2] at h
            exact (ih h).mpr (.inl rfl)
          · rw [look_none hc hfull hok] at h
            cases h

/-- **The verdict is that on what the parser takes for principals.** -/
theorem daclIsOwnerOnly_iff (icaclsOutput : Text) :
    daclIsOwnerOnly u icaclsOutput allowed = true ↔ Passes u allowed (readings icaclsOutput) := by
  by_cases hallowed : allowed = []
  · rw [daclIsOwnerOnly, if_pos hallowed, hallowed]
    simp only [Bool.false_eq_true, false_iff]
    rintro ⟨hne, hnamed, -⟩
    obtain ⟨c, hc⟩ := List.exists_mem_of_ne_nil _ hne
    obtain ⟨ident, hmem, -⟩ := hnamed c hc
    cases hmem
  · rw [daclIsOwnerOnly, if_neg hallowed]
    have hsome : ((candidates icaclsOutput).foldlM (look u allowed) ⟨false, fun _ => none⟩).isSome =
        true ↔ _ := isSome_foldlM_iff (candidates icaclsOutput) ⟨false, fun _ => none⟩
    have hfits : Fits u allowed ⟨false, fun _ => none⟩ (readings icaclsOutput) ↔
        (∀ c ∈ readings icaclsOutput, Named u allowed c) ∧
          ∀ c ∈ readings icaclsOutput, ∀ d ∈ readings icaclsOutput, ¬NamedInFull u allowed c →
            ¬NamedInFull u allowed d → ¬Clash u c d := by
      constructor
      · exact fun h => ⟨fun c hc => (h c hc).1, fun c hc d hd hc' hd' => ((h c hc).2 hc').2 d hd hd'⟩
      · rintro ⟨hnamed, hpairs⟩ c hc
        refine ⟨hnamed c hc, fun hc' => ⟨fun prev hprev => ?_, fun d hd => hpairs c hc d hd hc'⟩⟩
        cases hprev
    rw [Passes, ← hfits, readings, ← hsome]
    cases hrun : (candidates icaclsOutput).foldlM (look u allowed) ⟨false, fun _ => none⟩ with
    | none => simp
    | some t =>
        have hfound := foundAny_of_foldlM hrun
        simpa using hfound

end Loop

/-! ## The lines of a report -/

section Lines

theorem splitAces_cons {c : Char} {text : Text} (h : ¬(c = ':' ∧ text.head? = some '(')) :
    splitAces (c :: text) = (splitAces text).modifyHead (c :: ·) := by
  rw [splitAces]
  rintro rest rfl rfl
  exact h ⟨rfl, rfl⟩

theorem splitAces_append {before : Text} (h : ¬separator <:+: before) (rest : Text) :
    splitAces (before ++ ':' :: '(' :: rest) = before :: splitAces rest := by
  induction before with
  | nil => rfl
  | cons c before ih =>
      rw [List.infix_cons_iff, not_or] at h
      have hno : ¬(c = ':' ∧ (before ++ ':' :: '(' :: rest).head? = some '(') := by
        rintro ⟨rfl, hhead⟩
        cases before with
        | nil => cases hhead
        | cons d before =>
            cases hhead
            exact h.1 ⟨before, rfl⟩
      rw [List.cons_append, splitAces_cons hno, ih h.2]
      rfl

theorem splitAces_of_not_mem {text : Text} (h : ':' ∉ text) : splitAces text = [text] := by
  induction text with
  | nil => rfl
  | cons c text ih =>
      rw [List.mem_cons, not_or] at h
      rw [splitAces_cons fun hno => h.1 hno.1.symm, ih h.2]
      rfl

theorem Ace.exists_rightsText (ace : Ace) : ∃ rest, ace.rightsText = '(' :: rest ∧ ':' ∉ rest ∧
    ∀ c ∈ rest, isLineBreak c = false := by
  have hplain : ∀ c ∈ ace.rightsText, c ≠ ':' ∧ isLineBreak c = false := by
    intro c hc
    obtain ⟨right, hright, hmem⟩ := List.mem_flatMap.mp hc
    rcases List.mem_cons.mp hmem with rfl | hmem
    · exact ⟨by decide, by decide⟩
    · rcases List.mem_append.mp hmem with hmem | hmem
      · obtain ⟨hno, hfree⟩ := ace.plain right hright c hmem
        exact ⟨fun heq => hno (by simp [heq]), hfree⟩
      · obtain rfl := List.mem_singleton.mp hmem
        exact ⟨by decide, by decide⟩
  obtain ⟨right, rights, heq⟩ := List.exists_cons_of_ne_nil ace.ne
  refine ⟨right ++ [')'] ++ rights.flatMap fun right => '(' :: right ++ [')'], ?_, ?_⟩
  · rw [Ace.rightsText, heq]
    rfl
  · have hrest : ∀ c ∈ right ++ [')'] ++ rights.flatMap fun right => '(' :: right ++ [')'],
        c ∈ ace.rightsText := by
      intro c hc
      rw [Ace.rightsText, heq]
      exact List.mem_cons_of_mem _ hc
    exact ⟨fun hmem => (hplain _ (hrest _ hmem)).1 rfl, fun c hc => (hplain c (hrest c hc)).2⟩

/-- **A line with one ACE** has one candidate. -/
theorem candidatesOf_ace {before : Text} (ace : Ace) (h : ¬separator <:+: before) :
    candidatesOf (before ++ ':' :: ace.rightsText) =
      [candidate ((before ++ [':']).head?.any fun c => !isSpace c) 0 before] := by
  obtain ⟨rest, hrights, hcolon, -⟩ := ace.exists_rightsText
  have hinfix : separator <:+: before ++ ':' :: '(' :: rest := ⟨before, rest, by simp [separator]⟩
  have hhead : (before ++ ':' :: '(' :: rest).head? = (before ++ [':']).head? := by
    cases before <;> rfl
  rw [candidatesOf, hrights, if_pos hinfix, splitAces_append h, splitAces_of_not_mem hcolon, hhead]
  rfl

variable {report : Report}

theorem candidatesOf_pathLine (hpath : ¬separator <:+: report.path) :
    candidatesOf report.pathLine = [takenFirst report.path report.first.principal.text] := by
  have hspace : ' ' ∉ separator := by decide
  have hplain : ¬separator <:+: report.path ++ ' ' :: report.first.principal.text := by
    rw [SubText.infix_append_cons hspace, not_or]
    exact ⟨hpath, report.first.principal.plain⟩
  have hline : report.pathLine = (report.path ++ ' ' :: report.first.principal.text) ++
      ':' :: report.first.rightsText := by
    simp [Report.pathLine, Ace.text]
  have hstart : ((report.path ++ ' ' :: report.first.principal.text ++ [':']).head?.any
      fun c => !isSpace c) = false ↔ (report.path ++ [' ']).head?.any isSpace = true := by
    cases report.path <;> simp
  rw [hline, candidatesOf_ace _ hplain, candidate, takenFirst]
  simp only [true_and, hstart]

/-- On an indented line, the principal is what is behind its last parenthesis. -/
theorem candidatesOf_indented (ace : Ace) :
    candidatesOf (report.indented ace) = [trim (afterLast ')' ace.principal.text)] := by
  have hspace : ' ' ∉ separator := by decide
  have hplain : ¬separator <:+: List.replicate (report.indent + 1) ' ' ++ ace.principal.text := by
    rw [List.replicate_succ', List.append_assoc, List.singleton_append,
      SubText.infix_append_cons hspace, not_or]
    refine ⟨fun hinfix => ?_, ace.principal.plain⟩
    have hmem := hinfix.subset (List.mem_cons_self : ':' ∈ separator)
    exact absurd (List.eq_of_mem_replicate hmem) (by decide)
  have hline : report.indented ace = (List.replicate (report.indent + 1) ' ' ++ ace.principal.text) ++
      ':' :: ace.rightsText := by
    simp [Report.indented, Ace.text]
  have hblank : ∀ c ∈ List.replicate (report.indent + 1) ' ', isSpace c = true := fun c hc => by
    rw [List.eq_of_mem_replicate hc]
    decide
  have hparen : ')' ∉ List.replicate (report.indent + 1) ' ' := fun hmem =>
    absurd (List.eq_of_mem_replicate hmem) (by decide)
  rw [hline, candidatesOf_ace _ hplain]
  unfold candidate
  by_cases hmem : ')' ∈ ace.principal.text
  · obtain ⟨hfree, hsplit⟩ := PyStr.afterLast_spec ')' ace.principal.text
    rcases hsplit with heq | ⟨before, heq⟩
    · exact absurd hmem (heq ▸ hfree)
    · have hlast : afterLast ')' (List.replicate (report.indent + 1) ' ' ++ ace.principal.text) =
          afterLast ')' ace.principal.text := by
        conv_lhs => rw [heq, ← List.append_assoc]
        exact PyStr.afterLast_append hfree _
      rw [if_pos (List.mem_append_right _ hmem), hlast]
  · have hno : ')' ∉ List.replicate (report.indent + 1) ' ' ++ ace.principal.text := fun h =>
      (List.mem_append.mp h).elim hparen hmem
    have hindented : ((List.replicate (report.indent + 1) ' ' ++ ace.principal.text ++ [':']).head?.any
        fun c => !isSpace c) = false := rfl
    rw [if_neg hno, hindented, if_pos ⟨rfl, rfl⟩, PyStr.trim_append_left hblank,
      PyStr.afterLast_of_not_mem hmem]

/-- The first principal is read whole. -/
theorem ReadWhole.takenFirst (h : ReadWhole report) :
    takenFirst report.path report.first.principal.text = report.first.principal.text := by
  have hparen : ')' ∉ report.first.principal.text := h.noParen _ List.mem_cons_self
  have hbehind : ')' ∉ ' ' :: report.first.principal.text := by
    rw [List.mem_cons, not_or]
    exact ⟨by decide, hparen⟩
  have hblanks : (∀ c ∈ afterLast ')' report.path, isSpace c = true) →
      trim (afterLast ')' report.path ++ ' ' :: report.first.principal.text) =
        report.first.principal.text := by
    intro hblank
    rw [PyStr.trim_append_left hblank, ← List.singleton_append,
      PyStr.trim_append_left (List.forall_mem_singleton.mpr rfl), report.first.principal.trimmed]
  unfold FilePermissions.takenFirst
  by_cases hmem : ')' ∈ report.path
  · rcases h.first with hblank | ⟨hno, -⟩
    · rw [if_pos (List.mem_append_left _ hmem), PyStr.afterLast_append_of_not_mem hbehind]
      exact hblanks hblank
    · exact absurd hmem hno
  · have hno : ')' ∉ report.path ++ ' ' :: report.first.principal.text := fun hin =>
      (List.mem_append.mp hin).elim hmem hbehind
    rw [PyStr.afterLast_of_not_mem hmem] at hblanks
    have hfirst := h.first
    rw [PyStr.afterLast_of_not_mem hmem] at hfirst
    rw [if_neg hno]
    split_ifs with hstart
    · rcases hfirst with hblank | ⟨-, hhead, -⟩
      · exact hblanks hblank
      · -- A path that starts with a blank, and with none, is empty.
        cases hpath : report.path with
        | nil =>
            rw [hpath] at hblanks
            exact hblanks (List.forall_mem_nil _)
        | cons c path =>
            rw [hpath] at hstart hhead
            have hc : isSpace c = true := hstart
            rw [hhead c rfl] at hc
            cases hc
    · obtain ⟨c, path, hpath⟩ : ∃ c path, report.path = c :: path := by
        cases hpath : report.path with
        | nil =>
            rw [hpath] at hstart
            exact absurd rfl hstart
        | cons c path => exact ⟨c, path, rfl⟩
      rw [hpath] at hstart hfirst ⊢
      have hc : isSpace c = false := Bool.eq_false_iff.mpr hstart
      rcases hfirst with hblank | ⟨-, -, hword⟩
      · rw [hblank c List.mem_cons_self] at hc
        cases hc
      · -- The line starts and ends with other characters than blanks.
        have htrim : trim (c :: path ++ ' ' :: report.first.principal.text) =
            c :: path ++ ' ' :: report.first.principal.text := by
          refine PyStr.trim_eq_self_iff.mpr ⟨fun d hd => ?_, fun d hd => ?_⟩
          · cases hd
            exact hc
          · refine hword d (List.mem_of_getLast? ?_)
            rwa [List.getLast?_append, List.getLast?_cons_of_ne_nil report.first.principal.ne,
              Option.or_of_isSome (List.getLast?_isSome.mpr report.first.principal.ne)] at hd
        rw [htrim]
        exact PyStr.rtakeWhile_append_cons rfl (fun d hd => by simp [hword d hd]) _

theorem ReadWhole.taken (h : ReadWhole report) : taken report = report.principals := by
  have hothers : (report.others.map fun ace => trim (afterLast ')' ace.principal.text)) =
      report.others.map (·.principal.text) := by
    refine List.map_congr_left fun ace hace => ?_
    rw [PyStr.afterLast_of_not_mem (h.noParen ace (List.mem_cons_of_mem _ hace)),
      ace.principal.trimmed]
  rw [FilePermissions.taken, h.takenFirst, hothers]
  refine List.filter_eq_self.mpr (fun principal hmem => ?_ : ∀ principal ∈ report.principals, _)
  obtain ⟨ace, -, rfl⟩ := List.mem_map.mp hmem
  exact decide_eq_true ace.principal.ne

theorem Ace.oneLine (ace : Ace) : ∀ c ∈ ace.text, isLineBreak c = false := by
  intro c hc
  obtain ⟨rest, hrights, -, hfree⟩ := ace.exists_rightsText
  rw [Ace.text, hrights] at hc
  rcases List.mem_append.mp hc with hc | hc
  · exact ace.principal.oneLine c hc
  · rcases List.mem_cons.mp hc with rfl | hc
    · decide
    · rcases List.mem_cons.mp hc with rfl | hc
      · decide
      · exact hfree c hc

theorem Ordinary.lines (h : Ordinary report.path) :
    ∀ line ∈ report.lines, ∀ c ∈ line, isLineBreak c = false := by
  intro line hline c hc
  rcases List.mem_append.mp hline with hline | hline
  · rcases List.mem_cons.mp hline with rfl | hline
    · rcases List.mem_append.mp hc with hc | hc
      · exact h.oneLine c hc
      · rcases List.mem_cons.mp hc with rfl | hc
        · decide
        · exact report.first.oneLine c hc
    · obtain ⟨ace, -, rfl⟩ := List.mem_map.mp hline
      rcases List.mem_append.mp hc with hc | hc
      · rw [List.eq_of_mem_replicate hc]
        decide
      · exact ace.oneLine c hc
  · exact (report.plain line hline).2 c hc

/-- **What the parser reads** in the report on an ordinary path. -/
theorem Ordinary.readings (h : Ordinary report.path) : readings report.output = taken report := by
  have hothers : (report.others.map report.indented).flatMap candidatesOf =
      report.others.map fun ace => trim (afterLast ')' ace.principal.text) := by
    rw [List.flatMap_map, List.flatMap_congr fun ace _ => candidatesOf_indented ace]
    exact List.map_eq_flatMap.symm
  have hsummary : report.summary.flatMap candidatesOf = [] := by
    rw [List.flatMap_eq_nil_iff]
    intro line hline
    exact if_neg (report.plain line hline).1
  have hlines : splitlines report.output = report.lines := PyStr.splitlines_lines .lf h.lines
  rw [FilePermissions.readings, candidates, hlines, Report.lines, List.flatMap_append,
    List.flatMap_cons, hothers, hsummary, List.append_nil, candidatesOf_pathLine h.plain]
  rfl

end Lines

/-! ## The verdict -/

section Verdict

variable {u : UnicodeText} {allowed : List Text}

theorem OwnerOnly.passes {principals : List Text} (hne : principals ≠ [])
    (h : OwnerOnly u allowed principals) : Passes u allowed principals :=
  ⟨hne, h.1, fun first hfirst second hsecond _ _ => h.2 first hfirst second hsecond⟩

theorem passes_iff_ownerOnly_iff {principals : List Text} (hne : principals ≠ []) :
    (Passes u allowed principals ↔ OwnerOnly u allowed principals) ↔
      ClashSeen u allowed principals := by
  constructor
  · rintro hright hnamed ⟨first, hfirst, second, hsecond, hclash⟩
    by_contra hunseen
    have hpasses : Passes u allowed principals := by
      refine ⟨hne, hnamed, fun x hx y hy hx' hy' hxy => hunseen ?_⟩
      exact ⟨x, hx, y, hy, hx', hy', hxy⟩
    exact (hright.mp hpasses).2 first hfirst second hsecond hclash
  · refine fun hseen => ⟨fun hpasses => ⟨hpasses.2.1, fun x hx y hy hxy => ?_⟩,
      fun howner => howner.passes hne⟩
    obtain ⟨first, hfirst, second, hsecond, hfirst', hsecond', hclash⟩ :=
      hseen hpasses.2.1 ⟨x, hx, y, hy, hxy⟩
    exact hpasses.2.2 first hfirst second hsecond hfirst' hsecond' hclash

theorem verifyDacl_ok (allowed : List Text) (host : Host) (path stdout : Text) :
    if daclIsOwnerOnly host.text stdout allowed = true then
      verifyDacl host path allowed (.ok stdout) = ⟨false, none⟩
    else (verifyDacl host path allowed (.ok stdout)).error ≠ none := by
  by_cases hverdict : daclIsOwnerOnly host.text stdout allowed = true
  · rw [if_pos hverdict, verifyDacl]
    exact if_pos hverdict
  · rw [if_neg hverdict, verifyDacl, if_neg hverdict, failClosed]
    exact Option.some_ne_none _

theorem failClosed_error (host : Host) (path reason : Text) :
    (failClosed host path reason).error ≠ none := Option.some_ne_none _

theorem verifyDacl_eq_ok {host : Host} {path : Text} {icacls : Except Text Text}
    (h : (verifyDacl host path allowed icacls).error = none) :
    (verifyDacl host path allowed icacls).removed = false ∧
      ∃ stdout, icacls = .ok stdout ∧ daclIsOwnerOnly host.text stdout allowed = true := by
  cases icacls with
  | error exc => exact absurd h (failClosed_error _ _ _)
  | ok stdout =>
      have hok := verifyDacl_ok allowed host path stdout
      split_ifs at hok with hverdict
      · exact ⟨by rw [hok], stdout, rfl, hverdict⟩
      · exact absurd h hok

/-- Without an error the file is there, and its DACL has been found to be that of the user's name or
SID. -/
def Restricts (host : Host) (attempts : Attempts) (outcome : Outcome) : Prop :=
  outcome.error = none → outcome.removed = false ∧
    ∃ stdout allowed, attempts.icacls = .ok stdout ∧
      (∀ ident ∈ allowed, attempts.username = some ident ∨ attempts.sid = some ident) ∧
      daclIsOwnerOnly host.text stdout allowed = true

theorem restricts_verifyDacl {attempts : Attempts} (host : Host) (path : Text)
    (h : ∀ ident ∈ allowed, attempts.username = some ident ∨ attempts.sid = some ident) :
    Restricts host attempts (verifyDacl host path allowed attempts.icacls) := by
  intro hnone
  obtain ⟨hkept, stdout, hstdout, hverdict⟩ := verifyDacl_eq_ok hnone
  exact ⟨hkept, stdout, allowed, hstdout, h, hverdict⟩

theorem restricts_failClosed (host : Host) (attempts : Attempts) (path reason : Text) :
    Restricts host attempts (failClosed host path reason) :=
  fun hnone => absurd hnone (failClosed_error host path reason)

theorem restricts_restrictBySid (host : Host) (path : Text) (attempts : Attempts) :
    Restricts host attempts (restrictBySid host path attempts) := by
  unfold restrictBySid
  split
  case h_1 => exact restricts_failClosed _ _ _ _
  case h_2 sid hsid =>
    split
    case h_1 exc => exact restricts_failClosed _ _ _ _
    case h_2 =>
      refine restricts_verifyDacl host path fun ident hident => ?_
      split at hident
      case h_1 username hname =>
        rw [hname, hsid]
        split_ifs at hident with hempty
        · exact .inr (congrArg some (List.mem_singleton.mp hident).symm)
        · rcases List.mem_cons.mp hident with rfl | hident
          · exact .inl rfl
          · exact .inr (congrArg some (List.mem_singleton.mp hident).symm)
      case h_2 =>
        rw [hsid, List.mem_singleton.mp hident]
        exact .inr rfl

/-- **`_restrict_windows` restricts the file**, or raises. -/
theorem restricts_restrictWindows (host : Host) (path : Text) (attempts : Attempts) :
    Restricts host attempts (restrictWindows host path attempts) := by
  unfold restrictWindows
  split
  case h_1 username done hname hgrant =>
    refine restricts_verifyDacl host path fun ident hident => .inl ?_
    rw [List.mem_singleton.mp hident]
    exact hname
  case h_2 => exact restricts_restrictBySid host path attempts

theorem judges_iff_verdict (host : Host) (report : Report) :
    Judges host allowed report ↔ (daclIsOwnerOnly host.text report.output allowed = true ↔
      OwnerOnly host.text allowed report.principals) := by
  refine ⟨fun h => h.verdict, fun hverdict => ⟨hverdict, fun hnone => ?_, fun howner => ?_⟩⟩
  · have hok := verifyDacl_ok allowed host report.path report.output
    split_ifs at hok with htrue
    · exact hverdict.mp htrue
    · exact absurd hnone hok
  · have hok := verifyDacl_ok allowed host report.path report.output
    rwa [if_pos (hverdict.mpr howner)] at hok

/-- **The verdict is right** where the principals are read whole and a clash of domains is seen, and
where what is taken for them passes as they do. -/
theorem judges_iff (host : Host) (allowed : List Text) (report : Report) :
    Judges host allowed report ↔ Judgeable host.text allowed report := by
  have hne : report.principals ≠ [] := List.cons_ne_nil _ _
  rw [judges_iff_verdict, daclIsOwnerOnly_iff]
  by_cases hpath : Ordinary report.path
  · rw [hpath.readings]
    by_cases hwhole : ReadWhole report
    · rw [hwhole.taken, passes_iff_ownerOnly_iff hne]
      exact ⟨fun h => ⟨fun _ => h, fun _ hnot => absurd hwhole hnot, fun hnot => absurd hpath hnot⟩,
        fun h => h.whole hwhole⟩
    · exact ⟨fun h => ⟨fun hw => absurd hw hwhole, fun _ _ => h, fun hnot => absurd hpath hnot⟩,
        fun h => h.misread hpath hwhole⟩
  · exact ⟨fun h => ⟨fun hw => absurd hw.toOrdinary hpath, fun hord => absurd hord hpath, fun _ => h⟩,
      fun h => h.odd hpath⟩

def fullAccess (principal : Principal) : Ace where
  principal := principal
  rights := [['F']]
  ne := List.cons_ne_nil _ _
  plain := List.forall_mem_singleton.mpr (List.forall_mem_singleton.mpr (by decide))

def onlyAce (path : Text) (principal : Principal) : Report :=
  ⟨path, fullAccess principal, [], 0, [], List.forall_mem_nil _⟩

def alice : Principal where
  text := "alice".toList
  ne := by decide
  oneDomain := by decide
  trimmed := by decide
  oneLine := List.all_iff_forall_prop.mp (by decide)
  plain := by decide

/-- A user whose name ends with another user's. -/
def malice : Principal where
  text := "CORP\\mal alice".toList
  ne := by decide
  oneDomain := by decide
  trimmed := by decide
  oneLine := List.all_iff_forall_prop.mp (by decide)
  plain := by decide

/-- A file of the owner in a folder with parentheses in its name is destroyed, and a file that another
user has full access to is let through. -/
theorem judges_counterexample :
    ¬Judges ⟨.basic, true, true, id⟩ ["alice".toList]
        (onlyAce "C:\\Program Files (x86)\\key".toList alice) ∧
      ¬Judges ⟨.basic, true, true, id⟩ ["alice".toList] (onlyAce "C:\\key".toList malice) := by
  constructor
  · intro h
    have howner : OwnerOnly .basic ["alice".toList] ["alice".toList] := by
      refine ⟨fun principal hmem => ?_, fun first hfirst second hsecond hclash => ?_⟩
      · obtain rfl := List.mem_singleton.mp hmem
        exact ⟨_, List.mem_singleton.mpr rfl, by decide, rfl⟩
      · obtain rfl := List.mem_singleton.mp hfirst
        obtain rfl := List.mem_singleton.mp hsecond
        exact hclash.2 rfl
    have htrue := h.verdict.mpr howner
    revert htrue
    decide +kernel
  · intro h
    have htrue : daclIsOwnerOnly .basic (onlyAce "C:\\key".toList malice).output
        ["alice".toList] = true := by decide +kernel
    obtain ⟨ident, hident, -, heq⟩ := (h.verdict.mp htrue).1 _ List.mem_cons_self
    obtain rfl := List.mem_singleton.mp hident
    revert heq
    decide +kernel

end Verdict

end SkyClaw.Security.FilePermissions
