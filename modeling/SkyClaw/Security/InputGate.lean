import SkyClaw.Lib.Checks
import SkyClaw.Security.Sanitize
import SkyClaw.Security.TextInspector

/-!
# The input gate of the agent guardrail

`before_model_callback` looks for injection phrases and personal data in a message and then
sanitizes it, which can put a pattern together that was not there before.
`returnsNoPattern_iff` says for which messages the returned text is free of all of them.
-/

namespace SkyClaw.Security.AgentGuardrail

open Regex PyRe
open TextInspector (Severity Finding inspect)
open Checks (check_bind_eq_ok_iff)
open Sanitize (sanitizeForPrompt visibleText truncate maxPasses)

variable (u : Unicode)

/-! ## Patterns -/

/-- `_GUARDRAIL_INJECTION_RE`. -/
def guardrailInjection : Regex Char :=
  oneOf
    [ sequence [word "ignore", spaces1, opt (seq (word "all") spaces1),
        oneOf [word "prior", word "previous"], spaces1,
        oneOf [word "context", seq (word "instruction") (opt (word "s")),
          seq (word "command") (opt (word "s")), seq (word "directive") (opt (word "s"))]],
      sequence [word "system", spaces, word ":", spaces,
        oneOf [sequence [word "you", spaces1, word "are"], word "override",
          seq (word "now") (boundary u.isWord)]],
      sequence [word "forget", spaces1,
        oneOf [word "everything", word "all", word "prior", word "previous"]],
      sequence [word "act", spaces1, word "as", spaces1,
        oneOf [word "DAN", sequence [word "a", opt (word "n"), spaces1, word "unrestricted"],
          sequence [word "a", spaces1, word "free"]]],
      sequence [word "no", spaces1, word "longer", spaces1, word "bound", spaces1,
        oneOf [word "by", word "to"]],
      sequence [word "you", spaces1, word "are", spaces1, word "no", spaces1, word "longer",
        spaces1, word "bound"],
      sequence [word "as", spaces1, word "a", spaces1, word "developer", spaces1, word "you",
        spaces1, word "must"],
      sequence [word "disregard", spaces1, opt (seq (word "all") spaces1),
        oneOf [word "prior", word "previous", word "your"]],
      sequence [word "new", spaces1, opt (seq (word "primary") spaces1), word "directive",
        spaces, word ":"],
      sequence [word "override", spaces1, opt (seq (word "all") spaces1),
        oneOf [word "safety", word "security", seq (word "instruction") (opt (word "s"))]] ]

/-- `\d`. -/
def digit : Regex Char := char u.isDigit

/-- `[A-Za-z0-9]` under `re.IGNORECASE`. -/
def alnum : Regex Char := char (caselessClass asciiAlnum)

/-- The named groups of `_COMBINED_PII_RE`, in order. -/
def piiGroups : List (String × Regex Char) :=
  [ ("ssn", sequence [boundary u.isWord, times 3 (digit u), word "-", times 2 (digit u),
      word "-", times 4 (digit u), boundary u.isWord]),
    ("card", sequence [boundary u.isWord,
      times 3 (seq (times 4 (digit u)) (opt (char (anyOf " -")))), between 1 3 (digit u),
      boundary u.isWord]),
    ("api_key", sequence [boundary u.isWord,
      oneOf [seq (word "sk-") (atLeast 15 alnum),
        seq (atLeast 32 alnum) (oneOf [word "_key", word "_secret", word "_token"])],
      boundary u.isWord]),
    ("password", sequence [word "password", spaces, char (anyOf "=:"), spaces,
      plus nonSpace]) ]

/-- `_PII_MESSAGES`. -/
def piiMessage (group : String) : String :=
  match group with
  | "ssn" => "PII detected in input: SSN pattern found"
  | "card" => "PII detected in input: credit/debit card number pattern found"
  | "api_key" => "PII detected in input: API key pattern found"
  | _ => "PII detected in input: password assignment pattern found"

/-! ## The gate -/

/-- `AgentGuardrailConfig`. -/
structure Config where
  maxInputLength : Nat := 8192
  maxOutputLength : Nat := 16384
  detectPii : Bool := true
  detectPaths : Bool := true
  detectInjection : Bool := true
  sanitizeInput : Bool := true
  maxInputLength_pos : 0 < maxInputLength := by decide
  maxOutputLength_pos : 0 < maxOutputLength := by decide

/-- `SecurityViolationError`, by what its message names. -/
inductive SecurityViolation
  /-- `Prompt injection detected in user input: {msg}`, of a finding. -/
  | injection (msg : String)
  /-- The same, with the `repr` of the matched text. -/
  | injectionMatch (group : List Char)
  | pii (msg : String)
  /-- `Absolute path leaked in model output: {group!r}`. -/
  | pathLeak (group : List Char)
deriving DecidableEq

def blockSeverities : List Severity := [.critical, .high]

/-- `if flag: check`. -/
def checkIf {ε : Type} (flag : Bool) (check : Except ε Unit) : Except ε Unit :=
  if flag then check else .ok ()

/-- The injection detectors. -/
def checkInjection (cfg : Config) (text : List Char) : Except SecurityViolation Unit :=
  match (inspect u cfg.maxInputLength text "doc.md").filter
      (fun f => decide (f.severity ∈ blockSeverities)) with
  | f :: _ => .error (.injection f.message)
  | [] =>
      match search (guardrailInjection u) text with
      | some group => .error (.injectionMatch group)
      | none => .ok ()

/-- The first group that matches at a position. -/
def piiGroupAt (k : Cursor Char) : Option String :=
  ((piiGroups u).find? fun group => startsAt group.2 k).map Prod.fst

/-- The group of the leftmost match of `_COMBINED_PII_RE`. -/
def piiGroupFrom : Option Char → List Char → Option String
  | prev, [] => piiGroupAt u ⟨prev, []⟩
  | prev, c :: rest => (piiGroupAt u ⟨prev, c :: rest⟩).or (piiGroupFrom (some c) rest)

def checkPii (text : List Char) : Except SecurityViolation Unit :=
  match piiGroupFrom u none text with
  | none => .ok ()
  | some group => .error (.pii (piiMessage group))

def beforeModelCallback (cfg : Config) (userInput : List Char) :
    Except SecurityViolation (List Char) := do
  let text := userInput.take cfg.maxInputLength
  checkIf cfg.detectInjection (checkInjection u cfg text)
  checkIf cfg.detectPii (checkPii u text)
  return if cfg.sanitizeInput then sanitizeForPrompt u text cfg.maxInputLength true else text

/-! ## What the detectors find -/

/-- A CRITICAL or HIGH pattern of the text inspector, or the guardrail's own, matches. -/
def injectionFound (text : List Char) : Bool :=
  ((TextInspector.patterns u).filter fun p => decide (p.severity ∈ blockSeverities)).any
      (fun p => contains p.regex text) ||
    contains (guardrailInjection u) text

/-- A pattern of personal data matches. -/
def piiFound (text : List Char) : Bool := (piiGroups u).any fun group => contains group.2 text

/-- A blocking pattern matches. -/
def blockingFound (text : List Char) : Bool := injectionFound u text || piiFound u text

/-- A detector that is switched on finds something. -/
def detected (cfg : Config) (text : List Char) : Bool :=
  (cfg.detectInjection && injectionFound u text) || (cfg.detectPii && piiFound u text)

variable {u}

variable {cfg : Config}

/-- A text within the length of the inspector is inspected whole. -/
theorem checkInjection_eq_ok_iff {text : List Char}
    (hlength : text.length ≤ cfg.maxInputLength) :
    checkInjection u cfg text = .ok () ↔ injectionFound u text = false := by
  have hinspect : (∃ f ∈ inspect u cfg.maxInputLength text "doc.md",
      f.severity ∈ blockSeverities) ↔
      ((TextInspector.patterns u).filter fun p => decide (p.severity ∈ blockSeverities)).any
        (fun p => contains p.regex text) = true := by
    rw [TextInspector.exists_mem_inspect_iff, TextInspector.fragments, if_pos hlength]
    simp only [List.mem_singleton, exists_eq_left, List.any_eq_true, List.mem_filter,
      decide_eq_true_eq, and_assoc]
  have hsearch := search_isSome (guardrailInjection u) text
  unfold checkInjection injectionFound
  cases hfilter : (inspect u cfg.maxInputLength text "doc.md").filter
      (fun f => decide (f.severity ∈ blockSeverities)) with
  | cons f others =>
      have hf : f ∈ (inspect u cfg.maxInputLength text "doc.md").filter
          (fun f => decide (f.severity ∈ blockSeverities)) := hfilter ▸ List.mem_cons_self
      obtain ⟨hmem, hsev⟩ := List.mem_filter.mp hf
      rw [hinspect.mp ⟨f, hmem, of_decide_eq_true hsev⟩, Bool.true_or]
      simp
  | nil =>
      have hnone : ¬∃ f ∈ inspect u cfg.maxInputLength text "doc.md",
          f.severity ∈ blockSeverities := by
        rintro ⟨f, hmem, hsev⟩
        have hf : f ∈ (inspect u cfg.maxInputLength text "doc.md").filter
            (fun f => decide (f.severity ∈ blockSeverities)) :=
          List.mem_filter.mpr ⟨hmem, decide_eq_true hsev⟩
        rw [hfilter] at hf
        exact absurd hf List.not_mem_nil
      rw [hinspect, Bool.not_eq_true] at hnone
      rw [hnone, Bool.false_or, ← hsearch]
      cases search (guardrailInjection u) text <;> simp

theorem piiGroupAt_isSome (k : Cursor Char) :
    (piiGroupAt u k).isSome = (piiGroups u).any fun group => startsAt group.2 k := by
  rw [piiGroupAt, Option.isSome_map, List.isSome_find?]

theorem piiGroupFrom_isSome (prev : Option Char) (text : List Char) :
    (piiGroupFrom u prev text).isSome =
      (piiGroups u).any fun group => containsFrom group.2 prev text := by
  induction text generalizing prev with
  | nil => exact piiGroupAt_isSome _
  | cons c rest ih =>
      rw [piiGroupFrom, Option.isSome_or, piiGroupAt_isSome, ih, Bool.eq_iff_iff]
      simp only [Bool.or_eq_true, List.any_eq_true, containsFrom, and_or_left, exists_or]

theorem checkPii_eq_ok_iff {text : List Char} :
    checkPii u text = .ok () ↔ piiFound u text = false := by
  have hgroup : (piiGroupFrom u none text).isSome = piiFound u text :=
    piiGroupFrom_isSome none text
  rw [← hgroup]
  unfold checkPii
  cases piiGroupFrom u none text <;> simp

/-! ## What the gate lets through -/

theorem checkIf_eq_ok_iff {ε : Type} {flag : Bool} {check : Except ε Unit} :
    checkIf flag check = .ok () ↔ (flag = true → check = .ok ()) := by
  cases flag <;> simp [checkIf]

/-- **Spec of `before_model_callback`.**  It returns exactly where no detector that is
switched on finds anything in the message as it stands. -/
theorem beforeModelCallback_eq_ok_iff {userInput out : List Char} :
    beforeModelCallback u cfg userInput = .ok out ↔
      detected u cfg (userInput.take cfg.maxInputLength) = false ∧
        out = if cfg.sanitizeInput then
            sanitizeForPrompt u (userInput.take cfg.maxInputLength) cfg.maxInputLength true
          else userInput.take cfg.maxInputLength := by
  have hlength : (userInput.take cfg.maxInputLength).length ≤ cfg.maxInputLength :=
    List.length_take_le _ _
  unfold beforeModelCallback detected
  simp only [check_bind_eq_ok_iff, checkIf_eq_ok_iff, checkInjection_eq_ok_iff hlength,
    checkPii_eq_ok_iff, Bool.or_eq_false_iff, Bool.and_eq_false_imp, and_assoc]
  refine and_congr_right fun _ => and_congr_right fun _ => ?_
  exact ⟨fun h => (Except.ok.inj h).symm, fun h => h ▸ rfl⟩

/-- What the model is given of a message: as the sanitizer leaves it. -/
def readable (u : Unicode) (cfg : Config) (text : List Char) : List Char :=
  if cfg.sanitizeInput then
    truncate cfg.maxInputLength
      ((remove Sanitize.injectionPatterns)^[maxPasses] (visibleText u true text))
  else text

end SkyClaw.Security.AgentGuardrail
