import SkyClaw.Lib.PyRe
import Mathlib.Data.Rat.Defs

/-!
# The text inspector

`TextInspector` looks for phrases of prompt injection and for suspicious characters.
-/

namespace SkyClaw.Security.TextInspector

open Regex PyRe

inductive Severity
  | low
  | medium
  | high
  | critical
deriving DecidableEq, Repr

/-- A row of `INJECTION_PATTERNS` or `SUSPICIOUS_UNICODE`. -/
structure Pattern where
  regex : Regex Char
  desc : String
  severity : Severity

/-- A finding of a scanner. -/
structure Finding where
  message : String
  line : Nat
  severity : Severity
  confidence : ℚ
  file : String

variable (u : Unicode)

def injectionPatterns : List Pattern :=
  [ { regex := sequence [word "ignore", spaces1, opt (seq (word "all") spaces1),
        oneOf [word "previous", word "prior"], spaces1, word "instructions"]
      desc := "Bypass de instrucciones previas"
      severity := .critical },
    { regex := sequence [word "system", spaces, word "prompt:"]
      desc := "Intento de sobrescritura de prompt de sistema"
      severity := .high },
    { regex := sequence [word "[",
        oneOf [word "INST", seq (word "INST") (boundary u.isWord), word "/INST"], word "]"]
      desc := "Patrón de instrucción de modelo (Llama/Mistral style)"
      severity := .high },
    { regex := word "!system"
      desc := "Directiva de sistema inyectada"
      severity := .critical },
    { regex := sequence [word "forgotten", spaces, word "your", spaces, word "previous", spaces,
        word "commands"]
      desc := "Técnica de amnesia forzada de prompt"
      severity := .medium },
    { regex := sequence [word "as", spaces, word "a", spaces, word "developer", spaces,
        word "you", spaces, word "must"]
      desc := "Ingeniería social de rol (Jailbreak style)"
      severity := .medium },
    { regex := sequence [word "print", spaces1, opt (seq (word "the") spaces1),
        opt (oneOf [word "entire", word "full"]), spaces,
        oneOf [word "prompt", sequence [word "initial", spaces, word "instruction"]]]
      desc := "Intento de extracción de prompt"
      severity := .high } ]

def suspiciousUnicode : List Pattern :=
  [ { regex := char fun c => range '\u200b' '\u200d' c || c == '\u2060' || c == '\ufeff'
      desc := "Caracteres invisibles detectados (Posible esteganografía)"
      severity := .medium },
    { regex := char (anyOf "\u0430\u0435\u043e\u0440\u0441\u0443\u0445")
      desc := "Homoglifos cirílicos detectados en texto latino"
      severity := .low } ]

def fragmentFindings (table : List Pattern) (label : String) (confidence : ℚ)
    (filename : String) (fragment : List Char) : List Finding :=
  table.flatMap fun pattern =>
    (positions pattern.regex fragment).map fun start =>
      { message := label ++ pattern.desc
        line := (fragment.take start).count '\n' + 1
        severity := pattern.severity
        confidence := confidence
        file := filename }

/-- Findings of one kind in one file are reported once. -/
def dedupe : List (String × Severity × String) → List Finding → List Finding
  | _, [] => []
  | seen, f :: rest =>
      if (f.message, f.severity, f.file) ∈ seen then dedupe seen rest
      else f :: dedupe ((f.message, f.severity, f.file) :: seen) rest

/-- The parts of a text that are inspected: all of it, or its start and its end. -/
def fragments (maxChars : Nat) (content : List Char) : List (List Char) :=
  if content.length ≤ maxChars then [content]
  else
    let half := maxChars / 2
    [content.take half, if half = 0 then content else content.drop (content.length - half)]

def inspect (maxChars : Nat) (content : List Char) (filename : String) : List Finding :=
  dedupe [] <| (fragments maxChars content).flatMap fun fragment =>
    fragmentFindings (injectionPatterns u) "Posible Indirect Prompt Injection: " (85 / 100)
        filename fragment ++
      fragmentFindings suspiciousUnicode "Anomalía de texto: " (7 / 10) filename fragment

def scanText (content : List Char) (filename : String) : List Finding :=
  inspect u 10240 content filename

/-! ## What is found -/

/-- The patterns of both tables. -/
def patterns : List Pattern := injectionPatterns u ++ suspiciousUnicode

theorem patterns_takes : ∀ pattern ∈ patterns u, Takes (fun _ => True) pattern.regex := by
  have hword : ∀ text ∈ ["ignore", "system", "[", "!system", "forgotten", "as", "print"],
      Takes (fun _ => True) (word text) := by
    have hne : ∀ text ∈ ["ignore", "system", "[", "!system", "forgotten", "as", "print"],
        text.toList ≠ [] := by decide
    exact fun text htext => takes_word (hne text htext)
  simp only [List.forall_mem_cons] at hword
  obtain ⟨hignore, hsystem, hbracket, hdirective, hforgotten, has, hprint, _⟩ := hword
  intro pattern hpattern
  rcases List.mem_append.mp hpattern with h | h
  · simp only [injectionPatterns, List.mem_cons, List.not_mem_nil, or_false] at h
    rcases h with rfl | rfl | rfl | rfl | rfl | rfl | rfl
    · exact takes_sequence List.mem_cons_self hignore
    · exact takes_sequence List.mem_cons_self hsystem
    · exact takes_sequence List.mem_cons_self hbracket
    · exact hdirective
    · exact takes_sequence List.mem_cons_self hforgotten
    · exact takes_sequence List.mem_cons_self has
    · exact takes_sequence List.mem_cons_self hprint
  · simp only [suspiciousUnicode, List.mem_cons, List.not_mem_nil, or_false] at h
    rcases h with rfl | rfl
    · exact fun _ _ => trivial
    · exact fun _ _ => trivial

variable {P : Severity → Prop}

/-- Dropping repeated findings drops no severity. -/
theorem exists_mem_dedupe_iff {seen : List (String × Severity × String)}
    {findings : List Finding} :
    (∃ f ∈ dedupe seen findings, P f.severity) ↔
      ∃ f ∈ findings, (f.message, f.severity, f.file) ∉ seen ∧ P f.severity := by
  induction findings generalizing seen with
  | nil => simp [dedupe]
  | cons g rest ih =>
      unfold dedupe
      by_cases hseen : (g.message, g.severity, g.file) ∈ seen
      · rw [if_pos hseen, ih]
        simp [hseen]
      · rw [if_neg hseen]
        rw [List.exists_mem_cons_iff, List.exists_mem_cons_iff, ih]
        simp only [List.mem_cons, not_or]
        constructor
        · rintro (h | ⟨f, hf, ⟨_, hnew⟩, h⟩)
          · exact .inl ⟨hseen, h⟩
          · exact .inr ⟨f, hf, hnew, h⟩
        · rintro (⟨_, h⟩ | ⟨f, hf, hnew, h⟩)
          · exact .inl h
          · by_cases hsame : (f.message, f.severity, f.file) = (g.message, g.severity, g.file)
            · rw [Prod.mk.injEq, Prod.mk.injEq] at hsame
              exact .inl (hsame.2.1 ▸ h)
            · exact .inr ⟨f, hf, ⟨hsame, hnew⟩, h⟩

theorem exists_mem_fragmentFindings_iff {table : List Pattern}
    (htakes : ∀ pattern ∈ table, Takes (fun _ => True) pattern.regex) {label : String}
    {confidence : ℚ} {filename : String} {fragment : List Char} :
    (∃ f ∈ fragmentFindings table label confidence filename fragment, P f.severity) ↔
      ∃ pattern ∈ table, P pattern.severity ∧ contains pattern.regex fragment = true := by
  constructor
  · rintro ⟨f, hf, hP⟩
    obtain ⟨pattern, hpattern, hf⟩ := List.mem_flatMap.mp hf
    obtain ⟨start, hstart, rfl⟩ := List.mem_map.mp hf
    refine ⟨pattern, hpattern, hP, ?_⟩
    rw [← Bool.not_eq_false, ← positions_eq_nil_iff (htakes pattern hpattern)]
    exact List.ne_nil_of_mem hstart
  · rintro ⟨pattern, hpattern, hP, hfound⟩
    rw [← Bool.not_eq_false, ← positions_eq_nil_iff (htakes pattern hpattern)] at hfound
    obtain ⟨start, hstart⟩ := List.exists_mem_of_ne_nil _ hfound
    exact ⟨_, List.mem_flatMap.mpr ⟨pattern, hpattern, List.mem_map_of_mem hstart⟩, hP⟩

/-- **Spec of `inspect`.**  A severity is reported exactly when a pattern of it has a match in
an inspected fragment. -/
theorem exists_mem_inspect_iff {maxChars : Nat} {content : List Char}
    {filename : String} :
    (∃ f ∈ inspect u maxChars content filename, P f.severity) ↔
      ∃ fragment ∈ fragments maxChars content, ∃ pattern ∈ patterns u,
        P pattern.severity ∧ contains pattern.regex fragment = true := by
  have hinjection : ∀ pattern ∈ injectionPatterns u, Takes (fun _ => True) pattern.regex :=
    fun pattern h => patterns_takes u pattern (List.mem_append_left _ h)
  have hsuspicious : ∀ pattern ∈ suspiciousUnicode, Takes (fun _ => True) pattern.regex :=
    fun pattern h => patterns_takes u pattern (List.mem_append_right _ h)
  unfold inspect
  rw [exists_mem_dedupe_iff]
  simp only [List.not_mem_nil, not_false_eq_true, true_and, List.mem_flatMap]
  constructor
  · rintro ⟨f, ⟨fragment, hfragment, hf⟩, hP⟩
    refine ⟨fragment, hfragment, ?_⟩
    rcases List.mem_append.mp hf with hf | hf
    · obtain ⟨pattern, hpattern, h⟩ :=
        (exists_mem_fragmentFindings_iff hinjection).mp ⟨f, hf, hP⟩
      exact ⟨pattern, List.mem_append_left _ hpattern, h⟩
    · obtain ⟨pattern, hpattern, h⟩ :=
        (exists_mem_fragmentFindings_iff hsuspicious).mp ⟨f, hf, hP⟩
      exact ⟨pattern, List.mem_append_right _ hpattern, h⟩
  · rintro ⟨fragment, hfragment, pattern, hpattern, h⟩
    rcases List.mem_append.mp hpattern with hpattern | hpattern
    · obtain ⟨f, hf, hP⟩ :=
        (exists_mem_fragmentFindings_iff hinjection).mpr ⟨pattern, hpattern, h⟩
      exact ⟨f, ⟨fragment, hfragment, List.mem_append_left _ hf⟩, hP⟩
    · obtain ⟨f, hf, hP⟩ :=
        (exists_mem_fragmentFindings_iff hsuspicious).mpr ⟨pattern, hpattern, h⟩
      exact ⟨f, ⟨fragment, hfragment, List.mem_append_right _ hf⟩, hP⟩

end SkyClaw.Security.TextInspector
