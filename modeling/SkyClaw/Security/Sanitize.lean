import SkyClaw.Lib.PyRe

/-!
# Sanitizing text for a prompt

`sanitize_for_prompt` maps homoglyphs, normalizes, strips invisible characters, removes the
injection delimiters of the policy in at most ten passes and truncates.
`sanitizeForPrompt_clean_and_stable` says what its result is free of and when it is a fixed
point; `sanitizeForPrompt_leaves_work` has texts on which it is neither clean nor stable.
-/

namespace SkyClaw.Security.Sanitize

open Regex PyRe

/-! ## Homoglyphs and invisible characters -/

def homoglyphMap : List (Char × Char) :=
  [ ('\u0430', 'a'), ('\u0435', 'e'), ('\u043e', 'o'), ('\u0440', 'p'), ('\u0441', 'c'),
    ('\u0445', 'x'), ('\u0456', 'i'), ('\u0458', 'j'), ('\u043a', 'k'), ('\u051b', 'q'),
    ('\u0455', 's'), ('\u051d', 'w'), ('\u0443', 'y'), ('\u044a', '\''), ('\u044c', '\''),
    ('\u0410', 'A'), ('\u0415', 'E'), ('\u041e', 'O'), ('\u0420', 'P'), ('\u0421', 'C'),
    ('\u0425', 'X'), ('\u0406', 'I'), ('\u03bf', 'o'), ('\u03c1', 'p'), ('\u03c2', 's'),
    ('\u03c5', 'u'), ('\u03c7', 'x'), ('\u039f', 'O'), ('\u03a1', 'P'), ('\u03a7', 'X') ]

/-- `_CONFUSABLE_SCRIPT_RE`: the Cyrillic and Greek blocks. -/
def isConfusable (c : Char) : Bool :=
  range '\u0400' '\u04ff' c || range '\u0370' '\u03ff' c

def replaceToken (token : List Char) : List Char :=
  if token.any asciiAlnum && token.any isConfusable then
    token.map fun c => (homoglyphMap.lookup c).getD c
  else token

/-- `_WORD_TOKEN_RE.sub(replace, text)`, with the word read so far reversed. -/
def replaceWords (isWord : Char → Bool) (replace : List Char → List Char) :
    List Char → List Char → List Char
  | token, [] => replace token.reverse
  | token, c :: rest =>
      if isWord c then replaceWords isWord replace (c :: token) rest
      else replace token.reverse ++ c :: replaceWords isWord replace [] rest

variable (u : Unicode)

def canonicalizeHomoglyphs (text : List Char) : List Char :=
  replaceWords u.isWord replaceToken [] text

def stripUnicodeFormatControls (text : List Char) : List Char :=
  text.filter fun c => !u.isFormat c

/-- `_CONTROL_CHAR_RE`. -/
def isControlChar (c : Char) : Bool :=
  range '\x00' '\x08' c || c == '\x0b' || c == '\x0c' || range '\x0e' '\x1f' c || c == '\x7f'

/-- `injection_patterns` of `security_policy.yaml`, in order; all of them are literal. -/
def policyPatterns : List String :=
  [ "<|", "|>", "<<SYS>>", "<</SYS>>", "[INST]", "[/INST]", "[SYSTEM]", "\x7bsystem\x7d",
    "\n\nHuman:", "\n\nAssistant:", "<human>", "</human>", "<assistant>", "</assistant>",
    "<tool_use>", "</tool_use>", "<tool_call>", "</tool_call>", "<function_call>",
    "</function_call>", "<tool_result>", "</tool_result>", "<|endoftext|>", "<|im_start|>",
    "<|im_end|>", "<|pad|>", "<|diff_marker|>" ]

def injectionPatterns : Regex Char := oneOf (policyPatterns.map word)

/-- The removal loop, with so many passes left. -/
def removalLoop (patterns : Regex Char) : Nat → List Char → List Char
  | 0, text => text
  | passes + 1, text =>
      let cleaned := remove patterns text
      if cleaned = text then text else removalLoop patterns passes cleaned

def maxPasses : Nat := 10

/-- `text[:n]`. -/
def slice (n : Int) (text : List Char) : List Char :=
  if 0 ≤ n then text.take n.toNat else text.take (text.length - (-n).toNat)

/-- `suffix`. -/
def truncationSuffix : List Char := "... [truncated]".toList

def truncate (maxLength : Int) (text : List Char) : List Char :=
  if maxLength < (text.length : Int) then
    if (truncationSuffix.length : Int) < maxLength then
      slice (maxLength - truncationSuffix.length) text ++ truncationSuffix
    else slice maxLength text
  else text

/-- The text before the removal of delimiters. -/
def visibleText (stripControl : Bool) (text : List Char) : List Char :=
  let text := stripUnicodeFormatControls u (u.nfkc (canonicalizeHomoglyphs u text))
  if stripControl then text.filter fun c => !isControlChar c else text

def sanitizeForPrompt (text : List Char) (maxLength : Int) (stripControl : Bool) : List Char :=
  truncate maxLength (removalLoop injectionPatterns maxPasses (visibleText u stripControl text))

theorem injectionPatterns_looksBackOnly : Atomwise LooksBackOnly injectionPatterns := by
  refine atomwise_oneOf trivial fun r hr => ?_
  obtain ⟨text, _, rfl⟩ := List.mem_map.mp hr
  exact atomwise_word fun _ _ => trivial

theorem injectionPatterns_avoids_dot : Atomwise (Avoids '.') injectionPatterns := by
  have hnone : Avoids '.' (char fun _ => false) := rfl
  refine atomwise_oneOf hnone fun r hr => ?_
  obtain ⟨text, htext, rfl⟩ := List.mem_map.mp hr
  have hdot : ∀ text ∈ policyPatterns,
      text.toList.all (fun p => caseless p '.' = false) := by decide
  refine atomwise_word fun p hp => ?_
  have hplain : caseless p '.' = false :=
    of_decide_eq_true (List.all_eq_true.mp (hdot text htext) p hp)
  exact hplain

theorem contains_append_suffix (text : List Char) :
    contains injectionPatterns (text ++ truncationSuffix) = contains injectionPatterns text := by
  have hsuffix : truncationSuffix = '.' :: ".. [truncated]".toList := by decide
  have hrest : contains injectionPatterns ".. [truncated]".toList = false := by decide
  rw [hsuffix, contains_append_cons injectionPatterns_avoids_dot, hrest, Bool.or_false]

theorem removalLoop_eq_iterate (patterns : Regex Char) (passes : Nat) (text : List Char) :
    removalLoop patterns passes text = (remove patterns)^[passes] text := by
  induction passes generalizing text with
  | zero => rfl
  | succ passes ih =>
      unfold removalLoop
      by_cases hrest : remove patterns text = text
      · rw [if_pos hrest, Function.iterate_fixed hrest]
      · rw [if_neg hrest, ih, Function.iterate_succ_apply]

theorem removalLoop_sublist (patterns : Regex Char) (passes : Nat) (text : List Char) :
    (removalLoop patterns passes text).Sublist text := by
  induction passes generalizing text with
  | zero => exact List.Sublist.refl text
  | succ passes ih =>
      unfold removalLoop
      by_cases hrest : remove patterns text = text
      · rw [if_pos hrest]
      · rw [if_neg hrest]
        exact (ih _).trans (remove_sublist patterns text)

theorem removalLoop_of_not_contains {patterns : Regex Char} {passes : Nat} {text : List Char}
    (h : contains patterns text = false) : removalLoop patterns passes text = text := by
  rw [removalLoop_eq_iterate]
  exact Function.iterate_fixed (removeFrom_of_not_contains h) passes

variable {maxLength : Int}

theorem truncate_of_length_le {text : List Char}
    (h : (text.length : Int) ≤ maxLength) : truncate maxLength text = text := by
  rw [truncate, if_neg (by omega)]

theorem slice_of_nonneg {n : Int} (hn : 0 ≤ n) (text : List Char) :
    slice n text = text.take n.toNat := by
  rw [slice, if_pos hn]

theorem truncate_length_le (hmax : 0 ≤ maxLength) (text : List Char) :
    ((truncate maxLength text).length : Int) ≤ maxLength := by
  unfold truncate
  split_ifs with hlong hsuffix
  · rw [slice_of_nonneg (by omega), List.length_append, List.length_take]
    omega
  · rw [slice_of_nonneg hmax, List.length_take]
    omega
  · omega

theorem contains_of_contains_truncate (hmax : 0 ≤ maxLength)
    {text : List Char} (h : contains injectionPatterns (truncate maxLength text) = true) :
    contains injectionPatterns text = true := by
  unfold truncate at h
  split_ifs at h with hlong hsuffix
  · rw [contains_append_suffix, slice_of_nonneg (by omega)] at h
    exact contains_of_take injectionPatterns_looksBackOnly h
  · rw [slice_of_nonneg hmax] at h
    exact contains_of_take injectionPatterns_looksBackOnly h
  · exact h

variable {c : Char}

theorem mem_truncate {text : List Char}
    (h : c ∈ truncate maxLength text) : c ∈ text ∨ c ∈ truncationSuffix := by
  unfold truncate slice at h
  split_ifs at h
  · exact (List.mem_append.mp h).imp_left List.mem_of_mem_take
  · exact (List.mem_append.mp h).imp_left List.mem_of_mem_take
  · exact .inl (List.mem_of_mem_take h)
  · exact .inl (List.mem_of_mem_take h)
  · exact .inl h

/-! ## Clean and stable -/

variable {u}

theorem mem_visibleText {strip : Bool} {text : List Char}
    (h : c ∈ visibleText u strip text) :
    u.isFormat c = false ∧ (strip = true → isControlChar c = false) := by
  unfold visibleText stripUnicodeFormatControls at h
  cases strip with
  | true =>
      obtain ⟨hformat, hcontrol⟩ := List.mem_filter.mp h
      have hkept := (List.mem_filter.mp hformat).2
      exact ⟨by simpa using hkept, fun _ => by simpa using hcontrol⟩
  | false =>
      have hkept := (List.mem_filter.mp h).2
      exact ⟨by simpa using hkept, fun hstrip => absurd hstrip Bool.false_ne_true⟩

theorem mem_sanitizeForPrompt {text : List Char} {strip : Bool}
    (h : c ∈ sanitizeForPrompt u text maxLength strip) :
    u.isFormat c = false ∧ (strip = true → isControlChar c = false) := by
  rcases mem_truncate h with h | h
  · exact mem_visibleText ((removalLoop_sublist _ _ _).subset h)
  · have hplain : truncationSuffix.all fun c => c.toNat < 128 ∧ isControlChar c = false := by decide
    obtain ⟨hascii, hcontrol⟩ := of_decide_eq_true (List.all_eq_true.mp hplain c h)
    exact ⟨u.isFormat_ascii c hascii, fun _ => hcontrol⟩

theorem visibleText_of_stable {strip : Bool} {text : List Char}
    (hletters : canonicalizeHomoglyphs u text = text) (hnfkc : u.nfkc text = text)
    (hvisible : ∀ c ∈ text, u.isFormat c = false ∧ (strip = true → isControlChar c = false)) :
    visibleText u strip text = text := by
  have hformat : stripUnicodeFormatControls u text = text :=
    List.filter_eq_self.mpr fun c hc => by rw [(hvisible c hc).1]; rfl
  unfold visibleText
  rw [hletters, hnfkc, hformat]
  cases strip with
  | false => rfl
  | true => exact List.filter_eq_self.mpr fun c hc => by rw [(hvisible c hc).2 rfl]; rfl

variable (u)

/-- **Clean and stable.**  If no delimiter is left after ten passes, none is in the result.
The result fits the length, has no format or control characters, and is returned as it is if
it has no delimiter and neither the homoglyph map nor the normalization changes it. -/
theorem sanitizeForPrompt_clean_and_stable (text : List Char) (maxLength : Int)
    (hmax : 0 ≤ maxLength) (strip : Bool) :
    (contains injectionPatterns
        ((remove injectionPatterns)^[maxPasses] (visibleText u strip text)) = false →
      contains injectionPatterns (sanitizeForPrompt u text maxLength strip) = false) ∧
    ((sanitizeForPrompt u text maxLength strip).length : Int) ≤ maxLength ∧
    (∀ c ∈ sanitizeForPrompt u text maxLength strip,
      u.isFormat c = false ∧ (strip = true → isControlChar c = false)) ∧
    (contains injectionPatterns (sanitizeForPrompt u text maxLength strip) = false →
      canonicalizeHomoglyphs u (sanitizeForPrompt u text maxLength strip) =
        sanitizeForPrompt u text maxLength strip →
      u.nfkc (sanitizeForPrompt u text maxLength strip) =
        sanitizeForPrompt u text maxLength strip →
      sanitizeForPrompt u (sanitizeForPrompt u text maxLength strip) maxLength strip =
        sanitizeForPrompt u text maxLength strip) := by
  have hlength : ((sanitizeForPrompt u text maxLength strip).length : Int) ≤ maxLength :=
    truncate_length_le hmax _
  refine ⟨?_, hlength, fun c hc => mem_sanitizeForPrompt hc, ?_⟩
  · intro hrest
    rw [Bool.eq_false_iff]
    intro h
    have hloop := contains_of_contains_truncate hmax h
    rw [removalLoop_eq_iterate, hrest] at hloop
    exact Bool.false_ne_true hloop
  · generalize hout : sanitizeForPrompt u text maxLength strip = out at hlength ⊢
    intro hclean hletters hnfkc
    have hvisible : visibleText u strip out = out :=
      visibleText_of_stable hletters hnfkc fun c hc => mem_sanitizeForPrompt (hout.symm ▸ hc)
    unfold sanitizeForPrompt
    rw [hvisible, removalLoop_of_not_contains hclean, truncate_of_length_le hlength]

theorem sanitizeForPrompt_nested :
    contains injectionPatterns
        (sanitizeForPrompt Unicode.basic "[IN[INST]ST]go".toList 8192 true) = false ∧
      sanitizeForPrompt Unicode.basic
          (sanitizeForPrompt Unicode.basic "[IN[INST]ST]go".toList 8192 true) 8192 true =
        sanitizeForPrompt Unicode.basic "[IN[INST]ST]go".toList 8192 true := by
  have h := sanitizeForPrompt_clean_and_stable Unicode.basic "[IN[INST]ST]go".toList 8192
    (by decide) true
  have hclean := h.1 (by decide)
  exact ⟨hclean, h.2.2.2 hclean (by decide) rfl⟩

/-- Eleven nested delimiters outlast the ten passes, a letter that a zero-width character
kept apart is mapped the second time, and a negative length cuts the end off each time. -/
theorem sanitizeForPrompt_leaves_work :
    contains injectionPatterns (sanitizeForPrompt Unicode.basic
        (List.replicate 11 '<' ++ List.replicate 11 '|') 8192 true) = true ∧
      sanitizeForPrompt Unicode.basic ['a', '\u200b', '\u0430'] 8192 true = ['a', '\u0430'] ∧
      sanitizeForPrompt Unicode.basic ['a', '\u0430'] 8192 true = ['a', 'a'] ∧
      sanitizeForPrompt Unicode.basic ['a', 'b'] (-1) true = ['a'] ∧
      sanitizeForPrompt Unicode.basic ['a'] (-1) true = [] := by
  decide

end SkyClaw.Security.Sanitize
