import SkyClaw.Lib.RegexWords
import SkyClaw.Security.Sanitize

/-!
# Sanitizing line by line

Nothing that the sanitizer does to a text in front of a line end depends on what is behind it, except
for the removal of delimiters; and no delimiter reaches into a guard.  So a text is cleaned in parts
(`cleaned_guarded`).
-/

namespace SkyClaw.Security.Sanitize

open PyRe

/-- Nothing composes with a line end. -/
structure LineUnicode extends Unicode where
  nfkc_line : ∀ before after : List Char,
    nfkc (before ++ '\n' :: after) = nfkc before ++ '\n' :: nfkc after

def LineUnicode.basic : LineUnicode where
  toUnicode := Unicode.basic
  nfkc_line _ _ := rfl

variable (u : LineUnicode)

/-- The sanitized text before it is truncated. -/
def cleaned (text : List Char) : List Char :=
  removalLoop injectionPatterns maxPasses (visibleText u.toUnicode true text)

variable {u}

theorem sanitizeForPrompt_eq (text : List Char) (maxLength : Int) :
    sanitizeForPrompt u.toUnicode text maxLength true = truncate maxLength (cleaned u text) := rfl

/-! ## What is visible -/

theorem replaceWords_cons (isWord : Char → Bool) (replace : List Char → List Char)
    (token text : List Char) (c : Char) :
    replaceWords isWord replace token (c :: text) =
      if isWord c then replaceWords isWord replace (c :: token) text
      else replace token.reverse ++ c :: replaceWords isWord replace [] text := rfl

variable {isWord : Char → Bool}

theorem replaceWords_line (hline : isWord '\n' = false)
    (replace : List Char → List Char) (token before after : List Char) :
    replaceWords isWord replace token (before ++ '\n' :: after) =
      replaceWords isWord replace token before ++ '\n' :: replaceWords isWord replace [] after := by
  induction before generalizing token with
  | nil =>
      show replaceWords isWord replace token ('\n' :: after) = _
      rw [replaceWords_cons, hline]
      rfl
  | cons c before ih =>
      show replaceWords isWord replace token (c :: (before ++ '\n' :: after)) = _
      rw [replaceWords_cons, replaceWords_cons]
      split
      · exact ih (c :: token)
      · rw [ih, List.append_assoc]
        rfl

/-- Without letters of other scripts nothing is replaced. -/
theorem replaceWords_of_plain {token text : List Char}
    (htoken : ∀ c ∈ token, isConfusable c = false) (htext : ∀ c ∈ text, isConfusable c = false) :
    replaceWords isWord replaceToken token text = token.reverse ++ text := by
  have hkeep : ∀ token : List Char, (∀ c ∈ token, isConfusable c = false) →
      replaceToken token.reverse = token.reverse := by
    intro token htoken
    unfold replaceToken
    refine if_neg fun h => ?_
    obtain ⟨c, hc, hconfusable⟩ := List.any_eq_true.mp (Bool.and_eq_true_iff.mp h).2
    rw [htoken c (List.mem_reverse.mp hc)] at hconfusable
    cases hconfusable
  induction text generalizing token with
  | nil => exact (hkeep token htoken).trans (List.append_nil _).symm
  | cons c text ih =>
      have hc := htext c List.mem_cons_self
      have hrest := fun d hd => htext d (List.mem_cons_of_mem c hd)
      rw [replaceWords_cons]
      split
      · rw [ih (List.forall_mem_cons.mpr ⟨hc, htoken⟩) hrest, List.reverse_cons, List.append_assoc]
        rfl
      · rw [ih (List.forall_mem_nil _) hrest, hkeep token htoken]
        rfl

theorem canonicalizeHomoglyphs_of_plain {text : List Char}
    (h : ∀ c ∈ text, isConfusable c = false) : canonicalizeHomoglyphs u.toUnicode text = text :=
  replaceWords_of_plain (List.forall_mem_nil _) h

theorem visibleText_line (before after : List Char) :
    visibleText u.toUnicode true (before ++ '\n' :: after) =
      visibleText u.toUnicode true before ++ '\n' :: visibleText u.toUnicode true after := by
  have hword : u.isWord '\n' = false := (u.isWord_ascii '\n' (by decide)).trans (by decide)
  have hformat : (!u.isFormat '\n') = true := by
    rw [u.isFormat_ascii '\n' (by decide)]
    rfl
  have hcontrol : (!isControlChar '\n') = true := by decide
  have hvisible : ∀ text, visibleText u.toUnicode true text =
      ((u.nfkc (replaceWords u.isWord replaceToken [] text)).filter fun c => !u.isFormat c).filter
        fun c => !isControlChar c := fun text => rfl
  rw [hvisible, hvisible, hvisible, replaceWords_line hword, u.nfkc_line, List.filter_append,
    List.filter_cons_of_pos (p := fun c => !u.isFormat c) hformat, List.filter_append,
    List.filter_cons_of_pos (p := fun c => !isControlChar c) hcontrol]

theorem visibleText_of_ascii {text : List Char}
    (h : ∀ c ∈ text, c.toNat < 128 ∧ isControlChar c = false) :
    visibleText u.toUnicode true text = text := by
  refine visibleText_of_stable (canonicalizeHomoglyphs_of_plain fun c hc => ?_)
    (u.nfkc_ascii text fun c hc => (h c hc).1) fun c hc =>
      ⟨u.isFormat_ascii c (h c hc).1, fun _ => (h c hc).2⟩
  have hlt := (h c hc).1
  have hcyrillic : ¬ '\u0400' ≤ c := fun hle => by
    have hle' : (0x400 : Nat) ≤ c.toNat := hle
    omega
  have hgreek : ¬ '\u0370' ≤ c := fun hle => by
    have hle' : (0x370 : Nat) ≤ c.toNat := hle
    omega
  simp [isConfusable, range, hcyrillic, hgreek]

theorem visibleText_nil : visibleText u.toUnicode true [] = [] :=
  visibleText_of_ascii (List.forall_mem_nil _)

theorem visibleText_cons_line (after : List Char) :
    visibleText u.toUnicode true ('\n' :: after) = '\n' :: visibleText u.toUnicode true after := by
  rw [← List.nil_append ('\n' :: after), visibleText_line, visibleText_nil]
  rfl

theorem visibleText_concat_line (before : List Char) :
    visibleText u.toUnicode true (before ++ ['\n']) =
      visibleText u.toUnicode true before ++ ['\n'] := by
  rw [visibleText_line, visibleText_nil]

/-! ## Guards -/

/-- No delimiter of the policy reaches into it. -/
def Guarded (guard : List Char) : Prop := IsGuard (policyPatterns.map String.toList) guard

instance (guard : List Char) : Decidable (Guarded guard) :=
  inferInstanceAs (Decidable (IsGuard _ guard))

theorem removalLoop_guard {guard : List Char} (h : Guarded guard) (passes : Nat)
    (before after : List Char) :
    removalLoop injectionPatterns passes (before ++ (guard ++ after)) =
      removalLoop injectionPatterns passes before ++
        (guard ++ removalLoop injectionPatterns passes after) := by
  have hne : ∀ text ∈ policyPatterns, text.toList ≠ [] := by decide
  rw [removalLoop_eq_iterate, removalLoop_eq_iterate, removalLoop_eq_iterate]
  induction passes generalizing before after with
  | zero => rfl
  | succ passes ih =>
      have hpass := remove_guard hne h before after
      rw [Function.iterate_succ_apply, Function.iterate_succ_apply, Function.iterate_succ_apply, ← ih]
      exact congrArg _ hpass

/-- A guard of plain characters that stands on a line of its own. -/
structure Marker (tag : List Char) : Prop where
  guarded : Guarded tag
  plain : ∀ c ∈ tag, c.toNat < 128 ∧ isControlChar c = false

theorem cleaned_tag {tag : List Char} (h : Marker tag) (before after : List Char) :
    cleaned u (before ++ '\n' :: (tag ++ '\n' :: after)) =
      cleaned u (before ++ ['\n']) ++ (tag ++ cleaned u ('\n' :: after)) := by
  unfold cleaned
  rw [← removalLoop_guard h.guarded, visibleText_concat_line, visibleText_cons_line, visibleText_line,
    visibleText_line, visibleText_of_ascii h.plain, List.append_assoc]
  rfl

theorem cleaned_first_tag {tag : List Char} (h : Marker tag) (after : List Char) :
    cleaned u (tag ++ '\n' :: after) = tag ++ cleaned u ('\n' :: after) := by
  unfold cleaned
  rw [visibleText_line, visibleText_of_ascii h.plain, visibleText_cons_line]
  exact removalLoop_guard h.guarded maxPasses [] _

theorem cleaned_end_tag {tag : List Char} (hguard : Guarded ('\n' :: tag))
    (hplain : ∀ c ∈ tag, c.toNat < 128 ∧ isControlChar c = false) (before after : List Char) :
    cleaned u (before ++ '\n' :: (tag ++ '\n' :: after)) =
      cleaned u before ++ ('\n' :: tag ++ cleaned u ('\n' :: after)) := by
  unfold cleaned
  rw [← removalLoop_guard hguard, visibleText_cons_line, visibleText_line, visibleText_line,
    visibleText_of_ascii hplain]
  rfl

theorem cleaned_last_tag {tag : List Char} (hguard : Guarded ('\n' :: tag))
    (hplain : ∀ c ∈ tag, c.toNat < 128 ∧ isControlChar c = false) (before : List Char) :
    cleaned u (before ++ '\n' :: tag) = cleaned u before ++ '\n' :: tag := by
  unfold cleaned
  rw [visibleText_line, visibleText_of_ascii hplain]
  have hsplit := removalLoop_guard hguard maxPasses (visibleText u.toUnicode true before) []
  rw [List.append_nil] at hsplit
  have hempty : removalLoop injectionPatterns maxPasses [] = [] := by decide
  rw [hsplit, hempty, List.append_nil]

end SkyClaw.Security.Sanitize
