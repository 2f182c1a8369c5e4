import Mathlib.Data.List.Find
import SkyClaw.Lib.PyRe

/-!
# Removal of words

What `re.sub` leaves of a text when it removes caseless words.  No word reaches into a guard, from the
left or from within, so what is removed in front of it and behind it is removed independently
(`remove_guard`).
-/

namespace PyRe

open Regex

/-- A text starts with a word, in upper or in lower case. -/
def startsWord : List Char → List Char → Bool
  | [], _ => true
  | _ :: _, [] => false
  | p :: word, c :: text => caseless p c && startsWord word text

/-- What is left of a text; so many characters belong to a word that is being removed. -/
def strikeFrom (words : List (List Char)) : Nat → List Char → List Char
  | _, [] => []
  | skip + 1, _ :: text => strikeFrom words skip text
  | 0, c :: text =>
      match words.find? (startsWord · (c :: text)) with
      | none => c :: strikeFrom words 0 text
      | some word => strikeFrom words (word.length - 1) text

theorem length_le_of_startsWord {word text : List Char} (h : startsWord word text = true) :
    word.length ≤ text.length := by
  induction word generalizing text with
  | nil => exact Nat.zero_le _
  | cons p word ih =>
      cases text with
      | nil => cases h
      | cons c text => exact Nat.succ_le_succ (ih (Bool.and_eq_true_iff.mp h).2)

theorem ends_chars (chars : List Char) (prev : Option Char) (text : List Char) :
    ends (sequence (chars.map fun p => char (caseless p))) ⟨prev, text⟩ =
      if startsWord chars text then
        [⟨lastOr prev (text.take chars.length), text.drop chars.length⟩] else [] := by
  induction chars generalizing prev text with
  | nil => rfl
  | cons p chars ih =>
      show (ends (char (caseless p)) ⟨prev, text⟩).flatMap (ends (sequence _)) = _
      cases text with
      | nil => rfl
      | cons c text =>
          show (if caseless p c then [⟨some c, text⟩] else []).flatMap (ends (sequence _)) =
            if caseless p c && startsWord chars text then
              [⟨lastOr prev (c :: text.take chars.length), text.drop chars.length⟩] else []
          cases hc : caseless p c with
          | false => rfl
          | true =>
              rw [lastOr_cons]
              exact (List.append_nil _).trans (ih (some c) text)

theorem head_ends_words (words : List String) (prev : Option Char) (text : List Char) :
    (ends (oneOf (words.map word)) ⟨prev, text⟩).head? =
      ((words.map String.toList).find? (startsWord · text)).map fun word =>
        ⟨lastOr prev (text.take word.length), text.drop word.length⟩ := by
  induction words with
  | nil => cases text <;> rfl
  | cons first words ih =>
      show (ends (word first) ⟨prev, text⟩ ++ ends (oneOf (words.map word)) ⟨prev, text⟩).head? = _
      rw [List.head?_append, ih, word, ends_chars, List.map_cons]
      cases hstarts : startsWord first.toList text with
      | true | false =>
          rw [List.find?_cons, hstarts]
          rfl

variable {words : List (List Char)}

variable {c : Char}

theorem strikeFrom_of_none {text : List Char}
    (h : words.find? (startsWord · (c :: text)) = none) :
    strikeFrom words 0 (c :: text) = c :: strikeFrom words 0 text := by
  rw [strikeFrom, h]

theorem strikeFrom_of_some {text word : List Char}
    (h : words.find? (startsWord · (c :: text)) = some word) :
    strikeFrom words 0 (c :: text) = strikeFrom words (word.length - 1) text := by
  rw [strikeFrom, h]

theorem length_le_of_find {word text : List Char}
    (h : words.find? (startsWord · text) = some word) : word.length ≤ text.length := by
  have hstarts : startsWord word text = true := by simpa using List.find?_some h
  exact length_le_of_startsWord hstarts

theorem removeFrom_words {words : List String} (hne : ∀ text ∈ words, text.toList ≠ [])
    (skip : Nat) (prev : Option Char) (text : List Char) :
    removeFrom (oneOf (words.map word)) skip prev text =
      strikeFrom (words.map String.toList) skip text := by
  have htakes : Takes (fun _ => True) (oneOf (words.map word)) := by
    refine takes_oneOf fun r hr => ?_
    obtain ⟨w, hw, rfl⟩ := List.mem_map.mp hr
    exact takes_word (hne w hw)
  induction text generalizing skip prev with
  | nil => cases skip <;> rfl
  | cons c text ih =>
      cases skip with
      | succ skip => exact ih skip (some c)
      | zero =>
          rw [removeFrom, htakes.find_end, head_ends_words]
          cases hfind : (words.map String.toList).find? (startsWord · (c :: text)) with
          | none =>
              rw [strikeFrom_of_none hfind]
              exact congrArg (c :: ·) (ih 0 (some c))
          | some w =>
              rw [strikeFrom_of_some hfind]
              have hlength := length_le_of_find hfind
              obtain ⟨s, hs, rfl⟩ := List.mem_map.mp (List.mem_of_find?_eq_some hfind)
              have hpositive := List.length_pos_iff.mpr (hne s hs)
              have hskip : text.length - ((c :: text).drop s.toList.length).length =
                  s.toList.length - 1 := by
                rw [List.length_drop, List.length_cons]
                rw [List.length_cons] at hlength
                omega
              show removeFrom _ (text.length - ((c :: text).drop s.toList.length).length) (some c) text = _
              rw [hskip]
              exact ih _ (some c)

theorem remove_words {words : List String} (hne : ∀ text ∈ words, text.toList ≠ [])
    (text : List Char) :
    remove (oneOf (words.map word)) text = strikeFrom (words.map String.toList) 0 text :=
  removeFrom_words hne 0 none text

/-! ## Guards -/

/-- The two differ at a place that both have. -/
def clash (word text : List Char) : Bool := (List.zipWith caseless word text).any (!·)

theorem not_startsWord_of_clash {word text : List Char} (h : clash word text = true)
    (more : List Char) : startsWord word (text ++ more) = false := by
  induction word generalizing text with
  | nil => cases h
  | cons p word ih =>
      cases text with
      | nil => cases h
      | cons c text =>
          show (caseless p c && startsWord word (text ++ more)) = false
          cases hc : caseless p c with
          | false => rfl
          | true =>
              have hrest : clash word text = true := by
                unfold clash at h
                rwa [List.zipWith_cons_cons, List.any_cons, hc] at h
              exact ih hrest

theorem startsWord_append (word text more : List Char) :
    startsWord word (text ++ more) =
      (startsWord (word.take text.length) text && startsWord (word.drop text.length) more) := by
  induction word generalizing text with
  | nil => cases text <;> rfl
  | cons p word ih =>
      cases text with
      | nil => rfl
      | cons c text =>
          show (caseless p c && startsWord word (text ++ more)) = _
          rw [ih, ← Bool.and_assoc]
          rfl

/-- No word starts in the guard, and none that has started before reaches into it. -/
def IsGuard (words : List (List Char)) (guard : List Char) : Prop :=
  (∀ word ∈ words, ∀ tail ∈ guard.tails, tail = [] ∨ clash word tail = true) ∧
    ∀ word ∈ words, ∀ tail ∈ word.tail.tails, tail = [] ∨ clash tail guard = true

instance (words : List (List Char)) (guard : List Char) : Decidable (IsGuard words guard) :=
  inferInstanceAs (Decidable (_ ∧ _))

variable {guard : List Char}

theorem strikeFrom_tail (h : IsGuard words guard) {tail : List Char} (htail : tail <:+ guard)
    (after : List Char) : strikeFrom words 0 (tail ++ after) = tail ++ strikeFrom words 0 after := by
  induction tail with
  | nil => rfl
  | cons c tail ih =>
      have hfind : words.find? (startsWord · (c :: (tail ++ after))) = none := by
        refine List.find?_eq_none.mpr fun word hword => ?_
        rcases h.1 word hword (c :: tail) ((List.mem_tails _ _).mpr htail) with hnil | hclash
        · cases hnil
        · rw [← List.cons_append, not_startsWord_of_clash hclash]
          decide
      refine (strikeFrom_of_none hfind).trans ?_
      rw [ih ((List.suffix_cons c tail).trans htail)]
      rfl

theorem startsWord_append_guard (h : IsGuard words guard) {word : List Char} (hword : word ∈ words)
    (c : Char) (text after : List Char) :
    startsWord word (c :: text ++ (guard ++ after)) = startsWord word (c :: text) := by
  rw [startsWord_append]
  by_cases hshort : word.length ≤ (c :: text).length
  · rw [List.take_of_length_le hshort, List.drop_of_length_le hshort]
    exact Bool.and_true _
  · have hlong : startsWord word (c :: text) = false :=
      Bool.eq_false_iff.mpr fun hstarts => hshort (length_le_of_startsWord hstarts)
    rw [hlong]
    have htail : word.drop (c :: text).length <:+ word.tail := by
      rw [List.length_cons, ← List.drop_tail]
      exact List.drop_suffix _ _
    rcases h.2 word hword _ ((List.mem_tails _ _).mpr htail) with hnil | hclash
    · exact absurd (List.drop_eq_nil_iff.mp hnil) hshort
    · rw [not_startsWord_of_clash hclash, Bool.and_false]

theorem strikeFrom_guard (h : IsGuard words guard) {skip : Nat} {before : List Char}
    (hskip : skip ≤ before.length) (after : List Char) :
    strikeFrom words skip (before ++ (guard ++ after)) =
      strikeFrom words skip before ++ (guard ++ strikeFrom words 0 after) := by
  induction before generalizing skip with
  | nil =>
      obtain rfl := Nat.le_zero.mp hskip
      exact strikeFrom_tail h List.suffix_rfl after
  | cons c before ih =>
      cases skip with
      | succ skip => exact ih (Nat.le_of_succ_le_succ hskip)
      | zero =>
          have hfind : words.find? (startsWord · (c :: (before ++ (guard ++ after)))) =
              words.find? (startsWord · (c :: before)) :=
            List.find?_congr fun word hword => startsWord_append_guard h hword c before after
          cases hword : words.find? (startsWord · (c :: before)) with
          | none =>
              refine (strikeFrom_of_none (hfind.trans hword)).trans ?_
              rw [ih (Nat.zero_le _), strikeFrom_of_none hword]
              rfl
          | some word =>
              have hlength := length_le_of_find hword
              rw [List.length_cons] at hlength
              refine (strikeFrom_of_some (hfind.trans hword)).trans ?_
              rw [ih (by omega), strikeFrom_of_some hword]

/-- **In front of a guard and behind it words are removed independently.** -/
theorem remove_guard {words : List String} (hne : ∀ text ∈ words, text.toList ≠ [])
    (h : IsGuard (words.map String.toList) guard) (before after : List Char) :
    remove (oneOf (words.map word)) (before ++ (guard ++ after)) =
      remove (oneOf (words.map word)) before ++
        (guard ++ remove (oneOf (words.map word)) after) := by
  rw [remove_words hne, remove_words hne, remove_words hne]
  exact strikeFrom_guard h (Nat.zero_le _) after

end PyRe
