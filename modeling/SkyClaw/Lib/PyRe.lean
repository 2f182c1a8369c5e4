import SkyClaw.Lib.PyStr
import SkyClaw.Lib.Regex

/-!
# Character classes of Python's `re` and `unicodedata`

Texts are lists of characters.  What depends on the version of the Unicode database is a
structure; it is only known on the ASCII characters.
-/

/-- What code reads of the Unicode database. -/
structure Unicode where
  /-- `\w`. -/
  isWord : Char → Bool
  /-- `\d`. -/
  isDigit : Char → Bool
  /-- `unicodedata.category(c) == "Cf"`. -/
  isFormat : Char → Bool
  /-- `unicodedata.normalize("NFKC", text)`. -/
  nfkc : List Char → List Char
  isWord_ascii : ∀ c : Char, c.toNat < 128 → isWord c = (c.isAlphanum || c == '_')
  isDigit_ascii : ∀ c : Char, c.toNat < 128 → isDigit c = c.isDigit
  isFormat_ascii : ∀ c : Char, c.toNat < 128 → isFormat c = false
  nfkc_ascii : ∀ text : List Char, (∀ c ∈ text, c.toNat < 128) → nfkc text = text

namespace PyRe

open Regex

/-- `[lo-hi]`. -/
def range (lo hi : Char) (c : Char) : Bool := lo ≤ c && c ≤ hi

/-- `[...]`, for the characters listed. -/
def anyOf (chars : String) (c : Char) : Bool := chars.toList.contains c

/-- `[A-Za-z0-9]`. -/
def asciiAlnum (c : Char) : Bool := range 'A' 'Z' c || range 'a' 'z' c || range '0' '9' c

/-- The characters outside ASCII that are equal to an ASCII letter if case is ignored. -/
def otherCase (c : Char) : Option Char :=
  if c = '\u0130' || c = '\u0131' then some 'i'
  else if c = '\u017f' then some 's'
  else if c = '\u212a' then some 'k'
  else none

/-- A character of an expression under `re.IGNORECASE`, for an ASCII character. -/
def caseless (p : Char) (c : Char) : Bool :=
  p.toLower == c.toLower || otherCase c == some p.toLower

/-- A class under `re.IGNORECASE`, when it has both cases of every ASCII letter. -/
def caselessClass (p : Char → Bool) (c : Char) : Bool := p c || (otherCase c).any p

/-- A text to be found as it is. -/
def literal (text : String) : Regex Char := sequence (text.toList.map fun p => char (· == p))

/-- A text to be found under `re.IGNORECASE`. -/
def word (text : String) : Regex Char := sequence (text.toList.map fun p => char (caseless p))

/-- `word$` is found under `re.IGNORECASE`: at the end, or before a line end that is the last
character. -/
def wordAtEnd (word : String) (text : List Char) : Bool :=
  let ends (text : List Char) :=
    word.toList.length ≤ text.length &&
      (List.zipWith caseless word.toList (text.drop (text.length - word.toList.length))).all id
  ends text || (text.getLast? == some '\n' && ends text.dropLast)

theorem takes_word {text : String} (hne : text.toList ≠ []) :
    Takes (fun _ => True) (word text) := by
  unfold word
  cases htext : text.toList with
  | nil => exact absurd htext hne
  | cons p rest => exact .inl fun _ _ => trivial

theorem atomwise_word {P : Regex Char → Prop} {text : String}
    (h : ∀ p ∈ text.toList, P (char (caseless p))) : Atomwise P (word text) := by
  refine atomwise_sequence fun r hr => ?_
  obtain ⟨p, hp, rfl⟩ := List.mem_map.mp hr
  exact h p hp

theorem matches_chars_iff {chars : List Char} {k k' : Cursor Char} :
    Matches (sequence (chars.map fun p => char (· == p))) k k' ↔
      k.rest = chars ++ k'.rest ∧ k'.prev = lastOr k.prev chars := by
  induction chars generalizing k with
  | nil =>
      show k' = k ↔ k.rest = k'.rest ∧ k'.prev = lastOr k.prev []
      rw [lastOr_nil]
      constructor
      · rintro rfl
        exact ⟨rfl, rfl⟩
      · rintro ⟨hrest, hprev⟩
        cases k
        cases k'
        simp_all
  | cons p chars ih =>
      show (∃ mid, Matches (char (· == p)) k mid ∧ Matches (sequence _) mid k') ↔ _
      constructor
      · rintro ⟨mid, ⟨c, hc, hrest, hprev⟩, hmatch⟩
        obtain ⟨hmid, hlast⟩ := ih.mp hmatch
        obtain rfl := beq_iff_eq.mp hc
        rw [hrest, hmid, hlast, hprev, lastOr_cons]
        exact ⟨rfl, rfl⟩
      · rintro ⟨hrest, hlast⟩
        refine ⟨⟨some p, chars ++ k'.rest⟩, ⟨p, beq_self_eq_true p, hrest, rfl⟩, ih.mpr ⟨rfl, ?_⟩⟩
        rw [hlast, lastOr_cons]

theorem contains_literal_iff {word : String} {text : List Char} :
    contains (literal word) text = true ↔ word.toList <:+: text := by
  unfold contains literal
  rw [containsFrom_iff]
  constructor
  · rintro ⟨before, rest, rfl, h⟩
    obtain ⟨k', hmatch⟩ := startsAt_iff.mp h
    exact ⟨before, k'.rest, by rw [List.append_assoc, ← (matches_chars_iff.mp hmatch).1]⟩
  · rintro ⟨before, after, rfl⟩
    refine ⟨before, word.toList ++ after, List.append_assoc _ _ _, startsAt_iff.mpr ?_⟩
    exact ⟨⟨_, after⟩, matches_chars_iff.mpr ⟨rfl, rfl⟩⟩

/-- `^` -/
def atStart : Regex Char := notAfter fun _ => true

/-- `$` behind a character, where the match is not looked at: the end, or a line end before it. -/
def atEnd : Regex Char :=
  alt (boundary fun _ => true) (seq (char (· == '\n')) (boundary fun _ => true))

/-- `\s`. -/
def space : Regex Char := char PyStr.isSpace

/-- `\S`. -/
def nonSpace : Regex Char := char fun c => !PyStr.isSpace c

/-- `\s*`. -/
def spaces : Regex Char := star space

/-- `\s+`. -/
def spaces1 : Regex Char := plus space

end PyRe

/-- A database that is right on ASCII and on the Cyrillic letters, and on texts that are
normalized. -/
def Unicode.basic : Unicode where
  isWord c := c.isAlphanum || c == '_' || PyRe.range '\u0400' '\u0481' c
  isDigit c := c.isDigit
  isFormat c := PyRe.range '\u200b' '\u200f' c
  nfkc text := text
  isWord_ascii c hc := by
    have hlt : ¬ '\u0400' ≤ c := fun hle => by
      have hle' : (0x400 : Nat) ≤ c.toNat := hle
      omega
    simp [PyRe.range, hlt]
  isDigit_ascii _ _ := rfl
  isFormat_ascii c hc := by
    have hlt : ¬ '\u200b' ≤ c := fun hle => by
      have hle' : (0x200b : Nat) ≤ c.toNat := hle
      omega
    simp [PyRe.range, hlt]
  nfkc_ascii _ _ := rfl

/-- The Unicode database with the case mappings of `str`. -/
structure UnicodeText extends Unicode where
  lower : List Char → List Char
  upper : List Char → List Char
  lower_ascii : ∀ text : List Char, (∀ c ∈ text, c.toNat < 128) → lower text = text.map Char.toLower
  upper_ascii : ∀ text : List Char, (∀ c ∈ text, c.toNat < 128) → upper text = text.map Char.toUpper

/-- The mappings that only know ASCII. -/
def UnicodeText.basic : UnicodeText where
  toUnicode := Unicode.basic
  lower text := text.map Char.toLower
  upper text := text.map Char.toUpper
  lower_ascii _ _ := rfl
  upper_ascii _ _ := rfl
