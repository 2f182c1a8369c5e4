import Mathlib.Data.List.DropRight
import SkyClaw.Lib.PyStr

/-!
# Lines of text

`str.splitlines`, the lines of a text file, and `str.strip` on lists of characters.

A text is cut into the lines that are ended and the rest after the last of them.  Cuts of texts
that follow each other are glued together: the rest of the first is completed by the first line
of the second.
-/

namespace PyStr

/-! ## Blanks around a text -/

/-- `text.strip()`, on characters. -/
def trim (text : List Char) : List Char := (text.dropWhile isSpace).rdropWhile isSpace

theorem trim_subset (text : List Char) : trim text ⊆ text := by
  intro c hc
  exact (List.dropWhile_suffix isSpace).subset ((List.rdropWhile_prefix isSpace _).subset hc)

variable {c : Char}

theorem head_trim {text : List Char} (h : (trim text).head? = some c) :
    isSpace c = false := by
  obtain ⟨rest, hrest⟩ := List.rdropWhile_prefix isSpace (text.dropWhile isSpace)
  have hhead : (text.dropWhile isSpace).head? = some c := by
    rw [← hrest, List.head?_append]
    unfold trim at h
    rw [h]
    rfl
  have hne : text.dropWhile isSpace ≠ [] := by
    intro hnil
    rw [hnil] at hhead
    cases hhead
  have hnot := List.head_dropWhile_not isSpace hne
  rw [List.head?_eq_some_head hne] at hhead
  rwa [Option.some.inj hhead] at hnot

theorem last_trim {text : List Char} (h : (trim text).getLast? = some c) :
    isSpace c = false := by
  have hne : trim text ≠ [] := by
    intro hnil
    rw [hnil] at h
    cases h
  have hlast := List.rdropWhile_last_not isSpace (text.dropWhile isSpace) hne
  rw [List.getLast?_eq_some_getLast hne] at h
  cases h
  exact Bool.eq_false_iff.mpr hlast

/-- A text is its own `strip` exactly when it neither starts nor ends with a blank. -/
theorem trim_eq_self_iff {text : List Char} :
    trim text = text ↔
      (∀ c, text.head? = some c → isSpace c = false) ∧
        ∀ c, text.getLast? = some c → isSpace c = false := by
  constructor
  · intro h
    constructor
    · intro c hc
      rw [← h] at hc
      exact head_trim hc
    · intro c hc
      rw [← h] at hc
      exact last_trim hc
  · rintro ⟨hhead, hlast⟩
    have hdrop : text.dropWhile isSpace = text := by
      cases text with
      | nil => rfl
      | cons c rest => rw [List.dropWhile_cons_of_neg (Bool.eq_false_iff.mp (hhead c rfl))]
    unfold trim
    rw [hdrop, List.rdropWhile_eq_self_iff]
    intro hne
    exact Bool.eq_false_iff.mp (hlast _ (List.getLast?_eq_some_getLast hne))

@[simp] theorem trim_trim (text : List Char) : trim (trim text) = trim text :=
  trim_eq_self_iff.mpr ⟨fun _ => head_trim, fun _ => last_trim⟩

variable {p : Char → Bool}

theorem rdropWhile_append_cons (hc : p c = false)
    (before after : List Char) :
    (before ++ c :: after).rdropWhile p = before ++ c :: after.rdropWhile p := by
  induction after using List.reverseRecOn with
  | nil => rw [List.rdropWhile_concat_neg _ _ _ (Bool.eq_false_iff.mp hc), List.rdropWhile_nil]
  | append_singleton after d ih =>
      rw [← List.cons_append, ← List.append_assoc, List.rdropWhile_concat, List.rdropWhile_concat,
        ih]
      split
      · rfl
      · rw [List.append_assoc, List.cons_append]

theorem trim_append_cons (hc : isSpace c = false) (before after : List Char) :
    trim (before ++ c :: after) =
      before.dropWhile isSpace ++ c :: after.rdropWhile isSpace := by
  unfold trim
  rw [List.dropWhile_append]
  split
  · next hempty =>
      rw [List.isEmpty_iff.mp hempty, List.dropWhile_cons_of_neg (Bool.eq_false_iff.mp hc)]
      exact rdropWhile_append_cons hc [] after
  · exact rdropWhile_append_cons hc _ after

theorem trim_eq_nil_iff {text : List Char} : trim text = [] ↔ ∀ c ∈ text, isSpace c = true := by
  unfold trim
  rw [List.rdropWhile_eq_nil_iff]
  constructor
  · intro h
    have hnil : text.dropWhile isSpace = [] := by
      by_contra hne
      have hnot := List.head_dropWhile_not isSpace hne
      rw [h _ (List.head_mem hne)] at hnot
      cases hnot
    exact List.dropWhile_eq_nil_iff.mp hnil
  · intro h c hc
    exact h c ((List.dropWhile_suffix isSpace).subset hc)

theorem trim_append_left {front : List Char} (h : ∀ c ∈ front, isSpace c = true) (text : List Char) :
    trim (front ++ text) = trim text := by
  unfold trim
  rw [List.dropWhile_append_of_pos h]

theorem rtakeWhile_append_cons (hc : p c = false) {word : List Char}
    (hword : ∀ d ∈ word, p d = true) (before : List Char) :
    (before ++ c :: word).rtakeWhile p = word := by
  have hall : ∀ d ∈ word.reverse, p d = true := fun d hd => hword d (List.mem_reverse.mp hd)
  rw [List.rtakeWhile, List.reverse_append, List.reverse_cons, List.append_assoc,
    List.takeWhile_append_of_pos hall, List.singleton_append,
    List.takeWhile_cons_of_neg (Bool.eq_false_iff.mp hc), List.append_nil, List.reverse_reverse]

theorem trim_spec (text : List Char) : ∃ front back, (∀ c ∈ front, isSpace c = true) ∧
    (∀ c ∈ back, isSpace c = true) ∧ text = front ++ (trim text ++ back) := by
  refine ⟨text.takeWhile isSpace, (text.dropWhile isSpace).rtakeWhile isSpace,
    fun c hc => List.mem_takeWhile_imp hc, fun c hc => List.mem_rtakeWhile_imp hc, ?_⟩
  rw [trim, List.rdropWhile_append_rtakeWhile, List.takeWhile_append_dropWhile]

/-! ## Pieces between separators -/

variable {piece : List Char}

theorem subset_intercalate {separator : List Char} {pieces : List (List Char)}
    (h : piece ∈ pieces) : piece ⊆ separator.intercalate pieces := by
  induction pieces with
  | nil => cases h
  | cons first pieces ih =>
      cases pieces with
      | nil =>
          rw [List.mem_singleton.mp h, List.intercalate_singleton]
          exact List.Subset.refl first
      | cons second pieces =>
          rw [List.intercalate_cons_cons]
          intro c hc
          rcases List.mem_cons.mp h with rfl | h
          · exact List.mem_append_left _ (List.mem_append_left _ hc)
          · exact List.mem_append_right _ (ih h hc)

theorem mem_of_mem_intercalate {α : Type*} {separator : List α} {pieces : List (List α)} {c : α}
    (h : c ∈ separator.intercalate pieces) : c ∈ separator ∨ ∃ piece ∈ pieces, c ∈ piece := by
  induction pieces with
  | nil => cases h
  | cons first pieces ih =>
      cases pieces with
      | nil =>
          rw [List.intercalate_singleton] at h
          exact .inr ⟨first, List.mem_cons_self, h⟩
      | cons second pieces =>
          rw [List.intercalate_cons_cons, List.mem_append, List.mem_append] at h
          rcases h with (h | h) | h
          · exact .inr ⟨first, List.mem_cons_self, h⟩
          · exact .inl h
          · rcases ih h with h | ⟨piece, hpiece, h⟩
            · exact .inl h
            · exact .inr ⟨piece, List.mem_cons_of_mem first hpiece, h⟩

theorem intercalate_concat {separator : List Char} {pieces : List (List Char)}
    (h : pieces ≠ []) :
    separator.intercalate (pieces ++ [piece]) =
      separator.intercalate pieces ++ separator ++ piece := by
  induction pieces with
  | nil => exact absurd rfl h
  | cons first pieces ih =>
      cases pieces with
      | nil => simp [List.intercalate_cons_cons]
      | cons second pieces =>
          have hrest := ih (List.cons_ne_nil second pieces)
          simp only [List.cons_append, List.intercalate_cons_cons] at hrest ⊢
          rw [hrest]
          simp

theorem intercalate_ne_nil {separator : List Char} {pieces : List (List Char)}
    (hpieces : pieces ≠ []) (h : ∀ piece ∈ pieces, piece ≠ []) :
    separator.intercalate pieces ≠ [] := by
  cases pieces with
  | nil => exact absurd rfl hpieces
  | cons first pieces =>
      intro hnil
      apply h first List.mem_cons_self
      have hsubset : first ⊆ separator.intercalate (first :: pieces) :=
        subset_intercalate List.mem_cons_self
      rw [hnil] at hsubset
      exact List.subset_nil.mp hsubset

theorem splitOn_subset {separator : Char} {text : List Char}
    (h : piece ∈ text.splitOn separator) : piece ⊆ text := by
  have hpiece : piece ⊆ [separator].intercalate (text.splitOn separator) := subset_intercalate h
  rwa [List.intercalate_splitOn] at hpiece

/-- The ended lines of a text, and what is after the last of them. -/
structure Cut where
  lines : List (List Char)
  rest : List Char
deriving DecidableEq, Repr

namespace Cut

/-- A character before the text of a cut. -/
def push (c : Char) : Cut → Cut
  | ⟨[], rest⟩ => ⟨[], c :: rest⟩
  | ⟨line :: lines, rest⟩ => ⟨(c :: line) :: lines, rest⟩

/-- The cut of two texts that follow each other. -/
def glue (first second : Cut) : Cut :=
  match second.lines with
  | [] => ⟨first.lines, first.rest ++ second.rest⟩
  | line :: lines => ⟨first.lines ++ (first.rest ++ line) :: lines, second.rest⟩

@[simp] theorem nil_glue (cut : Cut) : glue ⟨[], []⟩ cut = cut := by
  obtain ⟨lines, rest⟩ := cut
  cases lines <;> rfl

theorem push_glue (c : Char) (first second : Cut) :
    glue (push c first) second = push c (glue first second) := by
  obtain ⟨lines, rest⟩ := first
  obtain ⟨lines', rest'⟩ := second
  cases lines <;> cases lines' <;> rfl

theorem end_glue (lines : List (List Char)) (rest : List Char) (second : Cut) :
    glue ⟨[] :: lines, rest⟩ second =
      ⟨[] :: (glue ⟨lines, rest⟩ second).lines, (glue ⟨lines, rest⟩ second).rest⟩ := by
  obtain ⟨lines', rest'⟩ := second
  cases lines' <;> rfl

/-- The lines of a cut, the rest among them. -/
def all (cut : Cut) : List (List Char) :=
  if cut.rest = [] then cut.lines else cut.lines ++ [cut.rest]

end Cut

/-! ## The cut of a text -/

section Cutting

variable (ends : Char → Bool)

/-- Cut a text at the characters that end a line; `\r\n` ends one. -/
def cut : List Char → Cut
  | [] => ⟨[], []⟩
  | c :: text =>
      if ends c = false then (cut text).push c
      else if c = '\r' ∧ text.head? = some '\n' then cut text
      else ⟨[] :: (cut text).lines, (cut text).rest⟩

variable {ends}

/-- **Cuts are glued together**, unless a `\r\n` is torn apart. -/
theorem cut_append (text : List Char) {more : List Char} (h : more.head? ≠ some '\n') :
    cut ends (text ++ more) = (cut ends text).glue (cut ends more) := by
  induction text with
  | nil => exact (Cut.nil_glue _).symm
  | cons c text ih =>
      have hhead : (c = '\r' ∧ (text ++ more).head? = some '\n') ↔
          c = '\r' ∧ text.head? = some '\n' := by
        cases text with
        | nil => simp [h]
        | cons d text => rfl
      rw [List.cons_append, cut, cut, ih]
      by_cases hc : ends c = false
      · rw [if_pos hc, if_pos hc]
        exact (Cut.push_glue c _ _).symm
      · rw [if_neg hc, if_neg hc]
        by_cases hcrlf : c = '\r' ∧ text.head? = some '\n'
        · rw [if_pos hcrlf, if_pos (hhead.mpr hcrlf)]
        · rw [if_neg hcrlf, if_neg fun hnext => hcrlf (hhead.mp hnext)]
          exact (Cut.end_glue _ _ _).symm

theorem push_free {c : Char} {cut : Cut} (hc : ends c = false)
    (h : ∀ line ∈ cut.rest :: cut.lines, ∀ c ∈ line, ends c = false) :
    ∀ line ∈ (cut.push c).rest :: (cut.push c).lines, ∀ c ∈ line, ends c = false := by
  obtain ⟨lines, rest⟩ := cut
  cases lines with
  | nil =>
      rw [List.forall_mem_cons] at h
      exact List.forall_mem_cons.mpr ⟨List.forall_mem_cons.mpr ⟨hc, h.1⟩, h.2⟩
  | cons line lines =>
      rw [List.forall_mem_cons, List.forall_mem_cons] at h
      refine List.forall_mem_cons.mpr ⟨h.1, List.forall_mem_cons.mpr ⟨?_, h.2.2⟩⟩
      exact List.forall_mem_cons.mpr ⟨hc, h.2.1⟩

theorem free_of_mem_cut (text : List Char) :
    ∀ line ∈ (cut ends text).rest :: (cut ends text).lines, ∀ c ∈ line, ends c = false := by
  induction text with
  | nil => simp [cut]
  | cons c text ih =>
      rw [cut]
      split
      · next hc => exact push_free hc ih
      · split
        · exact ih
        · rw [List.forall_mem_cons] at ih
          refine List.forall_mem_cons.mpr ⟨ih.1, List.forall_mem_cons.mpr ⟨?_, ih.2⟩⟩
          simp

theorem free_of_mem_all {text line : List Char} (h : line ∈ (cut ends text).all) :
    ∀ c ∈ line, ends c = false := by
  refine free_of_mem_cut text line ?_
  unfold Cut.all at h
  split at h
  · exact List.mem_cons_of_mem _ h
  · rcases List.mem_append.mp h with h | h
    · exact List.mem_cons_of_mem _ h
    · exact List.mem_cons.mpr (.inl (List.mem_singleton.mp h))

/-- What a program writes at the end of a line. -/
inductive Newline where
  | lf
  | crlf
deriving DecidableEq, Repr

/-- The characters of a line end. -/
def Newline.chars : Newline → List Char
  | lf => ['\n']
  | crlf => ['\r', '\n']

theorem cut_line_append (newline : Newline) {line : List Char} (hcr : ends '\r' = true)
    (hlf : ends '\n' = true) (hfree : ∀ c ∈ line, ends c = false) (more : List Char) :
    cut ends (line ++ (newline.chars ++ more)) = ⟨line :: (cut ends more).lines, (cut ends more).rest⟩ := by
  induction line with
  | nil =>
      have hend : cut ends ('\n' :: more) = ⟨[] :: (cut ends more).lines, (cut ends more).rest⟩ := by
        rw [cut, if_neg (by simp [hlf]), if_neg (fun h => absurd h.1 (by decide))]
      cases newline with
      | lf => exact hend
      | crlf =>
          show cut ends ('\r' :: '\n' :: more) = _
          rw [cut, if_neg (by simp [hcr]), if_pos ⟨rfl, rfl⟩, hend]
  | cons c line ih =>
      rw [List.forall_mem_cons] at hfree
      rw [List.cons_append, cut, if_pos hfree.1, ih hfree.2]
      rfl

theorem cut_line (newline : Newline) {line : List Char} (hcr : ends '\r' = true)
    (hlf : ends '\n' = true) (hfree : ∀ c ∈ line, ends c = false) :
    cut ends (line ++ newline.chars) = ⟨[line], []⟩ := by
  have h := cut_line_append newline hcr hlf hfree []
  rwa [List.append_nil] at h

/-- **Printed lines are read back**, if no line ends inside one. -/
theorem cut_lines (newline : Newline) {lines : List (List Char)} (hcr : ends '\r' = true)
    (hlf : ends '\n' = true) (hfree : ∀ line ∈ lines, ∀ c ∈ line, ends c = false) :
    cut ends (lines.flatMap (· ++ newline.chars)) = ⟨lines, []⟩ := by
  induction lines with
  | nil => rfl
  | cons line lines ih =>
      rw [List.forall_mem_cons] at hfree
      rw [List.flatMap_cons, List.append_assoc, cut_line_append newline hcr hlf hfree.1, ih hfree.2]

end Cutting

/-- The characters at which `splitlines` ends a line. -/
def isLineBreak (c : Char) : Bool :=
  let n := c.toNat
  (0x0A ≤ n && n ≤ 0x0D) || (0x1C ≤ n && n ≤ 0x1E) || n == 0x85 || n == 0x2028 || n == 0x2029

def splitlines (text : List Char) : List (List Char) := (cut isLineBreak text).all

/-- The characters that end a line of a text file. -/
def isNewline (c : Char) : Bool := c == '\n' || c == '\r'

/-- The lines of a text file, without their ends. -/
def fileLines (text : List Char) : List (List Char) := (cut isNewline text).all

theorem splitlines_lines (newline : Newline) {lines : List (List Char)}
    (hfree : ∀ line ∈ lines, ∀ c ∈ line, isLineBreak c = false) :
    splitlines (lines.flatMap (· ++ newline.chars)) = lines := by
  unfold splitlines
  rw [cut_lines newline (by decide) (by decide) hfree]
  rfl

theorem fileLines_lines (newline : Newline) {lines : List (List Char)}
    (hfree : ∀ line ∈ lines, ∀ c ∈ line, isNewline c = false) :
    fileLines (lines.flatMap (· ++ newline.chars)) = lines := by
  unfold fileLines
  rw [cut_lines newline rfl rfl hfree]
  rfl

end PyStr
