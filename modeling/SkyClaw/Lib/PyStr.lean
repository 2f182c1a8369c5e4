import Mathlib.Data.List.Infix
import Mathlib.Data.List.TakeWhile

/-!
# Python strings

The methods of `str` that commands are parsed with.
-/

namespace PyStr

/-- Texts are equal if their characters are. -/
instance lawfulBEqText : LawfulBEq (List Char) := inferInstance

/-- `str.isspace` of a character. -/
def isSpace (c : Char) : Bool :=
  let n := c.toNat
  (0x09 ≤ n && n ≤ 0x0D) || (0x1C ≤ n && n ≤ 0x20) || n == 0x85 || n == 0xA0 || n == 0x1680 ||
    (0x2000 ≤ n && n ≤ 0x200A) || n == 0x2028 || n == 0x2029 || n == 0x202F || n == 0x205F ||
    n == 0x3000

def strip (text : String) : String :=
  String.ofList (((text.toList.dropWhile isSpace).reverse.dropWhile isSpace).reverse)

/-- `text.startswith(start)`. -/
def startsWith (start text : String) : Bool := start.toList.isPrefixOf text.toList

/-- `text[n:]`. -/
def dropFirst (n : Nat) (text : String) : String := String.ofList (text.toList.drop n)

/-- `text.split(separator)`. -/
def split (separator : Char) (text : String) : List String :=
  (text.toList.splitOn separator).map String.ofList

/-- `text.replace(old, new)`, for single characters. -/
def replaceChar (old new : Char) (text : String) : String :=
  String.ofList (text.toList.map fun c => if c = old then new else c)

/-! ## Numbers -/

/-- The decimal digits of Unicode come in runs of ten; these are their zeros. -/
def decimalZeros : List Nat :=
  [0x30, 0x660, 0x6f0, 0x7c0, 0x966, 0x9e6, 0xa66, 0xae6, 0xb66, 0xbe6, 0xc66, 0xce6, 0xd66, 0xde6,
    0xe50, 0xed0, 0xf20, 0x1040, 0x1090, 0x17e0, 0x1810, 0x1946, 0x19d0, 0x1a80, 0x1a90, 0x1b50,
    0x1bb0, 0x1c40, 0x1c50, 0xa620, 0xa8d0, 0xa900, 0xa9d0, 0xa9f0, 0xaa50, 0xabf0, 0xff10, 0x104a0,
    0x10d30, 0x11066, 0x110f0, 0x11136, 0x111d0, 0x112f0, 0x11450, 0x114d0, 0x11650, 0x116c0,
    0x11730, 0x118e0, 0x11950, 0x11c50, 0x11d50, 0x11da0, 0x16a60, 0x16ac0, 0x16b50, 0x1d7ce,
    0x1d7d8, 0x1d7e2, 0x1d7ec, 0x1d7f6, 0x1e140, 0x1e2f0, 0x1e950, 0x1fbf0]

/-- The value of a decimal digit. -/
def decimal (c : Char) : Option Nat :=
  (decimalZeros.find? fun zero => zero ≤ c.toNat && c.toNat < zero + 10).map (c.toNat - ·)

/-- The number that digits stand for. -/
def ofDigits (base : Nat) (digits : List Nat) : Nat := digits.foldl (fun n d => base * n + d) 0

/-- The digits of a number; single underscores may stand between them. -/
def decimals (text : List Char) : Option (List Nat) :=
  ((text.splitOn '_').mapM fun group => if group = [] then none else group.mapM decimal).map
    List.flatten

/-- `int(text)`; no number is the `ValueError`.  More than 4300 digits are refused. -/
def int (text : String) : Option Int :=
  let magnitude (digits : List Char) : Option Nat := do
    let digits ← decimals digits
    if 4300 < digits.length then none else some (ofDigits 10 digits)
  match (strip text).toList with
  | '-' :: digits => (magnitude digits).map fun n => -(n : Int)
  | '+' :: digits => (magnitude digits).map fun n => (n : Int)
  | digits => (magnitude digits).map fun n => (n : Int)

theorem not_mem_of_mem_splitOn {separator : Char} {text piece : List Char}
    (h : piece ∈ text.splitOn separator) : separator ∉ piece := by
  induction text generalizing piece with
  | nil =>
      rw [List.splitOn_nil, List.mem_singleton] at h
      rw [h]
      exact List.not_mem_nil
  | cons c rest ih =>
      rw [List.splitOn_cons_eq_if_modifyHead] at h
      by_cases hc : (c == separator) = true
      · rw [if_pos hc, List.mem_cons] at h
        rcases h with rfl | h
        · exact List.not_mem_nil
        · exact ih h
      · rw [if_neg hc] at h
        cases hsplit : rest.splitOn separator with
        | nil => exact absurd hsplit (List.splitOn_ne_nil separator rest)
        | cons first others =>
            rw [hsplit, List.modifyHead_cons, List.mem_cons] at h
            rcases h with rfl | h
            · intro hmem
              rcases List.mem_cons.mp hmem with rfl | hmem
              · exact hc (beq_self_eq_true separator)
              · exact ih (hsplit ▸ List.mem_cons_self) hmem
            · exact ih (hsplit ▸ List.mem_cons_of_mem first h)

/-- **Spec of `split`.**  The pieces have no separator in them and make up the text. -/
theorem split_eq_iff {separator : Char} {text : String} {pieces : List String}
    (hne : pieces ≠ []) :
    split separator text = pieces ↔
      text.toList = [separator].intercalate (pieces.map String.toList) ∧
        ∀ piece ∈ pieces, separator ∉ piece.toList := by
  constructor
  · rintro rfl
    unfold split
    constructor
    · have hback : ((text.toList.splitOn separator).map String.ofList).map String.toList =
          text.toList.splitOn separator := by
        rw [List.map_map]
        exact (List.map_congr_left fun l _ => String.toList_ofList).trans (List.map_id' _)
      rw [hback, List.intercalate_splitOn]
    · intro piece hpiece
      obtain ⟨chars, hchars, rfl⟩ := List.mem_map.mp hpiece
      rw [String.toList_ofList]
      exact not_mem_of_mem_splitOn hchars
  · rintro ⟨htext, hpieces⟩
    unfold split
    rw [htext, List.splitOn_intercalate]
    · rw [List.map_map]
      exact (List.map_congr_left fun s _ => String.ofList_toList).trans (List.map_id' _)
    · intro l hl
      obtain ⟨piece, hpiece, rfl⟩ := List.mem_map.mp hl
      exact hpieces piece hpiece
    · intro hnil
      exact hne (List.map_eq_nil_iff.mp hnil)

/-! ## Cutting texts

These work on lists of characters. -/

/-- `text.partition(separator)`: what is before the separator and, if there is one, after it. -/
def partition (separator : Char) : List Char → List Char × Option (List Char)
  | [] => ([], none)
  | c :: rest =>
      if c = separator then ([], some rest)
      else (c :: (partition separator rest).1, (partition separator rest).2)

/-- `text.rpartition(separator)[2]`. -/
def afterLast (separator : Char) (text : List Char) : List Char :=
  (text.reverse.takeWhile (· ≠ separator)).reverse

theorem partition_fst_subset (separator : Char) (text : List Char) :
    (partition separator text).1 ⊆ text := by
  induction text with
  | nil => exact List.Subset.refl _
  | cons c rest ih =>
      unfold partition
      by_cases hc : c = separator
      · rw [if_pos hc]
        exact List.nil_subset _
      · rw [if_neg hc]
        exact List.cons_subset_cons c ih

theorem partition_snd_subset {separator : Char} {text rest : List Char}
    (h : (partition separator text).2 = some rest) : rest ⊆ text := by
  induction text with
  | nil => cases h
  | cons c tail ih =>
      unfold partition at h
      by_cases hc : c = separator
      · rw [if_pos hc] at h
        obtain rfl := Option.some.inj h
        exact List.subset_cons_self c tail
      · rw [if_neg hc] at h
        exact List.subset_cons_of_subset c (ih h)

theorem afterLast_subset (separator : Char) (text : List Char) :
    afterLast separator text ⊆ text := by
  intro c hc
  have hmem := List.mem_reverse.mp hc
  exact List.mem_reverse.mp ((List.takeWhile_sublist _).subset hmem)

section Cutting

variable {separator : Char} {text before rest : List Char}

theorem partition_of_not_mem (h : separator ∉ text) : partition separator text = (text, none) := by
  induction text with
  | nil => rfl
  | cons c text ih =>
      rw [List.mem_cons, not_or] at h
      rw [partition, if_neg (Ne.symm h.1), ih h.2]

theorem partition_append (h : separator ∉ before) (rest : List Char) :
    partition separator (before ++ separator :: rest) = (before, some rest) := by
  induction before with
  | nil => exact if_pos rfl
  | cons c before ih =>
      rw [List.mem_cons, not_or] at h
      rw [List.cons_append, partition, if_neg (Ne.symm h.1), ih h.2]

/-- Either there is no separator, or what it is between is given. -/
theorem partition_spec (separator : Char) (text : List Char) :
    separator ∉ (partition separator text).1 ∧
      match (partition separator text).2 with
      | none => text = (partition separator text).1
      | some rest => text = (partition separator text).1 ++ separator :: rest := by
  induction text with
  | nil => exact ⟨List.not_mem_nil, rfl⟩
  | cons c text ih =>
      rw [partition]
      by_cases hc : c = separator
      · rw [if_pos hc, hc]
        exact ⟨List.not_mem_nil, rfl⟩
      · rw [if_neg hc]
        obtain ⟨hfirst, hrest⟩ := ih
        refine ⟨fun hmem => (List.mem_cons.mp hmem).elim (fun heq => hc heq.symm) hfirst, ?_⟩
        cases hsnd : (partition separator text).2 with
        | none | some =>
            rw [hsnd] at hrest
            exact congrArg (c :: ·) hrest

theorem afterLast_of_not_mem (h : separator ∉ text) : afterLast separator text = text := by
  have hall : text.reverse.takeWhile (· ≠ separator) = text.reverse := by
    refine List.takeWhile_eq_self_iff.mpr fun c hc => ?_
    rw [List.mem_reverse] at hc
    simpa using fun heq : c = separator => h (heq ▸ hc)
  rw [afterLast, hall, List.reverse_reverse]

theorem afterLast_append (h : separator ∉ text) (before : List Char) :
    afterLast separator (before ++ separator :: text) = text := by
  have hstop : (text.reverse ++ separator :: before.reverse).takeWhile (· ≠ separator) =
      text.reverse := by
    rw [List.takeWhile_append_of_pos]
    · simp
    · intro c hc
      rw [List.mem_reverse] at hc
      simpa using fun heq : c = separator => h (heq ▸ hc)
  rw [afterLast, List.reverse_append, List.reverse_cons, List.append_assoc, List.singleton_append,
    hstop, List.reverse_reverse]

theorem afterLast_spec (separator : Char) (text : List Char) :
    separator ∉ afterLast separator text ∧
      (text = afterLast separator text ∨
        ∃ before, text = before ++ separator :: afterLast separator text) := by
  by_cases hmem : separator ∈ text
  · obtain ⟨before, rest, hsplit, hrest⟩ := List.eq_append_cons_of_mem (List.mem_reverse.mpr hmem)
    have htext : text = rest.reverse ++ separator :: before.reverse := by
      rw [← List.reverse_reverse text, hsplit]
      simp
    have hfree : separator ∉ before.reverse := fun h => hrest (List.mem_reverse.mp h)
    have hlast : afterLast separator text = before.reverse := by
      rw [htext]
      exact afterLast_append hfree _
    rw [hlast]
    exact ⟨hfree, .inr ⟨_, htext⟩⟩
  · rw [afterLast_of_not_mem hmem]
    exact ⟨hmem, .inl rfl⟩

theorem afterLast_append_of_not_mem (h : separator ∉ rest) (text : List Char) :
    afterLast separator (text ++ rest) = afterLast separator text ++ rest := by
  rw [afterLast, List.reverse_append, List.takeWhile_append_of_pos, List.reverse_append,
    List.reverse_reverse, afterLast]
  intro c hc
  rw [List.mem_reverse] at hc
  simpa using fun heq : c = separator => h (heq ▸ hc)

end Cutting

end PyStr
