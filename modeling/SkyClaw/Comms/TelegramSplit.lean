import Mathlib.Data.List.TakeWhile
import SkyClaw.Lib.WhileLoop

/-!
# How `TelegramSender` splits a text

`_split_message` cuts a long text at the last newline within the limit and drops the newlines behind
the cut.  `splitsWell_iff`: nothing but newlines is lost, and only a text whose one newline within the
limit is its first character gets an empty chunk.
-/

namespace SkyClaw.Comms.TelegramSplit

def maxMessageLength : Nat := 4096

/-- `text.rfind(c)`, `none` for `-1`. -/
def rfind (c : Char) : List Char → Option Nat
  | [] => none
  | d :: text =>
      match rfind c text with
      | some i => some (i + 1)
      | none => if d = c then some 0 else none

/-- The last newline within the limit, or the limit. -/
def splitAt (remaining : List Char) : Nat :=
  (rfind '\n' (remaining.take maxMessageLength)).getD maxMessageLength

/-- The variables of the loop. -/
structure Loop where
  chunks : List (List Char)
  remaining : List Char

def turn (s : Loop) : Loop ⊕ List (List Char) :=
  if s.remaining = [] then .inr s.chunks
  else if s.remaining.length ≤ maxMessageLength then .inr (s.chunks ++ [s.remaining])
  else
    .inl
      { chunks := s.chunks ++ [s.remaining.take (splitAt s.remaining)]
        remaining := (s.remaining.drop (splitAt s.remaining)).dropWhile (· = '\n') }

/-- `_split_message` returns these chunks. -/
def Splits (text : List Char) (chunks : List (List Char)) : Prop :=
  if text.length ≤ maxMessageLength then chunks = [text] else WhileLoop.Returns turn ⟨[], text⟩ chunks

/-! ## What it is for -/

/-- Each chunk with the newlines behind it. -/
def glue (chunks : List (List Char)) (gaps : List Nat) : List Char :=
  (List.zipWith (fun chunk gap => chunk ++ List.replicate gap '\n') chunks gaps).flatten

/-- The text is the chunks, with newlines between them and at its end. -/
def Rejoins (text : List Char) (chunks : List (List Char)) : Prop :=
  ∃ gaps : List Nat, gaps.length = chunks.length ∧ text = glue chunks gaps

/-- A chunk that can be sent. -/
def Sendable (chunk : List Char) : Prop := chunk ≠ [] ∧ chunk.length ≤ maxMessageLength

/-- There is an answer, and every chunk of it can be sent and nothing else is lost. -/
def SplitsWell (text : List Char) : Prop :=
  ∃ chunks, Splits text chunks ∧ (∀ chunk ∈ chunks, Sendable chunk) ∧ Rejoins text chunks

/-- A text over the limit that starts with a newline and has no other one within it. -/
def CutsFirst (text : List Char) : Prop :=
  maxMessageLength < text.length ∧ text.head? = some '\n' ∧
    '\n' ∉ (text.take maxMessageLength).tail

/-! ## The cut -/

variable {c : Char}

theorem rfind_eq_none_iff {text : List Char} : rfind c text = none ↔ c ∉ text := by
  induction text with
  | nil => exact iff_of_true rfl List.not_mem_nil
  | cons d text ih =>
      rw [List.mem_cons, not_or, ← ih, rfind]
      cases rfind c text with
      | some i => simp
      | none =>
          by_cases hd : d = c
          · simp [hd]
          · simp [hd, Ne.symm hd]

theorem rfind_eq_some {text : List Char} {i : Nat} (h : rfind c text = some i) :
    i < text.length ∧ (text.drop i).head? = some c ∧ c ∉ text.drop (i + 1) := by
  induction text generalizing i with
  | nil => cases h
  | cons d text ih =>
      rw [rfind] at h
      cases hrest : rfind c text with
      | some j =>
          rw [hrest] at h
          cases h
          obtain ⟨hlt, hhead, hlater⟩ := ih hrest
          exact ⟨Nat.succ_lt_succ hlt, hhead, hlater⟩
      | none =>
          rw [hrest] at h
          simp only at h
          split_ifs at h with hd
          cases h
          exact ⟨Nat.succ_pos _, congrArg some hd, rfind_eq_none_iff.mp hrest⟩

theorem splitAt_le (remaining : List Char) : splitAt remaining ≤ maxMessageLength := by
  unfold splitAt
  cases hfind : rfind '\n' (remaining.take maxMessageLength) with
  | none => exact le_rfl
  | some i =>
      have hlt := (rfind_eq_some hfind).1
      rw [List.length_take] at hlt
      show i ≤ _
      omega

variable {remaining : List Char}

/-- **The cut is at the first character** exactly where that is the one newline within the limit. -/
theorem splitAt_eq_zero_iff (hlong : maxMessageLength < remaining.length) :
    splitAt remaining = 0 ↔ CutsFirst remaining := by
  unfold splitAt CutsFirst
  constructor
  · intro h
    cases hfind : rfind '\n' (remaining.take maxMessageLength) with
    | none =>
        rw [hfind] at h
        cases h
    | some i =>
        rw [hfind] at h
        obtain rfl : i = 0 := h
        obtain ⟨-, hhead, hlater⟩ := rfind_eq_some hfind
        refine ⟨hlong, ?_, ?_⟩
        · rwa [List.drop_zero, List.head?_take, if_neg (by decide)] at hhead
        · rwa [List.drop_one] at hlater
  · rintro ⟨-, hhead, hlater⟩
    obtain ⟨tail, rfl⟩ := List.head?_eq_some_iff.mp hhead
    have htail : '\n' ∉ tail.take (maxMessageLength - 1) := hlater
    have hfind : rfind '\n' (('\n' :: tail).take maxMessageLength) = some 0 := by
      show (match rfind '\n' (tail.take (maxMessageLength - 1)) with
        | some i => some (i + 1)
        | none => if '\n' = '\n' then some 0 else none) = _
      rw [rfind_eq_none_iff.mpr htail]
      rfl
    rw [hfind]
    rfl

/-! ## A turn -/

/-- What is left after a cut. -/
def rest (remaining : List Char) : List Char :=
  (remaining.drop (splitAt remaining)).dropWhile (· = '\n')

/-- **A turn drops nothing but newlines.** -/
theorem exists_gap (remaining : List Char) : ∃ gap, remaining =
    remaining.take (splitAt remaining) ++ List.replicate gap '\n' ++ rest remaining := by
  refine ⟨((remaining.drop (splitAt remaining)).takeWhile (· = '\n')).length, ?_⟩
  have hnewlines : (remaining.drop (splitAt remaining)).takeWhile (· = '\n') =
      List.replicate ((remaining.drop (splitAt remaining)).takeWhile (· = '\n')).length '\n' := by
    refine List.eq_replicate_iff.mpr ⟨rfl, fun c hc => ?_⟩
    simpa using List.mem_takeWhile_imp hc
  rw [← hnewlines, rest, List.append_assoc, List.takeWhile_append_dropWhile, List.take_append_drop]

theorem head_rest (remaining : List Char) : (rest remaining).head? ≠ some '\n' := by
  intro h
  have hhead := List.head?_dropWhile_not (· = '\n') (remaining.drop (splitAt remaining))
  unfold rest at h
  rw [h] at hhead
  simp at hhead

theorem length_rest (hlong : maxMessageLength < remaining.length) :
    (rest remaining).length < remaining.length := by
  have hle : (rest remaining).length ≤ (remaining.drop (splitAt remaining)).length :=
    (List.dropWhile_suffix _).length_le
  by_cases hzero : splitAt remaining = 0
  · -- The cut is at a newline, which is dropped.
    obtain ⟨tail, rfl⟩ := List.head?_eq_some_iff.mp ((splitAt_eq_zero_iff hlong).mp hzero).2.1
    have hrest : rest ('\n' :: tail) = tail.dropWhile (· = '\n') := by
      rw [rest, hzero]
      rfl
    rw [hrest]
    exact Nat.lt_succ_of_le (List.dropWhile_suffix _).length_le
  · rw [List.length_drop] at hle
    omega

variable {s : Loop}

theorem turn_long (hlong : maxMessageLength < s.remaining.length) :
    turn s = .inl ⟨s.chunks ++ [s.remaining.take (splitAt s.remaining)], rest s.remaining⟩ := by
  have hne : s.remaining ≠ [] := List.ne_nil_of_length_pos (Nat.zero_lt_of_lt hlong)
  unfold turn
  rw [if_neg hne, if_neg (not_le.mpr hlong)]
  rfl

variable {t : Loop}

theorem turn_eq_inl (h : turn s = .inl t) :
    maxMessageLength < s.remaining.length ∧
      t = ⟨s.chunks ++ [s.remaining.take (splitAt s.remaining)], rest s.remaining⟩ := by
  have hlong : maxMessageLength < s.remaining.length := by
    unfold turn at h
    split_ifs at h with hnil hshort
    exact not_le.mp hshort
  rw [turn_long hlong] at h
  exact ⟨hlong, (Sum.inl.inj h).symm⟩

variable {chunks : List (List Char)}

theorem turn_eq_inr (h : turn s = .inr chunks) :
    (s.remaining = [] ∧ chunks = s.chunks) ∨
      (s.remaining ≠ [] ∧ s.remaining.length ≤ maxMessageLength ∧
        chunks = s.chunks ++ [s.remaining]) := by
  unfold turn at h
  split_ifs at h with hnil hshort
  · exact .inl ⟨hnil, (Sum.inr.inj h).symm⟩
  · exact .inr ⟨hnil, hshort, (Sum.inr.inj h).symm⟩

/-! ## The loop -/

/-- **The loop ends.** -/
theorem exists_returns (text : List Char) : ∃ chunks, WhileLoop.Returns turn ⟨[], text⟩ chunks := by
  refine WhileLoop.exists_returns (I := fun _ => True)
    (InvImage.wf (fun s : Loop => s.remaining.length) Nat.lt_wfRel.wf) ?_ trivial
  intro s t _ hturn
  obtain ⟨hlong, rfl⟩ := turn_eq_inl hturn
  exact ⟨trivial, length_rest hlong⟩

theorem glue_concat {gaps : List Nat}
    (h : gaps.length = chunks.length) (chunk : List Char) (gap : Nat) :
    glue (chunks ++ [chunk]) (gaps ++ [gap]) =
      glue chunks gaps ++ (chunk ++ List.replicate gap '\n') := by
  unfold glue
  rw [List.zipWith_append h.symm, List.flatten_append]
  simp

/-- What the chunks so far and the text that is left have to do with the text. -/
structure Splitting (text : List Char) (s : Loop) : Prop where
  sendable : ∀ chunk ∈ s.chunks, Sendable chunk
  /-- a cut never falls on the first character again -/
  later : ¬CutsFirst s.remaining
  rejoins : ∃ gaps : List Nat, gaps.length = s.chunks.length ∧
    text = glue s.chunks gaps ++ s.remaining

theorem sendable_concat {last : List Char}
    (h : ∀ chunk ∈ chunks, Sendable chunk) (hlast : Sendable last) :
    ∀ chunk ∈ chunks ++ [last], Sendable chunk := by
  intro chunk hchunk
  rcases List.mem_append.mp hchunk with hold | hnew
  · exact h chunk hold
  · rwa [List.mem_singleton.mp hnew]

theorem splitting_next {text : List Char} (h : Splitting text s)
    (hturn : turn s = .inl t) : Splitting text t := by
  obtain ⟨hlong, rfl⟩ := turn_eq_inl hturn
  have hpos : splitAt s.remaining ≠ 0 := fun hzero =>
    h.later ((splitAt_eq_zero_iff hlong).mp hzero)
  have hle := splitAt_le s.remaining
  have hlength : (s.remaining.take (splitAt s.remaining)).length = splitAt s.remaining := by
    rw [List.length_take]
    omega
  obtain ⟨gaps, hgaps, htext⟩ := h.rejoins
  obtain ⟨gap, hgap⟩ := exists_gap s.remaining
  refine ⟨sendable_concat h.sendable ⟨?_, ?_⟩, fun hfirst => head_rest s.remaining hfirst.2.1,
    gaps ++ [gap], by simp [hgaps], ?_⟩
  · refine List.ne_nil_of_length_pos ?_
    omega
  · omega
  · show text = glue (s.chunks ++ [_]) _ ++ rest s.remaining
    rw [glue_concat hgaps, List.append_assoc, ← hgap, htext]

theorem splitting_stop {text : List Char}
    (h : Splitting text s) (hturn : turn s = .inr chunks) :
    (∀ chunk ∈ chunks, Sendable chunk) ∧ Rejoins text chunks := by
  obtain ⟨gaps, hgaps, htext⟩ := h.rejoins
  rcases turn_eq_inr hturn with ⟨hnil, rfl⟩ | ⟨hne, hshort, rfl⟩
  · rw [hnil, List.append_nil] at htext
    exact ⟨h.sendable, gaps, hgaps, htext⟩
  · refine ⟨sendable_concat h.sendable ⟨hne, hshort⟩, gaps ++ [0], by simp [hgaps], ?_⟩
    rw [glue_concat hgaps, List.replicate_zero, List.append_nil]
    exact htext

theorem nil_mem_of_cutsFirst {text : List Char} (h : CutsFirst text)
    (hreturns : WhileLoop.Returns turn ⟨[], text⟩ chunks) : [] ∈ chunks := by
  have hzero : splitAt text = 0 := (splitAt_eq_zero_iff h.1).mpr h
  have hfirst : turn ⟨[], text⟩ = .inl ⟨[[]], rest text⟩ := by
    rw [turn_long h.1, hzero]
    rfl
  rw [WhileLoop.returns_inl_iff hfirst] at hreturns
  refine hreturns.of_invariant (I := fun s => [] ∈ s.chunks) ?_ ?_ List.mem_cons_self
  · intro s t hmem hturn
    obtain ⟨-, rfl⟩ := turn_eq_inl hturn
    exact List.mem_append_left _ hmem
  · intro s result hmem hturn
    rcases turn_eq_inr hturn with ⟨-, rfl⟩ | ⟨-, -, rfl⟩
    · exact hmem
    · exact List.mem_append_left _ hmem

/-- **A text is split well** exactly if its first cut is not at its first character. -/
theorem splitsWell_iff (text : List Char) (hne : text ≠ []) :
    SplitsWell text ↔ ¬CutsFirst text := by
  unfold SplitsWell Splits
  by_cases hshort : text.length ≤ maxMessageLength
  · simp only [if_pos hshort]
    refine iff_of_true ⟨[text], rfl, ?_, [0], rfl, by simp [glue]⟩ fun h => absurd h.1 (by omega)
    intro chunk hchunk
    obtain rfl := List.mem_singleton.mp hchunk
    exact ⟨hne, hshort⟩
  · simp only [if_neg hshort]
    constructor
    · rintro ⟨chunks, hreturns, hsendable, -⟩ hfirst
      exact (hsendable [] (nil_mem_of_cutsFirst hfirst hreturns)).1 rfl
    · intro hfirst
      obtain ⟨chunks, hreturns⟩ := exists_returns text
      have hstart : Splitting text ⟨[], text⟩ :=
        ⟨fun chunk hchunk => absurd hchunk List.not_mem_nil, hfirst, [], rfl, rfl⟩
      refine ⟨chunks, hreturns, ?_⟩
      exact hreturns.of_invariant (fun _ _ => splitting_next) (fun _ _ => splitting_stop) hstart

theorem splitsWell_iff_line : SplitsWell ['a', '\n', 'b'] ↔ ¬CutsFirst ['a', '\n', 'b'] :=
  splitsWell_iff ['a', '\n', 'b'] (List.cons_ne_nil _ _)

/-- A newline and 4096 letters: the first chunk is empty. -/
theorem splitsWell_counterexample :
    ¬∀ text : List Char, text ≠ [] → SplitsWell text := by
  intro h
  refine (splitsWell_iff ('\n' :: List.replicate 4096 'a') (List.cons_ne_nil _ _)).mp
    (h _ (List.cons_ne_nil _ _)) ⟨?_, rfl, ?_⟩
  · rw [List.length_cons, List.length_replicate]
    decide
  · intro hmem
    have hletter : '\n' ∈ List.replicate 4096 'a' := List.mem_of_mem_take hmem
    exact absurd (List.eq_of_mem_replicate hletter) (by decide)

end SkyClaw.Comms.TelegramSplit
