import Mathlib.Data.List.Infix

/-!
# One text in another

The first occurrence of a text in another one, and the text with all occurrences replaced from the left
to the right.  No two occurrences of an `Unbordered` text overlap, so the first one is where it was put
if there is none in front of it.
-/

namespace SubText

variable {α : Type*} [DecidableEq α]

/-- What is in front of the first occurrence, and what is behind it. -/
def cut (pattern : List α) : List α → Option (List α × List α)
  | [] => none
  | c :: text =>
      if pattern <+: c :: text then some ([], (c :: text).drop pattern.length)
      else (cut pattern text).map fun parts => (c :: parts.1, parts.2)

/-- The replaced text; so many items belong to an occurrence that has been replaced already. -/
def replaceFrom (old new : List α) : Nat → List α → List α
  | _, [] => []
  | skip + 1, _ :: text => replaceFrom old new skip text
  | 0, c :: text =>
      if old <+: c :: text then new ++ replaceFrom old new (old.length - 1) text
      else c :: replaceFrom old new 0 text

/-- `text.replace(old, new)` -/
def replace (old new text : List α) : List α := replaceFrom old new 0 text

/-- The number of places at which a text occurs. -/
def count (pattern text : List α) : Nat := text.tails.countP fun rest => decide (pattern <+: rest)

/-! ## The first occurrence -/

variable {pattern text before rest : List α}

/-- **It is the first one**: with all but its last item there is none yet. -/
theorem cut_eq_some (h : cut pattern text = some (before, rest)) :
    text = before ++ pattern ++ rest ∧ (pattern ≠ [] → ¬pattern <:+: before ++ pattern.dropLast) := by
  induction text generalizing before with
  | nil => cases h
  | cons c text ih =>
      unfold cut at h
      split at h
      · next hprefix =>
        obtain ⟨more, hmore⟩ := hprefix
        cases h
        refine ⟨?_, fun hne hoccurs => ?_⟩
        · rw [List.nil_append, ← hmore, List.drop_left]
        · have hlength := hoccurs.length_le
          rw [List.nil_append, List.length_dropLast] at hlength
          have := List.length_pos_iff.mpr hne
          omega
      · next hprefix =>
        obtain ⟨⟨first, last⟩, hcut, heq⟩ := Option.map_eq_some_iff.mp h
        cases heq
        obtain ⟨rfl, hfirst⟩ := ih hcut
        refine ⟨rfl, fun hne hoccurs => ?_⟩
        rcases List.infix_cons_iff.mp hoccurs with hstart | hlater
        · refine hprefix (hstart.trans ?_)
          show c :: (first ++ pattern.dropLast) <+: c :: (first ++ pattern ++ last)
          rw [List.append_assoc]
          refine List.cons_prefix_cons.mpr ⟨rfl, List.prefix_append_right_inj first |>.mpr ?_⟩
          exact (List.dropLast_prefix pattern).trans (List.prefix_append pattern last)
        · exact hfirst hne hlater

theorem cut_eq_none_iff (hne : pattern ≠ []) : cut pattern text = none ↔ ¬pattern <:+: text := by
  induction text with
  | nil => exact iff_of_true rfl fun h => hne (List.infix_nil.mp h)
  | cons c text ih =>
      unfold cut
      rw [List.infix_cons_iff]
      split
      · next hprefix => exact iff_of_false nofun fun h => h (.inl hprefix)
      · next hprefix =>
        rw [Option.map_eq_none_iff, ih]
        exact ⟨fun h => fun h' => h'.elim hprefix h, fun h h' => h (.inr h')⟩

/-- What is found is found in front of more text, too. -/
theorem cut_append_right (h : cut pattern text = some (before, rest)) (more : List α) :
    cut pattern (text ++ more) = some (before, rest ++ more) := by
  induction text generalizing before with
  | nil => cases h
  | cons c text ih =>
      show cut pattern (c :: (text ++ more)) = _
      unfold cut at h ⊢
      split at h
      · next hprefix =>
        cases h
        have hmore : pattern <+: c :: (text ++ more) :=
          hprefix.trans (List.prefix_append (c :: text) more)
        have hdrop : (c :: (text ++ more)).drop pattern.length =
            (c :: text).drop pattern.length ++ more :=
          List.drop_append_of_le_length hprefix.length_le
        rw [if_pos hmore, hdrop]
      · next hprefix =>
        obtain ⟨⟨first, last⟩, hcut, heq⟩ := Option.map_eq_some_iff.mp h
        cases heq
        have hlength : pattern.length ≤ (c :: text).length := by
          rw [(cut_eq_some hcut).1, List.length_cons, List.length_append, List.length_append]
          omega
        have hnot : ¬pattern <+: c :: (text ++ more) := fun hmore => hprefix
          (List.prefix_of_prefix_length_le hmore (List.prefix_append (c :: text) more) hlength)
        rw [if_neg hnot, ih hcut]
        rfl

/-- No part of the text at its end is a part of it at its start. -/
def Unbordered (pattern : List α) : Prop :=
  ∀ k < pattern.length, 0 < k → ¬pattern.drop k <+: pattern

instance (pattern : List α) : Decidable (Unbordered pattern) :=
  inferInstanceAs (Decidable (∀ k < pattern.length, 0 < k → ¬pattern.drop k <+: pattern))

/-- What has been put behind a text without it is found there. -/
theorem cut_append (hpattern : Unbordered pattern) (hne : pattern ≠ [])
    (h : ¬pattern <:+: before) : cut pattern (before ++ pattern ++ rest) = some (before, rest) := by
  induction before with
  | nil =>
      obtain ⟨c, tail, rfl⟩ := List.exists_cons_of_ne_nil hne
      have hprefix : c :: tail <+: c :: (tail ++ rest) := List.prefix_append (c :: tail) rest
      have hdrop : (c :: (tail ++ rest)).drop (c :: tail).length = rest :=
        List.drop_left
      show cut (c :: tail) (c :: (tail ++ rest)) = some ([], rest)
      unfold cut
      rw [if_pos hprefix, hdrop]
  | cons c before ih =>
      rw [List.infix_cons_iff, not_or] at h
      have hnot : ¬pattern <+: c :: (before ++ pattern ++ rest) := by
        intro hprefix
        rw [← List.cons_append, ← List.cons_append, List.append_assoc] at hprefix
        rcases Nat.lt_or_ge (c :: before).length pattern.length with hshort | hlong
        · -- An occurrence that starts in front and reaches into it would overlap it.
          refine hpattern _ hshort (Nat.succ_pos _) ?_
          have hdrop := hprefix.drop (c :: before).length
          rw [List.drop_left] at hdrop
          refine List.prefix_of_prefix_length_le hdrop (List.prefix_append pattern rest) ?_
          rw [List.length_drop]
          exact Nat.sub_le _ _
        · refine h.1 (List.prefix_of_prefix_length_le hprefix ?_ hlong)
          exact List.prefix_append (c :: before) (pattern ++ rest)
      show cut pattern (c :: (before ++ pattern ++ rest)) = _
      unfold cut
      rw [if_neg hnot, ih h.2]
      rfl

omit [DecidableEq α] in
/-- An item that the pattern does not have parts the text in two. -/
theorem infix_append_cons {c : α} {left right : List α} (hc : c ∉ pattern) :
    pattern <:+: left ++ c :: right ↔ pattern <:+: left ∨ pattern <:+: right := by
  constructor
  · rintro ⟨start, tail, heq⟩
    rw [List.append_assoc] at heq
    rcases List.append_eq_append_iff.mp heq with ⟨gap, rfl, hgap⟩ | ⟨gap, rfl, hgap⟩
    · rcases List.append_eq_append_iff.mp hgap with ⟨gap', rfl, -⟩ | ⟨gap', rfl, hgap'⟩
      · exact .inl ⟨start, gap', List.append_assoc ..⟩
      · cases gap' with
        | nil => exact .inl ⟨start, [], by rw [List.append_nil, List.append_nil]⟩
        | cons d gap' =>
            cases hgap'
            exact absurd (List.mem_append_right gap List.mem_cons_self) hc
    · cases gap with
      | nil =>
          cases pattern with
          | nil => exact .inl List.nil_infix
          | cons d pattern =>
              cases hgap
              exact absurd List.mem_cons_self hc
      | cons d gap =>
          cases hgap
          exact .inr ⟨gap, tail, List.append_assoc ..⟩
  · rintro (h | h)
    · exact h.trans (List.prefix_append left (c :: right)).isInfix
    · exact h.trans ((List.suffix_cons c right).trans (List.suffix_append left (c :: right))).isInfix

variable {old new : List α}

theorem replaceFrom_skip (skip : Nat) (text : List α) :
    replaceFrom old new skip text = replaceFrom old new 0 (text.drop skip) := by
  induction skip generalizing text with
  | zero => rfl
  | succ skip ih =>
      cases text with
      | nil => rfl
      | cons c text => exact ih text

/-- The first occurrence is replaced, and then those behind it. -/
theorem replace_eq (hne : old ≠ []) (text : List α) :
    replace old new text = match cut old text with
      | none => text
      | some (before, rest) => before ++ new ++ replace old new rest := by
  induction text with
  | nil => rfl
  | cons c text ih =>
      have hcons : replace old new (c :: text) =
          if old <+: c :: text then new ++ replaceFrom old new (old.length - 1) text
          else c :: replace old new text := rfl
      rw [hcons, cut]
      by_cases hprefix : old <+: c :: text
      · rw [if_pos hprefix, if_pos hprefix, replaceFrom_skip]
        have hdrop : (c :: text).drop old.length = text.drop (old.length - 1) := by
          obtain ⟨n, hn⟩ := Nat.exists_eq_succ_of_ne_zero (List.length_pos_iff.mpr hne).ne'
          rw [hn]
          rfl
        show _ = [] ++ new ++ replace old new ((c :: text).drop old.length)
        rw [hdrop]
        rfl
      · rw [if_neg hprefix, if_neg hprefix, ih]
        cases cut old text with
        | none | some => rfl

theorem count_eq_zero_iff : count pattern text = 0 ↔ ¬pattern <:+: text := by
  unfold count
  rw [List.countP_eq_zero]
  constructor
  · rintro h hoccurs
    obtain ⟨rest, hprefix, hsuffix⟩ := List.infix_iff_prefix_suffix.mp hoccurs
    exact h rest ((List.mem_tails rest text).mpr hsuffix) (decide_eq_true hprefix)
  · intro h rest hrest hprefix
    have hsuffix := (List.mem_tails rest text).mp hrest
    exact h ((of_decide_eq_true hprefix).isInfix.trans hsuffix.isInfix)

end SubText
