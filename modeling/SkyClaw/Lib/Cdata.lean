import SkyClaw.Lib.SubText

/-!
# CDATA sections

A section starts at `<![CDATA[` and ends at the first `]]>`; what is not in a section is outside.  A text
that is escaped and put into a section is read as one or more adjacent sections, and their data is the
text (`scan_escape`).
-/

namespace Cdata

open SubText

def opener : List Char := "<![CDATA[".toList

def closer : List Char := "]]>".toList

inductive Piece where
  | outside (text : List Char)
  | data (text : List Char)
  /-- A section without an end. -/
  | unclosed (text : List Char)
deriving DecidableEq

theorem closer_ne_nil : closer ≠ [] := by decide

theorem opener_ne_nil : opener ≠ [] := by decide

theorem length_lt_of_cut {text before rest : List Char} {pattern : List Char} (hne : pattern ≠ [])
    (h : cut pattern text = some (before, rest)) : rest.length < text.length := by
  rw [(cut_eq_some h).1, List.length_append, List.length_append]
  have := List.length_pos_iff.mpr hne
  omega

/-- The pieces of a text, read from outside of a section. -/
def scan (text : List Char) : List Piece :=
  match _ : cut opener text with
  | none => [.outside text]
  | some (before, rest) => .outside before :: match _ : cut closer rest with
      | none => [.unclosed rest]
      | some (body, after) => .data body :: scan after
termination_by text.length
decreasing_by
  exact (length_lt_of_cut closer_ne_nil ‹_›).trans (length_lt_of_cut opener_ne_nil ‹_›)

/-- The pieces of a text, read from inside of a section. -/
def scanData (text : List Char) : List Piece :=
  match cut closer text with
  | none => [.unclosed text]
  | some (body, after) => .data body :: scan after

theorem scan_eq (text : List Char) :
    scan text = match cut opener text with
      | none => [.outside text]
      | some (before, rest) => .outside before :: scanData rest := by
  rw [scan]
  split
  · next hopen => rw [hopen]
  · next before rest hopen =>
    rw [hopen]
    refine congrArg (Piece.outside before :: ·) ?_
    unfold scanData
    split
    · next hclose => rw [hclose]
    · next body after hclose => rw [hclose]

/-! ## What the pieces hold -/

def dataOf : Piece → List Char
  | .data text => text
  | _ => []

/-- The data of all sections. -/
def data (pieces : List Piece) : List Char := pieces.flatMap dataOf

def outsideOf : Piece → Option (List Char)
  | .outside text => some text
  | _ => none

/-- The texts outside of the sections. -/
def outsides (pieces : List Piece) : List (List Char) := pieces.filterMap outsideOf

/-- Every section has an end. -/
def Complete (pieces : List Piece) : Prop := ∀ text, Piece.unclosed text ∉ pieces

section

variable (bodies : List (List Char))

/-- Sections that follow one another with nothing between them. -/
def adjacent : List Piece :=
  bodies.flatMap fun body => [.outside [], .data body]

theorem data_append (first second : List Piece) :
    data (first ++ second) = data first ++ data second := List.flatMap_append

theorem outsides_append (first second : List Piece) :
    outsides (first ++ second) = outsides first ++ outsides second := List.filterMap_append

theorem data_adjacent : data (adjacent bodies) = bodies.flatten := by
  induction bodies with
  | nil => rfl
  | cons body bodies ih => exact congrArg (body ++ ·) ih

theorem outsides_adjacent :
    outsides (adjacent bodies) = List.replicate bodies.length [] := by
  induction bodies with
  | nil => rfl
  | cons body bodies ih => exact congrArg ([] :: ·) ih

theorem filter_outsides_adjacent : (outsides (adjacent bodies)).filter (· ≠ []) = [] := by
  rw [outsides_adjacent]
  refine List.filter_eq_nil_iff.mpr fun text htext => ?_
  rw [List.eq_of_mem_replicate htext]
  decide

theorem complete_adjacent : Complete (adjacent bodies) := by
  intro text hmem
  obtain ⟨body, -, hbody⟩ := List.mem_flatMap.mp hmem
  rcases List.mem_cons.mp hbody with h | h
  · cases h
  · cases List.mem_singleton.mp h

end

theorem unbordered_opener : Unbordered opener := by decide

theorem unbordered_closer : Unbordered closer := by decide

theorem scan_of_plain {text : List Char} (h : ¬opener <:+: text) :
    scan text = [.outside text] := by
  rw [scan_eq, (cut_eq_none_iff opener_ne_nil).mpr h]

theorem scan_opener {before : List Char} (h : ¬opener <:+: before) (rest : List Char) :
    scan (before ++ opener ++ rest) = .outside before :: scanData rest := by
  rw [scan_eq, cut_append unbordered_opener opener_ne_nil h]

theorem scanData_closer {body : List Char} (h : ¬closer <:+: body) (rest : List Char) :
    scanData (body ++ closer ++ rest) = .data body :: scan rest := by
  rw [scanData, cut_append unbordered_closer closer_ne_nil h]

/-! ## What occurs outside -/

/-- The marker occurs outside of the sections. -/
def Outside (marker text : List Char) : Prop := ∃ piece ∈ outsides (scan text), marker <:+: piece

variable {marker text before rest body after : List Char}

theorem exists_mem_one {piece : List Char} :
    (∃ text ∈ [piece], marker <:+: text) ↔ marker <:+: piece := by
  simp

theorem outside_of_plain (h : ¬opener <:+: text) : Outside marker text ↔ marker <:+: text := by
  unfold Outside
  rw [scan_of_plain h]
  exact exists_mem_one

theorem outside_of_unclosed (hopen : cut opener text = some (before, rest))
    (hclose : cut closer rest = none) : Outside marker text ↔ marker <:+: before := by
  unfold Outside
  rw [scan_eq, hopen]
  simp only [scanData, hclose]
  exact exists_mem_one

theorem not_complete_of_unclosed (hopen : cut opener text = some (before, rest))
    (hclose : cut closer rest = none) : ¬Complete (scan text) := by
  rw [scan_eq, hopen]
  simp only [scanData, hclose]
  exact fun h => h rest (List.mem_cons_of_mem _ List.mem_cons_self)

theorem outside_of_closed (hopen : cut opener text = some (before, rest))
    (hclose : cut closer rest = some (body, after)) :
    Outside marker text ↔ marker <:+: before ∨ Outside marker after := by
  unfold Outside
  rw [scan_eq, hopen]
  simp only [scanData, hclose]
  exact List.exists_mem_cons_iff ..

theorem complete_of_closed (hopen : cut opener text = some (before, rest))
    (hclose : cut closer rest = some (body, after)) :
    Complete (scan text) ↔ Complete (scan after) := by
  rw [scan_eq, hopen]
  simp only [scanData, hclose]
  constructor
  · exact fun h text hmem => h text (List.mem_cons_of_mem _ (List.mem_cons_of_mem _ hmem))
  · intro h text hmem
    rcases List.mem_cons.mp hmem with heq | hmem
    · cases heq
    · rcases List.mem_cons.mp hmem with heq | hmem
      · cases heq
      · exact h text hmem

theorem complete_of_plain (h : ¬opener <:+: text) : Complete (scan text) := by
  rw [scan_of_plain h]
  intro text hmem
  cases List.mem_singleton.mp hmem

/-- What occurs outside of the sections occurs. -/
theorem Outside.occurs {text : List Char} (h : Outside marker text) : marker <:+: text := by
  induction hlength : text.length using Nat.strong_induction_on generalizing text with
  | _ n ih =>
    cases hopen : cut opener text with
    | none => exact (outside_of_plain ((cut_eq_none_iff opener_ne_nil).mp hopen)).mp h
    | some parts =>
        obtain ⟨before, rest⟩ := parts
        have htext := (cut_eq_some hopen).1
        have hbefore : before <:+: text := by
          rw [htext, List.append_assoc]
          exact (List.prefix_append _ _).isInfix
        cases hclose : cut closer rest with
        | none => exact ((outside_of_unclosed hopen hclose).mp h).trans hbefore
        | some inner =>
            obtain ⟨body, after⟩ := inner
            have hafter : after <:+: text := by
              rw [htext, (cut_eq_some hclose).1]
              exact ((List.suffix_append _ _).trans (List.suffix_append _ _)).isInfix
            have hshorter : after.length < n := hlength ▸
              (length_lt_of_cut closer_ne_nil hclose).trans (length_lt_of_cut opener_ne_nil hopen)
            rcases (outside_of_closed hopen hclose).mp h with hfirst | hlater
            · exact hfirst.trans hbefore
            · exact (ih _ hshorter hlater rfl).trans hafter

/-- **Behind a character that no marker has**, a text without sections is read outside if the text in
front of it leaves no section open, and else not at all. -/
theorem outside_append {c : Char} (hopener : c ∉ opener) (hcloser : c ∉ closer) (hmarker : c ∉ marker)
    {more : List Char} (hplain : ¬opener <:+: more) (hend : ¬closer <:+: more)
    (text : List Char) :
    Outside marker (text ++ c :: more) ↔
      Outside marker text ∨ Complete (scan text) ∧ marker <:+: more := by
  induction hlength : text.length using Nat.strong_induction_on generalizing text with
  | _ n ih =>
    cases hopen : cut opener text with
    | none =>
        have hnot := (cut_eq_none_iff opener_ne_nil).mp hopen
        have hnot' : ¬opener <:+: text ++ c :: more := by
          rw [infix_append_cons hopener]
          exact not_or_intro hnot hplain
        rw [outside_of_plain hnot', outside_of_plain hnot, infix_append_cons hmarker,
          and_iff_right (complete_of_plain hnot)]
    | some parts =>
        obtain ⟨before, rest⟩ := parts
        have hopen' := cut_append_right hopen (c :: more)
        cases hclose : cut closer rest with
        | none =>
            have hclose' : cut closer (rest ++ c :: more) = none := by
              rw [cut_eq_none_iff closer_ne_nil, infix_append_cons hcloser]
              exact not_or_intro ((cut_eq_none_iff closer_ne_nil).mp hclose) hend
            rw [outside_of_unclosed hopen' hclose', outside_of_unclosed hopen hclose]
            refine (or_iff_left fun h => ?_).symm
            exact not_complete_of_unclosed hopen hclose h.1
        | some inner =>
            obtain ⟨body, after⟩ := inner
            have hshorter : after.length < n := hlength ▸
              (length_lt_of_cut closer_ne_nil hclose).trans (length_lt_of_cut opener_ne_nil hopen)
            rw [outside_of_closed hopen' (cut_append_right hclose (c :: more)),
              outside_of_closed hopen hclose, complete_of_closed hopen hclose, ih _ hshorter after rfl,
              or_assoc]

/-! ## Escaping -/

/-- An end in the text is divided between two sections. -/
def escape (text : List Char) : List Char := replace closer "]]]]><![CDATA[>".toList text

theorem escape_eq (text : List Char) :
    escape text = match cut closer text with
      | none => text
      | some (before, rest) => before ++ "]]]]><![CDATA[>".toList ++ escape rest := by
  unfold escape
  rw [replace_eq closer_ne_nil]
  cases cut closer text with
  | none | some => rfl

theorem not_closer_in {head text : List Char} (hhead : head = [] ∨ head = ['>'])
    (h : ¬closer <:+: text) : ¬closer <:+: head ++ text := by
  rcases hhead with rfl | rfl
  · exact h
  · intro hoccurs
    rcases List.infix_cons_iff.mp hoccurs with hprefix | hlater
    · have hfirst : closer.head? = some '>' := by
        obtain ⟨more, hmore⟩ := hprefix
        exact congrArg List.head? hmore
      exact absurd hfirst (by decide)
    · exact h hlater

/-- **What has been escaped is read back**, also behind the `>` of an end that has been divided. -/
theorem scanData_escape (text rest : List Char) {head : List Char}
    (hhead : head = [] ∨ head = ['>']) :
    ∃ first others, first ++ others.flatten = head ++ text ∧
      scanData (head ++ escape text ++ closer ++ rest) =
        .data first :: (adjacent others ++ scan rest) := by
  induction hlength : text.length using Nat.strong_induction_on generalizing text head with
  | _ n ih =>
    rw [escape_eq]
    cases hcut : cut closer text with
    | none =>
        have hnot := (cut_eq_none_iff closer_ne_nil).mp hcut
        exact ⟨head ++ text, [], List.append_nil _,
          scanData_closer (not_closer_in hhead hnot) rest⟩
    | some parts =>
        obtain ⟨before, after⟩ := parts
        obtain ⟨rfl, hfirst⟩ := cut_eq_some hcut
        -- The section ends within the divided end; the next one starts with its `>`.
        have hbody : ¬closer <:+: head ++ (before ++ "]]".toList) :=
          not_closer_in hhead (hfirst closer_ne_nil)
        have hshorter : after.length < n := hlength ▸ length_lt_of_cut closer_ne_nil hcut
        obtain ⟨first, others, hdata, hscan⟩ := ih _ hshorter after (.inr rfl) rfl
        refine ⟨head ++ (before ++ "]]".toList), first :: others, ?_, ?_⟩
        · rw [List.flatten_cons, hdata]
          simp only [List.append_assoc]
          rfl
        · have hshape : head ++ (before ++ "]]]]><![CDATA[>".toList ++ escape after) ++ closer ++ rest =
              head ++ (before ++ "]]".toList) ++ closer ++
                ([] ++ opener ++ (['>'] ++ escape after ++ closer ++ rest)) := by
            simp only [List.append_assoc]
            rfl
          show scanData (head ++ (before ++ "]]]]><![CDATA[>".toList ++ escape after) ++ closer ++ rest) = _
          rw [hshape, scanData_closer hbody, scan_opener (by decide), hscan]
          rfl

/-- **A section with an escaped text**: adjacent sections that hold the text, then what is behind it. -/
theorem scan_escape {before : List Char} (h : ¬opener <:+: before) (text rest : List Char) :
    ∃ first others, first ++ others.flatten = text ∧
      scan (before ++ opener ++ (escape text ++ closer ++ rest)) =
        .outside before :: .data first :: (adjacent others ++ scan rest) := by
  obtain ⟨first, others, hdata, hscan⟩ := scanData_escape text rest (.inl rfl)
  refine ⟨first, others, hdata, ?_⟩
  rw [scan_opener h]
  exact congrArg _ hscan

theorem complete_scan_escape {before rest : List Char} (h : ¬opener <:+: before) (text : List Char)
    (hrest : Complete (scan rest)) :
    Complete (scan (before ++ opener ++ (escape text ++ closer ++ rest))) := by
  obtain ⟨first, others, -, hscan⟩ := scan_escape h text rest
  rw [hscan]
  intro piece hmem
  rcases List.mem_cons.mp hmem with heq | hmem
  · cases heq
  rcases List.mem_cons.mp hmem with heq | hmem
  · cases heq
  rcases List.mem_append.mp hmem with hmem | hmem
  · exact complete_adjacent others piece hmem
  · exact hrest piece hmem

end Cdata
