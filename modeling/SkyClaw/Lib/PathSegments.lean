import Mathlib.Data.Bool.AllAny
import SkyClaw.Lib.PurePath

/-!
# Segments of a path text, and lexical containment

What stands between the separators of either syntax, and when a text that is joined to a directory
stays below it, whichever directory and syntax: `insideEverywhere_iff`.
-/

namespace PurePath

/-- A separator of one of the two syntaxes. -/
def isSep (c : Char) : Bool := c == '/' || c == '\\'

/-- What stands between separators. -/
def segments (text : List Char) : List (List Char) := text.splitOnP isSep

variable {c : Char}

theorem segments_append_cons (before after : List Char) (hc : isSep c = true) :
    segments (before ++ c :: after) = segments before ++ segments after :=
  List.splitOnP_append_cons before after hc

theorem segments_map {f : Char → Char} (hsep : ∀ c, isSep (f c) = isSep c)
    (hother : ∀ c, isSep c = false → f c = c) (text : List Char) :
    segments (text.map f) = segments text := by
  unfold segments
  induction text with
  | nil => rfl
  | cons c rest ih =>
      rw [List.map_cons, List.splitOnP_cons_eq_if_modifyHead, List.splitOnP_cons_eq_if_modifyHead,
        hsep, ih]
      by_cases hc : isSep c = true
      · rw [if_pos hc, if_pos hc]
      · rw [if_neg hc, if_neg hc, hother c (Bool.eq_false_iff.mpr hc)]

theorem segments_replaceAltsep (fl : Flavour) (text : List Char) :
    segments (fl.replaceAltsep text) = segments text := by
  cases fl with
  | posix => rfl
  | windows =>
      refine segments_map (fun c => ?_) (fun c hc => ?_) text
      · by_cases hc : c = '/'
        · subst hc
          rfl
        · rw [if_neg hc]
      · exact if_neg fun hslash => by rw [hslash] at hc; cases hc

theorem segments_intercalate (hc : isSep c = true) {pieces : List (List Char)}
    (hne : pieces ≠ []) : segments ([c].intercalate pieces) = pieces.flatMap segments := by
  induction pieces with
  | nil => exact absurd rfl hne
  | cons piece pieces ih =>
      cases pieces with
      | nil => simp [List.intercalate]
      | cons next pieces =>
          have hcons : [c].intercalate (piece :: next :: pieces) =
              piece ++ c :: [c].intercalate (next :: pieces) := by
            simp [List.intercalate, List.intersperse]
          rw [hcons, segments_append_cons _ _ hc, ih (List.cons_ne_nil _ _)]
          exact List.flatMap_cons.symm

variable {piece : List Char}

theorem segments_subset_of_mem_splitOn (hc : isSep c = true) {text : List Char}
    (h : piece ∈ text.splitOn c) : segments piece ⊆ segments text := by
  intro segment hsegment
  have htext : [c].intercalate (text.splitOn c) = text := List.intercalate_splitOn c
  rw [← htext, segments_intercalate hc (List.splitOn_ne_nil c text)]
  exact List.mem_flatMap.mpr ⟨piece, h, hsegment⟩

/-- Where a piece of a text stands. -/
theorem exists_of_mem_splitOnP {p : Char → Bool} {text : List Char}
    (h : piece ∈ text.splitOnP p) :
    ∃ before after, text = before ++ (piece ++ after) ∧
      (∀ c ∈ before.getLast?, p c = true) ∧ ∀ c ∈ after.head?, p c = true := by
  induction hlength : text.length using Nat.strong_induction_on generalizing text with
  | _ n ih =>
      have htext := List.takeWhile_append_dropWhile (p := fun c => !p c) (l := text)
      have hfree : ∀ c ∈ text.takeWhile fun c => !p c, p c = false := by
        intro c hc
        have hnot := List.mem_takeWhile_imp (p := fun c => !p c) hc
        simpa using hnot
      generalize text.takeWhile (fun c => !p c) = first at htext hfree
      cases hrest : text.dropWhile fun c => !p c with
      | nil =>
          rw [hrest, List.append_nil] at htext
          subst htext
          rw [List.splitOnP_eq_singleton hfree, List.mem_singleton] at h
          subst h
          exact ⟨[], [], by simp, by simp, by simp⟩
      | cons c rest =>
          have hc : p c = true := by
            have hhead := List.head?_dropWhile_not (fun c => !p c) text
            rw [hrest] at hhead
            simpa using hhead
          rw [hrest] at htext
          subst htext
          rw [List.splitOnP_append_cons _ _ hc, List.splitOnP_eq_singleton hfree] at h
          rcases List.mem_append.mp h with h | h
          · rw [List.mem_singleton] at h
            subst h
            exact ⟨[], c :: rest, rfl, by simp, by simpa using hc⟩
          · obtain ⟨before, after, hcut, hbefore, hafter⟩ := ih rest.length
              (by rw [← hlength, List.length_append, List.length_cons]; omega) h rfl
            refine ⟨first ++ c :: before, after, by rw [hcut]; simp, ?_, hafter⟩
            intro d hd
            rw [List.getLast?_append, List.getLast?_cons] at hd
            cases hlast : before.getLast? with
            | none =>
                rw [hlast] at hd
                exact Option.some.inj hd ▸ hc
            | some last =>
                rw [hlast] at hd
                exact Option.some.inj hd ▸ hbefore last hlast

theorem subset_of_mem_splitOn {text : List Char} (h : piece ∈ text.splitOn c) :
    piece ⊆ text := by
  rw [List.splitOn_eq_splitOnP] at h
  obtain ⟨before, after, rfl, _⟩ := exists_of_mem_splitOnP h
  intro d hd
  exact List.mem_append_right _ (List.mem_append_left _ hd)

theorem isSep_sep (fl : Flavour) : isSep fl.sep = true := by cases fl <;> rfl

/-! ## Anchors -/

/-- Neither a separator nor a drive letter stands in front. -/
def Unanchored (text : List Char) : Prop :=
  (∀ c ∈ text.head?, isSep c = false) ∧ (splitLetter text).1 = []

theorem splitRoot_posix_relative {text : List Char} (h : text.head? ≠ some '/') :
    splitRoot .posix text = ([], [], text) := by
  cases text with
  | nil => rfl
  | cons c rest =>
      have hc : c ≠ '/' := fun heq => h (by rw [heq]; rfl)
      simp [splitRoot, hc]

theorem splitRoot_posix_absolute {rest : List Char} :
    (splitRoot .posix ('/' :: rest)).2.1 ≠ [] := by
  unfold splitRoot
  dsimp only
  split
  · exact List.cons_ne_nil '/' ['/']
  · exact List.cons_ne_nil _ _

theorem splitLetter_snd {text : List Char} (h : (splitLetter text).1 = []) :
    (splitLetter text).2 = text := by
  unfold splitLetter at h ⊢
  split at h
  · next letter rest =>
      by_cases halpha : letter.isAlpha = true
      · rw [if_pos halpha] at h
        cases h
      · rw [if_neg halpha]
  · rfl

theorem splitRoot_windows {text : List Char} (h : text.head? ≠ some '\\') :
    splitRoot .windows text =
      if (splitLetter text).2.head? = some '\\' then
        ((splitLetter text).1, ['\\'], (splitLetter text).2.dropWhile (· = '\\'))
      else ((splitLetter text).1, [], (splitLetter text).2) := by
  have hplain : "\\\\".toList.isPrefixOf text = false := by
    cases text with
    | nil => rfl
    | cons c rest =>
        have hc : '\\' ≠ c := fun heq => h (by rw [heq]; rfl)
        simp [List.isPrefixOf, hc]
  have hshare : splitShare text = none := by
    cases text with
    | nil => rfl
    | cons c rest =>
        have hc : c ≠ '\\' := fun heq => h (by rw [heq]; rfl)
        simp [splitShare, hc]
  simp only [splitRoot, hplain, Bool.false_eq_true, if_false, hshare, List.nil_append]

theorem splitRoot_windows_relative {text : List Char} (hhead : text.head? ≠ some '\\')
    (hletter : (splitLetter text).1 = []) : splitRoot .windows text = ([], [], text) := by
  rw [splitRoot_windows hhead, splitLetter_snd hletter, if_neg hhead, hletter]

theorem splitRoot_windows_rooted {rest : List Char} :
    (splitRoot .windows ('\\' :: rest)).1 ≠ [] ∨ (splitRoot .windows ('\\' :: rest)).2.1 ≠ [] := by
  have hextended : ∀ extended text,
      (if "\\\\".toList.isPrefixOf ('\\' :: rest) = true then splitExtended ('\\' :: rest)
        else ([], '\\' :: rest)) = (extended, text) →
      extended ≠ [] ∨ text = '\\' :: rest := by
    intro extended text h
    unfold splitExtended at h
    split_ifs at h <;> cases h
    · exact .inl (List.cons_ne_nil _ _)
    · exact .inl (List.cons_ne_nil _ _)
    · exact .inr rfl
    · exact .inr rfl
  have hletter : splitLetter ('\\' :: rest) = ([], '\\' :: rest) := by
    unfold splitLetter
    split
    · next letter text heq =>
        obtain ⟨rfl, htext⟩ := List.cons.inj heq
        rw [if_neg (by decide), htext]
    · rfl
  unfold splitRoot
  rcases hpair : (if "\\\\".toList.isPrefixOf ('\\' :: rest) = true then
    splitExtended ('\\' :: rest) else ([], '\\' :: rest)) with ⟨extended, text⟩
  dsimp only
  rw [hpair]
  cases hshare : splitShare text with
  | some share => exact .inr (List.cons_ne_nil _ _)
  | none =>
      rcases hextended extended text hpair with hne | rfl
      · refine .inl ?_
        dsimp only
        split
        · exact List.append_ne_nil_of_left_ne_nil hne _
        · exact List.append_ne_nil_of_left_ne_nil hne _
      · refine .inr ?_
        dsimp only
        rw [hletter]
        exact List.cons_ne_nil _ _

variable {fl : Flavour}

theorem splitRoot_rest {text : List Char} (hdrive : (splitRoot fl text).1 = [])
    (hroot : (splitRoot fl text).2.1 = []) : (splitRoot fl text).2.2 = text := by
  cases fl with
  | posix =>
      have hhead : text.head? ≠ some '/' := by
        intro hslash
        obtain ⟨rest, rfl⟩ := List.head?_eq_some_iff.mp hslash
        exact splitRoot_posix_absolute hroot
      rw [splitRoot_posix_relative hhead]
  | windows =>
      have hhead : text.head? ≠ some '\\' := by
        intro hslash
        obtain ⟨rest, rfl⟩ := List.head?_eq_some_iff.mp hslash
        exact splitRoot_windows_rooted.elim (· hdrive) (· hroot)
      rw [splitRoot_windows hhead] at hdrive
      have hletter : (splitLetter text).1 = [] := by
        split at hdrive
        · exact hdrive
        · exact hdrive
      rw [splitRoot_windows_relative hhead hletter]

theorem posix_root_eq_nil_iff {text : List Char} :
    (parse .posix text).root = [] ↔ text.head? ≠ some '/' := by
  constructor
  · intro hroot hslash
    obtain ⟨rest, rfl⟩ := List.head?_eq_some_iff.mp hslash
    exact splitRoot_posix_absolute hroot
  · intro hhead
    show (splitRoot .posix text).2.1 = []
    rw [splitRoot_posix_relative hhead]

theorem splitLetter_map_eq_nil_iff {f : Char → Char} (halpha : ∀ c, (f c).isAlpha = c.isAlpha)
    (hcolon : ∀ c, f c = ':' ↔ c = ':') (text : List Char) :
    (splitLetter (text.map f)).1 = [] ↔ (splitLetter text).1 = [] := by
  rcases text with _ | ⟨c, _ | ⟨d, rest⟩⟩
  · rfl
  · simp [splitLetter]
  · by_cases hd : d = ':'
    · subst hd
      rw [List.map_cons, List.map_cons, (hcolon ':').mpr rfl]
      simp only [splitLetter, halpha]
      by_cases hc : c.isAlpha = true
      · rw [if_pos hc, if_pos hc]
        exact iff_of_false (List.cons_ne_nil _ _) (List.cons_ne_nil _ _)
      · rw [if_neg hc, if_neg hc]
    · have hother : f d ≠ ':' := fun heq => hd ((hcolon d).mp heq)
      simp [splitLetter, hd, hother]

theorem splitLetter_sep_eq_nil_iff {a b : Char} (ha : isSep a = true) (hb : isSep b = true)
    (text : List Char) :
    (splitLetter (text.map fun c => if c = a then b else c)).1 = [] ↔
      (splitLetter text).1 = [] := by
  have hsep : ∀ c, isSep c = true → c.isAlpha = false ∧ c ≠ ':' := by
    intro c hc
    simp only [isSep, Bool.or_eq_true, beq_iff_eq] at hc
    rcases hc with rfl | rfl <;> exact ⟨by decide, by decide⟩
  refine splitLetter_map_eq_nil_iff (fun c => ?_) (fun c => ?_) text
  · by_cases hc : c = a
    · rw [if_pos hc, hc, (hsep a ha).1, (hsep b hb).1]
    · rw [if_neg hc]
  · by_cases hc : c = a
    · rw [if_pos hc, hc]
      exact iff_of_false (hsep b hb).2 (hsep a ha).2
    · rw [if_neg hc]

theorem windows_anchorless_iff {text : List Char} :
    (parse .windows text).drive = [] ∧ (parse .windows text).root = [] ↔ Unanchored text := by
  have hhead : (Flavour.windows.replaceAltsep text).head? ≠ some '\\' ↔
      ∀ c ∈ text.head?, isSep c = false := by
    cases text with
    | nil => simp [Flavour.replaceAltsep]
    | cons c rest =>
        by_cases hc : c = '/'
        · simp [Flavour.replaceAltsep, isSep, hc]
        · simp [Flavour.replaceAltsep, isSep, hc]
  have hletter : (splitLetter (Flavour.windows.replaceAltsep text)).1 = [] ↔
      (splitLetter text).1 = [] := splitLetter_sep_eq_nil_iff rfl rfl text
  show (splitRoot .windows (Flavour.windows.replaceAltsep text)).1 = [] ∧
    (splitRoot .windows (Flavour.windows.replaceAltsep text)).2.1 = [] ↔ _
  unfold Unanchored
  rw [← hhead, ← hletter]
  generalize Flavour.windows.replaceAltsep text = text
  constructor
  · rintro ⟨hdrive, hroot⟩
    have hfree : text.head? ≠ some '\\' := by
      intro hback
      obtain ⟨rest, rfl⟩ := List.head?_eq_some_iff.mp hback
      exact splitRoot_windows_rooted.elim (· hdrive) (· hroot)
    refine ⟨hfree, ?_⟩
    rw [splitRoot_windows hfree] at hdrive
    split at hdrive
    · exact hdrive
    · exact hdrive
  · rintro ⟨hfree, hnone⟩
    rw [splitRoot_windows_relative hfree hnone]
    exact ⟨rfl, rfl⟩

theorem segments_parentName : segments parentName = [parentName] := rfl

theorem parentName_not_mem_parts {text : List Char}
    (hdrive : (parse fl text).drive = []) (hroot : (parse fl text).root = [])
    (h : parentName ∉ segments text) : parentName ∉ (parse fl text).parts := by
  intro hmem
  have hpiece := List.mem_of_mem_filter hmem
  rw [splitRoot_rest hdrive hroot] at hpiece
  have hsubset := segments_subset_of_mem_splitOn (isSep_sep fl) hpiece
  rw [segments_replaceAltsep, segments_parentName] at hsubset
  exact h (hsubset (List.mem_singleton.mpr rfl))

theorem splitLetter_append_eq_nil_iff {part rest : List Char} (hne : part ≠ [])
    (hrest : ':' ∉ rest.head?) :
    (splitLetter (part ++ rest)).1 = [] ↔ (splitLetter part).1 = [] := by
  rcases part with _ | ⟨c, _ | ⟨d, part⟩⟩
  · exact absurd rfl hne
  · cases rest with
    | nil => rfl
    | cons d rest =>
        have hd : d ≠ ':' := fun heq => hrest (by rw [heq]; rfl)
        simp [splitLetter, hd]
  · by_cases hd : d = ':'
    · subst hd
      simp only [splitLetter, List.cons_append]
      split <;> simp
    · simp [splitLetter, hd]

theorem exists_intercalate_cons (c : Char) (part : List Char) (parts : List (List Char)) :
    ∃ rest, [c].intercalate (part :: parts) = part ++ rest ∧ ∀ d ∈ rest.head?, d = c := by
  cases parts with
  | nil => exact ⟨[], by simp [List.intercalate], by simp⟩
  | cons next parts =>
      exact ⟨c :: [c].intercalate (next :: parts), by simp [List.intercalate, List.intersperse],
        by simp⟩

theorem slash_not_mem_part {text part : List Char}
    (hdrive : (parse fl text).drive = []) (hroot : (parse fl text).root = [])
    (h : part ∈ (parse fl text).parts) : part ≠ [] ∧ '/' ∉ part := by
  obtain ⟨hmem, hkept⟩ := List.mem_filter.mp h
  refine ⟨(of_decide_eq_true hkept).1, ?_⟩
  cases fl with
  | posix => exact PyStr.not_mem_of_mem_splitOn hmem
  | windows =>
      intro hslash
      have hrest := subset_of_mem_splitOn hmem hslash
      rw [splitRoot_rest hdrive hroot] at hrest
      obtain ⟨c, _, hc⟩ := List.mem_map.mp hrest
      split at hc
      · cases hc
      · next hne => exact hne hc

/-! ## Containment -/

variable (u : UnicodeText)

/-- A path that is joined to a directory stays inside, by the text. -/
def Inside {fl : Flavour} (root : Location fl) (path : PurePath fl) : Prop :=
  fl.casefold u root.drive = fl.casefold u (join u root.toPath path).drive ∧
    root.parts.map (fl.casefold u) <+:
      (collapse [] (join u root.toPath path).parts).map (fl.casefold u)

variable {u}

theorem inside_of_relative (root : Location fl) {path : PurePath fl}
    (hdrive : path.drive = []) (hroot : path.root = []) (h : parentName ∉ path.parts) :
    Inside u root path := by
  unfold Inside join
  rw [if_neg (not_not.mpr hroot), if_pos (.inl hdrive)]
  have hclean : parentName ∉ root.parts ++ path.parts := fun hmem =>
    (List.mem_append.mp hmem).elim root.resolved h
  have hcollapse : collapse [] (root.toPath.parts ++ path.parts) = root.parts ++ path.parts :=
    collapse_of_clean hclean
  rw [hcollapse, List.map_append]
  exact ⟨rfl, List.prefix_append _ _⟩

theorem length_collapse_le (base parts : List (List Char)) :
    (collapse base parts).length ≤ base.length + parts.length := by
  induction parts generalizing base with
  | nil => exact Nat.le_refl _
  | cons part rest ih =>
      have henter : (enter base part).length ≤ base.length + 1 := by
        unfold enter
        split
        · rw [List.length_dropLast]
          omega
        · rw [List.length_append]
          exact Nat.le_refl _
      have hrest := ih (enter base part)
      show (collapse (enter base part) rest).length ≤ _
      rw [List.length_cons]
      omega

/-- A directory so far down that no path of a length reaches it. -/
def deep (fl : Flavour) (drive : List Char) (hdrive : drive = [] ↔ fl = .posix) (n : Nat) :
    Location fl where
  drive := drive
  parts := List.replicate (n + 1) ['a']
  drive_eq_nil := hdrive
  resolved := fun hmem => by cases List.eq_of_mem_replicate hmem

theorem not_inside_deep {drive : List Char} (hdrive : drive = [] ↔ fl = .posix)
    {path : PurePath fl} (hjoin : (join u (deep fl drive hdrive path.parts.length).toPath path).parts =
      path.parts) : ¬ Inside u (deep fl drive hdrive path.parts.length) path := by
  rintro ⟨_, hprefix⟩
  rw [hjoin] at hprefix
  have hlength := hprefix.length_le
  rw [List.length_map, List.length_map] at hlength
  have hcollapse := length_collapse_le [] path.parts
  have hdeep : (deep fl drive hdrive path.parts.length).parts.length = path.parts.length + 1 :=
    List.length_replicate
  rw [List.length_nil] at hcollapse
  omega

/-- A path that stays inside of every directory has no anchor. -/
theorem anchorless_of_inside {path : PurePath fl}
    (h : ∀ root : Location fl, Inside u root path) : path.drive = [] ∧ path.root = [] := by
  have hdrive : path.drive = [] := by
    by_contra hne
    have hflavour : fl = .windows := by
      cases fl with
      | posix => exact absurd (path.drive_posix rfl) hne
      | windows => rfl
    subst hflavour
    -- of the drives C and D, one at least is another drive than that of the path
    have hother : ∀ letter, Flavour.windows.casefold u path.drive =
        Flavour.windows.casefold u [letter, ':'] := by
      intro letter
      obtain ⟨hsame, _⟩ := h (deep .windows [letter, ':'] (iff_of_false (List.cons_ne_nil _ _)
        (by decide)) path.parts.length)
      by_contra hdiffer
      have hjoin : join u (deep .windows [letter, ':'] (iff_of_false (List.cons_ne_nil _ _)
          (by decide)) path.parts.length).toPath path = path := by
        have hneither : ¬ (path.drive = [] ∨ Flavour.windows.casefold u path.drive =
            Flavour.windows.casefold u [letter, ':']) := fun hor => hor.elim hne hdiffer
        unfold join
        split
        · rfl
        · exact if_neg hneither
      rw [hjoin] at hsame
      exact hdiffer hsame.symm
    have hfold : u.lower "C:".toList = u.lower "D:".toList := (hother 'C').symm.trans (hother 'D')
    rw [u.lower_ascii _ (List.all_iff_forall_prop.mp (by decide)),
      u.lower_ascii _ (List.all_iff_forall_prop.mp (by decide))] at hfold
    exact absurd hfold (by decide)
  refine ⟨hdrive, ?_⟩
  by_contra hroot
  have hjoin : ∀ root : Location fl, (join u root.toPath path).parts = path.parts := fun root => by
    rw [join, if_pos hroot, if_pos hdrive]
  cases fl with
  | posix => exact not_inside_deep posix_drive (hjoin _) (h _)
  | windows =>
      have hdrive : "C:".toList = [] ↔ Flavour.windows = .posix :=
        iff_of_false (List.cons_ne_nil _ _) (by decide)
      exact not_inside_deep hdrive (hjoin _) (h _)

/-- A text stays inside of every directory, as a path of either syntax. -/
def InsideEverywhere (u : UnicodeText) (text : List Char) : Prop :=
  ∀ (fl : Flavour) (root : Location fl), Inside u root (parse fl text)

theorem anchorless_of_unanchored {text : List Char} (h : Unanchored text) :
    (parse fl text).drive = [] ∧ (parse fl text).root = [] := by
  cases fl with
  | posix =>
      refine ⟨(parse .posix text).drive_posix rfl, posix_root_eq_nil_iff.mpr fun hhead => ?_⟩
      exact absurd (h.1 '/' hhead) (by decide)
  | windows => exact windows_anchorless_iff.mpr h

/-- **A text without `..` stays inside of every directory unless it has an anchor.** -/
theorem insideEverywhere_iff {text : List Char} (h : parentName ∉ segments text) :
    InsideEverywhere u text ↔ Unanchored text := by
  constructor
  · intro hinside
    exact windows_anchorless_iff.mp (anchorless_of_inside (hinside .windows))
  · intro hfree fl root
    obtain ⟨hdrive, hroot⟩ := anchorless_of_unanchored hfree
    exact inside_of_relative root hdrive hroot (parentName_not_mem_parts hdrive hroot h)

end PurePath
