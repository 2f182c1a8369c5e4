import Mathlib.Algebra.GroupWithZero.Nat
import SkyClaw.Lib.Cdata
import SkyClaw.Lib.PySlice
import SkyClaw.Lib.PyStr

/-!
# The prompt armor

`PromptArmor.encapsulate_external_data`.  `roundTrip_iff`: a CDATA scanner reads the content back, and
finds one closing tag, just if the name of the source has no marker in it.
-/

namespace SkyClaw.Security.PromptArmor

open SubText Cdata

/-! ## The block -/

/-- `PromptArmorConfig` -/
structure Config where
  enableXmlEncapsulation : Bool
  maxExternalBlockSize : Int
  allowedSources : List (List Char)

/-- The defaults of the fields. -/
def Config.default : Config where
  enableXmlEncapsulation := true
  maxExternalBlockSize := 16384
  allowedSources :=
    ["loadorder.txt".toList, "mod_metadata".toList, "nexus_description".toList,
      "conflict_report".toList, "loot_report".toList, "scraper_content".toList,
      "tool_result".toList]

/-- `PromptArmor: source '…' is not in allowed_sources. Allowed: …` -/
structure NotAllowed where
  source : List Char
  allowed : List (List Char)
deriving DecidableEq

def escapeCdata (text : List Char) : List Char := replace "]]>".toList "]]]]><![CDATA[>".toList text

def openTag (source : List Char) : List Char :=
  "<external_data source=\"".toList ++ source ++ "\">\n".toList

def closeTag : List Char := "</external_data>".toList

def notice : List Char := "\n[DATA TRUNCATED — exceeded max_external_block_size]".toList

variable (config : Config)

def truncated (content : List Char) : Bool :=
  decide (config.maxExternalBlockSize < (content.length : Int))

/-- The content that goes into the block. -/
def limited (content : List Char) : List Char :=
  if truncated config content then PySlice.before content config.maxExternalBlockSize else content

def encapsulateExternalData (source content : List Char) : Except NotAllowed (List Char) :=
  if config.enableXmlEncapsulation = false then .ok content
  else if source ∉ config.allowedSources then .error ⟨source, config.allowedSources⟩
  else
    let result := openTag source ++ "<![CDATA[".toList ++ escapeCdata (limited config content) ++
      "]]>\n".toList ++ closeTag
    .ok (if truncated config content then result ++ notice else result)

/-! ## Reading it -/

/-- What stands behind the sections. -/
def blockEnd (content : List Char) : List Char :=
  '\n' :: closeTag ++ if truncated config content then notice else []

/-- **The sections hold the content cut to the limit; outside of them there are the opening tag and one
closing tag, with at most the notice behind it.** -/
structure RoundTrip (source content output : List Char) : Prop where
  data : data (scan output) = limited config content
  complete : Complete (scan output)
  outside : (outsides (scan output)).filter (· ≠ []) = [openTag source, blockEnd config content]
  closedOnce : ((outsides (scan output)).map (count closeTag)).sum = 1
  atEnd : ∃ start tail, output = start ++ closeTag ++ tail ∧ (tail = [] ∨ tail = notice)

/-- There is no marker in the name of the source. -/
def PlainSource (source : List Char) : Prop := ¬opener <:+: source ∧ ¬closeTag <:+: source

instance (source : List Char) : Decidable (PlainSource source) :=
  inferInstanceAs (Decidable (¬opener <:+: source ∧ ¬closeTag <:+: source))

theorem plainSource_of_default : ∀ source ∈ Config.default.allowedSources, PlainSource source := by
  decide

variable {config}

theorem openTag_eq (source : List Char) :
    openTag source = "<external_data source=".toList ++ '"' :: (source ++ '"' :: ">\n".toList) := by
  show "<external_data source=\"".toList ++ source ++ "\">\n".toList = _
  rw [List.append_assoc]
  rfl

variable {source : List Char}

theorem infix_openTag_iff {marker : List Char} (hquote : '"' ∉ marker)
    (hleft : ¬marker <:+: "<external_data source=".toList) (hright : ¬marker <:+: ">\n".toList) :
    marker <:+: openTag source ↔ marker <:+: source := by
  rw [openTag_eq, infix_append_cons hquote, infix_append_cons hquote, or_iff_right hleft,
    or_iff_left hright]

theorem opener_infix_openTag_iff :
    opener <:+: openTag source ↔ opener <:+: source :=
  infix_openTag_iff (by decide) (by decide) (by decide)

theorem closeTag_infix_openTag_iff :
    closeTag <:+: openTag source ↔ closeTag <:+: source :=
  infix_openTag_iff (by decide) (by decide) (by decide)

/-- **The block.** -/
theorem encapsulateExternalData_eq_ok {content output : List Char}
    (henabled : config.enableXmlEncapsulation = true)
    (h : encapsulateExternalData config source content = .ok output) :
    output = openTag source ++ opener ++
      (escape (limited config content) ++ closer ++ blockEnd config content) := by
  unfold encapsulateExternalData at h
  rw [if_neg (by rw [henabled]; decide)] at h
  split at h
  · cases h
  · have heq := (Except.ok.inj h).symm
    rw [heq]
    unfold blockEnd
    split
    · simp only [List.append_assoc]
      rfl
    · simp only [List.append_assoc]
      rfl

theorem not_opener_blockEnd (content : List Char) : ¬opener <:+: blockEnd config content := by
  have hmark : '!' ∉ blockEnd config content := by
    unfold blockEnd
    split
    · decide
    · decide
  exact fun hoccurs => hmark (hoccurs.subset (by decide))

theorem count_blockEnd (content : List Char) : count closeTag (blockEnd config content) = 1 := by
  unfold blockEnd
  split
  · decide
  · decide

theorem blockEnd_ne_nil (content : List Char) : blockEnd config content ≠ [] :=
  List.cons_ne_nil _ _

theorem openTag_ne_nil (source : List Char) : openTag source ≠ [] := List.cons_ne_nil _ _

theorem sum_count_filter (texts : List (List Char)) :
    (texts.map (count closeTag)).sum = ((texts.filter (· ≠ [])).map (count closeTag)).sum := by
  induction texts with
  | nil => rfl
  | cons text texts ih =>
      rw [List.map_cons, List.sum_cons, ih]
      by_cases hnil : text = []
      · subst hnil
        have hzero : count closeTag ([] : List Char) = 0 := by decide
        rw [hzero, Nat.zero_add, List.filter_cons_of_neg (by simp)]
      · rw [List.filter_cons_of_pos (by simpa using hnil), List.map_cons, List.sum_cons]

theorem closedOnce_iff {content : List Char} {pieces : List Piece}
    (h : (outsides pieces).filter (· ≠ []) = [openTag source, blockEnd config content]) :
    ((outsides pieces).map (count closeTag)).sum = 1 ↔ ¬closeTag <:+: source := by
  rw [sum_count_filter, h, ← closeTag_infix_openTag_iff, ← count_eq_zero_iff]
  simp only [List.map_cons, List.map_nil, List.sum_cons, List.sum_nil, count_blockEnd]
  omega

/-- Where the first section would start in the name of the source, the opening tag is cut. -/
theorem not_opener_of_outside {content more : List Char}
    (h : (outsides (scan (openTag source ++ more))).filter (· ≠ []) =
      [openTag source, blockEnd config content]) : ¬opener <:+: source := by
  intro hsource
  have hoccurs : opener <:+: openTag source ++ more :=
    (opener_infix_openTag_iff.mpr hsource).trans (List.prefix_append _ _).isInfix
  cases hcut : cut opener (openTag source ++ more) with
  | none => exact (cut_eq_none_iff opener_ne_nil).mp hcut hoccurs
  | some parts =>
      obtain ⟨before, rest⟩ := parts
      obtain ⟨htext, hfirst⟩ := cut_eq_some hcut
      rw [scan_eq, hcut] at h
      change (before :: outsides (scanData rest)).filter (· ≠ []) = _ at h
      by_cases hnil : before = []
      · -- The text starts with the tag, not with a section.
        rw [hnil] at htext
        cases htext
      · rw [List.filter_cons_of_pos (by simpa using hnil)] at h
        obtain ⟨rfl, -⟩ := List.cons.inj h
        refine hfirst opener_ne_nil ?_
        exact (opener_infix_openTag_iff.mpr hsource).trans (List.prefix_append _ _).isInfix

/-! ## The round trip -/

/-- The content is read back from the block of a plain source. -/
theorem roundTrip_of_plain {content output : List Char}
    (henabled : config.enableXmlEncapsulation = true)
    (h : encapsulateExternalData config source content = .ok output) (hplain : PlainSource source) :
    RoundTrip config source content output := by
  have hblock := encapsulateExternalData_eq_ok henabled h
  have hopen : ¬opener <:+: openTag source := fun hoccurs =>
    hplain.1 (opener_infix_openTag_iff.mp hoccurs)
  obtain ⟨first, others, hdata, hscan⟩ :=
    scan_escape hopen (limited config content) (blockEnd config content)
  rw [← hblock, scan_of_plain (not_opener_blockEnd content)] at hscan
  have houtside : (outsides (scan output)).filter (· ≠ []) =
      [openTag source, blockEnd config content] := by
    rw [hscan]
    show (openTag source :: outsides (adjacent others ++ [.outside (blockEnd config content)])).filter
      (· ≠ []) = _
    rw [outsides_append, List.filter_cons_of_pos (by simpa using openTag_ne_nil source),
      List.filter_append, filter_outsides_adjacent]
    show openTag source :: ([] ++ [blockEnd config content].filter (· ≠ [])) = _
    rw [List.filter_cons_of_pos (by simpa using blockEnd_ne_nil content)]
    rfl
  refine ⟨?_, ?_, houtside, (closedOnce_iff houtside).mpr hplain.2, ?_⟩
  · rw [hscan]
    show first ++ data (adjacent others ++ [.outside (blockEnd config content)]) = _
    rw [data_append, data_adjacent, ← hdata]
    exact congrArg (first ++ ·) (List.append_nil _)
  · rw [hblock]
    exact complete_scan_escape hopen _ (complete_of_plain (not_opener_blockEnd content))
  · refine ⟨openTag source ++ opener ++ (escape (limited config content) ++ closer ++ ['\n']),
      if truncated config content then notice else [], ?_, ?_⟩
    · rw [hblock, blockEnd]
      simp only [List.append_assoc, List.cons_append, List.nil_append]
    · split
      · exact .inr rfl
      · exact .inl rfl

/-- **The content is read back, and the block closed once, just if the name of the source is plain.** -/
theorem roundTrip_iff {config : Config} {source content output : List Char}
    (henabled : config.enableXmlEncapsulation = true)
    (h : encapsulateExternalData config source content = .ok output) :
    RoundTrip config source content output ↔ PlainSource source := by
  refine ⟨fun htrip => ⟨?_, ?_⟩, roundTrip_of_plain henabled h⟩
  · have houtside := htrip.outside
    rw [encapsulateExternalData_eq_ok henabled h, List.append_assoc] at houtside
    exact not_opener_of_outside houtside
  · exact (closedOnce_iff htrip.outside).mp htrip.closedOnce

/-- A content that is the end of a section. -/
theorem roundTrip_iff_terminator :
    RoundTrip .default "mod_metadata".toList "]]>".toList
      ("<external_data source=\"mod_metadata\">\n<![CDATA[]]]]><![CDATA[>]]>\n" ++
        "</external_data>").toList :=
  (roundTrip_iff rfl (by decide)).mpr (plainSource_of_default _ (by decide))

/-- The defaults with another source. -/
def taggedSource : Config := { Config.default with allowedSources := [closeTag] }

/-- The defaults without blocks. -/
def noBlocks : Config := { Config.default with enableXmlEncapsulation := false }

/-- A source whose name is the closing tag closes its block twice; without blocks the content comes as
it is. -/
theorem roundTrip_counterexample :
    (∃ output, encapsulateExternalData taggedSource closeTag ['x'] = .ok output ∧
      ¬RoundTrip taggedSource closeTag ['x'] output) ∧
    (∃ output, encapsulateExternalData noBlocks "mod_metadata".toList ['x'] = .ok output ∧
      ¬RoundTrip noBlocks "mod_metadata".toList ['x'] output) := by
  refine ⟨⟨_, rfl, fun htrip => ?_⟩, ⟨_, rfl, fun htrip => ?_⟩⟩
  · exact (closedOnce_iff htrip.outside).mp htrip.closedOnce List.infix_rfl
  · have hdata := htrip.data
    rw [scan_of_plain (by decide)] at hdata
    exact absurd hdata (by decide)

end SkyClaw.Security.PromptArmor
