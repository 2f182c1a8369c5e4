import SkyClaw.Xedit.ConflictAnalyzer

/-!
# The conflict script

`list_all_conflicts.pas`, which prints a line for each overridden record, and what
`ConflictAnalyzer` makes of its lines.  `reportsWhatScriptSaw_iff` says for which records the
report is what the script saw.
-/

namespace SkyClaw.Xedit

open PyStr (trim splitlines Newline)

/-! ## Records -/

/-- The characters that Windows allows in a file name. -/
def isFileNameChar (c : Char) : Bool :=
  0x20 ≤ c.toNat && !([0x22, 0x2A, 0x2F, 0x3A, 0x3C, 0x3E, 0x3F, 0x5C, 0x7C].contains c.toNat)

/-- The name of a plugin file. -/
structure PluginName where
  text : List Char
  ne_nil : text ≠ []
  chars : text.all isFileNameChar = true

/-- An editor id without `|` and line breaks. -/
structure EditorId where
  text : List Char
  noBar : '|' ∉ text
  noBreak : '\n' ∉ text ∧ '\r' ∉ text

/-- The characters of a record signature: capital letters, digits and underscores. -/
def isSignatureChar (c : Char) : Bool := PyRe.range 'A' 'Z' c || PyRe.range '0' '9' c || c == '_'

/-- A record signature. -/
structure Signature where
  text : List Char
  length_eq : text.length = 4
  chars : text.all isSignatureChar = true

/-- A main record as xEdit shows it to the script. -/
structure MainRecord where
  isMaster : Bool
  formId : UInt32
  editorId : EditorId
  signature : Signature
  file : PluginName
  /-- The plugins that override the record, in load order. -/
  overrides : List PluginName

/-- `WinningOverride`: the last override. -/
def MainRecord.winner (e : MainRecord) : List Char := (e.overrides.getLast?.getD e.file).text

/-! ## The script -/

def isCriticalType (sig : List Char) : Bool :=
  sig ∈ ["NPC_", "QUST", "SCPT", "PERK", "SPEL", "MGEF", "FACT", "DIAL", "PACK"].map String.toList

def isWarningType (sig : List Char) : Bool :=
  sig ∈ ["CELL", "WRLD", "REFR", "ACHR", "NAVM", "LAND", "WEAP", "ARMO", "AMMO", "BOOK", "INGR",
    "ALCH", "MISC", "CONT", "DOOR", "LIGH", "STAT", "FLOR", "FURN", "LVLI", "LVLN", "LVSP", "ENCH",
    "OTFT", "RACE", "COBJ", "KYWD"].map String.toList

def hexDigit (digit : Nat) : Char := "0123456789ABCDEF".toList.getD digit '0'

/-- `IntToHex(value, digits)`, for a value with no more digits. -/
def intToHex (value : Nat) : Nat → List Char
  | 0 => []
  | digits + 1 => intToHex (value / 16) digits ++ [hexDigit (value % 16)]

/-- A file added to `loserList`, unless it is the winner. -/
def addLoser (winner loserList : List Char) (file : PluginName) : List Char :=
  if file.text = winner then loserList
  else (if loserList = [] then [] else loserList ++ [',']) ++ file.text

/-- The loop of `Process` over the overrides, and the master file after it. -/
def loserList (e : MainRecord) : List Char :=
  addLoser e.winner (e.overrides.foldl (addLoser e.winner) []) e.file

def conflictLine (e : MainRecord) : List Char :=
  "CONFLICT|".toList ++ intToHex e.formId.toNat 8 ++ ['|'] ++ e.editorId.text ++ ['|'] ++
    e.signature.text ++ ['|'] ++ e.winner ++ ['|'] ++ loserList e

/-- The variables of the script, and its messages. -/
structure ScriptState where
  totalConflicts : Nat
  criticalCount : Nat
  minorCount : Nat
  messages : List (List Char)

def process (s : ScriptState) (e : MainRecord) : ScriptState :=
  if e.overrides.length < 1 then s
  -- a record that overrides another one is reported with its master
  else if e.isMaster = false then s
  else if loserList e = [] then s
  else
    { messages := s.messages ++ [conflictLine e]
      totalConflicts := s.totalConflicts + 1
      criticalCount := s.criticalCount + if isCriticalType e.signature.text then 1 else 0
      minorCount := s.minorCount +
        if isCriticalType e.signature.text = false ∧ isWarningType e.signature.text = false then 1
        else 0 }

/-- `Initialize` and `Process` for each record. -/
def runScript (records : List MainRecord) : ScriptState := records.foldl process ⟨0, 0, 0, []⟩

/-- The line of `Finalize`. -/
def summaryLine (s : ScriptState) : List Char :=
  "SUMMARY|total_conflicts=".toList ++ (toString s.totalConflicts).toList ++
    "|critical=".toList ++ (toString s.criticalCount).toList ++
    "|minor=".toList ++ (toString s.minorCount).toList

/-- The lines that the script prints. -/
def printedLines (records : List MainRecord) : List (List Char) :=
  (runScript records).messages ++ [summaryLine (runScript records)]

/-- The output: each message is a line. -/
def stdoutOf (newline : Newline) (records : List MainRecord) : List Char :=
  (printedLines records).flatMap (· ++ newline.chars)

/-! ## What the script saw -/

def MainRecord.losers (e : MainRecord) : List (List Char) :=
  ((e.overrides ++ [e.file]).map PluginName.text).filter (· ≠ e.winner)

/-- The records with a loser. -/
def conflicting (records : List MainRecord) : List MainRecord :=
  records.filter fun e => e.overrides ≠ [] ∧ e.isMaster = true ∧ e.losers ≠ []

variable {e : MainRecord}

theorem mem_conflicting_iff {records : List MainRecord} :
    e ∈ conflicting records ↔
      e ∈ records ∧ e.overrides ≠ [] ∧ e.isMaster = true ∧ e.losers ≠ [] := by
  simp [conflicting]

/-- The conflict of a record, before it is classified. -/
def MainRecord.conflict (e : MainRecord) : RecordConflict where
  formId := intToHex e.formId.toNat 8
  editorId := e.editorId.text
  recordType := e.signature.text
  winner := e.winner
  losers := e.losers
  severity := .info

open PyStr

theorem foldl_addLoser {winner : List Char} {found : List (List Char)} (files : List PluginName)
    (hne : ∀ loser ∈ found, loser ≠ []) :
    files.foldl (addLoser winner) ([','].intercalate found) =
      [','].intercalate (found ++ (files.map PluginName.text).filter (· ≠ winner)) := by
  induction files generalizing found with
  | nil => simp
  | cons file files ih =>
      rw [List.foldl_cons, List.map_cons, List.filter_cons]
      by_cases hwinner : file.text = winner
      · rw [addLoser, if_pos hwinner, ih hne]
        simp [hwinner]
      · have hadd : addLoser winner ([','].intercalate found) file =
            [','].intercalate (found ++ [file.text]) := by
          rw [addLoser, if_neg hwinner]
          cases found with
          | nil => simp
          | cons first found =>
              rw [if_neg (intercalate_ne_nil (List.cons_ne_nil first found) hne),
                intercalate_concat (List.cons_ne_nil first found)]
        rw [hadd, ih]
        · simp [hwinner]
        · intro loser hloser
          rcases List.mem_append.mp hloser with h | h
          · exact hne loser h
          · rw [List.mem_singleton.mp h]
            exact file.ne_nil

/-- **The loop collects the losers**, separated by commas. -/
theorem loserList_eq (e : MainRecord) : loserList e = [','].intercalate e.losers := by
  have hloop : (e.overrides ++ [e.file]).foldl (addLoser e.winner) ([','].intercalate []) =
      [','].intercalate ([] ++ e.losers) :=
    foldl_addLoser (e.overrides ++ [e.file]) fun _ h => absurd h List.not_mem_nil
  rw [List.foldl_append] at hloop
  exact hloop

theorem losers_ne_nil : ∀ loser ∈ e.losers, loser ≠ [] := by
  intro loser hloser
  obtain ⟨file, _, rfl⟩ := List.mem_map.mp (List.mem_filter.mp hloser).1
  exact file.ne_nil

theorem loserList_eq_nil_iff : loserList e = [] ↔ e.losers = [] := by
  rw [loserList_eq]
  constructor
  · intro h
    by_contra hne
    exact intercalate_ne_nil hne losers_ne_nil h
  · intro h
    rw [h]
    rfl

/-- What `Process` does to a record. -/
theorem process_eq (s : ScriptState) (e : MainRecord) :
    process s e =
      if e.overrides ≠ [] ∧ e.isMaster = true ∧ e.losers ≠ [] then
        { messages := s.messages ++ [conflictLine e]
          totalConflicts := s.totalConflicts + 1
          criticalCount := s.criticalCount + if isCriticalType e.signature.text then 1 else 0
          minorCount := s.minorCount +
            if isCriticalType e.signature.text = false ∧ isWarningType e.signature.text = false then
              1
            else 0 }
      else s := by
  unfold process
  by_cases hover : e.overrides = []
  · simp [hover]
  · have hlength : ¬e.overrides.length < 1 := by
      have hpos := List.length_pos_iff.mpr hover
      omega
    rw [if_neg hlength]
    by_cases hmaster : e.isMaster = true
    · rw [if_neg (by simp [hmaster])]
      by_cases hlosers : e.losers = []
      · rw [if_pos (loserList_eq_nil_iff.mpr hlosers), if_neg fun h => h.2.2 hlosers]
      · rw [if_neg fun h => hlosers (loserList_eq_nil_iff.mp h)]
        exact (if_pos ⟨hover, hmaster, hlosers⟩).symm
    · rw [if_pos (Bool.eq_false_iff.mpr hmaster), if_neg fun h => hmaster h.2.1]

/-- **What a run prints and counts**: a line for each record with a loser. -/
theorem runScript_eq (records : List MainRecord) :
    (runScript records).messages = (conflicting records).map conflictLine ∧
      (runScript records).totalConflicts = (conflicting records).length ∧
      (runScript records).criticalCount =
        (conflicting records).countP fun e => isCriticalType e.signature.text := by
  induction records using List.reverseRecOn with
  | nil => exact ⟨rfl, rfl, rfl⟩
  | append_singleton records e ih =>
      have hstep : runScript (records ++ [e]) = process (runScript records) e := by
        unfold runScript
        rw [List.foldl_append]
        rfl
      have hconflicting : conflicting (records ++ [e]) = conflicting records ++
          if e.overrides ≠ [] ∧ e.isMaster = true ∧ e.losers ≠ [] then [e] else [] := by
        unfold conflicting
        rw [List.filter_append, List.filter_singleton]
        simp
      rw [hstep, process_eq, hconflicting]
      split
      · simp [ih, List.countP_singleton]
      · simp [ih]

/-! ## Reading the lines back -/

theorem isHexDigit_of_lt : ∀ digit < 16, isHexDigit (hexDigit digit) = true := by decide

theorem intToHex_spec (value digits : Nat) :
    (intToHex value digits).length = digits ∧ (intToHex value digits).all isHexDigit = true := by
  induction digits generalizing value with
  | zero => exact ⟨rfl, rfl⟩
  | succ digits ih =>
      obtain ⟨hlength, hall⟩ := ih (value / 16)
      simp [intToHex, hlength, hall, isHexDigit_of_lt _ (Nat.mod_lt value (by omega))]

/-- A visible ASCII character before the bar. -/
def IsPlain (c : Char) : Prop := 0x20 < c.toNat ∧ c.toNat < 0x7C

variable {c : Char}

theorem IsPlain.not_space (h : IsPlain c) : isSpace c = false := by
  unfold IsPlain at h
  simp [isSpace]
  omega

theorem IsPlain.not_break (h : IsPlain c) : isLineBreak c = false := by
  unfold IsPlain at h
  simp [isLineBreak]
  omega

theorem bar_not_mem {text : List Char} (h : ∀ c ∈ text, IsPlain c) : '|' ∉ text := by
  intro hmem
  exact absurd (h '|' hmem).2 (by decide)

theorem legible_of_plain {text : List Char} (h : ∀ c ∈ text, IsPlain c) : Legible text := by
  refine ⟨trim_eq_self_iff.mpr ⟨fun c hc => ?_, fun c hc => ?_⟩, fun c hc =>
    (h c hc).not_break⟩
  · exact (h c (List.mem_of_head? hc)).not_space
  · exact (h c (List.mem_of_getLast? hc)).not_space

theorem plain_of_range {lo hi : Char} (h : PyRe.range lo hi c = true) (hlo : 0x20 < lo.toNat)
    (hhi : hi.toNat < 0x7C) : IsPlain c := by
  have hle : lo.toNat ≤ c.toNat ∧ c.toNat ≤ hi.toNat := by
    simpa [PyRe.range, Char.le_def, UInt32.le_iff_toNat_le] using h
  unfold IsPlain
  omega

theorem plain_of_isHexDigit (h : isHexDigit c = true) : IsPlain c := by
  unfold isHexDigit at h
  rw [Bool.or_eq_true, Bool.or_eq_true] at h
  rcases h with (h | h) | h <;> exact plain_of_range h (by decide) (by decide)

theorem plain_of_isSignatureChar (h : isSignatureChar c = true) : IsPlain c := by
  unfold isSignatureChar at h
  rw [Bool.or_eq_true, Bool.or_eq_true, beq_iff_eq] at h
  rcases h with (h | h) | rfl
  · exact plain_of_range h (by decide) (by decide)
  · exact plain_of_range h (by decide) (by decide)
  · unfold IsPlain
    decide

theorem formId_plain (e : MainRecord) : ∀ c ∈ intToHex e.formId.toNat 8, IsPlain c := by
  intro c hc
  exact plain_of_isHexDigit (List.all_eq_true.mp (intToHex_spec e.formId.toNat 8).2 c hc)

theorem Signature.plain (sig : Signature) : ∀ c ∈ sig.text, IsPlain c := by
  intro c hc
  exact plain_of_isSignatureChar (List.all_eq_true.mp sig.chars c hc)

theorem PluginName.noBar (name : PluginName) : '|' ∉ name.text := by
  intro hmem
  exact absurd (List.all_eq_true.mp name.chars '|' hmem) (by decide)

theorem MainRecord.winner_noBar (e : MainRecord) : '|' ∉ e.winner := PluginName.noBar _

theorem losers_noBar : ∀ loser ∈ e.losers, '|' ∉ loser := by
  intro loser hloser
  obtain ⟨file, _, rfl⟩ := List.mem_map.mp (List.mem_filter.mp hloser).1
  exact file.noBar

/-- The line of a record whose texts are legible is read back. -/
def LegibleRecord (e : MainRecord) : Prop :=
  Legible e.editorId.text ∧ Legible e.winner ∧ ∀ loser ∈ e.losers, Legible loser ∧ ',' ∉ loser

theorem conflictLine_eq (e : MainRecord) :
    conflictLine e = ['|'].intercalate ["CONFLICT".toList, intToHex e.formId.toNat 8,
      e.editorId.text, e.signature.text, e.winner, loserList e] := by
  have htag : "CONFLICT|".toList = "CONFLICT".toList ++ ['|'] := by decide
  unfold conflictLine
  rw [htag]
  simp only [List.intercalate_cons_cons, List.intercalate_singleton, List.append_assoc]

theorem exists_last_loser (h : e.losers ≠ []) :
    ∃ start, ∃ loser ∈ e.losers, loserList e = start ++ loser := by
  rw [loserList_eq]
  obtain hnil | ⟨others, loser, hlosers⟩ := List.eq_nil_or_concat' e.losers
  · exact absurd hnil h
  · rw [hlosers]
    by_cases hothers : others = []
    · refine ⟨[], loser, by simp, ?_⟩
      rw [hothers]
      simp
    · exact ⟨_, loser, by simp, intercalate_concat hothers⟩

theorem trim_conflictLine (hlosers : e.losers ≠ []) (h : LegibleRecord e) :
    trim (conflictLine e) = conflictLine e := by
  obtain ⟨start, loser, hmem, hlast⟩ := exists_last_loser hlosers
  refine trim_eq_self_iff.mpr ⟨fun c hc => ?_, fun c hc => ?_⟩
  · cases hc
    decide
  · have hne := losers_ne_nil loser hmem
    unfold conflictLine at hc
    rw [hlast, ← List.append_assoc, List.getLast?_append_of_ne_nil _ hne] at hc
    exact (trim_eq_self_iff.mp (h.2.2 loser hmem).1.1).2 c hc

theorem fields_conflictLine :
    (conflictLine e).splitOn '|' = ["CONFLICT".toList, intToHex e.formId.toNat 8, e.editorId.text,
      e.signature.text, e.winner, loserList e] := by
  have hlosers : '|' ∉ loserList e := by
    rw [loserList_eq]
    intro hmem
    rcases mem_of_mem_intercalate hmem with hmem | ⟨loser, hloser, hmem⟩
    · exact absurd hmem (by decide)
    · exact losers_noBar loser hloser hmem
  rw [conflictLine_eq, List.splitOn_intercalate]
  · simp only [List.forall_mem_cons]
    exact ⟨by decide, bar_not_mem (formId_plain e), e.editorId.noBar, bar_not_mem e.signature.plain,
      e.winner_noBar, hlosers, fun _ h => absurd h List.not_mem_nil⟩
  · exact List.cons_ne_nil _ _

theorem parseLosers_loserList (hlosers : e.losers ≠ []) (h : LegibleRecord e) :
    parseLosers (loserList e) = e.losers := by
  unfold parseLosers
  rw [loserList_eq, List.splitOn_intercalate _ (fun loser hmem => (h.2.2 loser hmem).2) hlosers]
  have htrim : e.losers.map trim = e.losers := by
    conv_rhs => rw [← List.map_id e.losers]
    exact List.map_congr_left fun loser hmem => (h.2.2 loser hmem).1.1
  rw [htrim, List.filter_eq_self]
  intro loser hmem
  exact decide_eq_true (losers_ne_nil loser hmem)

/-- **A legible line is read back.** -/
theorem parseConflictLine_conflictLine (hlosers : e.losers ≠ [])
    (h : LegibleRecord e) : parseConflictLine (conflictLine e) = some e.conflict := by
  have hstart : "CONFLICT|".toList.isPrefixOf (conflictLine e) = true := by
    unfold conflictLine
    simp only [List.append_assoc]
    exact List.isPrefixOf_iff_prefix.mpr (List.prefix_append _ _)
  have htrim : trim (intToHex e.formId.toNat 8) = intToHex e.formId.toNat 8 :=
    (legible_of_plain (formId_plain e)).1
  have hformId : isFormId (intToHex e.formId.toNat 8) = true := by
    obtain ⟨hlength, hall⟩ := intToHex_spec e.formId.toNat 8
    simp [isFormId, hlength, hall]
  unfold parseConflictLine
  simp only [trim_conflictLine hlosers h, hstart, fields_conflictLine, htrim, hformId,
    parseLosers_loserList hlosers h, h.1.1, h.2.1.1, (legible_of_plain e.signature.plain).1]
  rfl

/-! ## The whole output -/

theorem conflictLine_free (h : LegibleRecord e) :
    ∀ c ∈ conflictLine e, isLineBreak c = false := by
  intro c hc
  unfold conflictLine at hc
  simp only [List.mem_append, or_assoc] at hc
  rcases hc with hc | hc | hc | hc | hc | hc | hc | hc | hc | hc
  · exact List.all_eq_true.mp (by decide : "CONFLICT|".toList.all fun c =>
      isLineBreak c == false) c hc |> beq_iff_eq.mp
  · exact (formId_plain e c hc).not_break
  · rw [List.mem_singleton.mp hc]
    decide
  · exact h.1.2 c hc
  · rw [List.mem_singleton.mp hc]
    decide
  · exact (e.signature.plain c hc).not_break
  · rw [List.mem_singleton.mp hc]
    decide
  · exact h.2.1.2 c hc
  · rw [List.mem_singleton.mp hc]
    decide
  · rw [loserList_eq] at hc
    rcases mem_of_mem_intercalate hc with hc | ⟨loser, hloser, hc⟩
    · rw [List.mem_singleton.mp hc]
      decide
    · exact (h.2.2 loser hloser).1.2 c hc

theorem digit_free {n : Nat} (h : c ∈ (toString n).toList) :
    isLineBreak c = false := by
  have hdigit : PyRe.range '0' '9' c = true := by
    rw [Nat.toString_eq_repr, Nat.repr, String.toList_ofList] at h
    exact Nat.isDigit_of_mem_toDigits (by decide) (by decide) h
  exact (plain_of_range hdigit (by decide) (by decide)).not_break

theorem summaryLine_free (s : ScriptState) :
    ∀ c ∈ summaryLine s, isLineBreak c = false := by
  intro c hc
  unfold summaryLine at hc
  simp only [List.mem_append, or_assoc] at hc
  have hword : ∀ word ∈ ["SUMMARY|total_conflicts=", "|critical=", "|minor="],
      word.toList.all (fun c => isLineBreak c == false) = true := by decide
  simp only [List.forall_mem_cons] at hword
  rcases hc with hc | hc | hc | hc | hc | hc
  · exact beq_iff_eq.mp (List.all_eq_true.mp hword.1 c hc)
  · exact digit_free hc
  · exact beq_iff_eq.mp (List.all_eq_true.mp hword.2.1 c hc)
  · exact digit_free hc
  · exact beq_iff_eq.mp (List.all_eq_true.mp hword.2.2.1 c hc)
  · exact digit_free hc

theorem parseConflictLine_summaryLine (s : ScriptState) :
    parseConflictLine (summaryLine s) = none := by
  have hstart : "CONFLICT|".toList.isPrefixOf (trim (summaryLine s)) = false := by
    by_contra h
    have hdrop : (summaryLine s).dropWhile isSpace = summaryLine s := rfl
    have htrim : trim (summaryLine s) <+: summaryLine s := by
      conv_rhs => rw [← hdrop]
      exact List.rdropWhile_prefix _ _
    obtain ⟨rest, hrest⟩ := (List.isPrefixOf_iff_prefix.mp
      (Bool.not_eq_false _ ▸ h)).trans htrim
    have hhead : (summaryLine s).head? = some 'C' := by
      rw [← hrest]
      rfl
    have hhead' : (summaryLine s).head? = some 'S' := rfl
    rw [hhead'] at hhead
    exact absurd (Option.some.inj hhead) (by decide)
  unfold parseConflictLine
  simp only [hstart, if_true]

variable {newline : Newline}

theorem splitlines_stdoutOf {records : List MainRecord}
    (h : ∀ e ∈ conflicting records, LegibleRecord e) :
    splitlines (stdoutOf newline records) = printedLines records := by
  refine splitlines_lines newline fun line hline => ?_
  rcases List.mem_append.mp hline with hline | hline
  · rw [(runScript_eq records).1] at hline
    obtain ⟨e, he, rfl⟩ := List.mem_map.mp hline
    exact conflictLine_free (h e he)
  · rw [List.mem_singleton.mp hline]
    exact summaryLine_free _

/-- **Legible records are read back.** -/
theorem parse_stdoutOf {records : List MainRecord}
    (h : ∀ e ∈ conflicting records, LegibleRecord e) :
    parseConflictLines (stdoutOf newline records) =
      (conflicting records).map MainRecord.conflict := by
  have hlines : ((conflicting records).map conflictLine).filterMap parseConflictLine =
      (conflicting records).map MainRecord.conflict := by
    rw [List.filterMap_map, ← List.filterMap_eq_map]
    refine List.filterMap_congr fun e he => ?_
    rw [Function.comp_apply, Function.comp_apply,
      parseConflictLine_conflictLine (mem_conflicting_iff.mp he).2.2.2 (h e he)]
  have hsummary : [summaryLine (runScript records)].filterMap parseConflictLine = [] := by
    rw [List.filterMap_cons_none (parseConflictLine_summaryLine _), List.filterMap_nil]
  unfold parseConflictLines
  rw [splitlines_stdoutOf h, printedLines, (runScript_eq records).1, List.filterMap_append, hlines,
    hsummary, List.append_nil]

/-! ## The counts -/

theorem Signature.upper_eq (u : UnicodeText) (sig : Signature) : u.upper sig.text = sig.text := by
  have hupper : ∀ c, isSignatureChar c = true → c.toUpper = c := by
    intro c hc
    have hlower : ¬(97 ≤ c.val ∧ c.val ≤ 122) := by
      unfold isSignatureChar at hc
      simp [PyRe.range, Char.le_def, UInt32.le_iff_toNat_le] at hc
      rw [UInt32.le_iff_toNat_le, UInt32.le_iff_toNat_le]
      rcases hc with (hc | hc) | rfl
      · simp
        omega
      · simp
        omega
      · decide
    unfold Char.toUpper
    exact dif_neg hlower
  rw [u.upper_ascii]
  · conv_rhs => rw [← List.map_id sig.text]
    exact List.map_congr_left fun c hc => hupper c (List.all_eq_true.mp sig.chars c hc)
  · intro c hc
    have hplain := sig.plain c hc
    unfold IsPlain at hplain
    omega

theorem classify_critical_iff (u : UnicodeText) (sig : Signature) :
    classify u .default sig.text = .critical ↔ sig.text ∈ ConflictAnalyzer.default.critical := by
  unfold classify
  rw [sig.upper_eq, (legible_of_plain sig.plain).1]
  dsimp only
  split
  · next h => exact iff_of_true rfl h
  · next h =>
      refine iff_of_false ?_ h
      split <;> exact Severity.noConfusion

/-- The two lists of critical types differ in three: the script has `SCPT`, the analyzer `SCEN`
and `INFO`. -/
theorem critical_types (sig : List Char) :
    (if sig ∈ ConflictAnalyzer.default.critical then 1 else 0) +
        (if sig = "SCPT".toList then 1 else 0) =
      (if isCriticalType sig = true then 1 else 0) +
        if sig = "SCEN".toList ∨ sig = "INFO".toList then 1 else 0 := by
  let types := "SCPT".toList :: ConflictAnalyzer.default.critical
  have htypes : ∀ sig ∈ types,
      (if sig ∈ ConflictAnalyzer.default.critical then 1 else 0) +
          (if sig = "SCPT".toList then 1 else 0) =
        (if isCriticalType sig = true then 1 else 0) +
          if sig = "SCEN".toList ∨ sig = "INFO".toList then 1 else 0 := by decide
  by_cases h : sig ∈ types
  · exact htypes sig h
  · have hcritical : sig ∉ ConflictAnalyzer.default.critical := fun hmem =>
      h (List.mem_cons_of_mem _ hmem)
    have hscript : isCriticalType sig ≠ true := by
      have hsubset : ["NPC_", "QUST", "SCPT", "PERK", "SPEL", "MGEF", "FACT", "DIAL",
          "PACK"].map String.toList ⊆ types := by decide
      exact fun hmem => h (hsubset (of_decide_eq_true hmem))
    have hscpt : sig ≠ "SCPT".toList := fun heq => h (heq ▸ List.mem_cons_self)
    have hsubset : ["SCEN", "INFO"].map String.toList ⊆ types := by decide
    have hother : ¬(sig = "SCEN".toList ∨ sig = "INFO".toList) := by
      rintro (rfl | rfl)
      · exact h (hsubset (by decide))
      · exact h (hsubset (by decide))
    rw [if_neg hcritical, if_neg hscript, if_neg hscpt, if_neg hother]

theorem countP_critical (records : List MainRecord) :
    (records.countP fun e => e.signature.text ∈ ConflictAnalyzer.default.critical) +
        (records.countP fun e => e.signature.text = "SCPT".toList) =
      (records.countP fun e => isCriticalType e.signature.text) +
        records.countP fun e =>
          e.signature.text = "SCEN".toList ∨ e.signature.text = "INFO".toList := by
  induction records with
  | nil => rfl
  | cons e records ih =>
      have hhead := critical_types e.signature.text
      simp only [List.countP_cons, decide_eq_true_eq]
      omega

/-! ## The report -/

/-- **The report is what the script saw**: the conflicts that are read are those of the records
with a loser, and the counts are those of the script. -/
def ReportsWhatScriptSaw (u : UnicodeText) (newline : Newline) (records : List MainRecord) : Prop :=
  parseConflictLines (stdoutOf newline records) =
      (conflicting records).map MainRecord.conflict ∧
    (analyze u .default (stdoutOf newline records)).totalConflicts =
      (runScript records).totalConflicts ∧
    (analyze u .default (stdoutOf newline records)).criticalConflicts =
      (runScript records).criticalCount

theorem analyze_counts {u : UnicodeText} {records : List MainRecord}
    (h : parseConflictLines (stdoutOf newline records) =
      (conflicting records).map MainRecord.conflict) :
    (analyze u .default (stdoutOf newline records)).totalConflicts =
        (conflicting records).length ∧
      (analyze u .default (stdoutOf newline records)).criticalConflicts =
        (conflicting records).countP fun e =>
          e.signature.text ∈ ConflictAnalyzer.default.critical := by
  unfold analyze
  rw [h]
  constructor
  · simp
  · dsimp only
    rw [List.map_map, List.countP_map]
    refine List.countP_congr fun e _ => ?_
    rw [Function.comp_apply, decide_eq_true_eq, decide_eq_true_eq]
    exact classify_critical_iff u e.signature

/-- **When the report is what the script saw**: exactly if the texts of the records with a loser
are legible and free of commas where they are losers, and if as many of them are `SCPT` as are
`SCEN` or `INFO`. -/
theorem reportsWhatScriptSaw_iff (u : UnicodeText) (newline : Newline)
    (records : List MainRecord) :
    ReportsWhatScriptSaw u newline records ↔
      (∀ e ∈ conflicting records, LegibleRecord e) ∧
        ((conflicting records).countP fun e => e.signature.text = "SCPT".toList) =
          (conflicting records).countP fun e =>
            e.signature.text = "SCEN".toList ∨ e.signature.text = "INFO".toList := by
  have hcount := countP_critical (conflicting records)
  obtain ⟨_, htotal, hcritical⟩ := runScript_eq records
  unfold ReportsWhatScriptSaw
  rw [htotal, hcritical]
  constructor
  · rintro ⟨hparse, _, hequal⟩
    rw [(analyze_counts hparse).2] at hequal
    refine ⟨fun e he => ?_, by omega⟩
    have hmem : e.conflict ∈ parseConflictLines (stdoutOf newline records) := by
      rw [hparse]
      exact List.mem_map_of_mem he
    exact legible_of_mem_parse hmem
  · rintro ⟨hlegible, hequal⟩
    have hparse : parseConflictLines (stdoutOf newline records) =
        (conflicting records).map MainRecord.conflict := parse_stdoutOf hlegible
    obtain ⟨htotal', hcritical'⟩ := analyze_counts (u := u) hparse
    refine ⟨hparse, htotal', ?_⟩
    rw [hcritical']
    omega

/-- A scene that a plugin overrides. -/
def sceneRecord : MainRecord where
  isMaster := true
  formId := 0x0001A2B3
  editorId := ⟨"MQ101Scene".toList, by decide, by decide⟩
  signature := ⟨"SCEN".toList, by decide, by decide⟩
  file := ⟨"Skyrim.esm".toList, by decide, by decide⟩
  overrides := [⟨"Quests.esp".toList, by decide, by decide⟩]

/-- The analyzer counts it as critical, and the script does not. -/
theorem reportsWhatScriptSaw_counterexample :
    ¬ReportsWhatScriptSaw .basic .crlf [sceneRecord] := by
  rintro ⟨hparse, _, hcritical⟩
  rw [(analyze_counts hparse).2, (runScript_eq _).2.2] at hcritical
  exact absurd hcritical (by decide)

end SkyClaw.Xedit
