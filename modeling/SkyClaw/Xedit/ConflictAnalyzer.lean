import SkyClaw.Lib.PyLines
import SkyClaw.Lib.PyRe
import Mathlib.Data.List.Sort

/-!
# The conflict analyzer

`ConflictAnalyzer`: from the lines that the conflict script prints to the report of the
conflicts.  Texts are lists of characters.
-/

namespace SkyClaw.Xedit

open PyStr (trim splitlines)

/-- The severity of a conflict. -/
inductive Severity where
  | critical
  | warning
  | info
deriving DecidableEq, Repr

structure RecordConflict where
  formId : List Char
  editorId : List Char
  recordType : List Char
  winner : List Char
  losers : List (List Char)
  severity : Severity
deriving DecidableEq, Repr

structure PluginConflictPair where
  pluginA : List Char
  pluginB : List Char
  conflicts : List RecordConflict
deriving DecidableEq, Repr

def PluginConflictPair.criticalCount (pair : PluginConflictPair) : Nat :=
  pair.conflicts.countP (·.severity = .critical)

structure ConflictReport where
  totalConflicts : Nat
  criticalConflicts : Nat
  pluginPairs : List PluginConflictPair
  summary : String
deriving DecidableEq, Repr

/-- The record types that `ConflictAnalyzer` is made with. -/
structure ConflictAnalyzer where
  critical : List (List Char)
  warning : List (List Char)

/-- `DEFAULT_CRITICAL_TYPES` and `DEFAULT_WARNING_TYPES`. -/
def ConflictAnalyzer.default : ConflictAnalyzer where
  critical :=
    ["NPC_", "QUST", "SCEN", "INFO", "PERK", "SPEL", "MGEF", "FACT", "DIAL", "PACK"].map
      String.toList
  warning :=
    ["CELL", "WRLD", "REFR", "ACHR", "NAVM", "LAND", "WEAP", "ARMO", "AMMO", "BOOK", "INGR",
      "ALCH", "MISC", "CONT", "DOOR", "LIGH", "STAT", "FLOR", "FURN", "LVLI", "LVLN", "LVSP",
      "ENCH", "OTFT", "RACE", "COBJ", "KYWD"].map String.toList

/-! ## Reading the lines -/

/-- A hexadecimal digit. -/
def isHexDigit (c : Char) : Bool :=
  PyRe.range '0' '9' c || PyRe.range 'A' 'F' c || PyRe.range 'a' 'f' c

/-- `_FORMID_RE.match(form_id)`, for a text without outer blanks. -/
def isFormId (text : List Char) : Bool := text.length = 8 && text.all isHexDigit

/-- The losers of a line. -/
def parseLosers (field : List Char) : List (List Char) :=
  ((field.splitOn ',').map trim).filter (· ≠ [])

/-- A line of `parse_conflict_lines`; the severity is classified later. -/
def parseConflictLine (raw : List Char) : Option RecordConflict :=
  let line := trim raw
  if "CONFLICT|".toList.isPrefixOf line = false then none
  else
    match line.splitOn '|' with
    | _ :: formId :: editorId :: recordType :: winner :: losers :: _ =>
        if isFormId (trim formId) then
          some {
            formId := trim formId
            editorId := trim editorId
            recordType := trim recordType
            winner := trim winner
            losers := parseLosers losers
            severity := .info }
        else none
    | _ => none

def parseConflictLines (stdout : List Char) : List RecordConflict :=
  (splitlines stdout).filterMap parseConflictLine

/-! ## The report -/

section Report

variable (u : UnicodeText) (analyzer : ConflictAnalyzer)

def classify (recordType : List Char) : Severity :=
  let sig := trim (u.upper recordType)
  if sig ∈ analyzer.critical then .critical
  else if sig ∈ analyzer.warning then .warning
  else .info

/-- A conflict with its severity. -/
def classified (conflict : RecordConflict) : RecordConflict :=
  { conflict with severity := classify u analyzer conflict.recordType }

/-- The key of a pair: `(A, B)` and `(B, A)` are one. -/
def pairKey (winner loser : List Char) : List Char × List Char :=
  if winner < loser then (winner, loser) else (loser, winner)

/-- `pair_map[key].append(c)`. -/
def appendAt (key : List Char × List Char) (conflict : RecordConflict) :
    List PluginConflictPair → List PluginConflictPair
  | [] => [⟨key.1, key.2, [conflict]⟩]
  | pair :: rest =>
      if (pair.pluginA, pair.pluginB) = key then
        { pair with conflicts := pair.conflicts ++ [conflict] } :: rest
      else pair :: appendAt key conflict rest

/-- `_group_by_pair`: a conflict is in the pair of each of its losers. -/
def groupByPair (conflicts : List RecordConflict) : List PluginConflictPair :=
  let pairMap := conflicts.foldl (fun pairs conflict =>
    conflict.losers.foldl (fun pairs loser =>
      appendAt (pairKey conflict.winner loser) conflict pairs) pairs) []
  pairMap.insertionSort fun a b => b.conflicts.length ≤ a.conflicts.length

def buildSummary (total critical : Nat) (pairs : List PluginConflictPair) : String :=
  if total = 0 then "No record-level conflicts detected between loaded plugins."
  else
    let found := "Found " ++ toString total ++ " record-level conflict(s) (" ++
      toString critical ++ " critical)."
    let top := match pairs with
      | [] => []
      | pair :: _ =>
          ["Most conflicting pair: " ++ String.ofList pair.pluginA ++ " vs " ++
            String.ofList pair.pluginB ++ " (" ++ toString pair.conflicts.length ++
            " conflicts, " ++ toString pair.criticalCount ++ " critical)."]
    let advice :=
      if critical > 0 then
        ["Critical conflicts (NPC, quests, scripts) should be resolved with compatibility " ++
          "patches to avoid crashes."]
      else []
    " ".intercalate ([found] ++ top ++ advice)

/-- `analyze`, for what the script has printed. -/
def analyze (stdout : List Char) : ConflictReport :=
  let conflicts := (parseConflictLines stdout).map (classified u analyzer)
  let pairs := groupByPair conflicts
  let critical := conflicts.countP (·.severity = .critical)
  { totalConflicts := conflicts.length
    criticalConflicts := critical
    pluginPairs := pairs
    summary := buildSummary conflicts.length critical pairs }

end Report

/-- A text that the parser can give: no outer blanks, and no line break in it. -/
def Legible (text : List Char) : Prop :=
  trim text = text ∧ ∀ c ∈ text, PyStr.isLineBreak c = false

theorem legible_trim {text : List Char} (h : ∀ c ∈ text, PyStr.isLineBreak c = false) :
    Legible (trim text) :=
  ⟨PyStr.trim_trim text, fun c hc => h c (PyStr.trim_subset text hc)⟩

theorem mem_parseLosers {field loser : List Char} (h : loser ∈ parseLosers field)
    (hfield : ∀ c ∈ field, PyStr.isLineBreak c = false) : Legible loser ∧ ',' ∉ loser := by
  obtain ⟨piece, hpiece, rfl⟩ := List.mem_map.mp (List.mem_filter.mp h).1
  constructor
  · exact legible_trim fun c hc => hfield c (PyStr.splitOn_subset hpiece hc)
  · intro hcomma
    exact PyStr.not_mem_of_mem_splitOn hpiece (PyStr.trim_subset piece hcomma)

/-- **What the parser gives** is legible, and no loser has a comma. -/
theorem legible_of_mem_parse {stdout : List Char} {conflict : RecordConflict}
    (h : conflict ∈ parseConflictLines stdout) :
    Legible conflict.editorId ∧ Legible conflict.winner ∧
      ∀ loser ∈ conflict.losers, Legible loser ∧ ',' ∉ loser := by
  obtain ⟨raw, hraw, hparse⟩ := List.mem_filterMap.mp h
  have hfree : ∀ c ∈ trim raw, PyStr.isLineBreak c = false := fun c hc =>
    PyStr.free_of_mem_all hraw c (PyStr.trim_subset raw hc)
  have hfield : ∀ field ∈ (trim raw).splitOn '|', ∀ c ∈ field, PyStr.isLineBreak c = false :=
    fun field hmem c hc => hfree c (PyStr.splitOn_subset hmem hc)
  unfold parseConflictLine at hparse
  dsimp only at hparse
  split at hparse
  · cases hparse
  · split at hparse
    · next tag formId editorId recordType winner losers rest hsplit =>
        split at hparse
        · cases hparse
          rw [hsplit] at hfield
          simp only [List.forall_mem_cons] at hfield
          obtain ⟨_, _, heditor, _, hwinner, hlosers, _⟩ := hfield
          exact ⟨legible_trim heditor, legible_trim hwinner,
            fun loser hloser => mem_parseLosers hloser hlosers⟩
        · cases hparse
    · cases hparse

end SkyClaw.Xedit
