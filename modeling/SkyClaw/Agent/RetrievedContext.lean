import Mathlib.Data.Bool.AllAny
import SkyClaw.Lib.PyLines
import SkyClaw.Security.PromptArmor
import SkyClaw.Security.SanitizedLines

/-!
# The retrieved context in the system prompt

`ContextManager.build_prompt_context` puts the load order and the mods into blocks of the armor, and the
router sanitizes the whole and appends it to the system prompt.  The text that is sent is taken apart
into what is left of each block and what is not from a block; `staysClosed_iff` says when every block
that is opened is closed.
-/

namespace SkyClaw.Agent.RetrievedContext

open Cdata SubText
open Security PromptArmor Sanitize

/-! ## What is retrieved -/

/-- What comes of `_get_load_order`. -/
inductive LoadOrder where
  | missing
  | unavailable
  | read (file : List Char)
  /-- the exception that `gather` returns -/
  | raised (text : List Char)

/-- The lines that are neither blank nor comments. -/
def activePlugins (file : List Char) : List (List Char) :=
  (PyStr.fileLines file).filter fun line => PyStr.trim line ≠ [] ∧ line.head? ≠ some '#'

/-- `str(lo_info)` -/
def LoadOrder.text : LoadOrder → List Char
  | .missing => "Load Order file not found at edge path.".toList
  | .unavailable => "Plugin topology unavailable.".toList
  | .read file => (toString (activePlugins file).length).toList ++ " active plugins detected.".toList
  | .raised text => text

/-- A row of the table `mods`, as its columns are shown. -/
structure ModRow where
  enabledInVfs : Bool
  nexusId : List Char
  name : List Char
  version : List Char

def ModRow.line (mod : ModRow) : List Char :=
  "- [".toList ++ mod.nexusId ++ "] ".toList ++ mod.name ++ " v".toList ++ mod.version ++
    " | ".toList ++
    if mod.enabledInVfs then "✅ Installed/Active".toList else "⏳ Inactive".toList

def modText (mods : List ModRow) : List Char := ['\n'].intercalate (mods.map ModRow.line)

/-- `build_prompt_context`; the query is not looked at.  No mods: none is found, or the lookup has
failed. -/
def buildPromptContext (armor : Config) (loInfo : LoadOrder) (modResults : List ModRow) :
    Except NotAllowed (List Char) :=
  match encapsulateExternalData armor "loadorder.txt".toList loInfo.text with
  | .error error => .error error
  | .ok loEncapsulated =>
      let contextBlock := "### LOCAL MODDING TOPOLOGY (Zero Trust Edge 2026)\n".toList ++
        (loEncapsulated ++ ['\n']) ++ "Registry Metadata for Session:\n".toList
      if modResults = [] then
        .ok (contextBlock ++
          "- No matches found in local SQLite registry for specific query mods.\n".toList)
      else match encapsulateExternalData armor "mod_metadata".toList (modText modResults) with
        | .error error => .error error
        | .ok modEncapsulated => .ok (contextBlock ++ (modEncapsulated ++ ['\n']))

variable (u : LineUnicode)

def defaultMaxLength : Int := 8192

def injectedContext (intent : String) (loInfo : LoadOrder) (modResults : List ModRow) :
    Except NotAllowed (List Char) :=
  if intent = "CONSULTA_MODDING" then
    match buildPromptContext .default loInfo modResults with
    | .error error => .error error
    | .ok context => .ok (sanitizeForPrompt u.toUnicode context defaultMaxLength true)
  else .ok []

def hermesToolInstructions : List Char :=
  ("\n\nYou have access to the following tools. To call a tool, respond with a " ++
    "<tool_call> block containing a JSON object with \"name\" and \"arguments\" keys. " ++
    "Wait for the tool result before continuing. If no tool is needed, reply normally.\n\n").toList

/-- What follows the context: the tools as a text, in Hermes mode. -/
def hermesText : Option (List Char) → List Char
  | none => []
  | some tools => hermesToolInstructions ++ tools

def effectiveSystem (systemPrompt : List Char) (intent : String) (loInfo : LoadOrder)
    (modResults : List ModRow) (tools : Option (List Char)) : Except NotAllowed (List Char) :=
  match injectedContext u intent loInfo modResults with
  | .error error => .error error
  | .ok injected => .ok (systemPrompt ++ "\n\n".toList ++ injected ++ hermesText tools)

/-! ## Where the text comes from -/

inductive Origin where
  | frame
  | block (source : List Char)

structure Part where
  origin : Origin
  text : List Char

def texts (parts : List Part) : List Char := parts.flatMap Part.text

/-- The first characters of the parts. -/
def takeParts : Nat → List Part → List Part
  | _, [] => []
  | n, part :: parts => ⟨part.origin, part.text.take n⟩ :: takeParts (n - part.text.length) parts

/-- The opening tag without the line end behind it. -/
def blockTag (source : List Char) : List Char :=
  "<external_data source=\"".toList ++ source ++ "\">".toList

/-- What is between the tags of a block. -/
def inner (content : List Char) : List Char :=
  '\n' :: opener ++ (escape (limited .default content) ++ closer)

def blockPart (source content : List Char) : Part :=
  ⟨.block source, blockTag source ++ (inner content ++ '\n' :: closeTag)⟩

/-- The notice of a truncated content, which is not from the block any more. -/
def noticeOf (content : List Char) : List Char :=
  if truncated .default content then notice else []

def headline : Part :=
  ⟨.frame, "### LOCAL MODDING TOPOLOGY (Zero Trust Edge 2026)\n".toList⟩

/-- What stands behind the block of the load order. -/
def between (loInfo : LoadOrder) (modResults : List ModRow) : Part :=
  ⟨.frame, noticeOf loInfo.text ++ '\n' :: ("Registry Metadata for Session:\n".toList ++
    if modResults = [] then
      "- No matches found in local SQLite registry for specific query mods.\n".toList
    else [])⟩

def modParts (modResults : List ModRow) : List Part :=
  if modResults = [] then []
  else
    [blockPart "mod_metadata".toList (modText modResults),
      ⟨.frame, noticeOf (modText modResults) ++ ['\n']⟩]

def contextParts (loInfo : LoadOrder) (modResults : List ModRow) : List Part :=
  headline :: blockPart "loadorder.txt".toList loInfo.text :: between loInfo modResults ::
    modParts modResults

def cleanPart (part : Part) : Part := ⟨part.origin, cleaned u part.text⟩

/-- How many characters the sanitizer keeps of so many. -/
def kept (length : Nat) : Nat := if 8192 < length then 8177 else length

/-- The parts of the injected context. -/
def injectedParts (intent : String) (loInfo : LoadOrder) (modResults : List ModRow) : List Part :=
  if intent = "CONSULTA_MODDING" then
    let parts := (contextParts loInfo modResults).map (cleanPart u)
    takeParts (kept (texts parts).length) parts ++
      if 8192 < (texts parts).length then [⟨.frame, truncationSuffix⟩] else []
  else []

/-- The parts of the text that is sent. -/
def sentParts (systemPrompt : List Char) (intent : String) (loInfo : LoadOrder)
    (modResults : List ModRow) (tools : Option (List Char)) : List Part :=
  ⟨.frame, systemPrompt ++ "\n\n".toList⟩ ::
    (injectedParts u intent loInfo modResults ++ [⟨.frame, hermesText tools⟩])

/-- A block that is opened is closed again: behind its opening tag a closing tag is read, outside of the
CDATA sections, before the text from the block ends. -/
def PartClosed (part : Part) : Prop :=
  ∀ source rest, part.origin = .block source → part.text = blockTag source ++ rest →
    Outside closeTag rest

/-- **Every block that is opened is closed again.** -/
def StaysClosed (parts : List Part) : Prop := ∀ part ∈ parts, PartClosed part

/-- With room for so many of its characters a block stays closed: its opening tag has no room; or all of
it has, and its section has kept its end; or its own content closes it. -/
def BlockStays (room : Nat) (source inner : List Char) : Prop :=
  room < (blockTag source).length ∨
    ((blockTag source).length + inner.length + ('\n' :: closeTag).length ≤ room ∧
      Complete (scan inner)) ∨
    Outside closeTag (inner.take (room - (blockTag source).length))

def partLength (part : Part) : Nat := (cleaned u part.text).length

/-- What is kept of the context. -/
def room (loInfo : LoadOrder) (modResults : List ModRow) : Nat :=
  kept (texts ((contextParts loInfo modResults).map (cleanPart u))).length

/-- Both blocks stay closed with the room that is left by what is in front of them. -/
structure ContextStays (loInfo : LoadOrder) (modResults : List ModRow) : Prop where
  loadOrder : BlockStays (room u loInfo modResults - partLength u headline) "loadorder.txt".toList
    (cleaned u (inner loInfo.text))
  mods : modResults ≠ [] → BlockStays
    (room u loInfo modResults - partLength u headline -
      partLength u (blockPart "loadorder.txt".toList loInfo.text) - partLength u (between loInfo modResults))
    "mod_metadata".toList (cleaned u (inner (modText modResults)))

theorem texts_append (first second : List Part) :
    texts (first ++ second) = texts first ++ texts second := List.flatMap_append

theorem texts_takeParts (n : Nat) (parts : List Part) :
    texts (takeParts n parts) = (texts parts).take n := by
  induction parts generalizing n with
  | nil => exact (List.take_nil).symm
  | cons part parts ih =>
      show part.text.take n ++ texts (takeParts (n - part.text.length) parts) =
        (part.text ++ texts parts).take n
      rw [ih, List.take_append]

variable {source : List Char}

theorem encapsulate_default (h : source ∈ Config.default.allowedSources)
    (content : List Char) :
    encapsulateExternalData .default source content =
      .ok ((blockPart source content).text ++ noticeOf content) := by
  cases houtput : encapsulateExternalData .default source content with
  | error error =>
      unfold encapsulateExternalData at houtput
      rw [if_neg (by decide), if_neg (not_not_intro h)] at houtput
      cases houtput
  | ok output =>
      have hopen : openTag source = blockTag source ++ ['\n'] := by
        show "<external_data source=\"".toList ++ source ++ ("\">".toList ++ ['\n']) = _
        rw [← List.append_assoc]
        rfl
      rw [encapsulateExternalData_eq_ok rfl houtput, hopen]
      simp only [blockPart, inner, blockEnd, noticeOf, List.append_assoc, List.cons_append,
        List.nil_append]

/-- **The context is what its parts are together.** -/
theorem buildPromptContext_eq (loInfo : LoadOrder) (modResults : List ModRow) :
    buildPromptContext .default loInfo modResults = .ok (texts (contextParts loInfo modResults)) := by
  unfold buildPromptContext contextParts modParts texts
  rw [encapsulate_default (by decide), encapsulate_default (by decide)]
  by_cases hnone : modResults = []
  · simp only [if_pos hnone, headline, between, List.flatMap_cons, List.flatMap_nil,
      List.append_assoc, List.append_nil]
    rfl
  · simp only [if_neg hnone, headline, between, List.flatMap_cons, List.flatMap_nil,
      List.append_assoc, List.append_nil]
    rfl

/-! ## Cleaning in parts -/

theorem marker_loadOrder : Marker (blockTag "loadorder.txt".toList) where
  guarded := by decide +kernel
  plain := List.all_iff_forall_prop.mp (by decide)

theorem marker_modMetadata : Marker (blockTag "mod_metadata".toList) where
  guarded := by decide +kernel
  plain := List.all_iff_forall_prop.mp (by decide)

theorem guarded_closeTag : Guarded ('\n' :: closeTag) := by decide +kernel

theorem plain_closeTag : ∀ c ∈ closeTag, c.toNat < 128 ∧ isControlChar c = false :=
  List.all_iff_forall_prop.mp (by decide)

variable {u}

theorem cleaned_blockPart (h : Marker (blockTag source)) (content : List Char) :
    cleaned u (blockPart source content).text =
      blockTag source ++ (cleaned u (inner content) ++ '\n' :: closeTag) := by
  show cleaned u (blockTag source ++ '\n' :: _) = _
  rw [cleaned_first_tag h]
  exact congrArg (blockTag source ++ ·)
    (cleaned_last_tag guarded_closeTag plain_closeTag (inner content))

/-- **What is in front of a block, the block, and what is behind it are cleaned each on its own.** -/
theorem cleaned_around_block (h : Marker (blockTag source))
    (before content after : List Char) :
    cleaned u (before ++ '\n' :: ((blockPart source content).text ++ '\n' :: after)) =
      cleaned u (before ++ ['\n']) ++
        (cleaned u (blockPart source content).text ++ cleaned u ('\n' :: after)) := by
  have hshape : (blockPart source content).text ++ '\n' :: after =
      blockTag source ++ '\n' :: (opener ++ (escape (limited .default content) ++ closer) ++
        '\n' :: (closeTag ++ '\n' :: after)) := by
    simp only [blockPart, inner, List.append_assoc, List.cons_append]
  rw [hshape, cleaned_tag h, cleaned_blockPart h, ← List.cons_append,
    cleaned_end_tag guarded_closeTag plain_closeTag]
  simp only [inner, List.append_assoc, List.cons_append]

theorem noticeOf_line (content : List Char) :
    ∃ tail, ∀ more, noticeOf content ++ '\n' :: more = '\n' :: (tail ++ more) := by
  have hnotice : notice = '\n' :: notice.tail := by decide
  unfold noticeOf
  split
  · refine ⟨notice.tail ++ ['\n'], fun more => ?_⟩
    rw [List.append_assoc, ← List.cons_append, ← hnotice]
    rfl
  · exact ⟨[], fun more => rfl⟩

theorem headline_text :
    headline.text = "### LOCAL MODDING TOPOLOGY (Zero Trust Edge 2026)".toList ++ ['\n'] := rfl

theorem cleaned_context_nil (loInfo : LoadOrder) :
    cleaned u (texts (contextParts loInfo [])) =
      texts ((contextParts loInfo []).map (cleanPart u)) := by
  obtain ⟨tail, htail⟩ := noticeOf_line loInfo.text
  have hbetween : (between loInfo []).text = '\n' :: (tail ++
      ("Registry Metadata for Session:\n".toList ++
        "- No matches found in local SQLite registry for specific query mods.\n".toList)) := by
    rw [← htail, between, if_pos rfl]
  have htexts : texts (contextParts loInfo []) =
      "### LOCAL MODDING TOPOLOGY (Zero Trust Edge 2026)".toList ++
        '\n' :: ((blockPart "loadorder.txt".toList loInfo.text).text ++ (between loInfo []).text) := by
    simp only [contextParts, modParts, if_pos, texts, List.flatMap_cons, List.flatMap_nil,
      headline_text, List.append_assoc, List.append_nil]
    rfl
  rw [htexts, hbetween, cleaned_around_block marker_loadOrder, ← headline_text, ← hbetween]
  simp only [contextParts, modParts, if_pos, texts, List.map_cons, List.map_nil,
    List.flatMap_cons, List.flatMap_nil, cleanPart, List.append_nil]

/-- With mods there are two, and a line end between them. -/
theorem cleaned_context_of_ne_nil (loInfo : LoadOrder) {modResults : List ModRow}
    (hmods : modResults ≠ []) :
    cleaned u (texts (contextParts loInfo modResults)) =
      texts ((contextParts loInfo modResults).map (cleanPart u)) := by
  obtain ⟨tail, htail⟩ := noticeOf_line loInfo.text
  obtain ⟨tail', htail'⟩ := noticeOf_line (modText modResults)
  have hbetween : (between loInfo modResults).text =
      '\n' :: (tail ++ "Registry Metadata for Session:".toList) ++ ['\n'] := by
    show noticeOf loInfo.text ++ '\n' :: ("Registry Metadata for Session:\n".toList ++ _) = _
    rw [htail, if_neg hmods, List.append_nil, List.cons_append, List.append_assoc]
    rfl
  have hend : noticeOf (modText modResults) ++ ['\n'] = '\n' :: tail' := by
    rw [htail', List.append_nil]
  have htexts : texts (contextParts loInfo modResults) =
      "### LOCAL MODDING TOPOLOGY (Zero Trust Edge 2026)".toList ++
        '\n' :: ((blockPart "loadorder.txt".toList loInfo.text).text ++
          '\n' :: ((tail ++ "Registry Metadata for Session:".toList) ++
            '\n' :: ((blockPart "mod_metadata".toList (modText modResults)).text ++
              '\n' :: tail'))) := by
    simp only [contextParts, modParts, if_neg hmods, texts, List.flatMap_cons, List.flatMap_nil,
      headline_text, hbetween, hend, List.append_assoc, List.append_nil, List.cons_append,
      List.nil_append]
  -- What is behind the first block is cleaned around the second one.
  rw [htexts, cleaned_around_block marker_loadOrder, ← headline_text, ← List.cons_append,
    cleaned_around_block marker_modMetadata, ← hbetween, ← hend]
  simp only [contextParts, modParts, if_neg hmods, texts, List.map_cons, List.map_nil,
    List.flatMap_cons, List.flatMap_nil, cleanPart, List.append_nil]

/-- **The context is cleaned in its parts.** -/
theorem cleaned_context (loInfo : LoadOrder) (modResults : List ModRow) :
    cleaned u (texts (contextParts loInfo modResults)) =
      texts ((contextParts loInfo modResults).map (cleanPart u)) := by
  by_cases hmods : modResults = []
  · subst hmods
    exact cleaned_context_nil loInfo
  · exact cleaned_context_of_ne_nil loInfo hmods

/-- **What is sent is what its parts are together.** -/
theorem effectiveSystem_eq (systemPrompt : List Char) (intent : String) (loInfo : LoadOrder)
    (modResults : List ModRow) (tools : Option (List Char)) :
    effectiveSystem u systemPrompt intent loInfo modResults tools =
      .ok (texts (sentParts u systemPrompt intent loInfo modResults tools)) := by
  have hinjected : injectedContext u intent loInfo modResults =
      .ok (texts (injectedParts u intent loInfo modResults)) := by
    unfold injectedContext injectedParts
    split
    · rw [buildPromptContext_eq]
      dsimp only
      rw [sanitizeForPrompt_eq, cleaned_context, texts_append, texts_takeParts]
      generalize texts ((contextParts loInfo modResults).map (cleanPart u)) = text
      -- The mark of a truncated text is counted among the 8192 characters.
      unfold truncate kept defaultMaxLength
      by_cases hlong : 8192 < text.length
      · rw [if_pos (by omega), if_pos hlong, if_pos hlong, if_pos (by decide)]
        rfl
      · rw [if_neg (by omega), if_neg hlong, if_neg hlong, List.take_length]
        exact congrArg Except.ok (List.append_nil _).symm
    · rfl
  unfold effectiveSystem sentParts
  rw [hinjected]
  show Except.ok (systemPrompt ++ "\n\n".toList ++ texts (injectedParts u intent loInfo modResults) ++
    hermesText tools) = .ok (systemPrompt ++ "\n\n".toList ++ texts (_ ++ _))
  rw [texts_append, List.append_assoc]
  simp only [texts, List.flatMap_cons, List.flatMap_nil, List.append_nil]

/-! ## When a block stays closed -/

/-- No part of a tag is a tag. -/
theorem outside_take (inner : List Char) (n : Nat) :
    Outside closeTag ((inner ++ '\n' :: closeTag).take n) ↔
      (inner.length + ('\n' :: closeTag).length ≤ n ∧ Complete (scan inner)) ∨
        Outside closeTag (inner.take n) := by
  rcases Nat.lt_or_ge inner.length n with hlong | hshort
  · obtain ⟨m, rfl⟩ : ∃ m, n = inner.length + (m + 1) := ⟨n - inner.length - 1, by omega⟩
    have htake : (inner ++ '\n' :: closeTag).take (inner.length + (m + 1)) =
        inner ++ '\n' :: closeTag.take m := List.take_length_add_append _
    have hsub : closeTag.take m ⊆ closeTag := List.take_subset m closeTag
    -- The tag has no character of a marker, so it neither opens nor ends a section.
    have hopener : ¬opener <:+: closeTag.take m := fun hoccurs =>
      absurd (hsub ( hoccurs.subset (by decide : '!' ∈ opener))) (by decide)
    have hcloser : ¬closer <:+: closeTag.take m := fun hoccurs =>
      absurd (hsub ( hoccurs.subset (by decide : ']' ∈ closer))) (by decide)
    have htag : closeTag <:+: closeTag.take m ↔ closeTag.length ≤ m := by
      constructor
      · intro hoccurs
        exact hoccurs.length_le.trans (List.length_take_le m closeTag)
      · intro hm
        rw [List.take_of_length_le hm]
    have hfits : closeTag.length ≤ m ↔
        inner.length + ('\n' :: closeTag).length ≤ inner.length + (m + 1) := by
      rw [List.length_cons]
      omega
    rw [htake, outside_append (by decide) (by decide) (by decide) hopener hcloser, htag,
      List.take_of_length_le (Nat.le_add_right _ _), or_comm, and_comm, hfits]
  · rw [List.take_append_of_le_length hshort]
    refine (or_iff_right ?_).symm
    rintro ⟨hfits, -⟩
    rw [List.length_cons] at hfits
    omega

/-- **A block of which so much is kept is closed just if it stays.** -/
theorem blockStays_iff (room : Nat) (source inner : List Char) :
    (∀ rest, (blockTag source ++ (inner ++ '\n' :: closeTag)).take room = blockTag source ++ rest →
      Outside closeTag rest) ↔ BlockStays room source inner := by
  unfold BlockStays
  rcases Nat.lt_or_ge room (blockTag source).length with hshort | hlong
  · refine iff_of_true (fun rest heq => ?_) (.inl hshort)
    have hlength := congrArg List.length heq
    simp only [List.length_take, List.length_append] at hlength
    omega
  · obtain ⟨n, rfl⟩ := Nat.exists_eq_add_of_le hlong
    have htake : (blockTag source ++ (inner ++ '\n' :: closeTag)).take
        ((blockTag source).length + n) =
          blockTag source ++ (inner ++ '\n' :: closeTag).take n := List.take_length_add_append _
    rw [or_iff_right (by omega), htake, Nat.add_sub_cancel_left, Nat.add_assoc,
      Nat.add_le_add_iff_left, ← outside_take]
    constructor
    · exact fun h => h _ rfl
    · intro h rest heq
      exact List.append_cancel_left heq ▸ h

theorem partClosed_frame (text : List Char) : PartClosed ⟨.frame, text⟩ := by
  intro source rest horigin
  cases horigin

theorem partClosed_block (h : Marker (blockTag source)) (content : List Char)
    (n : Nat) :
    PartClosed ⟨.block source, (cleaned u (blockPart source content).text).take n⟩ ↔
      BlockStays n source (cleaned u (inner content)) := by
  rw [cleaned_blockPart h, ← blockStays_iff]
  constructor
  · exact fun hclosed rest => hclosed source rest rfl
  · intro hstays source' rest horigin
    cases horigin
    exact hstays rest

/-- The parts of the context that are kept. -/
theorem staysClosed_context (loInfo : LoadOrder) (modResults : List ModRow) :
    StaysClosed (takeParts (room u loInfo modResults)
      ((contextParts loInfo modResults).map (cleanPart u))) ↔ ContextStays u loInfo modResults := by
  have hlo := partClosed_block (u := u) marker_loadOrder loInfo.text
    (room u loInfo modResults - partLength u headline)
  have hmods := partClosed_block (u := u) marker_modMetadata (modText modResults)
    (room u loInfo modResults - partLength u headline -
      partLength u (blockPart "loadorder.txt".toList loInfo.text) -
      partLength u (between loInfo modResults))
  unfold StaysClosed contextParts
  rw [List.map_cons, List.map_cons, List.map_cons, takeParts, takeParts, takeParts,
    List.forall_mem_cons, List.forall_mem_cons, List.forall_mem_cons]
  refine (and_iff_right (partClosed_frame _)).trans ?_
  by_cases hnone : modResults = []
  · rw [modParts, if_pos hnone]
    refine ⟨fun h => ⟨hlo.mp h.1, fun hsome => absurd hnone hsome⟩, fun h => ?_⟩
    exact ⟨hlo.mpr h.loadOrder, partClosed_frame _, List.forall_mem_nil _⟩
  · rw [modParts, if_neg hnone, List.map_cons, List.map_cons, takeParts, takeParts,
      List.forall_mem_cons, List.forall_mem_cons]
    refine ⟨fun h => ⟨hlo.mp h.1, fun _ => hmods.mp h.2.2.1⟩, fun h => ?_⟩
    exact ⟨hlo.mpr h.loadOrder, partClosed_frame _, hmods.mpr (h.mods hnone), partClosed_frame _,
      List.forall_mem_nil _⟩

theorem staysClosed_sentParts (systemPrompt : List Char) (intent : String) (loInfo : LoadOrder)
    (modResults : List ModRow) (tools : Option (List Char)) :
    StaysClosed (sentParts u systemPrompt intent loInfo modResults tools) ↔
      (intent = "CONSULTA_MODDING" → ContextStays u loInfo modResults) := by
  have hframes : StaysClosed (sentParts u systemPrompt intent loInfo modResults tools) ↔
      StaysClosed (injectedParts u intent loInfo modResults) := by
    unfold StaysClosed sentParts
    rw [List.forall_mem_cons, List.forall_mem_append, List.forall_mem_singleton]
    exact (and_iff_right (partClosed_frame _)).trans (and_iff_left (partClosed_frame _))
  rw [hframes, injectedParts]
  by_cases hintent : intent = "CONSULTA_MODDING"
  · rw [if_pos hintent, forall_prop_of_true hintent, ← staysClosed_context]
    unfold StaysClosed
    rw [List.forall_mem_append]
    refine and_iff_left ?_
    split
    · rw [List.forall_mem_singleton]
      exact partClosed_frame _
    · exact List.forall_mem_nil _
  · rw [if_neg hintent]
    exact iff_of_true (List.forall_mem_nil _) fun h => absurd h hintent

/-- **What is sent consists of its parts, and the blocks stay closed just if each of them stays closed
with the room that it has.** -/
theorem staysClosed_iff (u : LineUnicode) (systemPrompt : List Char) (intent : String)
    (loInfo : LoadOrder) (modResults : List ModRow) (tools : Option (List Char)) :
    effectiveSystem u systemPrompt intent loInfo modResults tools =
        .ok (texts (sentParts u systemPrompt intent loInfo modResults tools)) ∧
      (StaysClosed (sentParts u systemPrompt intent loInfo modResults tools) ↔
        (intent = "CONSULTA_MODDING" → ContextStays u loInfo modResults)) :=
  ⟨effectiveSystem_eq systemPrompt intent loInfo modResults tools,
    staysClosed_sentParts systemPrompt intent loInfo modResults tools⟩

variable {n : Nat}

/-! ## A long name -/

theorem removalLoop_letters (n : Nat) (before after : List Char) :
    removalLoop injectionPatterns maxPasses (before ++ (List.replicate (n + 1) 'z' ++ after)) =
      removalLoop injectionPatterns maxPasses before ++
        (List.replicate (n + 1) 'z' ++ removalLoop injectionPatterns maxPasses after) := by
  have hguard : Guarded ['z'] := by decide +kernel
  induction n generalizing before with
  | zero => exact removalLoop_guard hguard maxPasses before after
  | succ n ih =>
      have hrest := ih []
      have hempty : removalLoop injectionPatterns maxPasses [] = [] := by decide
      rw [List.nil_append, hempty, List.nil_append] at hrest
      show removalLoop injectionPatterns maxPasses
        (before ++ (['z'] ++ (List.replicate (n + 1) 'z' ++ after))) = _
      rw [removalLoop_guard hguard, hrest]
      rfl

/-- A mod whose name has so many letters. -/
def namedMod (n : Nat) : ModRow := ⟨true, ['1'], List.replicate n 'z', ['1']⟩

theorem modText_namedMod (n : Nat) :
    modText [namedMod n] =
      "- [1] ".toList ++ (List.replicate n 'z' ++ " v1 | ✅ Installed/Active".toList) := by
  have hleft : "- [".toList ++ ['1'] ++ "] ".toList = "- [1] ".toList := by decide
  have hright : " v".toList ++ (['1'] ++ (" | ".toList ++ "✅ Installed/Active".toList)) =
      " v1 | ✅ Installed/Active".toList := by decide
  show ("- [".toList ++ ['1'] ++ "] ".toList ++ List.replicate n 'z' ++ " v".toList ++ ['1'] ++
    " | ".toList ++ "✅ Installed/Active".toList) ++ [] = _
  rw [hleft, List.append_nil]
  simp only [List.append_assoc, hright]

theorem inner_namedMod (hn : n ≤ 16000) :
    inner (modText [namedMod n]) = "\n<![CDATA[- [1] ".toList ++
      (List.replicate n 'z' ++ " v1 | ✅ Installed/Active]]>".toList) := by
  have hmark : '>' ∉ modText [namedMod n] := by
    rw [modText_namedMod, List.mem_append, List.mem_append]
    refine not_or_intro (by decide) (not_or_intro (fun h => ?_) (by decide))
    exact absurd (List.eq_of_mem_replicate h) (by decide)
  have hescape : escape (modText [namedMod n]) = modText [namedMod n] := by
    have hnone : cut closer (modText [namedMod n]) = none :=
      (cut_eq_none_iff closer_ne_nil).mpr fun hoccurs =>
        hmark ( hoccurs.subset (by decide : '>' ∈ closer))
    rw [escape_eq, hnone]
  have hlength : (modText [namedMod n]).length ≤ 16384 := by
    rw [modText_namedMod, List.length_append, List.length_append, List.length_replicate]
    have hends : "- [1] ".toList.length + " v1 | ✅ Installed/Active".toList.length ≤ 384 := by decide
    omega
  have hlimited : limited .default (modText [namedMod n]) = modText [namedMod n] := by
    have htruncated : truncated .default (modText [namedMod n]) = false := by
      refine decide_eq_false ?_
      show ¬(16384 : Int) < _
      omega
    rw [limited, htruncated]
    rfl
  have hleft : '\n' :: (opener ++ "- [1] ".toList) = "\n<![CDATA[- [1] ".toList := by decide
  have hright : " v1 | ✅ Installed/Active".toList ++ closer =
      " v1 | ✅ Installed/Active]]>".toList := by decide
  rw [inner, hlimited, hescape, modText_namedMod, ← hleft, ← hright]
  simp only [List.append_assoc, List.cons_append]

theorem cleaned_namedMod (hn : n + 1 ≤ 16000) :
    ∃ before after, '/' ∉ before ∧
      cleaned .basic (inner (modText [namedMod (n + 1)])) =
        before ++ (List.replicate (n + 1) 'z' ++ after) := by
  have hplain : ∀ c ∈ inner (modText [namedMod (n + 1)]), isConfusable c = false ∧
      Unicode.basic.isFormat c = false ∧ isControlChar c = false := by
    rw [inner_namedMod hn, List.forall_mem_append, List.forall_mem_append]
    refine ⟨List.all_iff_forall_prop.mp (by decide), fun c hc => ?_,
      List.all_iff_forall_prop.mp (by decide)⟩
    rw [List.eq_of_mem_replicate hc]
    decide
  have hvisible : visibleText LineUnicode.basic.toUnicode true
      (inner (modText [namedMod (n + 1)])) = inner (modText [namedMod (n + 1)]) :=
    visibleText_of_stable (canonicalizeHomoglyphs_of_plain fun c hc => (hplain c hc).1) rfl
      fun c hc => ⟨(hplain c hc).2.1, fun _ => (hplain c hc).2.2⟩
  refine ⟨removalLoop injectionPatterns maxPasses "\n<![CDATA[- [1] ".toList,
    removalLoop injectionPatterns maxPasses " v1 | ✅ Installed/Active]]>".toList, fun hslash => ?_, ?_⟩
  · exact absurd ((removalLoop_sublist _ _ _).subset hslash) (by decide)
  · rw [cleaned, hvisible, inner_namedMod hn]
    exact removalLoop_letters n _ _

theorem length_le_texts {part : Part} {parts : List Part} (h : part ∈ parts) :
    part.text.length ≤ (texts parts).length := by
  obtain ⟨before, after, rfl⟩ := List.append_of_mem h
  rw [texts_append, List.length_append]
  show _ ≤ _ + (part.text ++ texts after).length
  rw [List.length_append]
  omega

theorem length_context_namedMod (loInfo : LoadOrder) (hn : n + 1 ≤ 16000) :
    n + 1 ≤ (texts ((contextParts loInfo [namedMod (n + 1)]).map (cleanPart .basic))).length := by
  obtain ⟨before, after, -, hinner⟩ := cleaned_namedMod hn
  have hpart : n + 1 ≤ (cleanPart .basic
      (blockPart "mod_metadata".toList (modText [namedMod (n + 1)]))).text.length := by
    rw [cleanPart, cleaned_blockPart marker_modMetadata, hinner]
    simp only [List.length_append, List.length_replicate]
    omega
  have hmem : cleanPart .basic (blockPart "mod_metadata".toList (modText [namedMod (n + 1)])) ∈
      (contextParts loInfo [namedMod (n + 1)]).map (cleanPart .basic) := by
    refine List.mem_map_of_mem ?_
    rw [contextParts, modParts, if_neg (List.cons_ne_nil _ _)]
    exact List.mem_append_right [_, _, _] List.mem_cons_self
  exact hpart.trans (length_le_texts hmem)

/-- A name of 9000 letters: the block of the mods is cut, and what follows it is sent as data. -/
theorem staysClosed_counterexample :
    ¬StaysClosed (sentParts .basic [] "CONSULTA_MODDING" .missing [namedMod 9000] none) := by
  rw [staysClosed_sentParts, forall_prop_of_true rfl]
  intro h
  have hmods := h.mods (List.cons_ne_nil _ _)
  obtain ⟨before, after, hslash, hinner⟩ :=
    cleaned_namedMod (by decide : 8999 + 1 ≤ 16000)
  have hhead : partLength .basic headline ≤ 100 := by decide +kernel
  have hblock : partLength .basic (blockPart "loadorder.txt".toList LoadOrder.missing.text) ≤ 200 := by
    decide +kernel
  have hbetween : partLength .basic (between .missing [namedMod 9000]) ≤ 100 := by decide +kernel
  have hroom : room .basic .missing [namedMod 9000] = 8177 := by
    have htotal := length_context_namedMod .missing (by decide : 8999 + 1 ≤ 16000)
    unfold room kept
    exact if_pos (lt_of_lt_of_le (by decide : 8192 < 8999 + 1) htotal)
  rw [hroom, hinner] at hmods
  have htag : (blockTag "mod_metadata".toList).length = 37 := by decide
  rcases hmods with hshort | ⟨hfits, -⟩ | hclosed
  · omega
  · simp only [List.length_append, List.length_replicate] at hfits
    omega
  · have hmem := hclosed.occurs.subset (by decide : '/' ∈ closeTag)
    rw [← List.append_assoc, List.take_append_of_le_length] at hmem
    · rcases List.mem_append.mp (List.mem_of_mem_take hmem) with hfirst | hletter
      · exact hslash hfirst
      · exact absurd (List.eq_of_mem_replicate hletter) (by decide)
    · rw [List.length_append, List.length_replicate]
      omega

end SkyClaw.Agent.RetrievedContext
