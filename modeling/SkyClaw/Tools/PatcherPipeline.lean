import SkyClaw.Lib.JsonText
import SkyClaw.Lib.KeyedTable
import SkyClaw.Lib.LastWins
import SkyClaw.Lib.PyStr

/-!
# Loading the patcher pipeline

`PatcherPipeline.from_json`.  The constructor fills the pipeline entry by entry and swallows whatever
ends it, so `from_json` returns what has been loaded by then.  `loadsWhole_iff`: that is the whole file
just if the file is well formed.
-/

namespace SkyClaw.Tools.PatcherPipeline

/-! ## A patcher -/

/-- `PatcherDefinition`; only the id is looked at when it is made. -/
structure PatcherDefinition where
  patcherId : String
  enabled : Json
  order : Json
  config : Json
  notBlank : PyStr.strip patcherId ≠ ""

/-- What ends the loading of a file. -/
inductive LoadError
  /-- an `OSError` -/
  | os
  /-- a `UnicodeDecodeError` -/
  | decode
  /-- a `JSONDecodeError`, or a limit of the interpreter -/
  | json
  /-- `PatcherPipelineError` -/
  | pipeline (message : String)
  /-- `Invalid config for patcher '…': …` -/
  | config (patcherId reason : String)
  | typeError
  | attributeError

def isText (text : String) : Json → Bool
  | .str value => value = text
  | _ => false

/-- `key in data` -/
def hasKey (key : String) : Json → Except LoadError Bool
  | .obj fields => .ok (fields.lookup key).isSome
  | .arr items => .ok (items.any (isText key))
  | .str text => .ok (decide (key.toList <:+: text.toList))
  | _ => .error .typeError

/-- The constructor with `__post_init__`. -/
def make (patcherId enabled order config : Json) : Except LoadError PatcherDefinition :=
  if patcherId.truthy = false then .error (.config "" "patcher_id cannot be empty")
  else match patcherId with
    | .str text =>
        if h : PyStr.strip text = "" then .error (.config "" "patcher_id cannot be empty")
        else .ok ⟨text, enabled, order, config, h⟩
    | _ => .error .attributeError

def fromDict (data : Json) : Except LoadError PatcherDefinition :=
  match hasKey "patcher_id" data with
  | .error error => .error error
  | .ok false => .error (.config "" "missing required field: patcher_id")
  | .ok true => match data with
    | .obj fields =>
        make ((fields.lookup "patcher_id").getD .null) ((fields.lookup "enabled").getD (.bool true))
          ((fields.lookup "order").getD (.int 0)) ((fields.lookup "config").getD (.obj []))
    | _ => .error .typeError

/-! ## The pipeline -/

abbrev Patchers := KeyedTable PatcherDefinition.patcherId

/-- The loop over the entries, which stops at the first one that is invalid. -/
def loadEntries : Patchers → List Json → Patchers × Option LoadError
  | patchers, [] => (patchers, none)
  | patchers, entry :: entries =>
      match fromDict entry with
      | .error error => (patchers, some error)
      | .ok patcher => loadEntries (patchers.setItem patcher) entries

/-- What is at the path. -/
inductive File
  | missing
  /-- a directory, or a file that cannot be read -/
  | unreadable
  | content (bytes : ByteArray)

/-- Line ends of a file in text mode. -/
def newlines : List Char → List Char
  | '\r' :: '\n' :: rest => '\n' :: newlines rest
  | '\r' :: rest => '\n' :: newlines rest
  | c :: rest => c :: newlines rest
  | [] => []

/-- The floats of the interpreter, and the texts within its limits on the digits of a number and the
depth of a value. -/
structure Interpreter where
  floats : JsonText.FloatText
  within : String → Bool

variable (python : Interpreter)

/-- `json.load` of a file that has been opened. -/
def jsonLoad (bytes : ByteArray) : Except LoadError Json :=
  match String.fromUTF8? bytes with
  | none => .error .decode
  | some raw =>
      let text := String.ofList (newlines raw.toList)
      match if python.within text then JsonText.loads python.floats text else none with
      | none => .error .json
      | some data => .ok data

/-- `_load_from_path`, with what it leaves in an empty pipeline. -/
def loadFromPath : File → Patchers × Option LoadError
  | .missing => (.empty _, some .os)
  | .unreadable => (.empty _, some .os)
  | .content bytes =>
      match jsonLoad python bytes with
      | .error error => (.empty _, some error)
      | .ok (.obj fields) =>
          match (fields.lookup "patchers").getD (.arr []) with
          | .arr entries => loadEntries (.empty _) entries
          | _ => (.empty _, some (.pipeline "'patchers' must be a list"))
      | .ok _ => (.empty _, some (.pipeline "Pipeline config must be a JSON object"))

def File.exists : File → Bool
  | .missing => false
  | _ => true

/-- `__init__`: whatever is raised is only logged. -/
def construct (file : File) : Patchers :=
  if file.exists then (loadFromPath python file).1 else .empty _

/-- What `from_json` is documented to raise. -/
inductive FromJsonError
  /-- `Pipeline config not found: …` -/
  | fileNotFound
  /-- for a corrupt file; nothing raises it -/
  | pipelineError (error : LoadError)

def fromJson (file : File) : Except FromJsonError Patchers :=
  if file.exists then .ok (construct python file) else .error .fileNotFound

/-- An entry of the file that defines a patcher. -/
structure IsDefinition (fields : List (String × Json)) (patcher : PatcherDefinition) : Prop where
  patcherId : fields.lookup "patcher_id" = some (.str patcher.patcherId)
  enabled : (fields.lookup "enabled").getD (.bool true) = patcher.enabled
  order : (fields.lookup "order").getD (.int 0) = patcher.order
  config : (fields.lookup "config").getD (.obj []) = patcher.config

def Entry (entry : Json) (patcher : PatcherDefinition) : Prop :=
  ∃ fields, entry = .obj fields ∧ IsDefinition fields patcher

/-- **A well-formed file with its definitions**: an object, whose `patchers` are all of them. -/
structure Defines (file : File) (definitions : List PatcherDefinition) : Prop where
  wellFormed : ∃ bytes fields entries, file = .content bytes ∧
    jsonLoad python bytes = .ok (.obj fields) ∧
    (fields.lookup "patchers").getD (.arr []) = .arr entries ∧
    List.Forall₂ Entry entries definitions

/-- What a definition leaves under an id. -/
def under (id : String) (patcher : PatcherDefinition) : Option PatcherDefinition :=
  if patcher.patcherId = id then some patcher else none

/-- **All or nothing**: what is returned are the definitions of the file, the last one for each id. -/
def LoadsWhole (file : File) : Prop :=
  ∀ patchers, fromJson python file = .ok patchers →
    ∃ definitions, Defines python file definitions ∧
      ∀ id, patchers.lookup id = LastWins.leaves (under id) definitions

variable {python}

/-! ## One entry -/

variable {patcher : PatcherDefinition}

theorem make_eq_ok_iff {patcherId enabled order config : Json} :
    make patcherId enabled order config = .ok patcher ↔
      patcherId = .str patcher.patcherId ∧ enabled = patcher.enabled ∧ order = patcher.order ∧
        config = patcher.config := by
  obtain ⟨text, enabled', order', config', hblank⟩ := patcher
  unfold make
  by_cases htruthy : patcherId.truthy = false
  · rw [if_pos htruthy]
    refine iff_of_false nofun ?_
    rintro ⟨rfl, -⟩
    have hempty : text = "" := by simpa [Json.truthy] using htruthy
    exact hblank (hempty ▸ (by decide : PyStr.strip "" = ""))
  · rw [if_neg htruthy]
    cases patcherId with
    | str value =>
        dsimp only
        by_cases hvalue : PyStr.strip value = ""
        · rw [dif_pos hvalue]
          refine iff_of_false nofun ?_
          rintro ⟨heq, -⟩
          exact hblank (Json.str.inj heq ▸ hvalue)
        · rw [dif_neg hvalue, Except.ok.injEq, PatcherDefinition.mk.injEq, Json.str.injEq]
    | _ => exact iff_of_false nofun fun h => by cases h.1

@[simp] theorem hasKey_obj (key : String) (fields : List (String × Json)) :
    hasKey key (.obj fields) = .ok (fields.lookup key).isSome := rfl

variable {entry : Json}

theorem object_of_fromDict
    (h : fromDict entry = .ok patcher) : ∃ fields, entry = .obj fields := by
  cases entry with
  | obj fields => exact ⟨fields, rfl⟩
  | _ =>
      unfold fromDict at h
      split at h
      · cases h
      · cases h
      · cases h

theorem fromDict_obj_eq_ok_iff {fields : List (String × Json)} :
    fromDict (.obj fields) = .ok patcher ↔ IsDefinition fields patcher := by
  unfold fromDict
  rw [hasKey_obj]
  cases hid : fields.lookup "patcher_id" with
  | none => exact iff_of_false nofun fun h => by cases hid.symm.trans h.patcherId
  | some value =>
      show make ((fields.lookup "patcher_id").getD .null) _ _ _ = _ ↔ _
      rw [make_eq_ok_iff, hid]
      constructor
      · rintro ⟨hvalue, henabled, horder, hconfig⟩
        exact ⟨hid.trans (congrArg some hvalue), henabled, horder, hconfig⟩
      · intro h
        exact ⟨Option.some.inj (hid.symm.trans h.patcherId), h.enabled, h.order, h.config⟩

theorem fromDict_eq_ok_iff :
    fromDict entry = .ok patcher ↔ Entry entry patcher := by
  constructor
  · intro h
    obtain ⟨fields, rfl⟩ := object_of_fromDict h
    exact ⟨fields, rfl, fromDict_obj_eq_ok_iff.mp h⟩
  · rintro ⟨fields, rfl, hdefinition⟩
    exact fromDict_obj_eq_ok_iff.mpr hdefinition

variable {definitions : List PatcherDefinition}

theorem loadEntries_of_forall₂ {entries : List Json}
    (h : List.Forall₂ Entry entries definitions) (patchers : Patchers) :
    loadEntries patchers entries = (definitions.foldl KeyedTable.setItem patchers, none) := by
  induction h generalizing patchers with
  | nil => rfl
  | cons hentry _ ih =>
      unfold loadEntries
      rw [fromDict_eq_ok_iff.mpr hentry]
      exact ih _

theorem lookup_foldl_setItem (definitions : List PatcherDefinition) (patchers : Patchers)
    (id : String) :
    (definitions.foldl KeyedTable.setItem patchers).lookup id =
      (LastWins.leaves (under id) definitions).or (patchers.lookup id) := by
  induction definitions generalizing patchers with
  | nil => rfl
  | cons patcher definitions ih =>
      rw [List.foldl_cons, ih, KeyedTable.lookup_setItem, LastWins.leaves_cons, Option.or_assoc]
      refine congrArg _ ?_
      unfold under
      split
      · rfl
      · rfl

/-! ## The file -/

theorem lookup_of_defines {file : File}
    (h : Defines python file definitions) :
    fromJson python file = .ok (definitions.foldl KeyedTable.setItem (.empty _)) := by
  obtain ⟨bytes, fields, entries, rfl, hload, hentries, hdefinitions⟩ := h.wellFormed
  have hpath : loadFromPath python (.content bytes) =
      (definitions.foldl KeyedTable.setItem (.empty _), none) := by
    simp only [loadFromPath, hload, hentries]
    exact loadEntries_of_forall₂ hdefinitions _
  show Except.ok (loadFromPath python (.content bytes)).1 = _
  rw [hpath]

/-- **The file is loaded whole, or nothing is returned, just if it is not there or is well formed.** -/
theorem loadsWhole_iff (python : Interpreter) (file : File) :
    LoadsWhole python file ↔ file = .missing ∨ ∃ definitions, Defines python file definitions := by
  constructor
  · intro h
    cases hexists : file.exists with
    | false =>
        cases file with
        | missing => exact .inl rfl
        | _ => cases hexists
    | true =>
        have hreturned : fromJson python file = .ok (construct python file) := by
          rw [fromJson, hexists]
          rfl
        obtain ⟨definitions, hdefines, -⟩ := h _ hreturned
        exact .inr ⟨definitions, hdefines⟩
  · rintro (rfl | ⟨definitions, hdefines⟩) patchers hreturned
    · cases hreturned
    · obtain rfl := Except.ok.inj ((lookup_of_defines hdefines).symm.trans hreturned)
      refine ⟨definitions, hdefines, fun id => ?_⟩
      rw [lookup_foldl_setItem, KeyedTable.lookup_empty, Option.or_none]

section Loaded

private def anyDepth : Interpreter := ⟨.integral, fun _ => true⟩

private def truncated : String := "\x7b\"patchers\": [\x7b\"patcher_id\": \"A\"\x7d, \x7b\"pat"

/-- The second entry has no id. -/
private def unnamed : String := "\x7b\"patchers\": [\x7b\"patcher_id\": \"A\"\x7d, \x7b\x7d]\x7d"

private def entries : List Json := [.obj [("patcher_id", .str "A")], .obj []]

theorem jsonLoad_truncated : jsonLoad anyDepth truncated.toUTF8 = .error .json := by
  have htext : String.fromUTF8? truncated.toUTF8 = some truncated := by decide +kernel
  rw [jsonLoad, htext]
  rfl

theorem jsonLoad_unnamed :
    jsonLoad anyDepth unnamed.toUTF8 = .ok (.obj [("patchers", .arr entries)]) := by
  have htext : String.fromUTF8? unnamed.toUTF8 = some unnamed := by decide +kernel
  rw [jsonLoad, htext]
  rfl

/-- A file that is cut off gives the empty pipeline, an entry without id the entries before it. -/
theorem loadsWhole_counterexample :
    (fromJson anyDepth (.content truncated.toUTF8) = .ok (.empty _) ∧
      ¬ LoadsWhole anyDepth (.content truncated.toUTF8)) ∧
    ((fromJson anyDepth (.content unnamed.toUTF8)).map (·.rows.map PatcherDefinition.patcherId) =
        .ok ["A"] ∧
      ¬ LoadsWhole anyDepth (.content unnamed.toUTF8)) := by
  have hempty : fromJson anyDepth (.content truncated.toUTF8) = .ok (.empty _) := by
    show Except.ok (loadFromPath anyDepth (.content truncated.toUTF8)).1 = _
    simp only [loadFromPath, jsonLoad_truncated]
  have hloaded : fromJson anyDepth (.content unnamed.toUTF8) =
      .ok (loadEntries (.empty _) entries).1 := by
    show Except.ok (loadFromPath anyDepth (.content unnamed.toUTF8)).1 = _
    simp only [loadFromPath, jsonLoad_unnamed]
    rfl
  refine ⟨⟨hempty, fun h => ?_⟩, ?_, fun h => ?_⟩
  · obtain ⟨definitions, ⟨bytes, fields, entries, heq, hload, -⟩, -⟩ := h _ hempty
    obtain rfl := File.content.inj heq
    cases jsonLoad_truncated.symm.trans hload
  · have hids : (loadEntries (.empty _) entries).1.rows.map PatcherDefinition.patcherId = ["A"] := by
      decide +kernel
    rw [hloaded]
    exact congrArg Except.ok hids
  · obtain ⟨definitions, ⟨bytes, fields, items, heq, hload, hitems, hdefinitions⟩, -⟩ := h _ hloaded
    obtain rfl := File.content.inj heq
    obtain rfl := Json.obj.inj (Except.ok.inj (jsonLoad_unnamed.symm.trans hload))
    obtain rfl := Json.arr.inj (hitems.symm.trans rfl : Json.arr items = .arr entries)
    obtain - | ⟨-, - | ⟨⟨fields, hfields, hunnamed⟩, -⟩⟩ := hdefinitions
    obtain rfl := Json.obj.inj hfields
    cases hunnamed.patcherId

end Loaded

end SkyClaw.Tools.PatcherPipeline
