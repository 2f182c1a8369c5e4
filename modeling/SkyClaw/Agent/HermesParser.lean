import SkyClaw.Lib.Checks
import SkyClaw.Lib.JsonLimits
import SkyClaw.Lib.JsonStrings
import SkyClaw.Lib.PyLines

/-!
# The Hermes parser of tool calls

`extract_tool_calls` takes what stands between two tags for JSON.  A call comes back unless one of its
strings has the closing tag, and the `ValueError`s are the ones that its docstring names unless
`arguments` is a zero or `False`, or a limit of the interpreter is met: `extracts_iff`.
-/

namespace SkyClaw.Agent.Hermes

open JsonText (FloatText WellFormed Fits HasString LoadError dumps loads loadsWithin)
open PyStr (trim)
open SubText (cut)

def openTag : List Char := "<tool_call>".toList

def closeTag : List Char := "</tool_call>".toList

/-- What `TOOL_CALL_RE` finds; the group is lazy, so a block ends at the first closing tag behind its
opening tag, and the blanks at both ends are not part of it. -/
def findBlocks : Nat → List Char → List (List Char)
  | 0, _ => []
  | fuel + 1, text =>
      match cut openTag text with
      | none => []
      | some (_, rest) =>
          match cut closeTag rest with
          | none => []
          | some (block, rest) => trim block :: findBlocks fuel rest

/-- `TOOL_CALL_RE.findall(text)` -/
def findAll (text : List Char) : List (List Char) := findBlocks (text.length + 1) text

structure ToolCall where
  name : String
  arguments : List (String × Json)

/-- What `extract_tool_calls` raises. -/
inductive ParseError
  /-- a `JSONDecodeError`, turned into a `ValueError` -/
  | malformed (raw : List Char)
  | notObject (parsed : Json) (raw : List Char)
  | missingName (raw : List Char)
  | badArguments (arguments : Json)
  /-- the `ValueError` of an integer that has too many digits -/
  | digits
  /-- a `RecursionError` -/
  | recursion

def ParseError.isValueError : ParseError → Bool
  | .recursion => false
  | _ => true

/-- `str(value)`, which may raise a `RecursionError`. -/
structure StrText where
  str : Json → Option String
  str_str : ∀ text, str (.str text) = some text

/-- `parsed.get("arguments")` -/
def getArguments (fields : List (String × Json)) : Json := (fields.lookup "arguments").getD .null

/-- `value or {}` -/
def orEmpty (value : Json) : Json := if value.truthy then value else .obj []

section Parsing

variable (F : FloatText) (T : StrText) (depth : Nat)

/-- The body of the loop. -/
def parseBlock (raw : List Char) : Except ParseError ToolCall :=
  match loadsWithin F depth (String.ofList raw) with
  | .error .decode => .error (.malformed raw)
  | .error .intDigits => .error .digits
  | .error .recursion => .error .recursion
  | .ok (.obj fields) =>
      match fields.lookup "name" with
      | none => .error (.missingName raw)
      | some name =>
          match orEmpty (getArguments fields) with
          | .obj arguments =>
              match T.str name with
              | some name => .ok ⟨name, arguments⟩
              | none => .error .recursion
          | arguments => .error (.badArguments arguments)
  | .ok parsed => .error (.notObject parsed raw)

def extractToolCalls (text : List Char) : Except ParseError (List ToolCall) :=
  (findAll text).mapM (parseBlock F T depth)

end Parsing

/-! ## What it is for -/

/-- The JSON object of a call. -/
def ToolCall.json (call : ToolCall) : Json :=
  .obj [("name", .str call.name), ("arguments", .obj call.arguments)]

/-- A call, and the text in front of it, which opens none itself. -/
structure Rendered (F : FloatText) where
  before : List Char
  free : ¬openTag <:+: before
  call : ToolCall
  wellFormed : WellFormed F (.obj call.arguments)

variable {F : FloatText} {T : StrText} {depth : Nat}

open JsonText

def Rendered.block (rendered : Rendered F) : List Char := write F rendered.call.json

/-- The calls one after the other, and the text behind them. -/
def render (calls : List (Rendered F)) (trailing : List Char) : List Char :=
  match calls with
  | [] => trailing
  | rendered :: calls =>
      rendered.before ++ openTag ++ (rendered.block ++ closeTag ++ render calls trailing)

/-- Calls with texts around them. -/
structure Document (F : FloatText) where
  calls : List (Rendered F)
  trailing : List Char
  free : ¬openTag <:+: trailing

def Document.text (document : Document F) : List Char := render document.calls document.trailing

/-- Arguments that are absent, null or empty, or an object. -/
inductive ObjectOrEmpty : Json → Prop
  | null : ObjectOrEmpty .null
  | text : ObjectOrEmpty (.str "")
  | list : ObjectOrEmpty (.arr [])
  | object (fields : List (String × Json)) : ObjectOrEmpty (.obj fields)

/-- A JSON object with a name key and such arguments. -/
def IsToolCall (value : Json) : Prop :=
  ∃ fields, value = .obj fields ∧ (fields.lookup "name").isSome = true ∧
    ObjectOrEmpty (getArguments fields)

/-- A block that is no tool call. -/
def IllFormed (F : FloatText) (raw : List Char) : Prop :=
  ∀ value, loads F (String.ofList raw) = some value → ¬IsToolCall value

/-- The calls come back, in order. -/
def RoundTrips (T : StrText) (depth : Nat) (document : Document F) : Prop :=
  extractToolCalls F T depth document.text = .ok (document.calls.map Rendered.call)

def RaisesValueError (F : FloatText) (T : StrText) (depth : Nat) (text : List Char) : Prop :=
  ∃ e, extractToolCalls F T depth text = .error e ∧ e.isValueError = true

/-- **A `ValueError` is raised exactly for an ill-formed block.** -/
def RefusesIllFormed (F : FloatText) (T : StrText) (depth : Nat) (text : List Char) : Prop :=
  RaisesValueError F T depth text ↔ ∃ raw ∈ findAll text, IllFormed F raw

/-- No string of the call has the closing tag, and the call is within the limits. -/
structure Kept (depth : Nat) (call : ToolCall) : Prop where
  tag : ∀ s, HasString s call.json → ¬closeTag <:+: s.toList
  fits : Fits depth call.json

/-- What is false without being empty. -/
inductive ZeroOrFalse : Json → Prop
  | int : ZeroOrFalse (.int 0)
  | float : ZeroOrFalse (.float (some 0))
  | bool : ZeroOrFalse (.bool false)

/-- The block is an object with a name, but its arguments are a zero or false. -/
def Lenient (F : FloatText) (depth : Nat) (raw : List Char) : Prop :=
  ∃ fields, loadsWithin F depth (String.ofList raw) = .ok (.obj fields) ∧
    (fields.lookup "name").isSome = true ∧ ZeroOrFalse (getArguments fields)

/-- An integer of the block has too many digits. -/
def MeetsDigits (F : FloatText) (depth : Nat) (raw : List Char) : Prop :=
  loadsWithin F depth (String.ofList raw) = .error .intDigits

/-- The block nests too deep, or its name does. -/
def MeetsDepth (F : FloatText) (T : StrText) (depth : Nat) (raw : List Char) : Prop :=
  loadsWithin F depth (String.ofList raw) = .error .recursion ∨
    ∃ fields name, loadsWithin F depth (String.ofList raw) = .ok (.obj fields) ∧
      fields.lookup "name" = some name ∧ T.str name = none ∧
      (ObjectOrEmpty (getArguments fields) ∨ ZeroOrFalse (getArguments fields))

/-- The block is not let through. -/
def Stops (F : FloatText) (T : StrText) (depth : Nat) (raw : List Char) : Prop :=
  (IllFormed F raw ∧ ¬Lenient F depth raw) ∨ MeetsDigits F depth raw ∨ MeetsDepth F T depth raw

/-- If all blocks are let through, none of them has a zero or false for its arguments.  If the first one
that is not meets the limit on digits, some block is ill-formed, and if it meets the one on depth, none
is. -/
structure Settled (F : FloatText) (T : StrText) (depth : Nat) (raws : List (List Char)) : Prop where
  lenient : (∀ raw ∈ raws, ¬Stops F T depth raw) → ∀ raw ∈ raws, ¬Lenient F depth raw
  digits : ∀ front raw back, raws = front ++ raw :: back →
    (∀ earlier ∈ front, ¬Stops F T depth earlier) → MeetsDigits F depth raw →
      ∃ other ∈ raws, IllFormed F other
  depth : ∀ front raw back, raws = front ++ raw :: back →
    (∀ earlier ∈ front, ¬Stops F T depth earlier) → MeetsDepth F T depth raw →
      ∀ other ∈ raws, ¬IllFormed F other

/-! ## One block -/

theorem orEmpty_eq_obj_iff {value : Json} :
    (∃ arguments, orEmpty value = .obj arguments) ↔ ObjectOrEmpty value ∨ ZeroOrFalse value := by
  unfold orEmpty
  constructor
  · rintro ⟨arguments, h⟩
    split_ifs at h with htruthy
    · rw [h]
      exact .inl (.object arguments)
    · cases value with
      | null => exact .inl .null
      | bool value =>
          cases value with
          | true => exact absurd rfl htruthy
          | false => exact .inr .bool
      | int value =>
          have hzero : value = 0 := by simpa [Json.truthy] using htruthy
          rw [hzero]
          exact .inr .int
      | float value =>
          have hzero : value = some 0 := by simpa [Json.truthy] using htruthy
          rw [hzero]
          exact .inr .float
      | str value =>
          have hempty : value = "" := by simpa [Json.truthy] using htruthy
          rw [hempty]
          exact .inl .text
      | arr items =>
          have hempty : items = [] := by simpa [Json.truthy] using htruthy
          rw [hempty]
          exact .inl .list
      | obj fields => exact .inl (.object fields)
  · rintro (h | h)
    · cases h with
      | null | text | list => exact ⟨[], rfl⟩
      | object fields =>
          cases fields with
          | nil => exact ⟨[], rfl⟩
          | cons field fields => exact ⟨field :: fields, rfl⟩
    · cases h with
      | int | float | bool => exact ⟨[], rfl⟩

theorem not_objectOrEmpty {value : Json} (h : ZeroOrFalse value) : ¬ObjectOrEmpty value := by
  intro hempty
  cases h <;> cases hempty

variable {raw : List Char}

theorem illFormed_iff {value : Json}
    (h : loadsWithin F depth (String.ofList raw) = .ok value) :
    IllFormed F raw ↔ ¬IsToolCall value := by
  have hloads : loads F (String.ofList raw) = some value := by
    have hagrees := agrees_loadsWithin (F := F) depth (String.ofList raw)
    rw [h] at hagrees
    exact hagrees
  constructor
  · exact fun hill => hill value hloads
  · intro hno value' hvalue'
    cases hloads.symm.trans hvalue'
    exact hno

/-- How one block ends. -/
inductive Outcome (F : FloatText) (T : StrText) (depth : Nat) (raw : List Char) :
    Except ParseError ToolCall → Prop
  | accepted (call : ToolCall) (hdigits : ¬MeetsDigits F depth raw)
      (hdepth : ¬MeetsDepth F T depth raw) (hill : IllFormed F raw ↔ Lenient F depth raw) :
      Outcome F T depth raw (.ok call)
  | refused {e : ParseError} (he : e.isValueError = true) (hill : IllFormed F raw)
      (hlenient : ¬Lenient F depth raw) (hdigits : ¬MeetsDigits F depth raw)
      (hdepth : ¬MeetsDepth F T depth raw) : Outcome F T depth raw (.error e)
  | digits (h : MeetsDigits F depth raw) (hdepth : ¬MeetsDepth F T depth raw) :
      Outcome F T depth raw (.error .digits)
  | depth (h : MeetsDepth F T depth raw) (hdigits : ¬MeetsDigits F depth raw) :
      Outcome F T depth raw (.error .recursion)

theorem outcome_parseBlock (raw : List Char) :
    Outcome F T depth raw (parseBlock F T depth raw) := by
  unfold parseBlock
  cases hloads : loadsWithin F depth (String.ofList raw) with
  | error e =>
      cases e with
      | decode =>
          have hagrees := agrees_loadsWithin (F := F) depth (String.ofList raw)
          rw [hloads] at hagrees
          refine .refused rfl (fun value hvalue => ?_) ?_ ?_ ?_
          · cases (show loads F _ = none from hagrees).symm.trans hvalue
          · rintro ⟨fields, hfields, -⟩
            cases hloads.symm.trans hfields
          · exact fun h => by cases hloads.symm.trans h
          · rintro (h | ⟨fields, name, h, -⟩)
            · cases hloads.symm.trans h
            · cases hloads.symm.trans h
      | intDigits =>
          refine .digits hloads ?_
          rintro (h | ⟨fields, name, h, -⟩)
          · cases hloads.symm.trans h
          · cases hloads.symm.trans h
      | recursion => exact .depth (.inl hloads) fun h => by cases hloads.symm.trans h
  | ok value =>
      have hdigits : ¬MeetsDigits F depth raw := fun h => by cases hloads.symm.trans h
      have hill := illFormed_iff hloads
      -- Refused unless it is an object with a name whose arguments are objects, empty or false.
      have hrefused : ∀ e : ParseError, e.isValueError = true →
          (∀ fields, value = .obj fields → (fields.lookup "name").isSome = true →
            ¬(ObjectOrEmpty (getArguments fields) ∨ ZeroOrFalse (getArguments fields))) →
          Outcome F T depth raw (.error e) := by
        intro e he hno
        refine .refused he (hill.mpr ?_) ?_ hdigits ?_
        · rintro ⟨fields, hvalue, hname, harguments⟩
          exact hno fields hvalue hname (.inl harguments)
        · rintro ⟨fields, hfields, hname, harguments⟩
          exact hno fields (Except.ok.inj (hloads.symm.trans hfields)) hname (.inr harguments)
        · rintro (h | ⟨fields, name, h, hname, -, harguments⟩)
          · cases hloads.symm.trans h
          · exact hno fields (Except.ok.inj (hloads.symm.trans h)) (by rw [hname]; rfl) harguments
      cases value with
      | obj fields =>
          dsimp only
          cases hname : fields.lookup "name" with
          | none =>
              refine hrefused _ rfl fun fields' heq hsome => ?_
              cases heq
              rw [hname] at hsome
              cases hsome
          | some name =>
              dsimp only
              by_cases hobject : ∃ arguments, orEmpty (getArguments fields) = .obj arguments
              · obtain ⟨arguments, harguments⟩ := hobject
                have hkinds := orEmpty_eq_obj_iff.mp ⟨arguments, harguments⟩
                rw [harguments]
                dsimp only
                cases hstr : T.str name with
                | none => exact .depth (.inr ⟨fields, name, hloads, hname, hstr, hkinds⟩) hdigits
                | some text =>
                    refine .accepted _ hdigits ?_ ?_
                    · rintro (h | ⟨fields', name', h, hname', hstr', -⟩)
                      · cases hloads.symm.trans h
                      · cases hloads.symm.trans h
                        cases hname.symm.trans hname'
                        cases hstr.symm.trans hstr'
                    · rw [hill]
                      constructor
                      · intro hno
                        refine ⟨fields, hloads, by rw [hname]; rfl, hkinds.resolve_left fun h => ?_⟩
                        exact hno ⟨fields, rfl, by rw [hname]; rfl, h⟩
                      · rintro ⟨fields', h, -, hzero⟩ ⟨fields'', heq, -, hempty⟩
                        cases hloads.symm.trans h
                        cases heq
                        exact not_objectOrEmpty hzero hempty
              · have hrefuse : Outcome F T depth raw
                    (.error (.badArguments (orEmpty (getArguments fields)))) := by
                  refine hrefused _ rfl fun fields' heq _ hkinds => hobject ?_
                  cases heq
                  exact orEmpty_eq_obj_iff.mpr hkinds
                split
                · next arguments harguments => exact absurd ⟨arguments, harguments⟩ hobject
                · exact hrefuse
      | _ => exact hrefused _ rfl fun fields heq => by cases heq

/-- **A block is let through unless it stops.** -/
theorem parseBlock_eq_ok_iff (raw : List Char) :
    (∃ call, parseBlock F T depth raw = .ok call) ↔ ¬Stops F T depth raw := by
  unfold Stops
  have houtcome : Outcome F T depth raw (parseBlock F T depth raw) := outcome_parseBlock raw
  generalize parseBlock F T depth raw = result at houtcome
  cases houtcome with
  | accepted call hdigits hdepth hill =>
      refine iff_of_true ⟨call, rfl⟩ ?_
      rintro (⟨h, hno⟩ | h | h)
      · exact hno (hill.mp h)
      · exact hdigits h
      · exact hdepth h
  | refused he hill hlenient =>
      exact iff_of_false (fun ⟨_, h⟩ => by cases h) fun h => h (.inl ⟨hill, hlenient⟩)
  | digits hmeets => exact iff_of_false (fun ⟨_, h⟩ => by cases h) fun h => h (.inr (.inl hmeets))
  | depth hmeets => exact iff_of_false (fun ⟨_, h⟩ => by cases h) fun h => h (.inr (.inr hmeets))

theorem loads_of_parseBlock {call : ToolCall}
    (h : parseBlock F T depth raw = .ok call) :
    ∃ value, loadsWithin F depth (String.ofList raw) = .ok value ∧
      loads F (String.ofList raw) = some value := by
  have hagrees := agrees_loadsWithin (F := F) depth (String.ofList raw)
  unfold parseBlock at h
  cases hloads : loadsWithin F depth (String.ofList raw) with
  | error e =>
      rw [hloads] at h
      cases e <;> cases h
  | ok value =>
      rw [hloads] at hagrees
      exact ⟨value, rfl, hagrees⟩

/-! ## All blocks -/

theorem forall_ok_iff {raws : List (List Char)} :
    (∀ raw ∈ raws, ∃ call, parseBlock F T depth raw = .ok call) ↔
      ∀ raw ∈ raws, ¬Stops F T depth raw :=
  forall₂_congr fun raw _ => parseBlock_eq_ok_iff raw

/-- The blocks are settled exactly if a `ValueError` means an ill-formed one. -/
theorem refusesIllFormed_iff (text : List Char) :
    RefusesIllFormed F T depth text ↔ Settled F T depth (findAll text) := by
  unfold RefusesIllFormed RaisesValueError extractToolCalls
  generalize findAll text = raws
  cases hresult : raws.mapM (parseBlock F T depth) with
  | ok calls =>
      have hall := Checks.exists_mapM_eq_ok_iff.mp ⟨calls, hresult⟩
      have hgo := forall_ok_iff.mp hall
      have hkinds : ∀ raw ∈ raws, IllFormed F raw ↔ Lenient F depth raw := by
        intro raw hraw
        obtain ⟨call, hcall⟩ := hall raw hraw
        have houtcome : Outcome F T depth raw _ := outcome_parseBlock raw
        rw [hcall] at houtcome
        cases houtcome with
        | accepted _ _ _ hill => exact hill
      have hnone : ¬∃ e, Except.ok calls = Except.error e ∧ ParseError.isValueError e = true := by
        rintro ⟨e, h, -⟩
        cases h
      rw [iff_false_left hnone]
      constructor
      · intro hno
        refine ⟨fun _ raw hraw hlenient => hno ⟨raw, hraw, (hkinds raw hraw).mpr hlenient⟩, ?_, ?_⟩
        · rintro front raw back rfl - hmeets
          exact absurd (.inr (.inl hmeets)) (hgo raw (by simp))
        · rintro front raw back rfl - hmeets
          exact absurd (.inr (.inr hmeets)) (hgo raw (by simp))
      · rintro hsettled ⟨raw, hraw, hill⟩
        exact hsettled.lenient hgo raw hraw ((hkinds raw hraw).mp hill)
  | error e =>
      obtain ⟨front, raw, back, rfl, hfront, hraw⟩ := Checks.mapM_eq_error_iff.mp hresult
      have hgo := forall_ok_iff.mp hfront
      have hmem : raw ∈ front ++ raw :: back := by simp
      have hstops : Stops F T depth raw := by
        by_contra hno
        obtain ⟨call, hcall⟩ := (parseBlock_eq_ok_iff raw).mpr hno
        cases hraw.symm.trans hcall
      -- The first block that stops is this one.
      have hfirst : ∀ front' raw' back', front ++ raw :: back = front' ++ raw' :: back' →
          (∀ earlier ∈ front', ¬Stops F T depth earlier) → Stops F T depth raw' → raw' = raw :=
        fun front' raw' back' heq hearlier hstops' =>
          Checks.first_unique heq.symm hearlier hstops' hgo hstops
      have hraises : (∃ e', (Except.error e : Except ParseError (List ToolCall)) = .error e' ∧
          e'.isValueError = true) ↔ e.isValueError = true := by
        constructor
        · rintro ⟨e', h, he'⟩
          cases h
          exact he'
        · exact fun he => ⟨e, rfl, he⟩
      rw [hraises]
      have houtcome : Outcome F T depth raw _ := outcome_parseBlock raw
      rw [hraw] at houtcome
      cases houtcome with
      | refused he hill hlenient hdigits hdepth =>
          refine iff_of_true (iff_of_true he ⟨raw, hmem, hill⟩) ⟨?_, ?_, ?_⟩
          · exact fun hno => absurd hstops (hno raw hmem)
          · intro front' raw' back' heq hearlier hmeets
            obtain rfl := hfirst front' raw' back' heq hearlier (.inr (.inl hmeets))
            exact absurd hmeets hdigits
          · intro front' raw' back' heq hearlier hmeets
            obtain rfl := hfirst front' raw' back' heq hearlier (.inr (.inr hmeets))
            exact absurd hmeets hdepth
      | digits hmeets hdepth =>
          rw [iff_true_left (show ParseError.digits.isValueError = true from rfl)]
          constructor
          · intro hsome
            refine ⟨fun hno => absurd hstops (hno raw hmem), fun _ _ _ _ _ _ => hsome, ?_⟩
            intro front' raw' back' heq hearlier hmeets'
            obtain rfl := hfirst front' raw' back' heq hearlier (.inr (.inr hmeets'))
            exact absurd hmeets' hdepth
          · exact fun hsettled => hsettled.digits front raw back rfl hgo hmeets
      | depth hmeets hdigits =>
          rw [iff_false_left (show ¬ParseError.recursion.isValueError = true by decide)]
          constructor
          · intro hno
            refine ⟨fun hall => absurd hstops (hall raw hmem), ?_,
              fun _ _ _ _ _ _ other hother hill => hno ⟨other, hother, hill⟩⟩
            intro front' raw' back' heq hearlier hmeets'
            obtain rfl := hfirst front' raw' back' heq hearlier (.inr (.inl hmeets'))
            exact absurd hmeets' hdigits
          · rintro hsettled ⟨other, hother, hill⟩
            exact hsettled.depth front raw back rfl hgo hmeets other hother hill

/-! ## Rendering -/

theorem findBlocks_eq {fuel fuel' : Nat} {text : List Char} (h : text.length < fuel)
    (h' : text.length < fuel') : findBlocks fuel text = findBlocks fuel' text := by
  induction fuel generalizing fuel' text with
  | zero => cases h
  | succ fuel ih =>
      cases fuel' with
      | zero => cases h'
      | succ fuel' =>
          rw [findBlocks, findBlocks]
          split
          · rfl
          · next before rest hopen =>
              split
              · rfl
              · next block more hclose =>
                  have hfirst := congrArg List.length (SubText.cut_eq_some hopen).1
                  have hsecond := congrArg List.length (SubText.cut_eq_some hclose).1
                  rw [List.length_append, List.length_append] at hfirst hsecond
                  have hpos : 0 < openTag.length := by decide
                  exact congrArg (trim block :: ·) (ih (by omega) (by omega))

/-- **A block ends at the first closing tag.** -/
theorem findAll_block {before text block rest : List Char} (hbefore : ¬openTag <:+: before)
    (hcut : cut closeTag text = some (block, rest)) :
    findAll (before ++ openTag ++ text) = trim block :: findAll rest := by
  have hopen : cut openTag (before ++ openTag ++ text) = some (before, text) :=
    SubText.cut_append (by decide) (by decide) hbefore
  have hlength := congrArg List.length (SubText.cut_eq_some hcut).1
  rw [List.length_append, List.length_append] at hlength
  rw [findAll, findBlocks, hopen]
  dsimp only
  rw [hcut]
  refine congrArg (trim block :: ·) (findBlocks_eq ?_ (Nat.lt_succ_self _))
  rw [List.length_append, List.length_append]
  have hpos : 0 < openTag.length := by decide
  omega

theorem findAll_free {text : List Char} (h : ¬openTag <:+: text) : findAll text = [] := by
  rw [findAll, findBlocks, (SubText.cut_eq_none_iff (by decide)).mpr h]

theorem mark_closeTag : JsonText.Mark '<' "/tool_call>".toList where
  notPlain := by decide
  unique c h := by
    have hhex : ∀ n, '<' ∉ '\\' :: 'u' :: hex4 n := by
      intro n hmem
      have hdigit : ∀ k, '<' ≠ hexDigit k := by
        have hall : ∀ d < 16, '<' ≠ Nat.digitChar d := by decide
        exact fun k => hall (k % 16) (Nat.mod_lt k (by omega))
      simp [hex4, hdigit] at hmem
    unfold escape at h
    split_ifs at h <;> first | exact (List.mem_singleton.mp h).symm | skip
    all_goals first | exact absurd h (by decide) | exact absurd h (hhex _) | skip
    rcases List.mem_append.mp h with h | h
    · exact absurd h (hhex _)
    · exact absurd h (hhex _)
  free := List.all_iff_forall_prop.mp (by decide)
  kept := List.all_iff_forall_prop.mp (by decide)

section Rendering

variable (rendered : Rendered F)

theorem wellFormed_json : WellFormed F rendered.call.json := by
  refine .obj (by simp) ?_
  simp only [List.forall_mem_cons, List.not_mem_nil, IsEmpty.forall_iff, implies_true, and_true]
  exact ⟨.str _, rendered.wellFormed⟩

/-- **The JSON of a call is parsed into it** exactly if it is within the limits. -/
theorem parseBlock_block_iff :
    parseBlock F T depth rendered.block = .ok rendered.call ↔ Fits depth rendered.call.json := by
  constructor
  · intro h
    obtain ⟨value, hwithin, hloads⟩ := loads_of_parseBlock h
    have hvalue := (loads_dumps (wellFormed_json rendered)).symm.trans hloads
    rw [Option.some.inj hvalue]
    exact fits_of_loadsWithin hwithin
  · intro hfits
    have hwithin : loadsWithin F depth (String.ofList rendered.block) = .ok rendered.call.json :=
      loadsWithin_dumps (wellFormed_json rendered) hfits
    unfold parseBlock
    rw [hwithin]
    have harguments : orEmpty (getArguments [("name", .str rendered.call.name),
        ("arguments", .obj rendered.call.arguments)]) = .obj rendered.call.arguments := by
      show orEmpty (.obj rendered.call.arguments) = _
      cases rendered.call.arguments with
      | nil | cons => rfl
    simp only [ToolCall.json, harguments, List.lookup_cons, beq_self_eq_true, T.str_str]

theorem trim_block : trim rendered.block = rendered.block := by
  rw [PyStr.trim_eq_self_iff]
  have hshape : rendered.block = '{' :: (joined (writeFields F
      [("name", .str rendered.call.name), ("arguments", .obj rendered.call.arguments)]) ++ ['}']) := by
    rw [Rendered.block, ToolCall.json, write]
  rw [hshape]
  constructor
  · intro c hc
    cases hc
    decide
  · intro c hc
    rw [← List.cons_append, List.getLast?_concat] at hc
    cases hc
    decide

/-- A block that is cut off in one of its strings is not parsed. -/
theorem parseBlock_cut {block rest : List Char}
    (h : cut closeTag rendered.block = some (block, rest)) (call : ToolCall) :
    parseBlock F T depth (trim block) ≠ .ok call := by
  have hsplit := (SubText.cut_eq_some h).1
  obtain ⟨front, back, hfront, hback, hblock⟩ := PyStr.trim_spec block
  have hempty : front = [] := by
    cases front with
    | nil => rfl
    | cons c front =>
        rw [hblock, Rendered.block, ToolCall.json, write] at hsplit
        obtain ⟨rfl, -⟩ := List.cons.inj hsplit
        exact absurd (hfront '{' List.mem_cons_self) (by decide)
  subst hempty
  have hquote : '"' ∉ back := fun hmem => absurd (hback _ hmem) (by decide)
  have hnone : loads F (String.ofList (trim block)) = none := by
    have hwhole : (String.ofList rendered.block).toList =
        trim block ++ back ++ '<' :: ("/tool_call>".toList ++ rest) := by
      rw [String.toList_ofList, hsplit, List.append_assoc]
      exact congrArg (· ++ _) hblock
    exact loads_cut (loads_dumps (wellFormed_json rendered)) (by decide)
      (by decide) hquote hwhole
  intro hparse
  obtain ⟨value, -, hloads⟩ := loads_of_parseBlock hparse
  cases hnone.symm.trans hloads

theorem kept_iff : Kept depth rendered.call ↔
    ¬closeTag <:+: rendered.block ∧ Fits depth rendered.call.json := by
  have hmark := infix_write_iff mark_closeTag (wellFormed_json rendered)
  constructor
  · rintro ⟨htag, hfits⟩
    refine ⟨fun hoccurs => ?_, hfits⟩
    obtain ⟨s, hs, hoccurs⟩ := hmark.mp hoccurs
    exact htag s hs hoccurs
  · rintro ⟨htag, hfits⟩
    exact ⟨fun s hs hoccurs => htag (hmark.mpr ⟨s, hs, hoccurs⟩), hfits⟩

end Rendering

/-- **The calls come back** exactly if each of them is kept. -/
theorem roundTrips_iff (document : Document F) :
    RoundTrips T depth document ↔ ∀ rendered ∈ document.calls, Kept depth rendered.call := by
  obtain ⟨calls, trailing, htrailing⟩ := document
  show extractToolCalls F T depth (render calls trailing) = .ok (calls.map Rendered.call) ↔ _
  induction calls with
  | nil =>
      refine iff_of_true ?_ fun rendered h => absurd h List.not_mem_nil
      rw [extractToolCalls, render, findAll_free htrailing]
      rfl
  | cons rendered calls ih =>
      rw [List.forall_mem_cons, ← ih, kept_iff, extractToolCalls, render]
      by_cases htag : closeTag <:+: rendered.block
      · -- The first tag cuts the block.
        refine iff_of_false ?_ fun h => h.1.1 htag
        obtain ⟨⟨block, rest⟩, hcut⟩ := Option.ne_none_iff_exists'.mp
          fun hnone => (SubText.cut_eq_none_iff (by decide)).mp hnone htag
        have hmore := SubText.cut_append_right hcut (closeTag ++ render calls trailing)
        rw [← List.append_assoc] at hmore
        rw [findAll_block rendered.free hmore, List.mapM_cons]
        intro h
        obtain ⟨call, hcall, -⟩ := Json.bind_ok h
        exact parseBlock_cut rendered hcut call hcall
      · have hcut : cut closeTag (rendered.block ++ closeTag ++ render calls trailing) =
            some (rendered.block, render calls trailing) :=
          SubText.cut_append (by decide) (by decide) htag
        rw [findAll_block rendered.free hcut, trim_block, List.mapM_cons, extractToolCalls,
          ← parseBlock_block_iff (T := T)]
        constructor
        · intro h
          obtain ⟨call, hcall, h⟩ := Json.bind_ok h
          obtain ⟨more, hmore, h⟩ := Json.bind_ok h
          cases h
          exact ⟨⟨htag, hcall⟩, hmore⟩
        · rintro ⟨⟨-, hcall⟩, hmore⟩
          rw [hcall, hmore]
          rfl

/-- The calls come back exactly if each of them is kept, and a `ValueError` means an ill-formed block
exactly if the blocks are settled. -/
theorem extracts_iff (F : FloatText) (T : StrText) (depth : Nat) (document : Document F)
    (text : List Char) :
    (RoundTrips T depth document ↔ ∀ rendered ∈ document.calls, Kept depth rendered.call) ∧
      (RefusesIllFormed F T depth text ↔ Settled F T depth (findAll text)) :=
  ⟨roundTrips_iff document, refusesIllFormed_iff text⟩

/-- Texts are themselves. -/
def plainStr : StrText := ⟨fun | .str text => some text | _ => none, fun _ => rfl⟩

/-- A call whose argument has the closing tag. -/
def tagged : Document .integral :=
  ⟨[⟨[], by decide, ⟨"note", [("text", .str "</tool_call>")]⟩,
    .obj (by simp) (by
      simp only [List.forall_mem_cons, List.not_mem_nil, IsEmpty.forall_iff, implies_true, and_true]
      exact .str _)⟩], [], by decide⟩

def zeroArguments : List Char :=
  "<tool_call>\x7b\"name\": \"note\", \"arguments\": 0\x7d</tool_call>".toList

/-- The first call does not come back, and the second one is let through. -/
theorem extracts_counterexample :
    ¬RoundTrips plainStr 900 tagged ∧ ¬RefusesIllFormed .integral plainStr 900 zeroArguments := by
  constructor
  · intro h
    have hkept := (roundTrips_iff tagged).mp h _ List.mem_cons_self
    have harguments : HasString "</tool_call>" (.obj [("text", .str "</tool_call>")]) :=
      .value List.mem_cons_self .str
    exact hkept.tag _ (.value (List.mem_cons_of_mem _ List.mem_cons_self) harguments) List.infix_rfl
  · intro h
    have hblocks : findAll zeroArguments =
        ["\x7b\"name\": \"note\", \"arguments\": 0\x7d".toList] := by decide +kernel
    have hloads : loads .integral (String.ofList
        "\x7b\"name\": \"note\", \"arguments\": 0\x7d".toList) =
          some (.obj [("name", .str "note"), ("arguments", .int 0)]) := rfl
    have hresult : extractToolCalls .integral plainStr 900 zeroArguments = .ok [⟨"note", []⟩] := by
      rw [extractToolCalls, hblocks]
      rfl
    obtain ⟨e, he, -⟩ := h.mpr ⟨_, hblocks ▸ List.mem_cons_self, fun value hvalue => by
      obtain rfl := Option.some.inj (hloads.symm.trans hvalue)
      rintro ⟨fields, hfields, -, harguments⟩
      obtain rfl := Json.obj.inj hfields
      cases harguments⟩
    rw [hresult] at he
    cases he

end SkyClaw.Agent.Hermes
