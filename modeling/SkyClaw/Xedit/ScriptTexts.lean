import SkyClaw.Lib.PascalText
import SkyClaw.Xedit.PatchService

/-!
# The texts of the scripts

What `ScriptGenerator` puts into its templates, and how Pascal reads it.  `noInjection_iff`: a
script is its template with the given strings in its literals, if none of them ends with a line
feed and the plugins that are not checked have safe names.
-/

namespace SkyClaw.Xedit

open PascalText

/-! ## The templates -/

def segment (lines : List String) : List Symbol :=
  (['\n'].intercalate (lines.map String.toList)).map .inl

def templateForwardRecord (formId sourcePlugin targetPlugin : List Char) : List Symbol :=
  segment ["unit ForwardRecord;", "uses mteFunctions, SysUtils;", "", "var",
      "  sourcePlugin, targetPlugin: IInterface;", "  processedCount: Integer;", "",
      "function Initialize: integer;", "begin", "  sourcePlugin := FileByName('"] ++ [.inr sourcePlugin] ++
  segment ["');", "  targetPlugin := FileByName('"] ++ [.inr targetPlugin] ++
  segment ["');", "  processedCount := 0;", "", "  if not Assigned(sourcePlugin) then", "  begin",
      "    AddMessage('ERROR: Source plugin not found: "] ++ [.inr sourcePlugin] ++
  segment ["');", "    Result := 1;", "    Exit;", "  end;", "",
      "  if not Assigned(targetPlugin) then", "  begin",
      "    AddMessage('ERROR: Target plugin not found: "] ++ [.inr targetPlugin] ++
  segment ["');", "    Result := 1;", "    Exit;", "  end;", "",
      "  AddMessage(Format('Forwarding records from %s to %s', ['"] ++ [.inr sourcePlugin] ++
  segment ["', '"] ++ [.inr targetPlugin] ++
  segment ["']));", "  Result := 0;", "end;", "", "function Process(e: IInterface): integer;", "var",
      "  formId: string;", "  recordSig: string;", "begin", "  formId := FormID(e);",
      "  recordSig := Signature(e);", "", "  // Check if this is one of the target FormIDs",
      "  if (formId = '"] ++ [.inr formId] ++
  segment ["') or (Pos(formId, '"] ++ [.inr formId] ++
  segment ["') > 0) then", "  begin",
      "    AddMessage(Format('Processing record %s (%s)', [formId, recordSig]));",
      "    // Forward the record to target plugin",
      "    // Implementation depends on specific requirements", "    Inc(processedCount);",
      "  end;", "", "  Result := 0;", "end;", "", "function Finalize: integer;", "begin",
      "  AddMessage(Format('ForwardRecord complete. Processed %d records.', [processedCount]));",
      "  Result := 0;", "end;", "", "end.", ""]

def templateMergeLeveledList (outputPlugin recordTypes : List Char) : List Symbol :=
  segment ["unit MergeLeveledList;", "uses mteFunctions, SysUtils;", "", "var",
      "  mergedPlugin: IInterface;", "  processedCount: Integer;", "  outputPluginName: string;",
      "", "function Initialize: integer;", "begin", "  outputPluginName := '"] ++ [.inr outputPlugin] ++
  segment ["';", "  processedCount := 0;", "",
      "  AddMessage(Format('Creating merged leveled list plugin: %s', [outputPluginName]));", "",
      "  // Try to load existing plugin or create new one",
      "  mergedPlugin := FileByName(outputPluginName);", "  if not Assigned(mergedPlugin) then",
      "  begin", "    mergedPlugin := AddNewFile(outputPluginName);",
      "    if not Assigned(mergedPlugin) then", "    begin",
      "      AddMessage('ERROR: Failed to create output plugin: ' + outputPluginName);",
      "      Result := 1;", "      Exit;", "    end;", "  end;", "",
      "  AddMessage('Output plugin ready: ' + outputPluginName);", "  Result := 0;", "end;", "",
      "function Process(e: IInterface): integer;", "var", "  recordType: string;",
      "  formId: string;", "  newRecord: IInterface;", "begin", "  recordType := Signature(e);",
      "  formId := FormID(e);", "", "  // Process LVLI, LVLN, LVSP records",
      "  if (recordType = 'LVLI') or (recordType = 'LVLN') or (recordType = 'LVSP') then",
      "  begin", "    // Check if this record type is in our target list",
      "    if Pos(recordType, '"] ++ [.inr recordTypes] ++
  segment ["') > 0 then", "    begin",
      "      AddMessage(Format('Merging %s record: %s', [recordType, formId]));", "",
      "      // Copy record to merged plugin",
      "      newRecord := wbCopyElementToRecord(e, mergedPlugin, False, True);",
      "      if Assigned(newRecord) then", "      begin", "        Inc(processedCount);",
      "      end", "      else", "      begin",
      "        AddMessage('WARNING: Failed to copy record: ' + formId);", "      end;", "    end;",
      "  end;", "", "  Result := 0;", "end;", "", "function Finalize: integer;", "begin",
      "  AddMessage(Format('MergeLeveledList complete. Merged %d records.', [processedCount]));",
      "", "  // Clean up masters", "  CleanMasters(mergedPlugin);",
      "  AddMessage('Masters cleaned.');", "", "  Result := 0;", "end;", "", "end.", ""]

def templateApplyPatch (outputPlugin : List Char) (recordFilter : List Symbol) : List Symbol :=
  segment ["unit ApplyPatch;", "uses mteFunctions, SysUtils;", "", "var",
      "  outputPlugin: IInterface;", "  processedCount: Integer;", "  errorCount: Integer;", "",
      "function Initialize: integer;", "var", "  outputName: string;", "begin", "  outputName := '"] ++ [.inr outputPlugin] ++
  segment ["';", "  processedCount := 0;", "  errorCount := 0;", "",
      "  AddMessage('=== Sky-Claw Patch Application ===');",
      "  AddMessage('Output plugin: ' + outputName);", "", "  // Load or create output plugin",
      "  outputPlugin := FileByName(outputName);", "  if not Assigned(outputPlugin) then",
      "  begin", "    outputPlugin := AddNewFile(outputName);",
      "    if not Assigned(outputPlugin) then", "    begin",
      "      AddMessage('ERROR: Failed to create output plugin');", "      Result := 1;",
      "      Exit;", "    end;", "    AddMessage('Created new output plugin');", "  end", "  else",
      "  begin", "    AddMessage('Using existing output plugin');", "  end;", "", "  Result := 0;",
      "end;", "", "function Process(e: IInterface): integer;", "var", "  recordSig: string;",
      "  formId: string;", "  shouldProcess: Boolean;", "begin", "  recordSig := Signature(e);",
      "  formId := FormID(e);", "  shouldProcess := False;", "",
      "  // Check record signatures to process", "  "] ++ recordFilter ++
  segment ["", "", "  if shouldProcess then", "  begin", "    try", "      // Apply patch logic here",
      "      // This is a placeholder for specific patch operations", "      Inc(processedCount);",
      "", "      if (processedCount mod 100) = 0 then", "      begin",
      "        AddMessage(Format('Processed %d records...', [processedCount]));", "      end;",
      "    except", "      on E: Exception do", "      begin",
      "        AddMessage(Format('ERROR processing record %s: %s', [formId, E.Message]));",
      "        Inc(errorCount);", "      end;", "    end;", "  end;", "", "  Result := 0;", "end;",
      "", "function Finalize: integer;", "begin",
      "  AddMessage('=== Patch Application Summary ===');",
      "  AddMessage(Format('Records processed: %d', [processedCount]));",
      "  AddMessage(Format('Errors encountered: %d', [errorCount]));", "",
      "  if errorCount > 0 then", "  begin",
      "    AddMessage('WARNING: Errors occurred during patching');", "    Result := 1;", "  end",
      "  else", "  begin", "    AddMessage('Patch applied successfully');", "    Result := 0;",
      "  end;", "end;", "", "end.", ""]

/-! ## The generators -/

def escapePascalString (val : List Char) : List Char :=
  (val.flatMap fun c => if c = '\\' then [c, c] else [c]).flatMap fun c =>
    if c = '\'' then [c, c] else [c]

/-- `_SAFE_RECORD_TYPE.match(rt)`. -/
def isSafeRecordType (recordType : List Char) : Bool :=
  let body := withoutFinalNewline recordType
  body.length = 4 ∧ body.all (fun c => PyRe.range 'A' 'Z' c || c == '_') = true

/-- A line of `record_filter`. -/
def filterLine (front : String) (given : List Char) : List Symbol :=
  segment [front] ++ [.inr given] ++ segment ["' then shouldProcess := True;"]

def recordFilter (recordTypes formIds : List (List Char)) : List Symbol :=
  let lines := recordTypes.map (filterLine "  if recordSig = '") ++
    formIds.map (filterLine "  if formId = '")
  if lines = [] then segment ["  shouldProcess := True; // Process all records"]
  else [.inl '\n'].intercalate lines

/-- A call of one of the generators; `generate_script_from_plan` makes one, too. -/
inductive GeneratorCall where
  | forward (formId source target : List Char)
  | merge (outputPlugin : List Char) (recordTypes : List (List Char))
  | patch (outputPlugin : List Char) (recordTypes formIds : List (List Char))
deriving DecidableEq, Repr

inductive GeneratorError where
  | script (error : ScriptError)
  | invalidRecordType (recordType : List Char)
deriving DecidableEq, Repr

/-- The template that is filled. -/
def GeneratorCall.template : GeneratorCall → Except GeneratorError (List Symbol)
  | forward formId source target =>
      match generateForwardScript formId source target with
      | .error error => .error (.script error)
      | .ok _ => .ok (templateForwardRecord formId source target)
  | merge outputPlugin recordTypes =>
      if outputPlugin = [] then .error (.script (.required "output_plugin"))
      else if recordTypes = [] then .error (.script (.required "record_types"))
      else if isSafePluginName outputPlugin = false then
        .error (.script (.invalidPluginName outputPlugin))
      else
        match recordTypes.find? (· ∉ handledTypes) with
        | some recordType => .error (.invalidRecordType recordType)
        | none => .ok (templateMergeLeveledList outputPlugin ([','].intercalate recordTypes))
  | patch outputPlugin recordTypes formIds =>
      if outputPlugin = [] then .error (.script (.required "output_plugin"))
      else
        match recordTypes.find? fun recordType => isSafeRecordType recordType = false with
        | some recordType => .error (.invalidRecordType recordType)
        | none =>
            match generatePatchScript outputPlugin formIds with
            | .error error => .error (.script error)
            | .ok _ => .ok (templateApplyPatch outputPlugin (recordFilter recordTypes formIds))

def scriptText (template : List Symbol) : List Char := written escapePascalString template

def GeneratorCall.plugins : GeneratorCall → List (List Char)
  | forward _ source target => [source, target]
  | merge outputPlugin _ | patch outputPlugin _ _ => [outputPlugin]

def GeneratorCall.formIds : GeneratorCall → List (List Char)
  | forward formId _ _ => [formId]
  | merge _ _ => []
  | patch _ _ formIds => formIds

def GeneratorCall.recordTypes : GeneratorCall → List (List Char)
  | forward _ _ _ => []
  | merge _ recordTypes | patch _ recordTypes _ => recordTypes

def GeneratorCall.given (call : GeneratorCall) : List (List Char) :=
  call.plugins ++ call.formIds ++ call.recordTypes

/-- The plugins of which a generator only sees that they are not empty. -/
def GeneratorCall.unchecked : GeneratorCall → List (List Char)
  | forward _ source target => [source, target]
  | merge _ _ => []
  | patch outputPlugin _ _ => [outputPlugin]

/-- A form id that `_SAFE_FORM_ID` or the check of `generate_forward_script` accepts. -/
def IsFormId (formId : List Char) : Prop :=
  isSafeFormId formId = true ∨ ∀ c ∈ formId, isHexDigit c = true ∨ c = ':'

/-- **No code gets in**: what is given has been validated and has no line end, and the script is
read as the template, with the given strings in its literals. -/
structure ReadsBack (call : GeneratorCall) (template : List Symbol) : Prop where
  plugins : ∀ name ∈ call.plugins, isSafePluginName name = true
  formIds : ∀ formId ∈ call.formIds, IsFormId formId
  recordTypes : ∀ recordType ∈ call.recordTypes, isSafeRecordType recordType = true
  oneLine : ∀ given ∈ call.given, '\n' ∉ given
  literals : ∃ marks, lex .code template = some marks ∧
    lex .code ((scriptText template).map .inl) = some (marks.flatMap Mark.filled)

def NoInjection (call : GeneratorCall) : Prop :=
  ∀ template, call.template = .ok template → ReadsBack call template

/-! ## The templates are Pascal -/

variable {template : List Symbol} {call : GeneratorCall} {given name : List Char} {c : Char}

theorem not_mem_segment (lines : List String) : (.inr given : Symbol) ∉ segment lines := by
  simp [segment]

theorem segment_erase (lines : List String) :
    (segment lines).map (Sum.map id fun _ => []) = segment lines := by
  simp [segment, Function.comp_def]

theorem reaches_forwardRecord (formId source target : List Char) :
    reaches .code (templateForwardRecord formId source target) = some .code := by
  rw [← reaches_erase]
  simp only [templateForwardRecord, List.map_append, segment_erase, List.map_cons, List.map_nil,
    Sum.map_inr]
  decide +kernel

theorem reaches_mergeLeveledList (outputPlugin recordTypes : List Char) :
    reaches .code (templateMergeLeveledList outputPlugin recordTypes) = some .code := by
  rw [← reaches_erase]
  simp only [templateMergeLeveledList, List.map_append, segment_erase, List.map_cons, List.map_nil,
    Sum.map_inr]
  decide +kernel

/-- The lines of a filter end in code, or in the comment of the last one. -/
theorem reaches_recordFilter (recordTypes formIds : List (List Char)) :
    reaches .code (recordFilter recordTypes formIds) = some .code ∨
      reaches .code (recordFilter recordTypes formIds) = some .lineComment := by
  have hline : ∀ line ∈ recordTypes.map (filterLine "  if recordSig = '") ++
      formIds.map (filterLine "  if formId = '"), reaches .code line = some .code := by
    intro line hline
    rcases List.mem_append.mp hline with hline | hline <;>
      (obtain ⟨given, -, rfl⟩ := List.mem_map.mp hline
       rw [← reaches_erase]
       simp only [filterLine, List.map_append, segment_erase, List.map_cons, List.map_nil,
         Sum.map_inr]
       decide +kernel)
  unfold recordFilter
  dsimp only
  generalize recordTypes.map (filterLine "  if recordSig = '") ++
    formIds.map (filterLine "  if formId = '") = lines at hline ⊢
  split
  · exact .inr (by decide +kernel)
  · left
    clear * - hline
    induction lines with
    | nil => rfl
    | cons line lines ih =>
        obtain ⟨hfirst, hlines⟩ := List.forall_mem_cons.mp hline
        cases lines with
        | nil => rwa [List.intercalate_singleton]
        | cons second lines =>
            rw [List.intercalate_cons_cons, reaches_append, reaches_append, hfirst]
            exact ih hlines

theorem reaches_applyPatch (outputPlugin : List Char) (recordTypes formIds : List (List Char)) :
    reaches .code (templateApplyPatch outputPlugin (recordFilter recordTypes formIds)) =
      some .code := by
  rw [templateApplyPatch, reaches_append, reaches_append, ← reaches_erase]
  simp only [List.map_append, segment_erase, List.map_cons, List.map_nil, Sum.map_inr]
  -- the text behind the filter starts with a line end
  refine (congrArg (Option.bind · _) (congrArg (Option.bind · _) (?_ : _ = some .code))).trans ?_
  · decide +kernel
  · rw [Option.bind_some]
    rcases reaches_recordFilter recordTypes formIds with hfilter | hfilter <;>
      (rw [hfilter]; decide +kernel)

/-! ## The strings in a template -/

theorem mem_recordFilter {recordTypes formIds : List (List Char)}
    (h : .inr given ∈ recordFilter recordTypes formIds) : given ∈ recordTypes ∨ given ∈ formIds := by
  have hline : ∀ (front : String) (other : List Char), .inr given ∈ filterLine front other →
      given = other := by
    intro front other hmem
    simpa [filterLine, not_mem_segment] using hmem
  unfold recordFilter at h
  dsimp only at h
  split at h
  · exact absurd h (not_mem_segment _)
  · rcases PyStr.mem_of_mem_intercalate h with h | ⟨line, hmem, h⟩
    · simp at h
    · rcases List.mem_append.mp hmem with hmem | hmem
      · obtain ⟨other, hother, rfl⟩ := List.mem_map.mp hmem
        exact .inl (hline _ _ h ▸ hother)
      · obtain ⟨other, hother, rfl⟩ := List.mem_map.mp hmem
        exact .inr (hline _ _ h ▸ hother)

/-- **What a generator has checked** when it fills its template, which is Pascal. -/
theorem template_spec (h : call.template = .ok template) :
    (∀ name ∈ call.plugins, name ∈ call.unchecked ∨ isSafePluginName name = true) ∧
      (∀ formId ∈ call.formIds, IsFormId formId) ∧
      (∀ recordType ∈ call.recordTypes, isSafeRecordType recordType = true) ∧
      reaches .code template = some .code ∧
      ∀ given, .inr given ∈ template → ∀ c ∈ given, c = ',' ∨ ∃ other ∈ call.given, c ∈ other := by
  cases call with
  | forward formId source target =>
      unfold GeneratorCall.template at h
      dsimp only at h
      cases hscript : generateForwardScript formId source target with
      | error error =>
          rw [hscript] at h
          cases h
      | ok script =>
          rw [hscript] at h
          cases h
          refine ⟨fun name hname => .inl hname, ?_, fun _ hmem => absurd hmem List.not_mem_nil,
            reaches_forwardRecord _ _ _, ?_⟩
          · intro other hother
            obtain rfl := List.mem_singleton.mp hother
            unfold generateForwardScript at hscript
            split_ifs at hscript with _ _ _ hdigits
            refine .inr fun c hc => ?_
            by_cases hcolon : c = ':'
            · exact .inr hcolon
            · have hall := List.all_eq_true.mp (Bool.not_eq_false _ ▸ hdigits)
              exact .inl (hall c (List.mem_filter.mpr ⟨hc, decide_eq_true hcolon⟩))
          · intro given hgiven c hc
            simp only [templateForwardRecord, List.mem_append, not_mem_segment, List.mem_singleton,
              Sum.inr.injEq, false_or, or_false] at hgiven
            refine .inr ⟨given, ?_, hc⟩
            simp only [GeneratorCall.given, GeneratorCall.plugins, GeneratorCall.formIds,
              List.mem_append, List.mem_cons, List.not_mem_nil, or_false]
            tauto
  | merge outputPlugin recordTypes =>
      unfold GeneratorCall.template at h
      dsimp only at h
      split_ifs at h with _ _ hsafe
      cases hfind : recordTypes.find? (· ∉ handledTypes) with
      | some recordType =>
          rw [hfind] at h
          cases h
      | none =>
          rw [hfind] at h
          cases h
          refine ⟨?_, fun _ hmem => absurd hmem List.not_mem_nil, ?_, reaches_mergeLeveledList _ _, ?_⟩
          · intro name hname
            obtain rfl := List.mem_singleton.mp hname
            exact .inr (Bool.not_eq_false _ ▸ hsafe)
          · intro recordType hmem
            have hvalid : recordType ∈ handledTypes := by
              simpa using List.find?_eq_none.mp hfind recordType hmem
            have hsafe : ∀ valid ∈ handledTypes, isSafeRecordType valid = true := by decide +kernel
            exact hsafe recordType hvalid
          · intro given hgiven c hc
            simp only [templateMergeLeveledList, List.mem_append, not_mem_segment,
              List.mem_singleton, Sum.inr.injEq, false_or, or_false] at hgiven
            rcases hgiven with rfl | rfl
            · exact .inr ⟨given, by simp [GeneratorCall.given, GeneratorCall.plugins], hc⟩
            · rcases PyStr.mem_of_mem_intercalate hc with hc | ⟨recordType, hmem, hc⟩
              · exact .inl (List.mem_singleton.mp hc)
              · exact .inr ⟨recordType, List.mem_append_right _ hmem, hc⟩
  | patch outputPlugin recordTypes formIds =>
      unfold GeneratorCall.template at h
      dsimp only at h
      split_ifs at h with hempty
      cases hfind : recordTypes.find? fun recordType => isSafeRecordType recordType = false with
      | some recordType =>
          rw [hfind] at h
          cases h
      | none =>
          rw [hfind] at h
          cases hscript : generatePatchScript outputPlugin formIds with
          | error error =>
              rw [hscript] at h
              cases h
          | ok script =>
              rw [hscript] at h
              cases h
              refine ⟨fun name hname => .inl hname, ?_, ?_, reaches_applyPatch _ _ _, ?_⟩
              · intro formId hmem
                unfold generatePatchScript at hscript
                rw [if_neg hempty] at hscript
                cases hid : formIds.find? fun formId => isSafeFormId formId = false with
                | some other =>
                    rw [hid] at hscript
                    cases hscript
                | none => exact .inl (by simpa using List.find?_eq_none.mp hid formId hmem)
              · intro recordType hmem
                simpa using List.find?_eq_none.mp hfind recordType hmem
              · intro given hgiven c hc
                simp only [templateApplyPatch, List.mem_append, not_mem_segment,
                  List.mem_singleton, Sum.inr.injEq, false_or, or_false] at hgiven
                refine .inr ⟨given, ?_, hc⟩
                simp only [GeneratorCall.given, GeneratorCall.plugins, GeneratorCall.formIds,
                  GeneratorCall.recordTypes, List.mem_append, List.mem_singleton]
                rcases hgiven with rfl | hgiven
                · exact .inl (.inl rfl)
                · exact (mem_recordFilter hgiven).elim .inr (.inl ∘ .inr)

/-! ## Safe strings -/

/-- A character that stands for itself in a literal and is not escaped. -/
def IsPlainChar (c : Char) : Prop := c ∉ ['\n', '\r', '\'', '\\']

theorem isPlainChar_of_class {p : Char → Bool} (hp : ['\n', '\r', '\'', '\\'].any p = false)
    (h : p c = true) : IsPlainChar c :=
  fun hmem => List.any_eq_false.mp hp c hmem h

theorem isPlainChar_of_plugin (h : isSafePluginName name = true) (hend : name.getLast? ≠ some '\n') :
    ∀ c ∈ name, IsPlainChar c := by
  intro c hc
  unfold isSafePluginName withoutFinalNewline at h
  rw [if_neg hend] at h
  obtain ⟨hextension, -, -, hstem⟩ := of_decide_eq_true h
  rw [← List.take_append_drop (name.length - 4) name] at hc
  rcases List.mem_append.mp hc with hc | hc
  · have hclass := List.all_eq_true.mp hstem c hc
    exact isPlainChar_of_class (p := fun c => PyRe.asciiAlnum c || PyRe.anyOf "_- ." c) (by decide +kernel) hclass
  · have hplain : ∀ extension ∈ [".esp", ".esm", ".esl"].map String.toList,
        extension.any ['\n', '\r', '\'', '\\'].contains = false := by decide +kernel
    simpa [IsPlainChar] using List.any_eq_false.mp (hplain _ hextension) c hc

theorem isPlainChar_of_formId (h : IsFormId name) (hend : name.getLast? ≠ some '\n') :
    ∀ c ∈ name, IsPlainChar c := by
  have hchars : ∀ c ∈ name, isHexDigit c = true ∨ c = ':' := by
    rcases h with h | h
    · intro c hc
      unfold isSafeFormId withoutFinalNewline at h
      rw [if_neg hend] at h
      obtain ⟨-, hdigits⟩ := of_decide_eq_true h
      split at hdigits
      · next hcolon =>
          rw [← List.take_append_drop 6 name, List.drop_eq_getElem?_toList_append, hcolon] at hc
          rcases List.mem_append.mp hc with hc | hc
          · exact .inl (List.all_eq_true.mp hdigits c (List.mem_append_left _ hc))
          · rcases List.mem_cons.mp hc with rfl | hc
            · exact .inr rfl
            · exact .inl (List.all_eq_true.mp hdigits c (List.mem_append_right _ hc))
      · exact .inl (List.all_eq_true.mp hdigits c hc)
    · exact h
  intro c hc
  rcases hchars c hc with hdigit | rfl
  · exact isPlainChar_of_class (by decide +kernel) hdigit
  · unfold IsPlainChar
    decide

theorem isPlainChar_of_recordType (h : isSafeRecordType name = true)
    (hend : name.getLast? ≠ some '\n') : ∀ c ∈ name, IsPlainChar c := by
  intro c hc
  unfold isSafeRecordType withoutFinalNewline at h
  rw [if_neg hend] at h
  obtain ⟨-, hchars⟩ := of_decide_eq_true h
  have hclass := List.all_eq_true.mp hchars c hc
  exact isPlainChar_of_class (p := fun c => PyRe.range 'A' 'Z' c || c == '_') (by decide +kernel) hclass

theorem lex_escapePascalString (h : ∀ c ∈ given, IsPlainChar c) (rest : List Symbol) :
    lex .literal ((escapePascalString given).map .inl ++ rest) =
      (lex .literal rest).map ((given.map fun c => .content (.inl c)) ++ ·) := by
  have hslashes : (given.flatMap fun c => if c = '\\' then [c, c] else [c]) = given := by
    refine (List.flatMap_congr fun c hc => if_neg ?_).trans (List.flatMap_singleton' given)
    rintro rfl
    exact h _ hc (by decide)
  rw [escapePascalString, hslashes]
  refine lex_quoted (fun c hc => ⟨?_, ?_⟩) rest
  · rintro rfl
    exact h _ hc (by decide)
  · rintro rfl
    exact h _ hc (by decide)

/-- **Exactly when no code gets in**: no string ends with a line feed, and the names that are not
checked are safe. -/
theorem noInjection_iff (call : GeneratorCall) :
    NoInjection call ↔ ∀ template, call.template = .ok template →
      (∀ name ∈ call.unchecked, isSafePluginName name = true) ∧
        ∀ given ∈ call.given, given.getLast? ≠ some '\n' := by
  refine forall_congr' fun template => forall_congr' fun htemplate => ?_
  obtain ⟨hplugins, hformIds, hrecordTypes, hreaches, hstrings⟩ := template_spec htemplate
  constructor
  · intro h
    refine ⟨fun name hname => h.plugins name ?_, fun given hgiven hend => ?_⟩
    · cases call with
      | forward | patch => exact hname
      | merge => exact absurd hname List.not_mem_nil
    · exact h.oneLine given hgiven (List.mem_of_getLast? hend)
  · rintro ⟨hunchecked, hends⟩
    have hsafe : ∀ name ∈ call.plugins, isSafePluginName name = true := fun name hname =>
      (hplugins name hname).elim (hunchecked name) id
    have hplain : ∀ given ∈ call.given, ∀ c ∈ given, IsPlainChar c := by
      intro given hgiven
      rcases List.mem_append.mp hgiven with hmem | hmem
      · rcases List.mem_append.mp hmem with hmem | hmem
        · exact isPlainChar_of_plugin (hsafe given hmem) (hends given hgiven)
        · exact isPlainChar_of_formId (hformIds given hmem) (hends given hgiven)
      · exact isPlainChar_of_recordType (hrecordTypes given hmem) (hends given hgiven)
    obtain ⟨found, hfound⟩ := lex_append hreaches
    have hlex : lex .code template = some found := by
      have hall := hfound []
      rw [List.append_nil] at hall
      rw [hall]
      simp [lex]
    refine ⟨hsafe, hformIds, hrecordTypes, fun given hgiven hmem =>
      hplain given hgiven _ hmem (by decide), found, hlex, lex_written (fun given hgiven => ?_) hlex⟩
    refine lex_escapePascalString fun c hc => ?_
    rcases hstrings given hgiven c hc with rfl | ⟨other, hother, hmem⟩
    · unfold IsPlainChar
      decide
    · exact hplain other hother c hmem

/-- `$` lets a name pass that ends with a line feed. -/
theorem not_noInjection_newline : ¬ NoInjection (.merge "a.esp\n".toList ["LVLI".toList]) := by
  intro h
  have hline := (h _ rfl).oneLine "a.esp\n".toList (by decide)
  exact absurd hline (by decide)

end SkyClaw.Xedit
