import SkyClaw.Lib.Json
import SkyClaw.Security.InputGate

/-!
# The output gate of the agent guardrail

`after_model_callback` looks for file paths in the first characters of what the model said;
`secure_llm_call` and the router then return all of it.  `returnsNoPath_iff` says for which
answers what they return is free of paths.
-/

namespace SkyClaw.Security.AgentGuardrail

open Regex PyRe
open Checks (bind_eq_ok_iff check_bind_eq_ok_iff mapError_eq_ok_iff)

variable (u : Unicode)

/-! ## Paths -/

/-- `_WIN_ABS_PATH_RE`. -/
def winAbsPath : Regex Char :=
  sequence [char fun c => range 'A' 'Z' c || range 'a' 'z' c, literal ":\\",
    plus (char fun c => asciiAlnum c || anyOf "\\_.+- " c)]

/-- `_UNIX_ABS_PATH_RE`. -/
def unixAbsPath : Regex Char :=
  sequence [notAfter u.isWord, literal "/",
    oneOf [literal "etc", literal "usr", literal "var", literal "home", literal "root",
      literal "proc", literal "sys", literal "tmp", literal "dev"],
    literal "/", plus nonSpace]

/-- `_UNC_PATH_RE`. -/
def uncPath : Regex Char :=
  sequence [literal "\\\\", plus (char fun c => asciiAlnum c || anyOf "_.-" c), literal "\\",
    plus (char fun c => asciiAlnum c || anyOf "_$.-" c)]

/-- The expressions of `_check_paths`, in order. -/
def pathPatterns : List (Regex Char) := [winAbsPath, unixAbsPath u, uncPath]

def leaksPath (text : List Char) : Bool := (pathPatterns u).any fun r => contains r text

def checkPaths (text : List Char) : Except SecurityViolation Unit :=
  match (pathPatterns u).findSome? fun r => search r text with
  | some group => .error (.pathLeak group)
  | none => .ok ()

/-- A Pydantic model: its name, and what `model_validate_json` raises. -/
structure Schema where
  name : String
  validateJson : List Char → Except String Unit

inductive GuardrailError
  | security (violation : SecurityViolation)
  /-- `AgentOrchestrationError`. -/
  | orchestration (message : String)

/-- `model_validate_json` within its `try`. -/
def checkSchema (expectedSchema : Option Schema) (text : List Char) :
    Except GuardrailError Unit :=
  match expectedSchema with
  | none => .ok ()
  | some schema =>
      (schema.validateJson text).mapError fun exc =>
        .orchestration ("Model output does not conform to " ++ schema.name ++ ": " ++ exc)

def afterModelCallback (cfg : Config) (modelOutput : List Char)
    (expectedSchema : Option Schema) : Except GuardrailError (List Char) := do
  let text := modelOutput.take cfg.maxOutputLength
  checkIf cfg.detectPaths ((checkPaths u text).mapError .security)
  checkSchema expectedSchema text
  return text

/-! ## Calls through the gate -/

/-- A `dict` with string keys. -/
abbrev Dict := List (String × Json)

/-- `msg.get("role") == "user"`. -/
def isUserMessage (msg : Dict) : Bool :=
  match msg.lookup "role" with
  | some (.str role) => role == "user"
  | _ => false

/-- The `content` of a message as text, for `str` of a value. -/
def contentText (strOf : Json → String) (msg : Dict) : List Char :=
  match msg.lookup "content" with
  | none => []
  | some (.str content) => content.toList
  | some content => (strOf content).toList

def extractLastUserContent (strOf : Json → String) (messages : List Dict) : List Char :=
  ((messages.reverse.find? isUserMessage).map (contentText strOf)).getD []

/-- `{**msg, "content": new_content}`. -/
def withContent (newContent : List Char) (msg : Dict) : Dict :=
  if (msg.lookup "content").isSome then
    msg.map fun entry =>
      if entry.1 = "content" then ("content", .str (String.ofList newContent)) else entry
  else msg ++ [("content", .str (String.ofList newContent))]

/-- `_replace_last_user_content`, on the messages from the last to the first. -/
def replaceFirst (newContent : List Char) : List Dict → List Dict
  | [] => []
  | msg :: earlier =>
      if isUserMessage msg then withContent newContent msg :: earlier
      else msg :: replaceFirst newContent earlier

def replaceLastUserContent (newContent : List Char) (messages : List Dict) : List Dict :=
  (replaceFirst newContent messages.reverse).reverse

/-- What a call may raise besides the errors of the guardrail. -/
inductive CallError
  | guardrail (error : GuardrailError)
  | provider (message : String)
  | attributeError
  | typeError

/-- `block.get("text", "")` of a text block, nothing of another one. -/
def blockText (block : Json) : Option Json :=
  match block with
  | .obj fields =>
      match fields.lookup "type" with
      | some (.str kind) =>
          if kind = "text" then some ((fields.lookup "text").getD (.str "")) else none
      | _ => none
  | _ => none

/-- The blocks that `for block in response.get("content", [])` goes through; the items of a
text or of a dict are no blocks. -/
def contentBlocks (response : Json) : Except CallError (List Json) :=
  match response with
  | .obj fields =>
      match (fields.lookup "content").getD (.arr []) with
      | .arr blocks => .ok blocks
      | .str _ => .ok []
      | .obj _ => .ok []
      | _ => .error .typeError
  | _ => .error .attributeError

/-- The texts to be joined, if they are texts. -/
def textParts : List Json → Except CallError (List (List Char))
  | [] => .ok []
  | .str part :: rest => (textParts rest).map fun parts => part.toList :: parts
  | _ :: _ => .error .typeError

/-- The text blocks of a response. -/
def responseTexts (response : Json) : Except CallError (List (List Char)) :=
  contentBlocks response >>= fun blocks => textParts (blocks.filterMap blockText)

def collectText (response : Json) : Except CallError (List Char) :=
  (responseTexts response).map fun parts => ['\n'].intercalate parts

/-- `secure_llm_call`, for a provider that answers or raises. -/
def secureLlmCall (strOf : Json → String) (provider : List Dict → Except String Json)
    (messages : List Dict) (cfg : Config) (expectedSchema : Option Schema) :
    Except CallError Json := do
  let sanitized ← (beforeModelCallback u cfg (extractLastUserContent strOf messages)).mapError
    fun e => .guardrail (.security e)
  let response ← (provider (replaceLastUserContent sanitized messages)).mapError .provider
  let combinedText ← collectText response
  let _ ← (afterModelCallback u cfg combinedText expectedSchema).mapError .guardrail
  return response

/-- The reply of the router when the gate raises `SecurityViolationError`. -/
def blockedReply : List Char :=
  "\u26a0\ufe0f La respuesta fue bloqueada por una política de seguridad.".toList

/-- The reply of the router when the gate raises `AgentOrchestrationError`. -/
def schemaReply : List Char :=
  "\u26a0\ufe0f La respuesta del modelo no cumple el esquema esperado.".toList

/-- The output path of the router, with the tags of Hermes or without. -/
def routerReply (cfg : Config) (finalText : List Char) : List Char :=
  match afterModelCallback u cfg finalText none with
  | .error (.security _) => blockedReply
  | .error (.orchestration _) => schemaReply
  | .ok _ => finalText

theorem pathPatterns_avoids : ∀ r ∈ pathPatterns u, Atomwise (Avoids '\n') r := by
  have hword : u.isWord '\n' = false := u.isWord_ascii '\n' (by decide)
  have hspace : PyStr.isSpace '\n' = true := by decide
  simp [pathPatterns, winAbsPath, unixAbsPath, uncPath, Regex.sequence, oneOf, literal, plus,
    nonSpace, Atomwise, Avoids, hword, hspace, asciiAlnum, range, anyOf]

theorem pathPatterns_takes :
    ∀ r ∈ pathPatterns u, Takes (fun c => c = '\\' ∨ c = '/') r := by
  simp [pathPatterns, winAbsPath, unixAbsPath, uncPath, Regex.sequence, literal, Takes]

variable {u}

theorem leaksPath_eq_true_iff {text : List Char} :
    leaksPath u text = true ↔ ∃ r ∈ pathPatterns u, contains r text = true :=
  List.any_eq_true

theorem leaksPath_intercalate (parts : List (List Char)) :
    leaksPath u (['\n'].intercalate parts) = true ↔ ∃ part ∈ parts, leaksPath u part = true := by
  simp only [leaksPath_eq_true_iff]
  constructor
  · rintro ⟨r, hr, hfound⟩
    rw [contains_intercalate (pathPatterns_avoids u r hr) (pathPatterns_takes u r hr),
      List.any_eq_true] at hfound
    obtain ⟨part, hpart, hfound⟩ := hfound
    exact ⟨part, hpart, r, hr, hfound⟩
  · rintro ⟨part, hpart, r, hr, hfound⟩
    refine ⟨r, hr, ?_⟩
    rw [contains_intercalate (pathPatterns_avoids u r hr) (pathPatterns_takes u r hr),
      List.any_eq_true]
    exact ⟨part, hpart, hfound⟩

theorem leaksPath_of_no_separator {text : List Char}
    (hbackslash : '\\' ∉ text) (hslash : '/' ∉ text) : leaksPath u text = false := by
  rw [Bool.eq_false_iff]
  intro hleak
  obtain ⟨r, hr, hfound⟩ := leaksPath_eq_true_iff.mp hleak
  obtain ⟨c, hc, rfl | rfl⟩ := (pathPatterns_takes u r hr).exists_mem hfound
  · exact hbackslash hc
  · exact hslash hc

theorem leaksPath_blockedReply : leaksPath u blockedReply = false :=
  leaksPath_of_no_separator (by decide) (by decide)

theorem leaksPath_schemaReply : leaksPath u schemaReply = false :=
  leaksPath_of_no_separator (by decide) (by decide)

/-! ## What the gate lets through -/

theorem checkPaths_eq_ok_iff {text : List Char} :
    checkPaths u text = .ok () ↔ leaksPath u text = false := by
  have hsome : ((pathPatterns u).findSome? fun r => search r text).isSome =
      leaksPath u text := by
    rw [List.isSome_findSome?]
    unfold leaksPath
    simp only [search_isSome]
  rw [← hsome]
  unfold checkPaths
  cases (pathPatterns u).findSome? fun r => search r text <;> simp

/-- The detector finds a path in the first characters, or the schema rejects them. -/
def Caught (u : Unicode) (cfg : Config) (expectedSchema : Option Schema)
    (text : List Char) : Prop :=
  (cfg.detectPaths = true ∧ leaksPath u (text.take cfg.maxOutputLength) = true) ∨
    ∃ schema ∈ expectedSchema, ∃ exc,
      schema.validateJson (text.take cfg.maxOutputLength) = .error exc

variable {expectedSchema : Option Schema}

theorem checkSchema_eq_ok_iff {text : List Char} :
    checkSchema expectedSchema text = .ok () ↔
      ¬∃ schema ∈ expectedSchema, ∃ exc, schema.validateJson text = .error exc := by
  cases expectedSchema with
  | none => simp [checkSchema]
  | some schema =>
      unfold checkSchema
      simp only [mapError_eq_ok_iff, Option.mem_def, Option.some.injEq, exists_eq_left']
      cases schema.validateJson text <;> simp

variable {cfg : Config}

/-- **Spec of `after_model_callback`.** -/
theorem exists_afterModelCallback_eq_ok_iff {modelOutput : List Char} :
    (∃ out, afterModelCallback u cfg modelOutput expectedSchema = .ok out) ↔
      ¬Caught u cfg expectedSchema modelOutput := by
  unfold afterModelCallback Caught
  simp only [check_bind_eq_ok_iff, checkIf_eq_ok_iff, mapError_eq_ok_iff, checkPaths_eq_ok_iff,
    checkSchema_eq_ok_iff, not_or, not_and, Bool.not_eq_true]
  constructor
  · rintro ⟨_, hpaths, hschema, _⟩
    exact ⟨hpaths, hschema⟩
  · rintro ⟨hpaths, hschema⟩
    exact ⟨_, hpaths, hschema, rfl⟩

theorem leaksPath_routerReply_iff {finalText : List Char} :
    leaksPath u (routerReply u cfg finalText) = false ↔
      Caught u cfg none finalText ∨ leaksPath u finalText = false := by
  have hgate : (∃ out, afterModelCallback u cfg finalText none = .ok out) ↔
      ¬Caught u cfg none finalText := exists_afterModelCallback_eq_ok_iff
  unfold routerReply
  cases hafter : afterModelCallback u cfg finalText none with
  | ok out =>
      rw [hafter] at hgate
      have hpassed : ¬Caught u cfg none finalText := hgate.mp ⟨out, rfl⟩
      simp [hpassed]
  | error e =>
      rw [hafter] at hgate
      have hcaught : Caught u cfg none finalText := by
        by_contra hpassed
        obtain ⟨out, hout⟩ := hgate.mpr hpassed
        cases hout
      cases e with
      | security violation => simp [hcaught, leaksPath_blockedReply]
      | orchestration message => simp [hcaught, leaksPath_schemaReply]

/-- The input gate lets the messages pass, and this is the answer to them. -/
def Answers (u : Unicode) (strOf : Json → String) (provider : List Dict → Except String Json)
    (messages : List Dict) (cfg : Config) (response : Json) : Prop :=
  ∃ sanitized, beforeModelCallback u cfg (extractLastUserContent strOf messages) = .ok sanitized ∧
    provider (replaceLastUserContent sanitized messages) = .ok response

/-- **Spec of `secure_llm_call`.**  It returns the answer whose first characters pass. -/
theorem secureLlmCall_eq_ok_iff {strOf : Json → String}
    {provider : List Dict → Except String Json} {messages : List Dict} {response : Json} :
    secureLlmCall u strOf provider messages cfg expectedSchema = .ok response ↔
      Answers u strOf provider messages cfg response ∧
        ∃ parts, responseTexts response = .ok parts ∧
          ¬Caught u cfg expectedSchema (['\n'].intercalate parts) := by
  unfold secureLlmCall Answers
  simp only [bind_eq_ok_iff, mapError_eq_ok_iff]
  constructor
  · rintro ⟨sanitized, hbefore, answer, hanswer, text, htext, out, hafter, hresponse⟩
    obtain rfl : answer = response := Except.ok.inj hresponse
    obtain ⟨parts, hparts, rfl⟩ : ∃ parts, responseTexts answer = .ok parts ∧
        ['\n'].intercalate parts = text := by
      unfold collectText at htext
      cases hparts : responseTexts answer with
      | error e => rw [hparts] at htext; cases htext
      | ok parts => rw [hparts] at htext; exact ⟨parts, rfl, Except.ok.inj htext⟩
    exact ⟨⟨sanitized, hbefore, hanswer⟩, parts, hparts,
      exists_afterModelCallback_eq_ok_iff.mp ⟨out, hafter⟩⟩
  · rintro ⟨⟨sanitized, hbefore, hanswer⟩, parts, hparts, hpassed⟩
    obtain ⟨out, hafter⟩ := exists_afterModelCallback_eq_ok_iff.mpr hpassed
    have hcollect : collectText response = .ok (['\n'].intercalate parts) := by
      rw [collectText, hparts]
      rfl
    exact ⟨sanitized, hbefore, response, hanswer, _, hcollect, out, hafter, rfl⟩

variable (u)

/-- **Exactly when what is returned has no path in it.**  For the router and for
`secure_llm_call`: no path at all, or one that the first characters show, or a schema that
rejects them. -/
theorem returnsNoPath_iff (cfg : Config) :
    (∀ finalText, leaksPath u (routerReply u cfg finalText) = false ↔
      Caught u cfg none finalText ∨ leaksPath u finalText = false) ∧
    ∀ strOf provider messages expectedSchema,
      ((∀ response, secureLlmCall u strOf provider messages cfg expectedSchema = .ok response →
          ∃ parts, responseTexts response = .ok parts ∧
            ∀ part ∈ parts, leaksPath u part = false) ↔
        ∀ response parts, Answers u strOf provider messages cfg response →
          responseTexts response = .ok parts →
            Caught u cfg expectedSchema (['\n'].intercalate parts) ∨
              leaksPath u (['\n'].intercalate parts) = false) := by
  refine ⟨fun finalText => leaksPath_routerReply_iff, ?_⟩
  intro strOf provider messages expectedSchema
  have hjoin : ∀ parts, leaksPath u (['\n'].intercalate parts) = false ↔
      ∀ part ∈ parts, leaksPath u part = false := by
    intro parts
    rw [Bool.eq_false_iff, Ne, leaksPath_intercalate]
    simp
  constructor
  · intro h response parts hanswers hparts
    by_cases hcaught : Caught u cfg expectedSchema (['\n'].intercalate parts)
    · exact Or.inl hcaught
    · obtain ⟨parts', hparts', hclean⟩ := h response
        (secureLlmCall_eq_ok_iff.mpr ⟨hanswers, parts, hparts, hcaught⟩)
      obtain rfl : parts' = parts := Except.ok.inj (hparts'.symm.trans hparts)
      exact Or.inr ((hjoin parts').mpr hclean)
  · intro h response hok
    obtain ⟨hanswers, parts, hparts, hpassed⟩ := secureLlmCall_eq_ok_iff.mp hok
    rcases h response parts hanswers hparts with hcaught | hclean
    · exact absurd hcaught hpassed
    · exact ⟨parts, hparts, (hjoin parts).mp hclean⟩

/-- With a limit of four characters, a path after them is returned. -/
theorem returnsNoPath_counterexample :
    leaksPath Unicode.basic (routerReply Unicode.basic
      { maxOutputLength := 4, maxOutputLength_pos := by decide } "see C:\\mods".toList) = true := by
  decide

end SkyClaw.Security.AgentGuardrail
