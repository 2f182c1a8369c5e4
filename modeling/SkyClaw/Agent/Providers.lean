import Mathlib.Data.List.Basic
import SkyClaw.Agent.Messages

/-!
# Messages for OpenAI-compatible providers

`_convert_messages_to_openai` and `_parse_openai_response`.  `losesNothing_iff`: a conversation is
kept in the conversion exactly when no content of it is an empty list, which becomes the text `[]`.
-/

namespace SkyClaw.Agent.Providers

open JsonText (FloatText dumps loads)
open Chat

/-- The exceptions of the conversions. -/
inductive Failure where
  | attributeError
  | keyError
  | typeError
deriving DecidableEq, Repr

/-- `block.get(key, fallback)` -/
def get (block : Json) (key : String) (fallback : Json) : Except Failure Json :=
  match block with
  | .obj fields => .ok ((fields.lookup key).getD fallback)
  | _ => .error .attributeError

/-- `block[key]` -/
def item (block : Json) (key : String) : Except Failure Json :=
  match block with
  | .obj fields =>
      match fields.lookup key with
      | some value => .ok value
      | none => .error .keyError
  | _ => .error .typeError

/-! ## Messages -/

structure ToolCall where
  id : Json
  name : Json
  arguments : String

inductive OpenAiMessage where
  | chat (role : String) (content : Json) (toolCalls : List ToolCall)
  | tool (toolCallId content : Json)

/-- What stands outside: `str()` of other values, and the ids that are drawn. -/
structure Runtime where
  str : Json → String
  uuid : Nat → Nat → String

/-- `str(value)` -/
def Runtime.pyStr (rt : Runtime) : Json → String
  | .arr [] => "[]"
  | value => rt.str value

/-- `"\n".join(text_parts)` -/
def joinLines (textParts : List Json) : Except Failure Json := do
  let lines ← textParts.mapM fun
    | .str line => Except.ok line
    | _ => .error .typeError
  return .str ("\n".intercalate lines)

variable (F : FloatText) (rt : Runtime)

/-- The text parts and the tool calls of a list of blocks; `draw` numbers the ids. -/
def splitBlocks (draw : Nat → String) : Nat → List Json → Except Failure (List Json × List ToolCall)
  | _, [] => .ok ([], [])
  | i, block :: rest => do
      match ← get block "type" .null with
      | .str "text" =>
          let text ← get block "text" (.str "")
          let (textParts, toolCalls) ← splitBlocks draw (i + 1) rest
          return (text :: textParts, toolCalls)
      | .str "tool_use" =>
          let id ← get block "id" (.str (draw i))
          let name ← item block "name"
          let input ← get block "input" (.obj [])
          let (textParts, toolCalls) ← splitBlocks draw (i + 1) rest
          return (textParts, ⟨id, name, dumps F input⟩ :: toolCalls)
      | _ => splitBlocks draw (i + 1) rest

def toolMessage (block : Json) : Except Failure OpenAiMessage := do
  return .tool (← get block "tool_use_id" (.str "")) (← get block "content" (.str ""))

/-- The message of a list of blocks that are not tool results. -/
def chatMessage (draw : Nat → String) (role : String) (content : List Json) :
    Except Failure OpenAiMessage := do
  let (textParts, toolCalls) ← splitBlocks F draw 0 content
  if textParts.isEmpty then
    return .chat role (if toolCalls.isEmpty then .str "..." else .null) toolCalls
  else
    return .chat role (← joinLines textParts) toolCalls

def convertMessage (draw : Nat → String) (msg : Message) : Except Failure (List OpenAiMessage) :=
  match msg.content with
  | .str content => .ok [.chat msg.role (.str content) []]
  | .arr (.obj first :: rest) => do
      match ← get (.obj first) "type" (.str "") with
      | .str "tool_result" => (.obj first :: rest).mapM toolMessage
      | _ => return [← chatMessage F draw msg.role (.obj first :: rest)]
  | content => .ok [.chat msg.role (.str (rt.pyStr content)) []]

/-- `_convert_messages_to_openai`, from a message on. -/
def convertFrom : Nat → List Message → Except Failure (List OpenAiMessage)
  | _, [] => .ok []
  | n, msg :: rest => do
      let converted ← convertMessage F rt (rt.uuid n) msg
      return converted ++ (← convertFrom (n + 1) rest)

def convertMessagesToOpenai (messages : List Message) : Except Failure (List OpenAiMessage) :=
  convertFrom F rt 0 messages

/-- A tool call with its arguments as a value. -/
structure Call where
  id : String
  name : String
  arguments : Json

/-- What a provider is told: a text with tool calls, or the result of one. -/
inductive View where
  | chat (role : String) (text : Option String) (calls : List Call)
  | tool (toolCallId content : String)

/-- What a provider reads in a tool call. -/
def ToolCall.view (call : ToolCall) : Option Call :=
  match call.id, call.name with
  | .str id, .str name => (loads F call.arguments).map fun value => ⟨id, name, value⟩
  | _, _ => none

/-- What a provider reads in a message. -/
def OpenAiMessage.view : OpenAiMessage → Option View
  | .chat role content toolCalls => do
      let calls ← toolCalls.mapM (ToolCall.view F)
      match content with
      | .null => some (.chat role none calls)
      | .str text => some (.chat role (some text) calls)
      | _ => none
  | .tool (.str id) (.str content) => some (.tool id content)
  | .tool _ _ => none

variable {F}

def ToolUse.call (use : ToolUse F) : Call := ⟨use.id, use.name, use.input⟩

/-- The texts of blocks as one, when there are any. -/
def textOf (blocks : List (Block F)) : Option String :=
  if texts blocks = [] then none else some ("\n".intercalate (texts blocks))

/-- What a message of the router says. -/
def RouterMessage.views (msg : RouterMessage F) : List View :=
  match msg.content with
  | .plain text => [.chat msg.role (some text) []]
  | .blocks blocks => [.chat msg.role (textOf blocks) ((toolUses blocks).map ToolUse.call)]
  | .results results => results.map fun result => .tool result.toolUseId result.content

variable (F)

/-- **The conversion loses nothing** and adds nothing. -/
def LosesNothing (messages : List (RouterMessage F)) : Prop :=
  ∃ converted, convertMessagesToOpenai F rt (messages.map (·.toMessage)) = .ok converted ∧
    converted.mapM (OpenAiMessage.view F) = some (messages.flatMap RouterMessage.views)

variable {F}

/-! ## The conversion of a message -/

/-- A tool call as it is written. -/
def callOf (use : ToolUse F) : ToolCall := ⟨.str use.id, .str use.name, dumps F use.input⟩

theorem splitBlocks_toJson (draw : Nat → String) (i : Nat) (blocks : List (Block F)) :
    splitBlocks F draw i (blocks.map Block.toJson) =
      .ok ((texts blocks).map Json.str, (toolUses blocks).map callOf) := by
  induction blocks generalizing i with
  | nil => rfl
  | cons block blocks ih =>
      rw [List.map_cons, splitBlocks, ih (i + 1)]
      cases block with
      | text | toolUse => rfl

theorem joinLines_str (lines : List String) :
    joinLines (lines.map Json.str) = .ok (.str ("\n".intercalate lines)) := by
  have hlines : (lines.map Json.str).mapM (fun
      | .str line => Except.ok line
      | _ => Except.error Failure.typeError) = .ok lines := by
    induction lines with
    | nil => rfl
    | cons line lines ih =>
        rw [List.map_cons, List.mapM_cons, ih]
        rfl
  unfold joinLines
  rw [hlines]
  rfl

theorem mapM_toolMessage (results : List ToolResult) :
    (results.map ToolResult.toJson).mapM toolMessage =
      .ok (results.map fun result =>
        OpenAiMessage.tool (.str result.toolUseId) (.str result.content)) := by
  induction results with
  | nil => rfl
  | cons result results ih =>
      rw [List.map_cons, List.mapM_cons, ih]
      rfl

theorem mapM_toolCall_view (uses : List (ToolUse F)) :
    (uses.map callOf).mapM (ToolCall.view F) = some (uses.map ToolUse.call) := by
  induction uses with
  | nil => rfl
  | cons use uses ih =>
      have hview : ToolCall.view F (callOf use) = some (ToolUse.call use) := by
        simp only [ToolCall.view, callOf, JsonText.loads_dumps use.wellFormed, Option.map_some,
          ToolUse.call]
      rw [List.map_cons, List.mapM_cons, hview, ih]
      rfl

/-- An empty list of blocks, or of tool results. -/
def IsEmpty : Content F → Prop
  | .plain _ => False
  | .blocks parts => parts = []
  | .results parts => parts = []

/-- What a provider is told for a message. -/
def sentViews (msg : RouterMessage F) : List View :=
  match msg.content with
  | .blocks [] => [.chat msg.role (some "[]") []]
  | .results [] => [.chat msg.role (some "[]") []]
  | _ => RouterMessage.views msg

theorem chatMessage_toJson (draw : Nat → String) (role : String) {blocks : List (Block F)}
    (hne : blocks ≠ []) :
    ∃ converted, chatMessage F draw role (blocks.map Block.toJson) = .ok converted ∧
      OpenAiMessage.view F converted =
        some (.chat role (textOf blocks) ((toolUses blocks).map ToolUse.call)) := by
  unfold chatMessage textOf
  rw [splitBlocks_toJson]
  by_cases htexts : texts blocks = []
  · have huses : ((toolUses blocks).map callOf).isEmpty = false := by
      obtain ⟨block, rest, rfl⟩ := List.exists_cons_of_ne_nil hne
      cases block with
      | text text => cases htexts
      | toolUse use => rfl
    refine ⟨.chat role .null ((toolUses blocks).map callOf), ?_, ?_⟩
    · show (if ((texts blocks).map Json.str).isEmpty then _ else _) = _
      simp only [htexts, List.map_nil, List.isEmpty_nil, if_true, huses]
      rfl
    · simp only [OpenAiMessage.view, mapM_toolCall_view, htexts, if_true]
      rfl
  · have hempty : ((texts blocks).map Json.str).isEmpty = false := by
      rw [List.isEmpty_map, Bool.eq_false_iff]
      exact fun h => htexts (List.isEmpty_iff.mp h)
    refine ⟨.chat role (.str ("\n".intercalate (texts blocks))) ((toolUses blocks).map callOf),
      ?_, ?_⟩
    · show (if ((texts blocks).map Json.str).isEmpty then _ else _) = _
      rw [hempty, joinLines_str]
      rfl
    · simp only [OpenAiMessage.view, mapM_toolCall_view, if_neg htexts]
      rfl

/-- **What becomes of a message.** -/
theorem convertMessage_toMessage (draw : Nat → String) (msg : RouterMessage F) :
    ∃ converted, convertMessage F rt draw msg.toMessage = .ok converted ∧
      converted.mapM (OpenAiMessage.view F) = some (sentViews msg) := by
  obtain ⟨role, content⟩ := msg
  cases content with
  | plain said => exact ⟨_, rfl, rfl⟩
  | blocks parts =>
      cases parts with
      | nil => exact ⟨_, rfl, rfl⟩
      | cons block blocks =>
          obtain ⟨converted, hchat, hview⟩ :=
            chatMessage_toJson draw role (List.cons_ne_nil block blocks)
          refine ⟨[converted], ?_, ?_⟩
          · cases block with
            | text text =>
                show (do return [← chatMessage F draw role
                  ((Block.text text :: blocks).map Block.toJson)]) = _
                rw [hchat]
                rfl
            | toolUse use =>
                show (do return [← chatMessage F draw role
                  ((Block.toolUse use :: blocks).map Block.toJson)]) = _
                rw [hchat]
                rfl
          · rw [List.mapM_cons, hview]
            rfl
  | results parts =>
      cases parts with
      | nil => exact ⟨_, rfl, rfl⟩
      | cons result results =>
          refine ⟨_, mapM_toolMessage (result :: results), ?_⟩
          show _ = some ((result :: results).map fun result =>
            View.tool result.toolUseId result.content)
          generalize result :: results = all
          induction all with
          | nil => rfl
          | cons first rest ih =>
              rw [List.map_cons, List.mapM_cons, ih]
              rfl

theorem convertFrom_toMessage (n : Nat) (messages : List (RouterMessage F)) :
    ∃ converted, convertFrom F rt n (messages.map (·.toMessage)) = .ok converted ∧
      converted.mapM (OpenAiMessage.view F) = some (messages.flatMap sentViews) := by
  induction messages generalizing n with
  | nil => exact ⟨[], rfl, rfl⟩
  | cons msg messages ih =>
      obtain ⟨first, hfirst, hfirstViews⟩ := convertMessage_toMessage rt (rt.uuid n) msg
      obtain ⟨rest, hrest, hrestViews⟩ := ih (n + 1)
      refine ⟨first ++ rest, ?_, ?_⟩
      · rw [List.map_cons, convertFrom, hfirst, hrest]
        rfl
      · rw [List.mapM_append, hfirstViews, hrestViews]
        rfl

variable {msg : RouterMessage F}

theorem sentViews_of_not_isEmpty (h : ¬ IsEmpty msg.content) :
    sentViews msg = RouterMessage.views msg := by
  obtain ⟨role, content⟩ := msg
  cases content with
  | plain said => rfl
  | blocks parts | results parts =>
      cases parts with
      | nil => exact absurd rfl h
      | cons => rfl

theorem sentViews_ne_of_isEmpty (h : IsEmpty msg.content) :
    sentViews msg ≠ RouterMessage.views msg := by
  obtain ⟨role, content⟩ := msg
  cases content with
  | plain said => exact h.elim
  | blocks parts | results parts =>
      obtain rfl : parts = [] := h
      intro heq
      cases heq

theorem length_views_le (msg : RouterMessage F) :
    (RouterMessage.views msg).length ≤ (sentViews msg).length := by
  obtain ⟨role, content⟩ := msg
  cases content with
  | plain said => exact le_rfl
  | blocks parts =>
      cases parts with
      | nil | cons => exact le_rfl
  | results parts =>
      cases parts with
      | nil => exact Nat.zero_le 1
      | cons => exact le_rfl

theorem flatMap_length_le {α β : Type} {f g : α → List β} (hle : ∀ a, (g a).length ≤ (f a).length)
    (l : List α) : (l.flatMap g).length ≤ (l.flatMap f).length := by
  induction l with
  | nil => exact le_rfl
  | cons a l ih =>
      have ha := hle a
      simp only [List.flatMap_cons, List.length_append]
      omega

theorem eq_of_flatMap_eq {α β : Type} {f g : α → List β}
    (hle : ∀ a, (g a).length ≤ (f a).length) {l : List α} (h : l.flatMap f = l.flatMap g) :
    ∀ a ∈ l, f a = g a := by
  induction l with
  | nil => exact fun a ha => by cases ha
  | cons a l ih =>
      have hlength := congrArg List.length h
      have ha := hle a
      have hl := flatMap_length_le hle l
      simp only [List.flatMap_cons, List.length_append] at h hlength
      obtain ⟨hfirst, hrest⟩ := List.append_inj h (by omega)
      intro b hb
      rcases List.mem_cons.mp hb with rfl | hb
      · exact hfirst
      · exact ih hrest b hb

theorem losesNothing_iff (messages : List (RouterMessage F)) :
    LosesNothing F rt messages ↔ ∀ msg ∈ messages, ¬ IsEmpty msg.content := by
  obtain ⟨converted, hconverted, hviews⟩ := convertFrom_toMessage rt 0 messages
  constructor
  · rintro ⟨converted', hconverted', hviews'⟩ msg hmsg hempty
    cases hconverted.symm.trans hconverted'
    have hsame := Option.some.inj (hviews.symm.trans hviews')
    exact sentViews_ne_of_isEmpty hempty (eq_of_flatMap_eq length_views_le hsame msg hmsg)
  · intro h
    refine ⟨converted, hconverted, hviews.trans (congrArg some ?_)⟩
    exact List.flatMap_congr fun msg hmsg => sentViews_of_not_isEmpty (h msg hmsg)

/-! ## Responses -/

structure Parsed where
  stopReason : String
  content : List Json
  /-- the tokens of the prompt and of the completion -/
  usage : Option (Json × Json)

variable (F)

/-- `json.loads(fn.get("arguments", "{}"))`, with `{}` for what does not parse. -/
def parseArguments (arguments : Json) : Except Failure Json :=
  match arguments with
  | .str text => .ok ((loads F text).getD (.obj []))
  | _ => .error .typeError

/-- The block of a tool call. -/
def toolUseBlock (fresh : String) (tc : Json) : Except Failure Json := do
  let fn ← get tc "function" (.obj [])
  let args ← parseArguments F (← get fn "arguments" (.str "\x7b\x7d"))
  let id ← get tc "id" (.str fresh)
  let name ← get fn "name" (.str "")
  return .obj [("type", .str "tool_use"), ("id", id), ("name", name), ("input", args)]

/-- The blocks of the tool calls; `draw` numbers the ids. -/
def toolUseBlocks (draw : Nat → String) : Nat → List Json → Except Failure (List Json)
  | _, [] => .ok []
  | i, tc :: rest => do
      let block ← toolUseBlock F (draw i) tc
      return block :: (← toolUseBlocks draw (i + 1) rest)

/-- `for tc in tool_calls`, when there are any. -/
def parseToolCalls (draw : Nat → String) (toolCalls : Json) : Except Failure (List Json) :=
  if toolCalls.truthy then
    match toolCalls with
    | .arr calls => toolUseBlocks F draw 0 calls
    | _ => .error .typeError
  else .ok []

/-- The internal format, from the parts of a choice. -/
def assemble (text toolCalls finishReason : Json) (calls : List Json) (usage : Json × Json) :
    Parsed where
  stopReason :=
    match toolCalls.truthy, finishReason with
    | true, _ => "tool_use"
    | false, .str reason => if reason = "tool_calls" then "tool_use" else "end_turn"
    | false, _ => "end_turn"
  content :=
    (if text.truthy then [.obj [("type", .str "text"), ("text", text)]] else []) ++ calls
  usage := some usage

/-- The body of `_parse_openai_response`, for a choice. -/
def parseChoice (draw : Nat → String) (data choice : Json) : Except Failure Parsed := do
  let message ← get choice "message" (.obj [])
  let finishReason ← get choice "finish_reason" (.str "stop")
  let text ← get message "content" .null
  let toolCalls ← get message "tool_calls" (.arr [])
  let calls ← parseToolCalls F draw toolCalls
  let usage ← get data "usage" (.obj [])
  let input ← get usage "prompt_tokens" (.int 0)
  let output ← get usage "completion_tokens" (.int 0)
  return assemble text toolCalls finishReason calls (input, output)

def parseOpenaiResponse (draw : Nat → String) (data : Json) : Except Failure Parsed := do
  let choices ← get data "choices" (.arr [])
  if choices.truthy then
    match choices with
    | .arr (choice :: _) => parseChoice F draw data choice
    | _ => .error .typeError
  else
    return ⟨"end_turn", [], none⟩

/-- A tool call of a response, with arguments that parse. -/
structure ResponseCall where
  id : String
  name : String
  arguments : String
  value : Json
  reads : loads F arguments = some value

/-- A choice; providers leave `tool_calls` out or send `null` when there are none. -/
structure Choice where
  content : Option String
  toolCalls : Option (List (ResponseCall F))
  nullToolCalls : Bool
  finishReason : String

structure Response where
  choices : List (Choice F)
  usage : List (String × Json)

variable {F}

def ResponseCall.toJson (call : ResponseCall F) : Json :=
  .obj [("id", .str call.id), ("type", .str "function"),
    ("function", .obj [("name", .str call.name), ("arguments", .str call.arguments)])]

def Choice.toolCallsField (choice : Choice F) : List (String × Json) :=
  match choice.toolCalls with
  | some calls => [("tool_calls", .arr (calls.map ResponseCall.toJson))]
  | none => if choice.nullToolCalls then [("tool_calls", .null)] else []

def Choice.toJson (choice : Choice F) : Json :=
  .obj [("message", .obj (("role", .str "assistant") ::
      ("content", (choice.content.map Json.str).getD .null) :: choice.toolCallsField)),
    ("finish_reason", .str choice.finishReason)]

def Response.toJson (response : Response F) : Json :=
  .obj [("choices", .arr (response.choices.map Choice.toJson)), ("usage", .obj response.usage)]

def Choice.text (choice : Choice F) : Option String := choice.content.filter (· ≠ "")

def Choice.calls (choice : Choice F) : List Call :=
  (choice.toolCalls.getD []).map fun call => ⟨call.id, call.name, call.value⟩

def Response.text (response : Response F) : Option String :=
  response.choices.head?.bind Choice.text

def Response.calls (response : Response F) : List Call :=
  (response.choices.head?.map Choice.calls).getD []

variable (F)

/-- **A response comes back** when it is parsed, put into a message and converted. -/
def ComesBack (draw : Nat → String) (response : Response F) : Prop :=
  ∃ parsed, parseOpenaiResponse F draw response.toJson = .ok parsed ∧
    ∃ converted, convertMessagesToOpenai F rt [⟨"assistant", .arr parsed.content⟩] =
        .ok converted ∧
      converted.mapM (OpenAiMessage.view F) =
        some [.chat "assistant" response.text response.calls]

variable {F}

/-- The block of a tool call. -/
def ResponseCall.block (call : ResponseCall F) : Block F :=
  .toolUse ⟨call.id, call.name, call.value, JsonText.wellFormed_of_loads call.reads⟩

section

variable (choice : Choice F)

def Choice.blocks : List (Block F) :=
  (choice.text.map Block.text).toList ++ (choice.toolCalls.getD []).map ResponseCall.block

theorem bind_eq_of_ok {α β : Type} {x : Except Failure α} {a : α} (h : x = .ok a)
    (f : α → Except Failure β) : (x >>= f) = f a := by
  rw [h]
  rfl

theorem toolUseBlocks_toJson (draw : Nat → String) (i : Nat) (calls : List (ResponseCall F)) :
    toolUseBlocks F draw i (calls.map ResponseCall.toJson) =
      .ok (calls.map fun call => call.block.toJson) := by
  induction calls generalizing i with
  | nil => rfl
  | cons call calls ih =>
      have hblock : toolUseBlock F (draw i) call.toJson = .ok call.block.toJson := by
        have hargs : parseArguments F (.str call.arguments) = .ok call.value := by
          rw [parseArguments, call.reads]
          rfl
        show (do
          let args ← parseArguments F (.str call.arguments)
          let id ← get call.toJson "id" (.str (draw i))
          let name ← get (.obj [("name", .str call.name), ("arguments", .str call.arguments)]) "name"
            (.str "")
          return Json.obj [("type", .str "tool_use"), ("id", id), ("name", name),
            ("input", args)]) = _
        rw [hargs]
        rfl
      rw [List.map_cons, toolUseBlocks, hblock, ih (i + 1)]
      rfl

theorem parseToolCalls_choice (draw : Nat → String) (choice : Choice F) :
    ∃ toolCalls, get (.obj (("role", .str "assistant") ::
        ("content", (choice.content.map Json.str).getD .null) :: choice.toolCallsField))
          "tool_calls" (.arr []) = .ok toolCalls ∧
      parseToolCalls F draw toolCalls =
        .ok ((choice.toolCalls.getD []).map fun call => call.block.toJson) := by
  obtain ⟨content, toolCalls, nullToolCalls, finishReason⟩ := choice
  cases toolCalls with
  | none =>
      cases nullToolCalls with
      | true | false => exact ⟨_, rfl, rfl⟩
  | some calls =>
      refine ⟨.arr (calls.map ResponseCall.toJson), rfl, ?_⟩
      cases calls with
      | nil => rfl
      | cons call calls => exact toolUseBlocks_toJson draw 0 (call :: calls)

/-- What is parsed of a choice. -/
theorem parseChoice_toJson (draw : Nat → String) (response : Response F) (choice : Choice F) :
    ∃ parsed, parseChoice F draw response.toJson choice.toJson = .ok parsed ∧
      parsed.content = choice.blocks.map Block.toJson := by
  obtain ⟨toolCalls, hget, hcalls⟩ := parseToolCalls_choice draw choice
  have hchoice : parseChoice F draw response.toJson choice.toJson = (do
      let toolCalls ← get (.obj (("role", .str "assistant") ::
        ("content", (choice.content.map Json.str).getD .null) :: choice.toolCallsField))
          "tool_calls" (.arr [])
      let calls ← parseToolCalls F draw toolCalls
      return assemble ((choice.content.map Json.str).getD .null) toolCalls (.str choice.finishReason)
        calls ((response.usage.lookup "prompt_tokens").getD (.int 0),
          (response.usage.lookup "completion_tokens").getD (.int 0))) := rfl
  have htext : (if ((choice.content.map Json.str).getD .null).truthy then
      [Json.obj [("type", .str "text"), ("text", (choice.content.map Json.str).getD .null)]]
      else []) = ((choice.text.map Block.text).toList : List (Block F)).map Block.toJson := by
    unfold Choice.text
    cases choice.content with
    | none => rfl
    | some text =>
        by_cases hempty : text = ""
        · subst hempty
          rfl
        · simp [Json.truthy, hempty, Option.filter, Block.toJson]
  have hparsed : parseChoice F draw response.toJson choice.toJson =
      .ok (assemble ((choice.content.map Json.str).getD .null) toolCalls (.str choice.finishReason)
        ((choice.toolCalls.getD []).map fun call => call.block.toJson)
        ((response.usage.lookup "prompt_tokens").getD (.int 0),
          (response.usage.lookup "completion_tokens").getD (.int 0))) := by
    rw [hchoice, hget]
    exact bind_eq_of_ok hcalls _
  refine ⟨_, hparsed, ?_⟩
  show _ ++ _ = _
  rw [htext, Choice.blocks, List.map_append, List.map_map]
  rfl

theorem texts_blocks : texts choice.blocks = choice.text.toList := by
  have hcalls : ∀ calls : List (ResponseCall F), texts (calls.map ResponseCall.block) = [] := by
    intro calls
    induction calls with
    | nil => rfl
    | cons call calls ih => exact ih
  unfold Choice.blocks texts
  rw [List.filterMap_append]
  refine (congrArg (_ ++ ·) (hcalls _)).trans ?_
  rw [List.append_nil]
  cases choice.text with
  | none | some => rfl

theorem toolUses_blocks : (toolUses choice.blocks).map ToolUse.call = choice.calls := by
  have hcalls : ∀ calls : List (ResponseCall F), 
      (toolUses (calls.map ResponseCall.block)).map ToolUse.call =
        calls.map fun call => ⟨call.id, call.name, call.value⟩ := by
    intro calls
    induction calls with
    | nil => rfl
    | cons call calls ih => exact congrArg (_ :: ·) ih
  unfold Choice.blocks Choice.calls
  rw [← hcalls]
  cases choice.text with
  | none | some => rfl

theorem textOf_blocks : textOf choice.blocks = choice.text := by
  unfold textOf
  rw [texts_blocks]
  cases choice.text with
  | none => rfl
  | some text => simp

end

theorem parseOpenaiResponse_toJson (draw : Nat → String) (response : Response F) :
    ∃ parsed, parseOpenaiResponse F draw response.toJson = .ok parsed ∧
      parsed.content = (response.choices.head?.map Choice.blocks).elim [] (·.map Block.toJson) := by
  obtain ⟨choices, usage⟩ := response
  cases choices with
  | nil => exact ⟨_, rfl, rfl⟩
  | cons choice choices =>
      obtain ⟨parsed, hparsed, hcontent⟩ := parseChoice_toJson draw ⟨choice :: choices, usage⟩ choice
      exact ⟨parsed, hparsed, hcontent⟩

theorem sentViews_blocks (choice : Choice F) (h : choice.blocks ≠ []) :
    sentViews (F := F) ⟨"assistant", .blocks choice.blocks⟩ =
      [.chat "assistant" choice.text choice.calls] := by
  have hviews : sentViews (F := F) ⟨"assistant", .blocks choice.blocks⟩ =
      RouterMessage.views ⟨"assistant", .blocks choice.blocks⟩ := sentViews_of_not_isEmpty h
  rw [hviews]
  show [View.chat "assistant" (textOf choice.blocks) ((toolUses choice.blocks).map ToolUse.call)] = _
  rw [textOf_blocks, toolUses_blocks]

theorem blocks_eq_nil_iff (choice : Choice F) :
    choice.blocks = [] ↔ choice.text = none ∧ choice.calls = [] := by
  unfold Choice.blocks Choice.calls
  rw [List.append_eq_nil_iff, List.map_eq_nil_iff, List.map_eq_nil_iff]
  cases choice.text with
  | none | some => simp

theorem comesBack_iff (draw : Nat → String) (response : Response F) :
    ComesBack F rt draw response ↔ response.text ≠ none ∨ response.calls ≠ [] := by
  obtain ⟨parsed, hparsed, hcontent⟩ := parseOpenaiResponse_toJson draw response
  have hstep : ComesBack F rt draw response ↔ ∃ converted,
      convertMessagesToOpenai F rt [⟨"assistant", .arr parsed.content⟩] = .ok converted ∧
        converted.mapM (OpenAiMessage.view F) =
          some [.chat "assistant" response.text response.calls] := by
    constructor
    · rintro ⟨parsed', hparsed', h⟩
      cases hparsed.symm.trans hparsed'
      exact h
    · exact fun h => ⟨parsed, hparsed, h⟩
  obtain ⟨blocks, hblocks, hviews⟩ : ∃ blocks : List (Block F),
      parsed.content = blocks.map Block.toJson ∧
        (sentViews ⟨"assistant", .blocks blocks⟩ =
          [.chat "assistant" response.text response.calls] ↔
            response.text ≠ none ∨ response.calls ≠ []) := by
    unfold Response.text Response.calls
    cases hhead : response.choices.head? with
    | none =>
        rw [hhead] at hcontent
        refine ⟨[], hcontent, ?_⟩
        simp [sentViews]
    | some choice =>
        rw [hhead] at hcontent
        refine ⟨choice.blocks, hcontent, ?_⟩
        show _ = [View.chat "assistant" choice.text choice.calls] ↔
          choice.text ≠ none ∨ choice.calls ≠ []
        by_cases hempty : choice.blocks = []
        · obtain ⟨htext, hcalls⟩ := (blocks_eq_nil_iff choice).mp hempty
          rw [hempty, htext, hcalls]
          simp [sentViews]
        · refine iff_of_true (sentViews_blocks choice hempty) ?_
          rw [blocks_eq_nil_iff, not_and_or] at hempty
          exact hempty
  rw [hstep, ← hviews, hblocks]
  obtain ⟨converted, hconverted, hsent⟩ :=
    convertFrom_toMessage rt 0 [⟨"assistant", .blocks blocks⟩]
  rw [List.flatMap_singleton] at hsent
  constructor
  · rintro ⟨converted', hconverted', h⟩
    cases hconverted.symm.trans hconverted'
    exact Option.some.inj (hsent.symm.trans h)
  · intro h
    exact ⟨converted, hconverted, hsent.trans (congrArg some h)⟩

variable (F)

end SkyClaw.Agent.Providers
