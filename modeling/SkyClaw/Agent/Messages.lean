import SkyClaw.Lib.JsonText

/-!
# The messages of a conversation

A message as the router keeps it, with its content as a JSON value, and the content that the router
builds: a text, blocks of an assistant, or the results of tools.
-/

namespace SkyClaw.Agent.Chat

open JsonText (FloatText WellFormed)

structure Message where
  role : String
  content : Json

/-- An argument object of a tool call. -/
structure ToolUse (F : FloatText) where
  id : String
  name : String
  input : Json
  wellFormed : WellFormed F input

inductive Block (F : FloatText) where
  | text (text : String)
  | toolUse (use : ToolUse F)

structure ToolResult where
  toolUseId : String
  content : String

variable {F : FloatText}

def Block.toJson : Block F → Json
  | .text said => .obj [("type", .str "text"), ("text", .str said)]
  | .toolUse called =>
      .obj [("type", .str "tool_use"), ("id", .str called.id), ("name", .str called.name),
        ("input", called.input)]

def ToolResult.toJson (result : ToolResult) : Json :=
  .obj [("type", .str "tool_result"), ("tool_use_id", .str result.toolUseId),
    ("content", .str result.content)]

/-- What the router puts into a message. -/
inductive Content (F : FloatText) where
  | plain (text : String)
  | blocks (blocks : List (Block F))
  | results (results : List ToolResult)

def Content.toJson : Content F → Json
  | .plain said => .str said
  | .blocks parts => .arr (parts.map Block.toJson)
  | .results parts => .arr (parts.map ToolResult.toJson)

structure RouterMessage (F : FloatText) where
  role : String
  content : Content F

def RouterMessage.toMessage (msg : RouterMessage F) : Message := ⟨msg.role, msg.content.toJson⟩

/-- The texts of the blocks, in order. -/
def texts (blocks : List (Block F)) : List String :=
  blocks.filterMap fun
    | .text text => some text
    | .toolUse _ => none

/-- The tool calls of the blocks, in order. -/
def toolUses (blocks : List (Block F)) : List (ToolUse F) :=
  blocks.filterMap fun
    | .text _ => none
    | .toolUse use => some use

theorem wellFormed_block (block : Block F) : WellFormed F block.toJson := by
  cases block with
  | text text =>
      refine .obj (by simp) fun field hfield => ?_
      simp only [List.mem_cons, List.not_mem_nil, or_false] at hfield
      rcases hfield with rfl | rfl
      · exact .str _
      · exact .str _
  | toolUse use =>
      refine .obj (by simp) fun field hfield => ?_
      simp only [List.mem_cons, List.not_mem_nil, or_false] at hfield
      rcases hfield with rfl | rfl | rfl | rfl
      · exact .str _
      · exact .str _
      · exact .str _
      · exact use.wellFormed

theorem wellFormed_result (result : ToolResult) : WellFormed F result.toJson := by
  refine .obj (by simp) fun field hfield => ?_
  simp only [List.mem_cons, List.not_mem_nil, or_false] at hfield
  rcases hfield with rfl | rfl | rfl
  · exact .str _
  · exact .str _
  · exact .str _

/-- **What the router builds is JSON.** -/
theorem wellFormed_content (content : Content F) : WellFormed F content.toJson := by
  cases content with
  | plain text => exact .str text
  | blocks blocks =>
      refine .arr fun item hitem => ?_
      obtain ⟨block, -, rfl⟩ := List.mem_map.mp hitem
      exact wellFormed_block block
  | results results =>
      refine .arr fun item hitem => ?_
      obtain ⟨result, -, rfl⟩ := List.mem_map.mp hitem
      exact wellFormed_result result

end SkyClaw.Agent.Chat
