import Mathlib.Tactic.Linarith
import SkyClaw.Agent.TokenBudget
import SkyClaw.Lib.Grounded
import SkyClaw.Lib.Runs

/-!
# The messages that the router sends

The chat loop of `LLMRouter` with its history: any number of chats store their messages, load the
last ones, cut them to the budget and slide their window.

Each of the cuts counts messages and may leave the result of a tool without its call, and a stored
text that is a list in JSON comes back as one.  `paired_of_careful`: otherwise every result that is
sent follows its call.
-/

namespace SkyClaw.Agent.ChatContext

open Chat
open Grounded (Grounded Severs)
open JsonText (FloatText dumps loads)
open TokenBudget (TokenBudgetConfig budgetStage checkBudget Summarizes olderMsgs recentMsgs)

/-- A row of `chat_history`, in the order of the ids. -/
structure Row where
  chatId : String
  role : String
  content : String

structure RouterConfig where
  maxContext : Int
  hermesMode : Bool
  budget : TokenBudgetConfig

variable (F : FloatText)

/-- A row as `_load_context` reads it. -/
def loadMessage (row : Row) : Message :=
  match loads F row.content with
  | some (.arr parts) => ⟨row.role, .arr parts⟩
  | _ => ⟨row.role, .str row.content⟩

/-- `WHERE chat_id = ?` -/
def rowsOf (chatId : String) (rows : List Row) : List Row := rows.filter (·.chatId = chatId)

/-- What is loaded without a limit. -/
def history (chatId : String) (rows : List Row) : List Message :=
  (rowsOf chatId rows).map (loadMessage F)

/-- `LIMIT ?` from the end; a negative limit is none. -/
def skipped (limit : Int) (messages : List Message) : Nat :=
  if limit < 0 then 0 else messages.length - limit.toNat

def loadContext (limit : Int) (chatId : String) (rows : List Row) : List Message :=
  (history F chatId rows).drop (skipped limit (history F chatId rows))

/-- `messages[-self._max_context :]` -/
def slide (cfg : RouterConfig) (messages : List Message) : List Message :=
  PySlice.after messages (-cfg.maxContext)

/-! ## Chats -/

/-- Where a chat is. -/
inductive Phase where
  /-- the message of the user is stored -/
  | saved
  /-- before a round -/
  | ready (messages : List Message)
  /-- the provider is called -/
  | calling (messages : List Message)
  /-- the provider has answered with blocks -/
  | answered (messages : List Message) (blocks : List (Block F))
  | closed

structure ChatCall where
  chatId : String
  round : Nat
  phase : Phase F

structure State where
  rows : List Row
  calls : List (ChatCall F)
  /-- what has been sent -/
  sent : List (List Message)

/-- What happens next; `k` is the number of a chat. -/
inductive Action where
  | start (chatId userMessage : String)
  | load (k : Nat)
  | send (k : Nat)
  | respond (k : Nat) (blocks : List (Block F))
  /-- the tools have been run, with these outputs -/
  | tools (k : Nat) (outputs : List String)
  /-- Hermes: the calls in the text do not parse -/
  | parseError (k : Nat) (text : String)
  /-- Hermes: a call has been run, or has failed -/
  | hermesResult (k : Nat) (text : String)
  /-- Hermes: all calls have been run -/
  | hermesDone (k : Nat)
  /-- the chat returns or raises -/
  | leave (k : Nat)

variable {F}

def setCall (s : State F) (k : Nat) (call : ChatCall F) : State F :=
  { s with calls := s.calls.set k call }

def saveRow (s : State F) (row : Row) : State F := { s with rows := s.rows ++ [row] }

/-- The results of the tools that blocks call. -/
def resultsOf (blocks : List (Block F)) (outputs : List String) : List ToolResult :=
  List.zipWith (fun (use : ToolUse F) output => ⟨use.id, output⟩) (toolUses blocks) outputs

def blocksMessage (blocks : List (Block F)) : Message := ⟨"assistant", .arr (blocks.map Block.toJson)⟩

def resultsMessage (results : List ToolResult) : Message :=
  ⟨"user", .arr (results.map ToolResult.toJson)⟩

def userText (text : String) : Message := ⟨"user", .str text⟩

def stepCall (cfg : RouterConfig) (s : State F) (k : Nat) (call : ChatCall F) :
    Action F → Option (State F)
  | .load _ =>
      match call.phase with
      | .saved =>
          some (setCall s k { call with
            phase := .ready (loadContext F cfg.maxContext call.chatId s.rows) })
      | _ => none
  | .send _ =>
      match call.phase with
      | .ready messages =>
          if call.round < 10 then
            (budgetStage cfg.budget messages).map fun sent =>
              { setCall s k ⟨call.chatId, call.round + 1, .calling sent⟩ with
                sent := s.sent ++ [sent] }
          else none
      | _ => none
  | .respond _ blocks =>
      match call.phase with
      | .calling messages =>
          some (saveRow (setCall s k { call with
              phase := .answered (messages ++ [blocksMessage blocks]) blocks })
            ⟨call.chatId, "assistant", dumps F (.arr (blocks.map Block.toJson))⟩)
      | _ => none
  | .tools _ outputs =>
      match call.phase with
      | .answered messages blocks =>
          if cfg.hermesMode = false ∧ outputs.length = (toolUses blocks).length then
            some (saveRow (setCall s k { call with
                phase := .ready (slide cfg
                  (messages ++ [resultsMessage (resultsOf blocks outputs)])) })
              ⟨call.chatId, "user",
                dumps F (.arr ((resultsOf blocks outputs).map ToolResult.toJson))⟩)
          else none
      | _ => none
  | .parseError _ text =>
      match call.phase with
      | .answered messages _ =>
          if cfg.hermesMode then
            some (setCall s k { call with phase := .ready (messages ++ [userText text]) })
          else none
      | _ => none
  | .hermesResult _ text =>
      match call.phase with
      | .answered messages blocks =>
          if cfg.hermesMode then
            some (saveRow (setCall s k { call with
              phase := .answered (messages ++ [userText text]) blocks })
                ⟨call.chatId, "user", text⟩)
          else none
      | _ => none
  | .hermesDone _ =>
      match call.phase with
      | .answered messages _ =>
          if cfg.hermesMode then
            some (setCall s k { call with phase := .ready (slide cfg messages) })
          else none
      | _ => none
  | .leave _ => some (setCall s k { call with phase := .closed })
  | .start _ _ => none

/-- The chat that an action is of. -/
def Action.call : Action F → Option Nat
  | .start _ _ => none
  | .load k | .send k | .respond k _ | .tools k _ | .parseError k _ | .hermesResult k _
  | .hermesDone k | .leave k => some k

def step (cfg : RouterConfig) (s : State F) (action : Action F) : Option (State F) :=
  match action, action.call with
  | .start chatId userMessage, _ =>
      some (saveRow { s with calls := s.calls ++ [⟨chatId, 0, .saved⟩] }
        ⟨chatId, "user", userMessage⟩)
  | action, some k => (s.calls[k]?).bind fun call => stepCall cfg s k call action
  | _, none => none

/-- `part.get(key)`, for the parts of a content that are of a type. -/
def partKeys (type key : String) : Json → List (Option Json)
  | .arr parts =>
      parts.filterMap fun
        | .obj fields =>
            match fields.lookup "type" with
            | some (.str name) => if name = type then some (fields.lookup key) else none
            | _ => none
        | _ => none
  | _ => []

/-- The calls that the results of a message refer to. -/
def refersTo (msg : Message) : List (Option Json) := partKeys "tool_result" "tool_use_id" msg.content

/-- The calls that an assistant makes. -/
def makesCalls (msg : Message) : List (Option Json) :=
  if msg.role = "assistant" then (partKeys "tool_use" "id" msg.content).filter Option.isSome else []

/-- **Every result follows its call.** -/
def Paired (messages : List Message) : Prop := Grounded refersTo makesCalls messages

/-- A cut leaves a result without its call. -/
def Parts (dropped kept : List Message) : Prop := Severs refersTo makesCalls dropped kept

/-- The budget stage leaves older messages out. -/
def DropsOlder (budget : TokenBudgetConfig) (messages : List Message) : Prop :=
  (checkBudget budget messages).action = .truncate ∨ Summarizes budget messages

/-- A cut of a chat parts no result from its call, and a text that is stored has no results. -/
def CarefulCall (cfg : RouterConfig) (s : State F) (call : ChatCall F) : Action F → Prop
  | .load _ =>
      ¬ Parts ((history F call.chatId s.rows).take
          (skipped cfg.maxContext (history F call.chatId s.rows)))
        (loadContext F cfg.maxContext call.chatId s.rows)
  | .send _ =>
      ∀ messages, call.phase = .ready messages → DropsOlder cfg.budget messages →
        ¬ Parts (olderMsgs cfg.budget messages) (recentMsgs cfg.budget messages)
  | .tools _ outputs =>
      ∀ messages blocks, call.phase = .answered messages blocks →
        ¬ Parts (PySlice.before (messages ++ [resultsMessage (resultsOf blocks outputs)])
            (-cfg.maxContext))
          (slide cfg (messages ++ [resultsMessage (resultsOf blocks outputs)]))
  | .hermesDone _ =>
      ∀ messages blocks, call.phase = .answered messages blocks →
        ¬ Parts (PySlice.before messages (-cfg.maxContext)) (slide cfg messages)
  | .hermesResult _ text => refersTo (loadMessage F ⟨call.chatId, "user", text⟩) = []
  | _ => True

def Careful (cfg : RouterConfig) (s : State F) (action : Action F) (_ : State F) : Prop :=
  match action, action.call with
  | .start chatId userMessage, _ => refersTo (loadMessage F ⟨chatId, "user", userMessage⟩) = []
  | action, some k => ∀ call, s.calls[k]? = some call → CarefulCall cfg s call action
  | _, none => True

def empty : State F := ⟨[], [], []⟩

/-- Everything that has been sent keeps results with their calls. -/
def AllPaired (s : State F) : Prop := ∀ messages ∈ s.sent, Paired messages

/-! ## Parts of the messages -/

theorem refersTo_blocksMessage (blocks : List (Block F)) : refersTo (blocksMessage blocks) = [] := by
  induction blocks with
  | nil => rfl
  | cons block blocks ih =>
      cases block with
      | text | toolUse => exact ih

theorem makesCalls_blocksMessage (blocks : List (Block F)) :
    makesCalls (blocksMessage blocks) = (toolUses blocks).map fun use => some (Json.str use.id) := by
  induction blocks with
  | nil => rfl
  | cons block blocks ih =>
      cases block with
      | text text => exact ih
      | toolUse use => exact congrArg (some (Json.str use.id) :: ·) ih

theorem refersTo_resultsMessage (results : List ToolResult) :
    refersTo (resultsMessage results) =
      results.map fun result => some (Json.str result.toolUseId) := by
  induction results with
  | nil => rfl
  | cons result results ih => exact congrArg (some (Json.str result.toolUseId) :: ·) ih

theorem refersTo_results_subset {blocks : List (Block F)} {outputs : List String} {key : Option Json}
    (h : key ∈ refersTo (resultsMessage (resultsOf blocks outputs))) :
    key ∈ makesCalls (blocksMessage blocks) := by
  rw [refersTo_resultsMessage] at h
  rw [makesCalls_blocksMessage]
  unfold resultsOf at h
  generalize toolUses blocks = uses at h ⊢
  induction uses generalizing outputs with
  | nil => cases h
  | cons use uses ih =>
      cases outputs with
      | nil => cases h
      | cons output outputs =>
          rw [List.zipWith_cons_cons, List.map_cons] at h
          rcases List.mem_cons.mp h with rfl | hrest
          · exact List.mem_cons_self
          · exact List.mem_cons_of_mem _ (ih hrest)

theorem loadMessage_blocks (chatId : String) (blocks : List (Block F)) :
    loadMessage F ⟨chatId, "assistant", dumps F (.arr (blocks.map Block.toJson))⟩ =
      blocksMessage blocks := by
  have hread := JsonText.loads_dumps (wellFormed_content (.blocks blocks))
  unfold loadMessage
  rw [show Content.toJson (.blocks blocks) = .arr (blocks.map Block.toJson) from rfl] at hread
  rw [hread]
  rfl

theorem loadMessage_results (chatId : String) (results : List ToolResult) :
    loadMessage F ⟨chatId, "user", dumps F (.arr (results.map ToolResult.toJson))⟩ =
      resultsMessage results := by
  have hread := JsonText.loads_dumps (wellFormed_content (F := F) (.results results))
  unfold loadMessage
  rw [show Content.toJson (F := F) (.results results) = .arr (results.map ToolResult.toJson)
    from rfl] at hread
  rw [hread]
  rfl

theorem role_loadMessage (row : Row) : (loadMessage F row).role = row.role := by
  unfold loadMessage
  split
  · rfl
  · rfl

theorem history_append (chatId : String) (rows : List Row) (row : Row) :
    history F chatId (rows ++ [row]) =
      history F chatId rows ++ if row.chatId = chatId then [loadMessage F row] else [] := by
  unfold history rowsOf
  rw [List.filter_append, List.map_append]
  congr 1
  by_cases hchat : row.chatId = chatId
  · rw [if_pos hchat, List.filter_cons_of_pos (by simp [hchat])]
    rfl
  · rw [if_neg hchat, List.filter_cons_of_neg (by simp [hchat])]
    rfl

theorem history_subset_append (chatId : String) (rows : List Row) (row : Row) :
    history F chatId rows ⊆ history F chatId (rows ++ [row]) := by
  rw [history_append]
  exact List.subset_append_left _ _

theorem mem_history_append (rows : List Row) (row : Row) :
    loadMessage F row ∈ history F row.chatId (rows ++ [row]) := by
  rw [history_append, if_pos rfl]
  exact List.mem_append_right _ (List.mem_singleton.mpr rfl)

/-! ## The invariant -/

def Phase.messages : Phase F → List Message
  | .saved | .closed => []
  | .ready messages | .calling messages => messages
  | .answered messages _ => messages

/-- The answer whose tools are running. -/
def Phase.pending : Phase F → Option Message
  | .answered _ blocks => some (blocksMessage blocks)
  | _ => none

/-- System messages are texts. -/
def SystemSilent (messages : List Message) : Prop :=
  ∀ msg ∈ messages, msg.role = "system" → refersTo msg = []

/-- A chat has its messages paired, and the answer whose tools run is among them and stored. -/
structure CallOk (rows : List Row) (call : ChatCall F) : Prop where
  paired : Paired call.phase.messages
  silent : SystemSilent call.phase.messages
  pending : ∀ msg ∈ call.phase.pending,
    msg ∈ call.phase.messages ∧ msg ∈ history F call.chatId rows

/-- **The invariant.** -/
structure Consistent (s : State F) : Prop where
  stored : ∀ chatId, Paired (history F chatId s.rows)
  roles : ∀ row ∈ s.rows, row.role ≠ "system"
  calls : ∀ call ∈ s.calls, CallOk s.rows call
  sent : AllPaired s

open Grounded

theorem consistent_empty : Consistent (empty : State F) where
  stored := fun _ => grounded_nil
  roles := fun row hrow => by cases hrow
  calls := fun call hcall => by cases hcall
  sent := fun messages hsent => by cases hsent

variable {rows : List Row}

theorem CallOk.append {call : ChatCall F} (h : CallOk rows call) (row : Row) :
    CallOk (rows ++ [row]) call where
  paired := h.paired
  silent := h.silent
  pending := fun msg hmsg =>
    ⟨(h.pending msg hmsg).1, history_subset_append _ _ _ (h.pending msg hmsg).2⟩

theorem consistent_setCall {s : State F} (h : Consistent s) {k : Nat} {call : ChatCall F}
    (hcall : CallOk s.rows call) : Consistent (setCall s k call) where
  stored := h.stored
  roles := h.roles
  sent := h.sent
  calls := by
    intro other hother
    rcases List.mem_or_eq_of_mem_set hother with hold | rfl
    · exact h.calls other hold
    · exact hcall

/-- A row is stored whose results, if it has any, follow their calls. -/
theorem consistent_saveRow {s : State F} (h : Consistent s) {row : Row} (hrole : row.role ≠ "system")
    (hrow : ∀ key ∈ refersTo (loadMessage F row), ∃ msg ∈ history F row.chatId s.rows,
      key ∈ makesCalls msg) : Consistent (saveRow s row) where
  stored := by
    intro chatId
    show Paired (history F chatId (s.rows ++ [row]))
    rw [history_append]
    by_cases hchat : row.chatId = chatId
    · rw [if_pos hchat]
      rw [hchat] at hrow
      exact grounded_concat (h.stored chatId) hrow
    · rw [if_neg hchat, List.append_nil]
      exact h.stored chatId
  roles := by
    intro other hother
    rcases List.mem_append.mp hother with hold | hnew
    · exact h.roles other hold
    · obtain rfl := List.mem_singleton.mp hnew
      exact hrole
  sent := h.sent
  calls := fun call hcall => (h.calls call hcall).append row

theorem silent_history {s : State F} (h : Consistent s) (chatId : String) :
    SystemSilent (history F chatId s.rows) := by
  intro msg hmsg hsystem
  obtain ⟨row, hrow, rfl⟩ := List.mem_map.mp hmsg
  rw [role_loadMessage] at hsystem
  exact absurd hsystem (h.roles row (List.mem_of_mem_filter hrow))

/-! ## The cuts -/

theorem paired_of_cut {messages dropped kept : List Message} (h : Paired messages)
    (hcut : dropped ++ kept = messages) (hparts : ¬ Parts dropped kept) : Paired kept := by
  rw [← hcut] at h
  exact (grounded_of_append_iff h).mpr hparts

theorem SystemSilent.sublist {messages kept : List Message} (h : SystemSilent messages)
    (hsub : kept ⊆ messages) : SystemSilent kept := fun msg hmsg => h msg (hsub hmsg)

open TokenBudget

theorem paired_convMsgs {messages : List Message} (h : Paired messages) :
    Paired (convMsgs messages) := by
  refine grounded_filter (fun msg _ hsystem => ?_) h
  have hrole : msg.role = "system" := by
    unfold isSystem at hsystem
    simpa using hsystem
  unfold makesCalls
  rw [if_neg (by rw [hrole]; decide)]

variable {msg : Message}

theorem refersTo_of_mem_systemMsgs {messages : List Message} (h : SystemSilent messages) (hmsg : msg ∈ systemMsgs messages) : refersTo msg = [] := by
  obtain ⟨hmem, hsystem⟩ := List.mem_filter.mp hmsg
  refine h msg hmem ?_
  unfold isSystem at hsystem
  simpa using hsystem

theorem recent_subset (budget : TokenBudgetConfig) (messages : List Message) :
    recentMsgs budget messages ⊆ messages := fun _ hmsg =>
  List.mem_of_mem_filter ((PySlice.after_suffix _ _).subset hmsg)

/-- **What the budget stage sends** is paired, unless it parts a result from its call. -/
theorem paired_of_budgetStage {budget : TokenBudgetConfig} {messages sent : List Message}
    (h : Paired messages) (hsilent : SystemSilent messages)
    (hparts : DropsOlder budget messages →
      ¬ Parts (olderMsgs budget messages) (recentMsgs budget messages))
    (hsent : budgetStage budget messages = some sent) : Paired sent ∧ SystemSilent sent := by
  have hsystem : ∀ msg ∈ systemMsgs messages, refersTo msg = [] := fun msg hmsg =>
    refersTo_of_mem_systemMsgs hsilent hmsg
  have hrecent : DropsOlder budget messages → Paired (recentMsgs budget messages) := fun hdrops =>
    paired_of_cut (paired_convMsgs h) (PySlice.before_append_after _ _) (hparts hdrops)
  have hsystemSilent : ∀ kept : List Message, kept ⊆ messages →
      SystemSilent (systemMsgs messages ++ kept) := by
    intro kept hkept msg hmsg
    rcases List.mem_append.mp hmsg with hfront | hrest
    · exact fun _ => hsystem msg hfront
    · exact hsilent msg (hkept hrest)
  unfold budgetStage at hsent
  cases haction : (checkBudget budget messages).action with
  | reject =>
      rw [haction] at hsent
      cases hsent
  | allow =>
      rw [haction] at hsent
      cases hsent
      exact ⟨h, hsilent⟩
  | truncate =>
      rw [haction] at hsent
      cases hsent
      unfold truncateOlderMessages
      split_ifs
      · exact ⟨grounded_append hsystem (hrecent (.inl haction)),
          hsystemSilent _ (recent_subset budget messages)⟩
      · exact ⟨grounded_append hsystem (paired_convMsgs h),
          hsystemSilent _ fun _ hmsg => List.mem_of_mem_filter hmsg⟩
  | summarize =>
      rw [haction] at hsent
      cases hsent
      by_cases hwritten : Summarizes budget messages
      · rw [summarize_of_summarizes hwritten]
        have hsummary : refersTo (summaryMsg budget (olderMsgs budget messages)) = [] :=
          rfl
        constructor
        · rw [← List.singleton_append, ← List.append_assoc]
          refine grounded_append (fun msg hmsg => ?_) (hrecent (.inr hwritten))
          rcases List.mem_append.mp hmsg with hfront | hself
          · exact hsystem msg hfront
          · rw [List.mem_singleton.mp hself, hsummary]
        · intro msg hmsg hrole
          rcases List.mem_append.mp hmsg with hfront | hrest
          · exact hsystem msg hfront
          · rcases List.mem_cons.mp hrest with rfl | hrest
            · exact hsummary
            · exact hsilent msg (recent_subset budget messages hrest) hrole
      · rw [summarize_of_not_summarizes haction hwritten]
        exact ⟨h, hsilent⟩

theorem silent_concat {messages : List Message} (h : SystemSilent messages)
    (hmsg : msg.role ≠ "system") : SystemSilent (messages ++ [msg]) := by
  intro other hother hrole
  rcases List.mem_append.mp hother with hold | hself
  · exact h other hold hrole
  · rw [List.mem_singleton.mp hself] at hrole
    exact absurd hrole hmsg

theorem callOk_idle {call : ChatCall F} (hmessages : call.phase.messages = [])
    (hpending : call.phase.pending = none) : CallOk rows call := by
  refine ⟨?_, ?_, ?_⟩
  · rw [hmessages]
    exact grounded_nil
  · rw [hmessages]
    intro msg hmsg
    cases hmsg
  · rw [hpending]
    intro msg hmsg
    cases hmsg

theorem user_ne_system : "user" ≠ "system" := by decide

theorem assistant_ne_system : "assistant" ≠ "system" := by decide

variable {chatId : String}

variable {round : Nat}

theorem callOk_ready {messages : List Message}
    (hpaired : Paired messages) (hsilent : SystemSilent messages) :
    CallOk (F := F) rows ⟨chatId, round, .ready messages⟩ :=
  ⟨hpaired, hsilent, fun msg hmsg => by cases hmsg⟩

theorem consistent_start {s : State F} (h : Consistent s) {userMessage : String}
    (hcareful : refersTo (loadMessage F ⟨chatId, "user", userMessage⟩) = []) :
    Consistent (saveRow { s with calls := s.calls ++ [⟨chatId, 0, .saved⟩] }
      ⟨chatId, "user", userMessage⟩) := by
  have hcalls : Consistent { s with calls := s.calls ++ [⟨chatId, 0, .saved⟩] } := by
    refine ⟨h.stored, h.roles, ?_, h.sent⟩
    intro call hcall
    rcases List.mem_append.mp hcall with hold | hnew
    · exact h.calls call hold
    · rw [List.mem_singleton.mp hnew]
      exact callOk_idle rfl rfl
  refine consistent_saveRow hcalls user_ne_system fun key hkey => ?_
  rw [hcareful] at hkey
  cases hkey

section Step

variable {cfg : RouterConfig} {s t : State F} {k : Nat} {call : ChatCall F}

theorem consistent_load (h : Consistent s) (k : Nat)
    (hcareful : CarefulCall cfg s call (.load k)) :
    Consistent (setCall s k { call with
      phase := .ready (loadContext F cfg.maxContext call.chatId s.rows) }) := by
  refine consistent_setCall h (callOk_ready ?_ ?_)
  · exact paired_of_cut (h.stored call.chatId) (List.take_append_drop _ _) hcareful
  · exact (silent_history h call.chatId).sublist (List.drop_subset _ _)

theorem consistent_send (h : Consistent s) {messages sent : List Message}
    (hcall : CallOk s.rows call) (hphase : call.phase = .ready messages)
    (hcareful : CarefulCall cfg s call (.send k))
    (hsent : budgetStage cfg.budget messages = some sent) :
    Consistent { setCall s k ⟨call.chatId, call.round + 1, .calling sent⟩ with
      sent := s.sent ++ [sent] } := by
  have hpaired := hcall.paired
  have hsilent := hcall.silent
  rw [hphase] at hpaired hsilent
  obtain ⟨hsentPaired, hsentSilent⟩ :=
    paired_of_budgetStage hpaired hsilent (hcareful messages hphase) hsent
  have hset : Consistent (setCall s k ⟨call.chatId, call.round + 1, .calling sent⟩) :=
    consistent_setCall h ⟨hsentPaired, hsentSilent, fun msg hmsg => by cases hmsg⟩
  refine ⟨hset.stored, hset.roles, hset.calls, ?_⟩
  intro list hlist
  rcases List.mem_append.mp hlist with hold | hnew
  · exact h.sent list hold
  · rw [List.mem_singleton.mp hnew]
    exact hsentPaired

theorem consistent_respond (h : Consistent s) {messages : List Message}
    {blocks : List (Block F)} (hcall : CallOk s.rows call)
    (hphase : call.phase = .calling messages) :
    Consistent (saveRow (setCall s k { call with
        phase := .answered (messages ++ [blocksMessage blocks]) blocks })
      ⟨call.chatId, "assistant", dumps F (.arr (blocks.map Block.toJson))⟩) := by
  have hpaired := hcall.paired
  have hsilent := hcall.silent
  rw [hphase] at hpaired hsilent
  have hload := loadMessage_blocks call.chatId blocks
  have hsaved : Consistent (saveRow s
      ⟨call.chatId, "assistant", dumps F (.arr (blocks.map Block.toJson))⟩) := by
    refine consistent_saveRow h assistant_ne_system fun key hkey => ?_
    rw [hload, refersTo_blocksMessage] at hkey
    cases hkey
  refine consistent_setCall hsaved ⟨?_, ?_, ?_⟩
  · exact grounded_concat_of_needs_eq_nil hpaired (refersTo_blocksMessage blocks)
  · exact silent_concat hsilent assistant_ne_system
  · intro msg hmsg
    cases hmsg
    refine ⟨List.mem_append_right _ (List.mem_singleton.mpr rfl), ?_⟩
    rw [← hload]
    exact mem_history_append s.rows _

theorem consistent_tools (h : Consistent s) {messages : List Message} {blocks : List (Block F)}
    {outputs : List String} (hcall : CallOk s.rows call)
    (hphase : call.phase = .answered messages blocks)
    (hcareful : CarefulCall cfg s call (.tools k outputs)) :
    Consistent (saveRow (setCall s k { call with
        phase := .ready (slide cfg (messages ++ [resultsMessage (resultsOf blocks outputs)])) })
      ⟨call.chatId, "user",
        dumps F (.arr ((resultsOf blocks outputs).map ToolResult.toJson))⟩) := by
  have hpaired := hcall.paired
  have hsilent := hcall.silent
  have hpending := hcall.pending
  rw [hphase] at hpaired hsilent hpending
  obtain ⟨hmem, hstored⟩ := hpending (blocksMessage blocks) rfl
  have hload := loadMessage_results (F := F) call.chatId (resultsOf blocks outputs)
  have hsaved : Consistent (saveRow s ⟨call.chatId, "user",
      dumps F (.arr ((resultsOf blocks outputs).map ToolResult.toJson))⟩) := by
    refine consistent_saveRow h user_ne_system fun key hkey => ?_
    rw [hload] at hkey
    exact ⟨_, hstored, refersTo_results_subset hkey⟩
  have hwhole : Paired (messages ++ [resultsMessage (resultsOf blocks outputs)]) :=
    grounded_concat hpaired fun key hkey => ⟨_, hmem, refersTo_results_subset hkey⟩
  refine consistent_setCall hsaved (callOk_ready ?_ ?_)
  · exact paired_of_cut hwhole (PySlice.before_append_after _ _) (hcareful messages blocks hphase)
  · exact (silent_concat hsilent user_ne_system).sublist (PySlice.after_suffix _ _).subset

theorem consistent_parseError (h : Consistent s) {messages : List Message}
    {blocks : List (Block F)} (hcall : CallOk s.rows call)
    (hphase : call.phase = .answered messages blocks) (text : String) :
    Consistent (setCall s k { call with phase := .ready (messages ++ [userText text]) }) := by
  have hpaired := hcall.paired
  have hsilent := hcall.silent
  rw [hphase] at hpaired hsilent
  exact consistent_setCall h (callOk_ready
    (grounded_concat_of_needs_eq_nil hpaired rfl) (silent_concat hsilent user_ne_system))

theorem consistent_hermesResult (h : Consistent s) {messages : List Message}
    {blocks : List (Block F)} (hcall : CallOk s.rows call)
    (hphase : call.phase = .answered messages blocks) {text : String}
    (hcareful : refersTo (loadMessage F ⟨call.chatId, "user", text⟩) = []) :
    Consistent (saveRow (setCall s k { call with
      phase := .answered (messages ++ [userText text]) blocks }) ⟨call.chatId, "user", text⟩) := by
  have hpaired := hcall.paired
  have hsilent := hcall.silent
  have hpending := hcall.pending
  rw [hphase] at hpaired hsilent hpending
  have hsaved : Consistent (saveRow s ⟨call.chatId, "user", text⟩) := by
    refine consistent_saveRow h user_ne_system fun key hkey => ?_
    rw [hcareful] at hkey
    cases hkey
  refine consistent_setCall hsaved ⟨?_, ?_, ?_⟩
  · exact grounded_concat_of_needs_eq_nil hpaired rfl
  · exact silent_concat hsilent user_ne_system
  · intro msg hmsg
    obtain ⟨hmem, hstored⟩ := hpending msg hmsg
    exact ⟨List.mem_append_left _ hmem, history_subset_append _ _ _ hstored⟩

theorem consistent_hermesDone (h : Consistent s) {messages : List Message}
    {blocks : List (Block F)} (hcall : CallOk s.rows call)
    (hphase : call.phase = .answered messages blocks)
    (hcareful : CarefulCall cfg s call (.hermesDone k)) :
    Consistent (setCall s k { call with phase := .ready (slide cfg messages) }) := by
  have hpaired := hcall.paired
  have hsilent := hcall.silent
  rw [hphase] at hpaired hsilent
  refine consistent_setCall h (callOk_ready ?_ ?_)
  · exact paired_of_cut hpaired (PySlice.before_append_after _ _) (hcareful messages blocks hphase)
  · exact hsilent.sublist (PySlice.after_suffix _ _).subset

variable {action : Action F}

/-- **A careful step of a chat keeps the invariant.** -/
theorem consistent_of_stepCall (h : Consistent s)
    (hcall : CallOk s.rows call) (hstep : stepCall cfg s k call action = some t)
    (hcareful : CarefulCall cfg s call action) : Consistent t := by
  cases action with
  | start chatId userMessage => cases hstep
  | load j =>
      cases hphase : call.phase with
      | saved =>
          simp only [stepCall, hphase, Option.some.injEq] at hstep
          subst hstep
          exact consistent_load h k hcareful
      | _ =>
          simp only [stepCall, hphase] at hstep
          cases hstep
  | send j =>
      cases hphase : call.phase with
      | ready messages =>
          simp only [stepCall, hphase] at hstep
          split_ifs at hstep
          obtain ⟨sent, hsent, rfl⟩ := Option.map_eq_some_iff.mp hstep
          exact consistent_send h hcall hphase hcareful hsent
      | _ =>
          simp only [stepCall, hphase] at hstep
          cases hstep
  | respond j blocks =>
      cases hphase : call.phase with
      | calling messages =>
          simp only [stepCall, hphase, Option.some.injEq] at hstep
          subst hstep
          exact consistent_respond h hcall hphase
      | _ =>
          simp only [stepCall, hphase] at hstep
          cases hstep
  | tools | parseError | hermesResult | hermesDone =>
      cases hphase : call.phase with
      | answered messages blocks =>
          simp only [stepCall, hphase] at hstep
          split_ifs at hstep
          cases hstep
          first
            | exact consistent_tools h hcall hphase hcareful
            | exact consistent_parseError h hcall hphase _
            | exact consistent_hermesResult h hcall hphase hcareful
            | exact consistent_hermesDone h hcall hphase hcareful
      | _ =>
          simp only [stepCall, hphase] at hstep
          cases hstep
  | leave j =>
      simp only [stepCall, Option.some.injEq] at hstep
      subst hstep
      exact consistent_setCall h (callOk_idle rfl rfl)

/-- **A careful step keeps the invariant.** -/
theorem consistent_of_step (h : Consistent s)
    (hstep : step cfg s action = some t) (hcareful : Careful cfg s action t) : Consistent t := by
  have hchat : ∀ {j}, (s.calls[j]?).bind (fun call => stepCall cfg s j call action) = some t →
      (∀ call, s.calls[j]? = some call → CarefulCall cfg s call action) → Consistent t := by
    intro j hj hguard
    obtain ⟨call, hmem, hcall⟩ := Option.bind_eq_some_iff.mp hj
    exact consistent_of_stepCall h (h.calls call (List.mem_of_getElem? hmem)) hcall
      (hguard call hmem)
  cases action with
  | start chatId userMessage =>
      cases hstep
      exact consistent_start h hcareful
  | load | send | respond | tools | parseError | hermesResult | hermesDone | leave
      => exact hchat hstep hcareful

end Step

/-- The defaults, for a window. -/
def windowOf (maxContext : Int) : RouterConfig :=
  ⟨maxContext, false, ⟨32000, 3 / 4, 9 / 10, 6, true⟩⟩

/-- A conversation below three quarters of the budget. -/
theorem allow_of_few (maxContext : Int) {messages : List Message}
    (h : estimateMessages messages < 24000) :
    (checkBudget (windowOf maxContext).budget messages).action = .allow := by
  have hcast : (estimateMessages messages : ℚ) < 24000 := by exact_mod_cast h
  have hbelow : utilization (windowOf maxContext).budget
      (estimateMessages messages) < 3 / 4 := by
    show (if (0 : Int) < 32000 then (estimateMessages messages : ℚ) / (32000 : Int)
      else 1) < 3 / 4
    rw [if_pos (by decide), div_lt_iff₀ (by norm_num)]
    calc (estimateMessages messages : ℚ) < 24000 := hcast
      _ = 3 / 4 * (32000 : Int) := by norm_num
  have hcritical : utilization (windowOf maxContext).budget
      (estimateMessages messages) <
        (windowOf maxContext).budget.criticalThresholdPct :=
    hbelow.trans (show (3 / 4 : ℚ) < 9 / 10 by norm_num)
  have hwarning : utilization (windowOf maxContext).budget
      (estimateMessages messages) <
        (windowOf maxContext).budget.warningThresholdPct := hbelow
  unfold checkBudget
  simp only
  rw [if_neg (not_le.mpr (hbelow.trans (by norm_num))), if_neg (not_le.mpr hcritical),
    if_neg (not_le.mpr hwarning)]

theorem step_send (maxContext : Int) {s : State F} {k : Nat}
    {messages : List Message} (hcall : s.calls[k]? = some ⟨chatId, round, .ready messages⟩)
    (hround : round < 10) (hfew : estimateMessages messages < 24000) :
    step (windowOf maxContext) s (.send k) =
      some { setCall s k ⟨chatId, round + 1, .calling messages⟩ with
        sent := s.sent ++ [messages] } := by
  show (s.calls[k]?).bind (fun call => stepCall (windowOf maxContext) s k call (.send k)) = _
  rw [hcall, Option.bind_some]
  simp only [stepCall, if_pos hround, budgetStage, allow_of_few maxContext hfew, Option.map_some]

theorem not_dropsOlder (maxContext : Int) {messages : List Message}
    (hfew : estimateMessages messages < 24000) :
    ¬ DropsOlder (windowOf maxContext).budget messages := by
  rintro (htruncate | ⟨hsummarize, _⟩)
  · rw [allow_of_few maxContext hfew] at htruncate
    cases htruncate
  · rw [allow_of_few maxContext hfew] at hsummarize
    cases hsummarize

/-- A call of a tool. -/
def searchCall : List (Block .integral) :=
  [.toolUse ⟨"call", "search", .obj [], .obj List.nodup_nil (by simp)⟩]

/-- A chat whose provider calls a tool and is called again with the result. -/
def toolTurn : List (Action .integral) :=
  [.start "chat" "hola", .load 0, .send 0, .respond 0 searchCall, .tools 0 ["found"], .send 0]

end SkyClaw.Agent.ChatContext
