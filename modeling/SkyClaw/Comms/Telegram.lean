import Mathlib.Data.List.Nodup
import SkyClaw.Lib.Json
import SkyClaw.Lib.PyStr
import SkyClaw.Lib.TaskPool

/-!
# The Telegram webhook

`TelegramWebhook` turns an update into a call of the approval guard or of the language
model's router.  An update is a dict of unknown shape, so that each access may raise.
Text messages are handled by background tasks, pressed buttons at once.
-/

namespace SkyClaw.Comms

open Json (PyError)

/-! ## Configuration and effects -/

structure WebhookConfig where
  /-- A `HITLGuard` is there. -/
  hitl : Bool
  router : Bool
  allowedUserId : Option Int
  secretToken : Option String
  str : Json → String

/-- A call of the guard, or a message to the router. -/
inductive Call
  | respond (requestId : String) (approved : Bool)
  | chat (text chatId : String)
deriving DecidableEq

/-- An update: a dict, with the `update_id` if it has one. -/
structure Update where
  updateId : Option Int
  fields : List (String × Json)

def Update.data (update : Update) : Json := .obj update.fields

/-- The background tasks of `process_update`. -/
inductive BackgroundTask
  | hitlCommand (chatId : Json) (approved : Bool) (requestId : String) (updateId : Int)
      (message : Json)
  | updateMods (chatId : Json) (updateId : Int)
  | processBg (chatId : Json) (text : String) (updateId : Int)

/-- A call and the update that caused it. -/
abbrev Caused := Option Int × Call

structure Webhook where
  /-- Oldest first. -/
  seenUpdates : List Int
  tasks : TaskPool BackgroundTask Caused

def Webhook.new : Webhook := ⟨[], .empty⟩

/-! ## Commands -/

def parseHitlCommand (text : String) : Option (Bool × String) :=
  let stripped := PyStr.strip text
  if PyStr.startsWith "/approve " stripped then
    let requestId := PyStr.strip (PyStr.dropFirst "/approve ".length stripped)
    if requestId = "" then none else some (true, requestId)
  else if PyStr.startsWith "/deny " stripped then
    let requestId := PyStr.strip (PyStr.dropFirst "/deny ".length stripped)
    if requestId = "" then none else some (false, requestId)
  else none

/-- A message with a date or a sender it was forwarded from. -/
def isForwarded (message : Json) : Except PyError Bool := do
  let date ← message.get "forward_date" .null
  let sender ← message.get "forward_from" .null
  pure (!date.isNone || !sender.isNone)

section Handlers

variable (cfg : WebhookConfig)

/-- `_validate_sender`, of a message or a callback query. -/
def validateSender (value : Json) : Except PyError Bool :=
  match cfg.allowedUserId with
  -- Fail closed: without a configured user nobody is valid.
  | none => .ok false
  | some allowed => do
      let user ← value.get "from" (.obj [])
      let userId ← user.get "id" .null
      if userId.eqInt allowed = false then pure false
      else
        let forwarded ← isForwarded value
        if forwarded then pure false
        else
          let message ← value.get "message" (.obj [])
          let forwarded ← if message.truthy then isForwarded message else pure false
          if forwarded then pure false
          else
            -- A reply to a forwarded message is turned away too.
            let reply ← value.get "reply_to_message" .null
            let reply ← if reply.truthy then pure reply
              else message.get "reply_to_message" .null
            let forwarded ← if reply.truthy then isForwarded reply else pure false
            pure !forwarded

/-- What the text of a message is handed to. -/
def textTask (updateId : Int) (message chatId : Json) (text : String) : BackgroundTask :=
  match if cfg.hitl then parseHitlCommand text else none with
  | some (approved, requestId) => .hitlCommand chatId approved requestId updateId message
  | none =>
      if PyStr.strip text = "/update_mods" then .updateMods chatId updateId
      else .processBg chatId text updateId

/-- `process_update` after deduplication: the task it creates. -/
def messageTask (updateId : Int) (data : Json) : Except PyError (Option BackgroundTask) := do
  let message ← data.get "message" (.obj [])
  let text ← message.get "text" (.str "")
  let chat ← message.get "chat" (.obj [])
  let chatId ← chat.get "id" .null
  if text.truthy = false ∨ chatId.isNone = true then pure none
  else
    match text with
    | .str text => pure (some (textTask cfg updateId message chatId text))
    | _ => .error .attributeError

/-- What a task calls; `/update_mods` asks the sync engine only. -/
def BackgroundTask.effect : BackgroundTask → Option Caused
  | .hitlCommand _ approved requestId updateId message =>
      match validateSender cfg message with
      | .ok true => some (some updateId, .respond requestId approved)
      | _ => none
  | .updateMods _ _ => none
  | .processBg chatId text updateId =>
      if cfg.router then some (some updateId, .chat text (cfg.str chatId)) else none

def dedupMaxSize : Nat := 1000

/-- A new update is remembered, and the oldest ones are forgotten. -/
def remember (updateId : Int) (seen : List Int) : List Int :=
  (seen ++ [updateId]).drop (seen.length + 1 - dedupMaxSize)

def processUpdate (update : Update) (s : Webhook) : Webhook × Except PyError Unit :=
  match update.updateId with
  | none => (s, .ok ())
  | some updateId =>
      if updateId ∈ s.seenUpdates then (s, .ok ())
      else
        -- It counts as seen even if what follows raises.
        let s := { s with seenUpdates := remember updateId s.seenUpdates }
        match messageTask cfg updateId update.data with
        | .error error => (s, .error error)
        | .ok none => (s, .ok ())
        | .ok (some task) => ({ s with tasks := s.tasks.spawn task }, .ok ())

/-- The decision of a button, `hitl:approve:<request_id>` or `hitl:deny:<request_id>`. -/
def buttonDecision (data : String) : Option (Bool × String) :=
  if PyStr.startsWith "hitl:" data then
    match PyStr.split ':' data with
    | [_, action, requestId] => some (decide (action = "approve"), requestId)
    | _ => none
  else none

/-- `_handle_callback_query`: the decision it delivers. -/
def handleCallbackQuery (query : Json) : Except PyError (Option Call) := do
  let valid ← validateSender cfg query
  if valid = false then pure none
  else
    let data ← query.get "data" (.str "")
    let message ← query.get "message" (.obj [])
    let chat ← message.get "chat" (.obj [])
    let chatId ← chat.get "id" .null
    let messageId ← message.get "message_id" .null
    if data.truthy = false ∨ chatId.truthy = false ∨ messageId.truthy = false then pure none
    else
      match data with
      | .str data =>
          match buttonDecision data with
          | some (approved, requestId) =>
              pure (if cfg.hitl then some (.respond requestId approved) else none)
          | none => pure none
      | _ => .error .attributeError

/-- What a pressed button calls; an exception is logged. -/
def buttonCall (query : Json) : Option Call :=
  match handleCallbackQuery cfg query with
  | .ok call => call
  | .error _ => none

/-- The secret is configured and the request does not carry it. -/
def rejectsToken (token : Option String) : Bool :=
  match cfg.secretToken with
  | none => false
  | some secret => secret ≠ "" && token ≠ some secret

/-- `handle_update`, with the status of its answer. -/
def handleUpdate (token : Option String) (update : Update) (s : Webhook) : Webhook × Nat :=
  if rejectsToken cfg token then (s, 401)
  else
    match update.fields.lookup "callback_query" with
    | some query =>
        -- A pressed button never reaches `process_update`, nor its deduplication.
        match buttonCall cfg query with
        | some call => ({ s with tasks := s.tasks.record (update.updateId, call) }, 200)
        | none => (s, 200)
    | none => ((processUpdate cfg update s).1, 200)

/-- An update is posted, or a background task runs. -/
inductive HookEvent
  | post (token : Option String) (update : Update)
  | runTask (i : Nat)

def hookStep (s : Webhook) : HookEvent → Option Webhook
  | .post token update => some (handleUpdate cfg token update s).1
  | .runTask i => (s.tasks.runTask (BackgroundTask.effect cfg) i).map fun tasks => { s with tasks := tasks }

end Handlers

/-! ## What an update says -/

structure TextMessage (update : Update) (message chatId : Json) (text : String) : Prop where
  isMessage : update.data.get "message" (.obj []) = .ok message
  isText : message.get "text" (.str "") = .ok (.str text)
  nonempty : text ≠ ""
  isChat : ∃ chat, message.get "chat" (.obj []) = .ok chat ∧ chat.get "id" .null = .ok chatId
  known : chatId.isNone = false

/-- A text message is a command of the operator, or meant for the router. -/
inductive Says (cfg : WebhookConfig) (update : Update) : Call → Prop
  | command {message chatId : Json} {text requestId : String} {approved : Bool}
      (hmessage : TextMessage update message chatId text) (hhitl : cfg.hitl = true)
      (hparse : parseHitlCommand text = some (approved, requestId))
      (hvalid : validateSender cfg message = .ok true) : Says cfg update (.respond requestId approved)
  | chat {message chatId : Json} {text : String}
      (hmessage : TextMessage update message chatId text)
      (hparse : cfg.hitl = true → parseHitlCommand text = none)
      (hupdate : PyStr.strip text ≠ "/update_mods") (hrouter : cfg.router = true) :
      Says cfg update (.chat text (cfg.str chatId))

/-- A callback query is a button `hitl:<action>:<request_id>` that the operator pressed under
a message. -/
structure Presses (cfg : WebhookConfig) (query : Json) (action requestId : String) : Prop where
  guarded : cfg.hitl = true
  valid : validateSender cfg query = .ok true
  isData : query.get "data" (.str "") = .ok (.str ("hitl:" ++ action ++ ":" ++ requestId))
  noColonLeft : ':' ∉ action.toList
  noColonRight : ':' ∉ requestId.toList
  underMessage : ∃ message chat chatId messageId,
    query.get "message" (.obj []) = .ok message ∧ message.get "chat" (.obj []) = .ok chat ∧
      chat.get "id" .null = .ok chatId ∧ message.get "message_id" .null = .ok messageId ∧
        chatId.truthy = true ∧ messageId.truthy = true

section Effects

variable {cfg : WebhookConfig}

variable {updateId : Int}

theorem messageTask_iff {update : Update} {task : BackgroundTask} :
    messageTask cfg updateId update.data = .ok (some task) ↔
      ∃ message chatId text, TextMessage update message chatId text ∧
        task = textTask cfg updateId message chatId text := by
  constructor
  · intro h
    unfold messageTask at h
    obtain ⟨message, hmessage, h⟩ := Json.bind_ok h
    obtain ⟨value, hvalue, h⟩ := Json.bind_ok h
    obtain ⟨chat, hchat, h⟩ := Json.bind_ok h
    obtain ⟨chatId, hid, h⟩ := Json.bind_ok h
    by_cases hskip : value.truthy = false ∨ chatId.isNone = true
    · rw [if_pos hskip] at h
      cases h
    · rw [if_neg hskip] at h
      rw [not_or, Bool.not_eq_false, Bool.not_eq_true] at hskip
      cases value with
      | str text =>
          have hnonempty : text ≠ "" := by
            rintro rfl
            exact absurd hskip.1 (by decide)
          exact ⟨message, chatId, text, ⟨hmessage, hvalue, hnonempty, ⟨chat, hchat, hid⟩, hskip.2⟩,
            (Option.some.inj (Except.ok.inj h)).symm⟩
      | _ => cases h
  · rintro ⟨message, chatId, text, hmessage, rfl⟩
    obtain ⟨chat, hchat, hid⟩ := hmessage.isChat
    have hgo : ¬((Json.str text).truthy = false ∨ chatId.isNone = true) := by
      rw [hmessage.known]
      rintro (h | h)
      · exact hmessage.nonempty (by simpa [Json.truthy] using h)
      · cases h
    unfold messageTask
    rw [hmessage.isMessage]
    simp only [bind, Except.bind, hmessage.isText, hchat, hid, if_neg hgo]
    rfl

def messageCall (cfg : WebhookConfig) (update : Update) : Option Call :=
  match update.updateId with
  | none => none
  | some updateId =>
      match messageTask cfg updateId update.data with
      | .ok (some task) => (task.effect cfg).map (·.2)
      | _ => none

/-- **Spec of `process_update`.**  The task of an update makes the call that its message
says. -/
theorem messageCall_iff {update : Update} (hid : update.updateId ≠ none) {call : Call} :
    messageCall cfg update = some call ↔ Says cfg update call := by
  obtain ⟨updateId, hupdateId⟩ := Option.ne_none_iff_exists'.mp hid
  have hcall : messageCall cfg update = some call ↔
      ∃ task, messageTask cfg updateId update.data = .ok (some task) ∧
        (task.effect cfg).map (·.2) = some call := by
    unfold messageCall
    simp only [hupdateId]
    cases htask : messageTask cfg updateId update.data with
    | error e => simp
    | ok task =>
        cases task with
        | none | some => simp
  rw [hcall]
  constructor
  · rintro ⟨task, htask, heffect⟩
    obtain ⟨message, chatId, text, hmessage, rfl⟩ := messageTask_iff.mp htask
    obtain ⟨caused, hcaused, rfl⟩ := Option.map_eq_some_iff.mp heffect
    unfold textTask at hcaused
    split at hcaused
    · rename_i approved requestId hparse
      have hhitl : cfg.hitl = true := by
        by_contra hno
        rw [if_neg hno] at hparse
        cases hparse
      rw [if_pos hhitl] at hparse
      unfold BackgroundTask.effect at hcaused
      simp only at hcaused
      split at hcaused
      · rename_i hvalid
        cases hcaused
        exact .command hmessage hhitl hparse hvalid
      · cases hcaused
    · rename_i hparse
      split at hcaused
      · cases hcaused
      · rename_i hupdate
        unfold BackgroundTask.effect at hcaused
        simp only at hcaused
        split at hcaused
        · rename_i hrouter
          cases hcaused
          refine .chat hmessage (fun hhitl => ?_) hupdate hrouter
          rw [if_pos hhitl] at hparse
          exact hparse
        · cases hcaused
  · intro h
    cases h with
    | command hmessage hhitl hparse hvalid =>
        refine ⟨_, messageTask_iff.mpr ⟨_, _, _, hmessage, rfl⟩, ?_⟩
        unfold textTask
        rw [if_pos hhitl, hparse]
        simp only [BackgroundTask.effect, hvalid, Option.map_some]
    | chat hmessage hparse hupdate hrouter =>
        refine ⟨_, messageTask_iff.mpr ⟨_, _, _, hmessage, rfl⟩, ?_⟩
        have hnone : ∀ text, (cfg.hitl = true → parseHitlCommand text = none) →
            (if cfg.hitl = true then parseHitlCommand text else none) = none := by
          intro text hparse
          by_cases hhitl : cfg.hitl = true
          · rw [if_pos hhitl, hparse hhitl]
          · rw [if_neg hhitl]
        unfold textTask
        rw [hnone _ hparse]
        simp only [if_neg hupdate, BackgroundTask.effect, hrouter, if_true, Option.map_some]

/-- What an update posted with the right secret calls. -/
def hookCall (cfg : WebhookConfig) (update : Update) : Option Call :=
  match update.fields.lookup "callback_query" with
  | some query => buttonCall cfg query
  | none => messageCall cfg update

/-- The calls of some updates, each with its cause. -/
def causedBy (call : Update → Option Call) (updates : List Update) : List Caused :=
  updates.filterMap fun update => (call update).map fun c => (update.updateId, c)

theorem buttonDecision_iff {data requestId : String} {approved : Bool} :
    buttonDecision data = some (approved, requestId) ↔
      ∃ action, data = "hitl:" ++ action ++ ":" ++ requestId ∧ ':' ∉ action.toList ∧
        ':' ∉ requestId.toList ∧ approved = decide (action = "approve") := by
  have hthree : ∀ start action requestId : String,
      [':'].intercalate ([start, action, requestId].map String.toList) =
        start.toList ++ ':' :: action.toList ++ ':' :: requestId.toList := by
    intro start action requestId
    simp [List.intercalate]
  constructor
  · intro h
    unfold buttonDecision at h
    split at h
    · rename_i hstart
      split at h
      · rename_i start action request hsplit
        obtain ⟨htext, hno⟩ := (PyStr.split_eq_iff (by simp)).mp hsplit
        rw [hthree] at htext
        obtain ⟨rest, hrest⟩ := List.isPrefixOf_iff_prefix.mp hstart
        have hhitl : start = "hitl" := by
          unfold PyStr.split at hsplit
          rw [← hrest, show "hitl:".toList ++ rest = "hitl".toList ++ ':' :: rest from rfl,
            List.splitOn_append_cons_self_of_not_mem (by decide), List.map_cons] at hsplit
          exact (List.cons.inj hsplit).1.symm
        obtain ⟨rfl, rfl⟩ := Prod.mk.inj (Option.some.inj h)
        refine ⟨action, ?_, hno action (by simp), hno request (by simp), rfl⟩
        rw [← String.toList_inj, htext, hhitl]
        simp
      · cases h
    · cases h
  · rintro ⟨action, rfl, haction, hrequest, rfl⟩
    have htext : ("hitl:" ++ action ++ ":" ++ requestId).toList =
        "hitl".toList ++ ':' :: action.toList ++ ':' :: requestId.toList := by
      simp
    have hstart : PyStr.startsWith "hitl:" ("hitl:" ++ action ++ ":" ++ requestId) = true := by
      refine List.isPrefixOf_iff_prefix.mpr ⟨action.toList ++ ':' :: requestId.toList, ?_⟩
      simp
    have hsplit : PyStr.split ':' ("hitl:" ++ action ++ ":" ++ requestId) =
        ["hitl", action, requestId] := by
      refine (PyStr.split_eq_iff (by simp)).mpr ⟨htext.trans (hthree _ _ _).symm, ?_⟩
      intro piece hpiece
      rcases List.mem_cons.mp hpiece with rfl | hpiece
      · decide
      · rcases List.mem_cons.mp hpiece with rfl | hpiece
        · exact haction
        · rw [List.mem_singleton.mp hpiece]
          exact hrequest
    unfold buttonDecision
    rw [if_pos hstart, hsplit]

/-- **Spec of `_handle_callback_query`.** -/
theorem buttonCall_iff {query : Json} {call : Call} :
    buttonCall cfg query = some call ↔ ∃ action requestId,
      call = .respond requestId (decide (action = "approve")) ∧
        Presses cfg query action requestId := by
  constructor
  · intro h
    have hok : handleCallbackQuery cfg query = .ok (some call) := by
      unfold buttonCall at h
      split at h
      · rename_i hhandle
        rw [hhandle, h]
      · cases h
    unfold handleCallbackQuery at hok
    obtain ⟨valid, hvalid, hok⟩ := Json.bind_ok hok
    by_cases hinvalid : valid = false
    · rw [if_pos hinvalid] at hok
      cases hok
    · rw [if_neg hinvalid] at hok
      obtain ⟨data, hdata, hok⟩ := Json.bind_ok hok
      obtain ⟨message, hmessage, hok⟩ := Json.bind_ok hok
      obtain ⟨chat, hchat, hok⟩ := Json.bind_ok hok
      obtain ⟨chatId, hid, hok⟩ := Json.bind_ok hok
      obtain ⟨messageId, hmid, hok⟩ := Json.bind_ok hok
      by_cases hskip : data.truthy = false ∨ chatId.truthy = false ∨ messageId.truthy = false
      · rw [if_pos hskip] at hok
        cases hok
      · rw [if_neg hskip] at hok
        rw [not_or, not_or, Bool.not_eq_false, Bool.not_eq_false, Bool.not_eq_false] at hskip
        cases data with
        | str text =>
            cases hdecision : buttonDecision text with
            | none =>
                simp only [hdecision] at hok
                cases hok
            | some decision =>
                obtain ⟨approved, requestId⟩ := decision
                simp only [hdecision] at hok
                obtain ⟨action, rfl, haction, hrequest, rfl⟩ := buttonDecision_iff.mp hdecision
                by_cases hhitl : cfg.hitl = true
                · rw [if_pos hhitl] at hok
                  have htrue : valid = true := Bool.not_eq_false _ ▸ hinvalid
                  refine ⟨action, requestId, (Option.some.inj (Except.ok.inj hok)).symm, hhitl,
                    htrue ▸ hvalid, hdata, haction, hrequest, message, chat, chatId, messageId,
                    hmessage, hchat, hid, hmid, hskip.2.1, hskip.2.2⟩
                · rw [if_neg hhitl] at hok
                  cases hok
        | _ => cases hok
  · rintro ⟨action, requestId, rfl, hpress⟩
    obtain ⟨message, chat, chatId, messageId, hmessage, hchat, hid, hmid, hchatTrue, hmidTrue⟩ :=
      hpress.underMessage
    have hdecision : buttonDecision ("hitl:" ++ action ++ ":" ++ requestId) =
        some (decide (action = "approve"), requestId) :=
      buttonDecision_iff.mpr ⟨action, rfl, hpress.noColonLeft, hpress.noColonRight, rfl⟩
    have hgo : ¬((Json.str ("hitl:" ++ action ++ ":" ++ requestId)).truthy = false ∨
        chatId.truthy = false ∨ messageId.truthy = false) := by
      rw [hchatTrue, hmidTrue]
      simp [Json.truthy]
    unfold buttonCall handleCallbackQuery
    simp only [bind, Except.bind, hpress.valid, hpress.isData, hmessage, hchat, hid, hmid, hgo,
      hdecision, hpress.guarded]
    rfl

/-! ## The effect of a post -/

theorem causedBy_append (call : Update → Option Call) (before after : List Update) :
    causedBy call (before ++ after) = causedBy call before ++ causedBy call after := by
  unfold causedBy
  rw [List.filterMap_append]

theorem causedBy_singleton (call : Update → Option Call) (update : Update) :
    causedBy call [update] = ((call update).map fun c => (update.updateId, c)).toList := by
  unfold causedBy
  cases hcall : call update with
  | none | some => simp [hcall]

/-- Everything the webhook has called or is going to call. -/
def Webhook.account (cfg : WebhookConfig) (s : Webhook) : List Caused :=
  s.tasks.account (BackgroundTask.effect cfg)

/-- The webhook has seen no other updates than these. -/
def Webhook.SeenOnly (s : Webhook) (updates : List Update) : Prop :=
  ∀ updateId ∈ s.seenUpdates, some updateId ∈ updates.map (·.updateId)

theorem effect_textTask {message chatId : Json} {text : String} {caused : Caused}
    (h : (textTask cfg updateId message chatId text).effect cfg = some caused) :
    caused.1 = some updateId := by
  unfold textTask at h
  split at h
  · unfold BackgroundTask.effect at h
    simp only at h
    split at h <;> cases h
    rfl
  · split at h
    · cases h
    · unfold BackgroundTask.effect at h
      simp only at h
      split at h <;> cases h
      rfl

variable {s : Webhook}

/-- **Spec of `process_update`** on the state: an update that is new adds what its message
calls. -/
theorem processUpdate_account {update : Update}
    (hnew : ∀ updateId, update.updateId = some updateId → updateId ∉ s.seenUpdates) :
    (processUpdate cfg update s).1.account cfg =
      s.account cfg ++ causedBy (messageCall cfg) [update] := by
  rw [causedBy_singleton]
  unfold processUpdate messageCall Webhook.account
  cases hid : update.updateId with
  | none => exact (List.append_nil _).symm
  | some updateId =>
      simp only [if_neg (hnew updateId hid)]
      cases htask : messageTask cfg updateId update.data with
      | error e => exact (List.append_nil _).symm
      | ok found =>
          cases found with
          | none => exact (List.append_nil _).symm
          | some task =>
              obtain ⟨message, chatId, text, -, rfl⟩ := messageTask_iff.mp htask
              refine (TaskPool.account_spawn s.tasks _).trans (congrArg _ ?_)
              cases heffect : (textTask cfg updateId message chatId text).effect cfg with
              | none => simp [heffect]
              | some caused =>
                  have hcause := effect_textTask heffect
                  obtain ⟨cause, call⟩ := caused
                  obtain rfl : cause = some updateId := hcause
                  simp [heffect]

theorem processUpdate_seen (update : Update) (s : Webhook) :
    (processUpdate cfg update s).1.seenUpdates = s.seenUpdates ∨
      ∃ updateId, update.updateId = some updateId ∧
        (processUpdate cfg update s).1.seenUpdates = remember updateId s.seenUpdates := by
  unfold processUpdate
  cases hid : update.updateId with
  | none => exact .inl rfl
  | some updateId =>
      by_cases hseen : updateId ∈ s.seenUpdates
      · simp only [if_pos hseen]
        exact .inl trivial
      · refine .inr ⟨updateId, rfl, ?_⟩
        simp only [if_neg hseen]
        split <;> simp only

theorem Webhook.SeenOnly.append {updates : List Update} (h : s.SeenOnly updates)
    (update : Update) : s.SeenOnly (updates ++ [update]) := by
  intro updateId hseen
  rw [List.map_append]
  exact List.mem_append_left _ (h updateId hseen)

theorem processUpdate_seenOnly {update : Update} {updates : List Update}
    (h : s.SeenOnly updates) : (processUpdate cfg update s).1.SeenOnly (updates ++ [update]) := by
  intro id hin
  rcases @processUpdate_seen cfg update s with hkept | ⟨updateId, hid, hremembered⟩
  · rw [hkept] at hin
    exact h.append update id hin
  · rw [hremembered] at hin
    rcases List.mem_append.mp (List.mem_of_mem_drop hin) with hold | hnew
    · exact h.append update id hold
    · rw [List.mem_singleton.mp hnew, List.map_append]
      exact List.mem_append_right _ (List.mem_singleton.mpr hid.symm)

/-- What the webhook has seen and called after these updates. -/
structure Accounts (cfg : WebhookConfig) (call : Update → Option Call) (s : Webhook)
    (updates : List Update) : Prop where
  seenOnly : s.SeenOnly updates
  calls : (s.account cfg).Perm (causedBy call updates)

theorem not_seen {updates : List Update} {update : Update}
    (hseen : s.SeenOnly updates) (hids : ((updates ++ [update]).map (·.updateId)).Nodup)
    (updateId : Int) (hid : update.updateId = some updateId) : updateId ∉ s.seenUpdates := by
  intro hin
  rw [List.map_append, List.nodup_append] at hids
  exact hids.2.2 _ (hseen updateId hin) _ (List.mem_singleton.mpr rfl) hid.symm

/-- Updates of distinct ids call the same in all exactly when each of them does. -/
theorem causedBy_perm_iff {first second : Update → Option Call} {updates : List Update}
    (hids : (updates.map (·.updateId)).Nodup) :
    (causedBy first updates).Perm (causedBy second updates) ↔
      ∀ update ∈ updates, first update = second update := by
  have hmem : ∀ call : Update → Option Call, ∀ update ∈ updates, ∀ c,
      (update.updateId, c) ∈ causedBy call updates ↔ call update = some c := by
    intro call update hupdate c
    unfold causedBy
    rw [List.mem_filterMap]
    constructor
    · rintro ⟨other, hother, hcause⟩
      obtain ⟨c', hc', hpair⟩ := Option.map_eq_some_iff.mp hcause
      obtain ⟨hid, rfl⟩ := Prod.mk.inj hpair
      -- Distinct ids: it is the update itself.
      obtain rfl := List.inj_on_of_nodup_map hids hother hupdate hid
      exact hc'
    · intro hcall
      exact ⟨update, hupdate, by rw [hcall]; rfl⟩
  constructor
  · intro hperm update hupdate
    apply Option.ext
    intro c
    rw [← hmem first update hupdate, ← hmem second update hupdate]
    exact hperm.mem_iff
  · intro hsame
    have heq : causedBy first updates = causedBy second updates :=
      List.filterMap_congr fun update hupdate => by rw [hsame update hupdate]
    rw [heq]

/-! ## Runs of the webhook -/

/-- The update that an event hands to the webhook. -/
def HookEvent.updates (cfg : WebhookConfig) : HookEvent → List Update
  | .post token update => if rejectsToken cfg token then [] else [update]
  | .runTask _ => []

theorem Accounts.runTask {call : Update → Option Call} {updates : List Update}
    {i : Nat} {tasks : TaskPool BackgroundTask Caused} (h : Accounts cfg call s updates)
    (hrun : s.tasks.runTask (BackgroundTask.effect cfg) i = some tasks) :
    Accounts cfg call { s with tasks := tasks } updates :=
  ⟨h.seenOnly, (TaskPool.account_runTask hrun).trans h.calls⟩

theorem handleUpdate_accounts {token : Option String} {update : Update}
    {updates : List Update} (hids : ((updates ++ [update]).map (·.updateId)).Nodup)
    (htoken : rejectsToken cfg token = false) (h : Accounts cfg (hookCall cfg) s updates) :
    Accounts cfg (hookCall cfg) (handleUpdate cfg token update s).1 (updates ++ [update]) := by
  have hmore : s.SeenOnly (updates ++ [update]) := h.seenOnly.append update
  unfold handleUpdate
  rw [if_neg (by rw [htoken]; decide)]
  cases hquery : update.fields.lookup "callback_query" with
  | none =>
      have hcall : causedBy (hookCall cfg) [update] = causedBy (messageCall cfg) [update] := by
        rw [causedBy_singleton, causedBy_singleton]
        unfold hookCall
        rw [hquery]
      refine ⟨processUpdate_seenOnly h.seenOnly, ?_⟩
      show (Webhook.account cfg _).Perm _
      rw [processUpdate_account (not_seen h.seenOnly hids), causedBy_append, hcall]
      exact h.calls.append_right _
  | some query =>
      have hcall : hookCall cfg update = buttonCall cfg query := by
        unfold hookCall
        rw [hquery]
      have hcaused : causedBy (hookCall cfg) (updates ++ [update]) = causedBy (hookCall cfg) updates ++
          ((buttonCall cfg query).map fun c => (update.updateId, c)).toList := by
        rw [causedBy_append, causedBy_singleton, hcall]
      dsimp only
      cases hbutton : buttonCall cfg query with
      | none =>
          rw [hbutton, Option.map_none, Option.toList_none, List.append_nil] at hcaused
          exact ⟨hmore, hcaused ▸ h.calls⟩
      | some call =>
          rw [hbutton, Option.map_some, Option.toList_some] at hcaused
          exact ⟨hmore, hcaused ▸
            (TaskPool.account_record s.tasks _).trans (h.calls.append_right _)⟩

/-- **What a run of the webhook calls.**  The calls that were made or are pending are those
of the updates that were posted, whichever tasks have run. -/
theorem hookRun_accounts {events : List HookEvent}
    (hrun : Runs.exec (hookStep cfg) Webhook.new events = some s)
    (hids : ((events.flatMap (HookEvent.updates cfg)).map (·.updateId)).Nodup) :
    Accounts cfg (hookCall cfg) s (events.flatMap (HookEvent.updates cfg)) := by
  let I : Webhook → List Update → Prop := fun s updates =>
    (updates.map (·.updateId)).Nodup → Accounts cfg (hookCall cfg) s updates
  have hnew : I Webhook.new [] := fun _ =>
    ⟨fun _ h => absurd h List.not_mem_nil, List.Perm.refl []⟩
  refine Runs.history_of_step I (HookEvent.updates cfg) ?_ hnew hrun hids
  · intro s event t before h hstep hids
    have hbefore : Accounts cfg (hookCall cfg) s before := by
      rw [List.map_append] at hids
      exact h (List.nodup_append.mp hids).1
    cases event with
    | post token update =>
        cases hstep
        by_cases htoken : rejectsToken cfg token = true
        · show Accounts cfg _ (handleUpdate cfg token update s).1 _
          have hnone : HookEvent.updates cfg (.post token update) = [] := if_pos htoken
          unfold handleUpdate
          rw [hnone, if_pos htoken, List.append_nil]
          exact hbefore
        · have hone : HookEvent.updates cfg (.post token update) = [update] := if_neg htoken
          rw [hone] at hids ⊢
          exact handleUpdate_accounts hids (eq_false_of_ne_true htoken) hbefore
    | runTask i =>
        obtain ⟨tasks, htasks, rfl⟩ := Option.map_eq_some_iff.mp hstep
        rw [show HookEvent.updates cfg (.runTask i) = [] from rfl, List.append_nil]
        exact hbefore.runTask htasks

/-- Some updates can be posted, and every task run to its end. -/
theorem exists_hookRun (cfg : WebhookConfig) (updates : List Update) :
    ∃ events s, Runs.exec (hookStep cfg) Webhook.new events = some s ∧
      events.flatMap (HookEvent.updates cfg) = updates ∧ s.tasks.pending = [] := by
  have hsecret : rejectsToken cfg cfg.secretToken = false := by
    unfold rejectsToken
    split
    · rfl
    · rename_i secret hsecret
      simp [hsecret]
  have htotal : ∀ event ∈ updates.map (HookEvent.post cfg.secretToken), ∀ s,
      ∃ t, hookStep cfg s event = some t := by
    intro event hevent s
    obtain ⟨update, -, rfl⟩ := List.mem_map.mp hevent
    exact ⟨_, rfl⟩
  obtain ⟨posted, hposted⟩ := Runs.exists_exec htotal Webhook.new
  obtain ⟨drained, hdrain, hpending⟩ :=
    TaskPool.exists_drained (BackgroundTask.effect cfg) posted.tasks
  let put : TaskPool BackgroundTask Caused → Webhook := fun tasks => { posted with tasks := tasks }
  have hstep : ∀ tasks i, hookStep cfg (put tasks) (.runTask i) =
      (tasks.runTask (BackgroundTask.effect cfg) i).map put := fun _ _ => rfl
  have hlift := Runs.exec_lift put HookEvent.runTask hstep posted.tasks
    (List.replicate posted.tasks.pending.length 0)
  refine ⟨updates.map (HookEvent.post cfg.secretToken) ++
    (List.replicate posted.tasks.pending.length 0).map HookEvent.runTask,
    { posted with tasks := drained }, ?_, ?_, hpending⟩
  · rw [Runs.exec_append, hposted]
    exact hlift.trans (by rw [hdrain]; rfl)
  · have hone : ∀ update, HookEvent.updates cfg (.post cfg.secretToken update) = [update] := by
      intro update
      exact if_neg (by rw [hsecret]; decide)
    have hnone : (List.replicate posted.tasks.pending.length 0).flatMap
        (fun i => HookEvent.updates cfg (.runTask i)) = [] :=
      List.flatMap_eq_nil_iff.mpr fun _ _ => rfl
    rw [List.flatMap_append, List.flatMap_map, List.flatMap_map, hnone, List.append_nil]
    simp only [hone]
    exact List.flatMap_singleton' updates

end Effects

end SkyClaw.Comms
