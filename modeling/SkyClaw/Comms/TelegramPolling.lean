import SkyClaw.Comms.Telegram

/-!
# Telegram long polling

`TelegramPolling` fetches updates and hands them to `process_update` of the webhook, after
it has dropped those of other chats.  `transportsAgree_iff` compares what it makes the
webhook call with what the same updates call when they are posted.
-/

namespace SkyClaw.Comms

open Json (PyError)

/-! ## The loop -/

structure PollingConfig where
  webhook : WebhookConfig
  authorizedChatId : Option Json

structure Polling where
  handler : Webhook
  lastUpdateId : Int
  dlq : List Update

def Polling.new : Polling := ⟨.new, 0, []⟩

section Loop

variable (cfg : PollingConfig)

/-- The message that tells which chat an update is from. -/
def chatMessage (data : Json) : Except PyError Json := do
  let message ← data.get "message" .null
  if message.truthy then pure message
  else
    let edited ← data.get "edited_message" .null
    if edited.truthy then pure edited
    else
      let query ← data.get "callback_query" (.obj [])
      query.get "message" .null

/-- The drop-early middleware: the update is from another chat. -/
def dropsEarly (data : Json) : Except PyError Bool :=
  match cfg.authorizedChatId with
  | none => .ok false
  | some authorized => do
      let message ← chatMessage data
      if message.truthy then
        let chat ← message.get "chat" (.obj [])
        let chatId ← chat.get "id" .null
        -- An update that names no chat goes on.
        pure (!chatId.isNone && cfg.webhook.str chatId != cfg.webhook.str authorized)
      else pure false

def processRawUpdate (update : Update) (p : Polling) : Polling × Except PyError Unit :=
  match dropsEarly cfg update.data with
  | .error error => (p, .error error)
  | .ok true => (p, .ok ())
  | .ok false =>
      let (handler, result) := processUpdate cfg.webhook update p.handler
      ({ p with handler := handler }, result)

/-- The body of the loop over the results: an update that raises goes to the dead letter
queue. -/
def pollUpdate (p : Polling) (update : Update) : Polling :=
  let (p, result) := processRawUpdate cfg update p
  let p := match result with
    | .ok () => p
    | .error _ => { p with dlq := p.dlq ++ [update] }
  match update.updateId with
  | none => p
  -- `if update_id:` does not move the offset for 0.
  | some updateId => if updateId = 0 then p else { p with lastUpdateId := updateId }

/-- `_poll_once`; no results if the request fails or is not ok. -/
def pollOnce (results : Option (List Update)) (p : Polling) : Polling :=
  match results with
  | none => p
  | some updates => updates.foldl (pollUpdate cfg) p

/-- A request of the loop is answered, or a background task runs. -/
inductive PollEvent
  | poll (results : Option (List Update))
  | runTask (i : Nat)

def pollStep (p : Polling) : PollEvent → Option Polling
  | .poll results => some (pollOnce cfg results p)
  | .runTask i => (p.handler.tasks.runTask (BackgroundTask.effect cfg.webhook) i).map fun tasks =>
      { p with handler := { p.handler with tasks := tasks } }

def PollEvent.updates : PollEvent → List Update
  | .poll results => results.getD []
  | .runTask _ => []

end Loop

/-- The id of the chat of a message. -/
def chatOf (message : Json) : Option Json :=
  match message with
  | .obj fields =>
      match fields.lookup "chat" with
      | some (.obj chat) => chat.lookup "id"
      | _ => none
  | _ => none

/-- The messages an update may carry. -/
def Update.messages (update : Update) : List Json :=
  (update.fields.lookup "message").toList ++ (update.fields.lookup "edited_message").toList ++
    match update.fields.lookup "callback_query" with
    | some (.obj query) => (query.lookup "message").toList
    | _ => []

/-- The update is from the authorised chat, as far as it names one. -/
def FromAuthorizedChat (cfg : PollingConfig) (update : Update) : Prop :=
  ∀ authorized, cfg.authorizedChatId = some authorized → ∀ message ∈ update.messages,
    ∀ chatId, chatOf message = some chatId →
      chatId.isNone = true ∨ cfg.webhook.str chatId = cfg.webhook.str authorized

/-- Whichever way the updates are batched and the background tasks are scheduled, when
every task has run both transports have made the same calls. -/
def TransportsAgree (cfg : PollingConfig) (updates : List Update) : Prop :=
  ∀ polls p posts w,
    Runs.exec (pollStep cfg) Polling.new polls = some p →
    Runs.exec (hookStep cfg.webhook) Webhook.new posts = some w →
    polls.flatMap PollEvent.updates = updates →
    posts.flatMap (HookEvent.updates cfg.webhook) = updates →
    p.handler.tasks.pending = [] → w.tasks.pending = [] →
      p.handler.tasks.effects.Perm w.tasks.effects

/-- What a callback query asks for, the message of the same update asks for as well: as a
rule neither asks for anything. -/
def ButtonsRedundant (cfg : WebhookConfig) (updates : List Update) : Prop :=
  ∀ update ∈ updates, ∀ query, update.fields.lookup "callback_query" = some query →
    ∀ call, Says cfg update call ↔ ∃ action requestId,
      call = .respond requestId (decide (action = "approve")) ∧
        Presses cfg query action requestId

/-! ## What a polled update causes -/

section Agreement

variable {cfg : PollingConfig}

def pollCall (cfg : PollingConfig) (update : Update) : Option Call :=
  match dropsEarly cfg update.data with
  | .ok false => messageCall cfg.webhook update
  | _ => none

/-- A chat id that the middleware reads is the chat of the message. -/
theorem chatOf_eq {message chat chatId : Json}
    (hchat : message.get "chat" (.obj []) = .ok chat) (hid : chat.get "id" .null = .ok chatId)
    (hknown : chatId.isNone = false) : chatOf message = some chatId := by
  obtain ⟨fields, rfl, rfl⟩ := Json.get_eq_ok_iff.mp hchat
  obtain ⟨chatFields, hfields, rfl⟩ := Json.get_eq_ok_iff.mp hid
  unfold chatOf
  cases hlookup : fields.lookup "chat" with
  | none =>
      rw [hlookup, Option.getD_none] at hfields
      cases hfields
      cases hknown
  | some chat =>
      rw [hlookup, Option.getD_some] at hfields
      subst hfields
      cases hlookupId : chatFields.lookup "id" with
      | none =>
          rw [hlookupId] at hknown
          cases hknown
      | some id =>
          dsimp only
          rw [hlookup]
          dsimp only
          rw [hlookupId]
          rfl

theorem lookup_of_truthy {fields : List (String × Json)} {key : String} {fallback : Json}
    (hfallback : fallback.truthy = false)
    (htruthy : ((fields.lookup key).getD fallback).truthy = true) :
    fields.lookup key = some ((fields.lookup key).getD fallback) := by
  cases hlookup : fields.lookup key with
  | none =>
      rw [hlookup, Option.getD_none, hfallback] at htruthy
      cases htruthy
  | some value => rfl

/-- The middleware reads one of the messages of the update. -/
theorem chatMessage_mem {update : Update} {message : Json}
    (h : chatMessage update.data = .ok message) (htruthy : message.truthy = true) :
    message ∈ update.messages := by
  unfold chatMessage at h
  obtain ⟨first, hfirst, h⟩ := Json.bind_ok h
  obtain ⟨fields, hfields, rfl⟩ := Json.get_eq_ok_iff.mp hfirst
  cases hfields
  unfold Update.messages
  split at h
  · cases h
    rw [List.append_assoc, lookup_of_truthy rfl htruthy]
    exact List.mem_append_left _ (List.mem_singleton.mpr rfl)
  · obtain ⟨edited, hedited, h⟩ := Json.bind_ok h
    obtain ⟨fields', hfields', rfl⟩ := Json.get_eq_ok_iff.mp hedited
    cases hfields'
    split at h
    · cases h
      rw [List.append_assoc, lookup_of_truthy rfl htruthy]
      exact List.mem_append_right _ (List.mem_append_left _ (List.mem_singleton.mpr rfl))
    · obtain ⟨query, hquery, h⟩ := Json.bind_ok h
      obtain ⟨fields'', hfields'', rfl⟩ := Json.get_eq_ok_iff.mp hquery
      cases hfields''
      obtain ⟨queryFields, hqueryFields, rfl⟩ := Json.get_eq_ok_iff.mp h
      apply List.mem_append_right
      cases hlookup : update.fields.lookup "callback_query" with
      | none =>
          rw [hlookup, Option.getD_none] at hqueryFields
          cases hqueryFields
          cases htruthy
      | some query =>
          rw [hlookup, Option.getD_some] at hqueryFields
          rw [hqueryFields]
          dsimp only
          rw [lookup_of_truthy rfl htruthy]
          exact List.mem_singleton.mpr rfl

/-- The middleware lets the authorised chat pass. -/
theorem dropsEarly_ne_true {update : Update} (hfrom : FromAuthorizedChat cfg update) :
    dropsEarly cfg update.data ≠ .ok true := by
  intro h
  unfold dropsEarly at h
  split at h
  · cases h
  · rename_i authorized hauthorized
    obtain ⟨message, hmessage, h⟩ := Json.bind_ok h
    split at h
    · rename_i htruthy
      obtain ⟨chat, hchat, h⟩ := Json.bind_ok h
      obtain ⟨chatId, hid, h⟩ := Json.bind_ok h
      have hother := Except.ok.inj h
      rw [Bool.and_eq_true, Bool.not_eq_true', bne_iff_ne] at hother
      obtain ⟨hknown, hother⟩ := hother
      have hsame := hfrom authorized hauthorized message (chatMessage_mem hmessage htruthy) chatId
        (chatOf_eq hchat hid hknown)
      rcases hsame with hnone | hsame
      · rw [hknown] at hnone
        cases hnone
      · exact hother hsame
    · cases h

/-- The middleware does not raise over a text message. -/
theorem dropsEarly_of_textMessage {update : Update} {message chatId : Json} {text : String}
    (h : TextMessage update message chatId text) : ∃ drops, dropsEarly cfg update.data = .ok drops := by
  obtain ⟨chat, hchat, hid⟩ := h.isChat
  have htruthy : message.truthy = true := by
    by_contra hfalsy
    have hempty := Json.get_of_not_truthy (eq_false_of_ne_true hfalsy) h.isText
    exact h.nonempty (Json.str.inj hempty)
  have hread : update.data.get "message" .null = .ok message := by
    obtain ⟨fields, hfields, rfl⟩ := Json.get_eq_ok_iff.mp h.isMessage
    refine Json.get_eq_ok_iff.mpr ⟨fields, hfields, ?_⟩
    rw [lookup_of_truthy rfl htruthy]
    rfl
  have hchatMessage : chatMessage update.data = .ok message := by
    unfold chatMessage
    simp only [bind, Except.bind, hread, htruthy, if_true]
    rfl
  unfold dropsEarly
  split
  · exact ⟨false, rfl⟩
  · simp only [bind, Except.bind, hchatMessage, htruthy, if_true, hchat, hid]
    exact ⟨_, rfl⟩

theorem messageCall_of_dropsEarly_error {update : Update} {error : PyError}
    (h : dropsEarly cfg update.data = .error error) : messageCall cfg.webhook update = none := by
  cases hcall : messageCall cfg.webhook update with
  | none => rfl
  | some call =>
      have hid : update.updateId ≠ none := by
        intro hnone
        unfold messageCall at hcall
        rw [hnone] at hcall
        cases hcall
      have htext : ∃ message chatId text, TextMessage update message chatId text := by
        cases (messageCall_iff hid).mp hcall with
        | command hmessage | chat hmessage => exact ⟨_, _, _, hmessage⟩
      obtain ⟨message, chatId, text, hmessage⟩ := htext
      obtain ⟨drops, hdrops⟩ := @dropsEarly_of_textMessage cfg _ _ _ _ hmessage
      rw [h] at hdrops
      cases hdrops

theorem pollCall_eq {update : Update} (hfrom : FromAuthorizedChat cfg update) :
    pollCall cfg update = messageCall cfg.webhook update := by
  unfold pollCall
  cases hdrops : dropsEarly cfg update.data with
  | error error => exact (messageCall_of_dropsEarly_error hdrops).symm
  | ok drops =>
      cases drops with
      | false => rfl
      | true => exact absurd hdrops (dropsEarly_ne_true hfrom)

/-! ## What a run of the polling calls -/

variable {p : Polling}

theorem pollUpdate_accounts {update : Update} {updates : List Update}
    (hids : ((updates ++ [update]).map (·.updateId)).Nodup)
    (h : Accounts cfg.webhook (pollCall cfg) p.handler updates) :
    Accounts cfg.webhook (pollCall cfg) (pollUpdate cfg p update).handler
      (updates ++ [update]) := by
  have hhandler : (pollUpdate cfg p update).handler = (processRawUpdate cfg update p).1.handler := by
    unfold pollUpdate
    cases hraw : processRawUpdate cfg update p with
    | mk next result =>
        cases result <;> cases update.updateId <;> dsimp only
        all_goals split <;> rfl
  rw [hhandler]
  have hmore : p.handler.SeenOnly (updates ++ [update]) := h.seenOnly.append update
  have hnothing : pollCall cfg update = none →
      Accounts cfg.webhook (pollCall cfg) p.handler (updates ++ [update]) := by
    intro hcall
    refine ⟨hmore, ?_⟩
    rw [causedBy_append, causedBy_singleton, hcall, Option.map_none, Option.toList_none,
      List.append_nil]
    exact h.calls
  unfold processRawUpdate
  cases hdrops : dropsEarly cfg update.data with
  | error error => exact hnothing (by unfold pollCall; rw [hdrops])
  | ok drops =>
      cases drops with
      | true => exact hnothing (by unfold pollCall; rw [hdrops])
      | false =>
          have hcall : causedBy (pollCall cfg) [update] =
              causedBy (messageCall cfg.webhook) [update] := by
            rw [causedBy_singleton, causedBy_singleton]
            unfold pollCall
            rw [hdrops]
          refine ⟨processUpdate_seenOnly h.seenOnly, ?_⟩
          show (Webhook.account cfg.webhook (processUpdate cfg.webhook update p.handler).1).Perm _
          rw [processUpdate_account (not_seen h.seenOnly hids), causedBy_append, hcall]
          exact h.calls.append_right _

theorem pollUpdates_accounts {results before : List Update}
    (hids : ((before ++ results).map (·.updateId)).Nodup)
    (h : Accounts cfg.webhook (pollCall cfg) p.handler before) :
    Accounts cfg.webhook (pollCall cfg) (results.foldl (pollUpdate cfg) p).handler
      (before ++ results) := by
  induction results generalizing p before with
  | nil =>
      rw [List.append_nil]
      exact h
  | cons update rest ih =>
      have hsplit : before ++ update :: rest = (before ++ [update]) ++ rest := by
        rw [List.append_assoc, List.singleton_append]
      rw [hsplit] at hids ⊢
      have hfirst : ((before ++ [update]).map (·.updateId)).Nodup := by
        rw [List.map_append] at hids
        exact (List.nodup_append.mp hids).1
      exact ih hids (pollUpdate_accounts hfirst h)

/-- **What a run of the polling calls.**  The calls that were made or are pending are those
of the updates that were received. -/
theorem pollRun_accounts {events : List PollEvent}
    (hrun : Runs.exec (pollStep cfg) Polling.new events = some p)
    (hids : ((events.flatMap PollEvent.updates).map (·.updateId)).Nodup) :
    Accounts cfg.webhook (pollCall cfg) p.handler (events.flatMap PollEvent.updates) := by
  let I : Polling → List Update → Prop := fun p updates =>
    (updates.map (·.updateId)).Nodup → Accounts cfg.webhook (pollCall cfg) p.handler updates
  have hnew : I Polling.new [] := fun _ =>
    ⟨fun _ h => absurd h List.not_mem_nil, List.Perm.refl []⟩
  refine Runs.history_of_step I PollEvent.updates ?_ hnew hrun hids
  · intro p event t before h hstep hids
    have hbefore : Accounts cfg.webhook (pollCall cfg) p.handler before := by
      rw [List.map_append] at hids
      exact h (List.nodup_append.mp hids).1
    cases event with
    | poll results =>
        cases hstep
        cases results with
        | none =>
            rw [show PollEvent.updates (.poll none) = [] from rfl, List.append_nil]
            exact hbefore
        | some updates => exact pollUpdates_accounts hids hbefore
    | runTask i =>
        obtain ⟨tasks, htasks, rfl⟩ := Option.map_eq_some_iff.mp hstep
        rw [show PollEvent.updates (.runTask i) = [] from rfl, List.append_nil]
        exact hbefore.runTask htasks

/-- Some updates can be received, and every task run to its end. -/
theorem exists_pollRun (cfg : PollingConfig) (updates : List Update) :
    ∃ events p, Runs.exec (pollStep cfg) Polling.new events = some p ∧
      events.flatMap PollEvent.updates = updates ∧ p.handler.tasks.pending = [] := by
  let polled := pollOnce cfg (some updates) Polling.new
  obtain ⟨drained, hdrain, hpending⟩ :=
    TaskPool.exists_drained (BackgroundTask.effect cfg.webhook) polled.handler.tasks
  let put : TaskPool BackgroundTask Caused → Polling := fun tasks =>
    { polled with handler := { polled.handler with tasks := tasks } }
  have hstep : ∀ tasks i, pollStep cfg (put tasks) (.runTask i) =
      (tasks.runTask (BackgroundTask.effect cfg.webhook) i).map put := fun _ _ => rfl
  have hlift := Runs.exec_lift put PollEvent.runTask hstep polled.handler.tasks
    (List.replicate polled.handler.tasks.pending.length 0)
  refine ⟨.poll (some updates) ::
    (List.replicate polled.handler.tasks.pending.length 0).map PollEvent.runTask,
    { polled with handler := { polled.handler with tasks := drained } }, ?_, ?_, hpending⟩
  · exact hlift.trans (by rw [hdrain]; rfl)
  · have hnone : (List.replicate polled.handler.tasks.pending.length 0).flatMap
        (fun i => PollEvent.updates (.runTask i)) = [] :=
      List.flatMap_eq_nil_iff.mpr fun _ _ => rfl
    rw [List.flatMap_cons, List.flatMap_map, hnone, List.append_nil]
    rfl

/-! ## When the transports agree -/

/-- Whatever is batched and scheduled, they agree exactly when each update calls the same. -/
theorem transportsAgree_iff_calls {updates : List Update}
    (hids : (updates.map (·.updateId)).Nodup) :
    TransportsAgree cfg updates ↔
      ∀ update ∈ updates, pollCall cfg update = hookCall cfg.webhook update := by
  rw [← causedBy_perm_iff hids]
  constructor
  · intro h
    obtain ⟨polls, p, hpolls, hpolled, hp⟩ := exists_pollRun cfg updates
    obtain ⟨posts, w, hposts, hposted, hw⟩ := exists_hookRun cfg.webhook updates
    have hpollCalls := (pollRun_accounts hpolls (hpolled ▸ hids)).calls
    have hhookCalls := (hookRun_accounts hposts (hposted ▸ hids)).calls
    unfold Webhook.account at hpollCalls hhookCalls
    rw [TaskPool.account_of_drained hp, hpolled] at hpollCalls
    rw [TaskPool.account_of_drained hw, hposted] at hhookCalls
    exact (hpollCalls.symm.trans (h polls p posts w hpolls hposts hpolled hposted hp hw)).trans
      hhookCalls
  · intro h polls p posts w hpolls hposts hpolled hposted hp hw
    have hpollCalls := (pollRun_accounts hpolls (hpolled ▸ hids)).calls
    have hhookCalls := (hookRun_accounts hposts (hposted ▸ hids)).calls
    unfold Webhook.account at hpollCalls hhookCalls
    rw [TaskPool.account_of_drained hp, hpolled] at hpollCalls
    rw [TaskPool.account_of_drained hw, hposted] at hhookCalls
    exact (hpollCalls.trans h).trans hhookCalls.symm

/-- **Polling and webhook agree, exactly.**  For updates of distinct ids from the authorised
chat, however they are batched and the tasks are scheduled, both transports make the same
calls exactly when every button is redundant. -/
theorem transportsAgree_iff (cfg : PollingConfig) (updates : List Update)
    (hids : (updates.map (·.updateId)).Nodup) (hknown : none ∉ updates.map (·.updateId))
    (hfrom : ∀ update ∈ updates, FromAuthorizedChat cfg update) :
    TransportsAgree cfg updates ↔ ButtonsRedundant cfg.webhook updates := by
  rw [transportsAgree_iff_calls hids]
  have hupdate : ∀ update ∈ updates, pollCall cfg update = hookCall cfg.webhook update ↔
      ∀ query, update.fields.lookup "callback_query" = some query →
        ∀ call, Says cfg.webhook update call ↔ ∃ action requestId,
          call = .respond requestId (decide (action = "approve")) ∧
            Presses cfg.webhook query action requestId := by
    intro update hmem
    have hid : update.updateId ≠ none := fun hnone =>
      hknown (List.mem_map.mpr ⟨update, hmem, hnone⟩)
    rw [pollCall_eq (hfrom update hmem)]
    unfold hookCall
    cases hquery : update.fields.lookup "callback_query" with
    | none =>
        constructor
        · intro _ query hsome
          cases hsome
        · intro _
          rfl
    | some query =>
        constructor
        · intro hsame query' hsome call
          cases hsome
          rw [← messageCall_iff hid, ← buttonCall_iff, hsame]
        · intro h
          apply Option.ext
          intro call
          rw [messageCall_iff hid, h query rfl call, ← buttonCall_iff]
  exact forall₂_congr hupdate

end Agreement

/-- Polling for chat 7, with a guard that listens to user 5. -/
def operatorConfig : PollingConfig where
  webhook :=
    { hitl := true, router := true, allowedUserId := some 5, secretToken := some "secret",
      str := fun _ => "7" }
  authorizedChatId := some (.int 7)

/-- The chat and the sender of what the operator does. -/
def operatorMessage (text : String) : List (String × Json) :=
  [("message_id", .int 3), ("text", .str text), ("chat", .obj [("id", .int 7)]),
    ("from", .obj [("id", .int 5)])]

/-- The operator approves `r` by a command. -/
def commandUpdate : Update := ⟨some 1, [("message", .obj (operatorMessage "/approve r"))]⟩

/-- The operator approves `r` by the button under the request. -/
def buttonUpdate : Update :=
  ⟨some 1, [("callback_query", .obj [("data", .str "hitl:approve:r"),
    ("from", .obj [("id", .int 5)]), ("message", .obj (operatorMessage "Approval required"))])]⟩

theorem transportsAgree_command : TransportsAgree operatorConfig [commandUpdate] := by
  refine (transportsAgree_iff operatorConfig [commandUpdate] (by decide) (by decide) ?_).mpr ?_
  · intro update hupdate authorized hauthorized message _ chatId _
    exact Or.inr rfl
  · intro update hupdate query hquery
    obtain rfl := List.mem_singleton.mp hupdate
    cases hquery

/-- **The transports do not agree.**  The button approves the request if it is posted, and
does nothing if it is polled. -/
theorem transportsAgree_counterexample :
    FromAuthorizedChat operatorConfig buttonUpdate ∧
      ¬TransportsAgree operatorConfig [buttonUpdate] := by
  refine ⟨fun _ _ _ _ _ _ => Or.inr rfl, ?_⟩
  rw [transportsAgree_iff_calls (by decide)]
  intro h
  have hpolled : pollCall operatorConfig buttonUpdate = none := rfl
  have hposted : hookCall operatorConfig.webhook buttonUpdate = some (.respond "r" true) := rfl
  have hsame := h buttonUpdate List.mem_cons_self
  rw [hpolled, hposted] at hsame
  cases hsame

end SkyClaw.Comms
