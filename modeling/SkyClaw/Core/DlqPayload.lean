import SkyClaw.Core.DlqColumns
import SkyClaw.Lib.PyValue

/-!
# The payload of a dead-lettered event

A row keeps the payload as JSON, with its keys sorted and `str()` for what JSON does not have;
`_row_from_sqlite` reads it back for the handler.  `retriedEvent_equal_iff` follows each event from
`enqueue` to the handler of its retries: topic, source and timestamp arrive as they were, and the
payload arrives equal exactly if it consists of values that JSON has.
-/

namespace SkyClaw.Core.Dlq

open Function

/-! ## Payloads and their documents -/

/-- The payload of an event: a dict, whose keys differ at every depth. -/
structure PyPayload where
  entries : List (PyValue × PyValue)
  valid : PyValue.Valid (.dict entries)

def PyPayload.value (payload : PyPayload) : PyValue := .dict payload.entries

/-- `json.dumps(event.payload, sort_keys=True, default=str)`, with the rest of the event. -/
def dumpEvent (F : JsonText.PyFloatText) (event : Event PyPayload) : Option (Event JsonTree) :=
  (PyValue.encode F event.payload.value).map fun document =>
    { topic := event.topic, payload := document, timestampMs := event.timestampMs,
      source := event.source }

/-- The event for the handler, from the columns of its row. -/
def loadEvent (event : Event JsonTree) : Event PyValue :=
  { topic := event.topic, payload := PyValue.decode event.payload,
    timestampMs := event.timestampMs, source := event.source }

/-- The handler is given the event that failed, with a payload equal to its. -/
def SameEvent (event : Event PyPayload) (handed : Event PyValue) : Prop :=
  handed.topic = event.topic ∧ handed.source = event.source ∧
    handed.timestampMs = event.timestampMs ∧
      event.payload.value.pyEq handed.payload = true

variable {F : JsonText.PyFloatText}

variable {dumped : Event JsonTree}

/-- **One event there and back.** -/
theorem sameEvent_loadEvent_iff {event : Event PyPayload}
    (h : dumpEvent F event = some dumped) :
    SameEvent event (loadEvent dumped) ↔ event.payload.value.IsJson := by
  obtain ⟨document, hdocument, rfl⟩ := Option.map_eq_some_iff.mp h
  have hpayload : event.payload.value.pyEq (PyValue.decode document) = true ↔
      event.payload.value.IsJson := PyValue.pyEq_decode_iff event.payload.valid hdocument
  constructor
  · exact fun hsame => hpayload.mp hsame.2.2.2
  · exact fun hjson => ⟨rfl, rfl, rfl, hpayload.mpr hjson⟩

/-! ## The queue with payloads as publishers make them -/

/-- The queue, the event whose failure made each row, and the events whose `enqueue` raised. -/
structure PayloadQueue where
  queue : State JsonTree
  origin : Nat → Option (Event PyPayload)
  raised : List (Event PyPayload)

def PayloadQueue.initial (now : Int) : PayloadQueue :=
  { queue := State.initial now AutoTable.empty, origin := fun _ => none, raised := [] }

inductive PayloadAction
  | tick (now : Int)
  | enqueue (w : Nat) (readAt : Int) (event : Event PyPayload)
      (handlerName errorType errorMessage : String) (ended : StatementEnd)
  | worker (w : Nat) (event : WorkerEvent)

/-- The rows' events after an insert that ended so. -/
def PayloadQueue.originAfter (s : PayloadQueue) (event : Event PyPayload) :
    StatementEnd → Nat → Option (Event PyPayload)
  | .lost => s.origin
  | .returned | .raisedAfterCommit => update s.origin s.queue.table.next (some event)

def payloadStep (F : JsonText.PyFloatText) (maxAttempts : Int) (settings : Nat → DLQSettings)
    (s : PayloadQueue) : PayloadAction → Option PayloadQueue
  | .tick now =>
      (step maxAttempts settings s.queue (.tick now)).map fun queue => { s with queue := queue }
  | .worker w event =>
      (step maxAttempts settings s.queue (.worker w event)).map fun queue =>
        { s with queue := queue }
  | .enqueue w readAt event handlerName errorType errorMessage ended =>
      match dumpEvent F event with
      -- `json.dumps` raises before anything is written.
      | none => some { s with raised := event :: s.raised }
      | some dumped =>
          (step maxAttempts settings s.queue
              (.enqueue w readAt dumped handlerName errorType errorMessage ended)).map fun queue =>
            { queue := queue
              origin := s.originAfter event ended
              raised := if ended.raised then event :: s.raised else s.raised }

/-- The row `id` was made for an event that is stored as `dumped`. -/
def PayloadQueue.MadeFrom (F : JsonText.PyFloatText) (s : PayloadQueue) (id : Nat)
    (dumped : Event JsonTree) : Prop :=
  ∃ event, s.origin id = some event ∧ dumpEvent F event = some dumped

/-- Rows, copies and calls carry what was enqueued under their number. -/
structure PayloadQueue.Traced (F : JsonText.PyFloatText) (s : PayloadQueue) : Prop where
  stored : ∀ id r, s.queue.table.row id = some r → s.MadeFrom F id r.event
  copied : ∀ w, ∀ row ∈ (s.queue.phase w).copies, s.MadeFrom F row.id row.event
  called : ∀ i ∈ s.queue.invocations, s.MadeFrom F i.id i.event
  unborn : ∀ id, s.queue.table.next ≤ id → s.origin id = none

theorem traced_initial (now : Int) : (PayloadQueue.initial now).Traced F where
  stored _ _ hr := nomatch hr
  copied _ _ hrow := nomatch hrow
  called _ hi := nomatch hi
  unborn _ _ := rfl

variable {maxAttempts : Int} {settings : Nat → DLQSettings} {s t : PayloadQueue}

/-- What a worker does keeps the trace. -/
theorem PayloadQueue.Traced.worker (h : s.Traced F) {w : Nat} {event : WorkerEvent}
    {moved : Moved JsonTree}
    (hmoved : workerStep maxAttempts (settings w) s.queue.now s.queue.table (s.queue.phase w)
      event = some moved) : ({ s with queue := s.queue.after w moved } : PayloadQueue).Traced F := by
  have hentries := workerStep_sameEntries hmoved
  constructor
  · intro id r hr
    obtain ⟨q, hq, hevent, -⟩ := hentries id r hr
    rw [hevent]
    exact h.stored id q hq
  · intro w' row hrow
    by_cases hw : w' = w
    · subst hw
      have hphase : (s.queue.after w' moved).phase w' = moved.phase := update_self _ _ _
      rw [hphase] at hrow
      rcases workerStep_copies hmoved row hrow with hold | hstored
      · exact h.copied w' row hold
      · exact h.stored row.id row.toDLQRecord hstored
    · have hphase : (s.queue.after w moved).phase w' = s.queue.phase w' :=
        update_of_ne hw _ _
      rw [hphase] at hrow
      exact h.copied w' row hrow
  · intro i hi
    rcases List.mem_append.mp hi with hnew | hold
    · obtain ⟨row, hrow, rfl⟩ := workerStep_invoked hmoved i hnew
      exact h.copied w row hrow
    · exact h.called i hold
  · intro id hid
    have hnext : moved.table.next = s.queue.table.next := workerStep_next hmoved
    exact h.unborn id (hnext ▸ hid)

/-- A new row carries the event it was made for, and the others are not touched. -/
theorem PayloadQueue.Traced.insert (h : s.Traced F) {event : Event PyPayload} (hdumped : dumpEvent F event = some dumped)
    {r : DLQRecord JsonTree} (hr : r.event = dumped) (raised : List (Event PyPayload)) :
    ({ queue := { s.queue with table := s.queue.table.insert r }
       origin := update s.origin s.queue.table.next (some event)
       raised := raised } : PayloadQueue).Traced F := by
  have hkept : ∀ {id dumped}, s.MadeFrom F id dumped →
      ∃ e, update s.origin s.queue.table.next (some event) id = some e ∧
        dumpEvent F e = some dumped := by
    rintro id dumped ⟨e, horigin, hdump⟩
    have hne : id ≠ s.queue.table.next := by
      rintro rfl
      rw [h.unborn _ (le_refl _)] at horigin
      cases horigin
    exact ⟨e, by rw [update_of_ne hne, horigin], hdump⟩
  constructor
  · intro id q hq
    rcases AutoTable.row_insert_eq_some hq with hold | ⟨rfl, rfl⟩
    · exact hkept (h.stored id q hold)
    · exact ⟨event, update_self _ _ _, hr ▸ hdumped⟩
  · exact fun w row hrow => hkept (h.copied w row hrow)
  · exact fun i hi => hkept (h.called i hi)
  · intro id hid
    have hlt : s.queue.table.next + 1 ≤ id := hid
    have hne : id ≠ s.queue.table.next := by omega
    exact (update_of_ne hne _ _).trans (h.unborn id (by omega))

/-- **Every step keeps the trace.** -/
theorem traced_step (act : PayloadAction) (h : s.Traced F)
    (hstep : payloadStep F maxAttempts settings s act = some t) : t.Traced F := by
  cases act with
  | tick now =>
      obtain ⟨queue, hqueue, rfl⟩ := Option.map_eq_some_iff.mp hstep
      simp only [step] at hqueue
      split_ifs at hqueue
      cases hqueue
      exact ⟨h.stored, h.copied, h.called, h.unborn⟩
  | worker w event =>
      obtain ⟨queue, hqueue, rfl⟩ := Option.map_eq_some_iff.mp hstep
      obtain ⟨moved, hmoved, rfl⟩ := Option.map_eq_some_iff.mp hqueue
      exact h.worker hmoved
  | enqueue w readAt event handlerName errorType errorMessage ended =>
      simp only [payloadStep] at hstep
      cases hdumped : dumpEvent F event with
      | none =>
          rw [hdumped] at hstep
          cases hstep
          exact ⟨h.stored, h.copied, h.called, h.unborn⟩
      | some dumped =>
          rw [hdumped] at hstep
          obtain ⟨queue, hqueue, rfl⟩ := Option.map_eq_some_iff.mp hstep
          simp only [step] at hqueue
          split_ifs at hqueue
          cases hqueue
          cases ended with
          | lost => exact ⟨h.stored, h.copied, h.called, h.unborn⟩
          | returned | raisedAfterCommit => exact h.insert hdumped rfl _

/-! ## What a retry hands out -/

/-- Every retry hands out the event whose failure made its row. -/
def RetriesSame (s : PayloadQueue) : Prop :=
  ∀ i ∈ s.queue.invocations, ∃ event, s.origin i.id = some event ∧
    SameEvent event (loadEvent i.event)

/-- The event of a payload with a tuple, as `SynthesisPipelineStartedPayload` has one. -/
def startedEvent : Event PyPayload where
  topic := "synthesis.pipeline.started"
  payload :=
    { entries := [(.str "patcher_ids", .tuple [.str "LeveledListsPatcher"]),
        (.str "target_esp", .str "Synthesis.esp"), (.str "snapshot_enabled", .bool true)]
      valid := by
        refine .dict (by decide) fun entry hentry => ?_
        simp only [List.mem_cons, List.not_mem_nil, or_false] at hentry
        rcases hentry with rfl | rfl | rfl
        · exact .tuple fun item hitem => List.mem_singleton.mp hitem ▸ .str _
        · exact .str _
        · exact .bool true }
  timestampMs := 0
  source := "synthesis-service"

/-- The tuple of patchers comes back as a list. -/
theorem retriesSame_tuple :
    ¬ ∀ (F : JsonText.PyFloatText) (maxAttempts : Int) (settings : Nat → DLQSettings) (now : Int)
      (acts : List PayloadAction),
      Runs.Throughout (payloadStep F maxAttempts settings) RetriesSame (.initial now) acts := by
  intro h
  have hrun := h JsonText.PyFloatText.integral 5 (fun _ => ⟨2, 50⟩) 0
    [.enqueue 0 0 startedEvent "handler" "ValueError" "boom" .returned, .tick 2000,
      .worker 0 .start, .worker 0 (.recover .returned), .worker 0 .poll, .worker 0 (.fetch false),
      .worker 0 .next, .worker 0 (.claim .returned), .worker 0 (.resolve .registered)]
  obtain ⟨event, horigin, -, -, -, hpayload⟩ := hrun.exec rfl ⟨1, "handler", _, 2000⟩
    List.mem_cons_self
  obtain rfl : startedEvent = event := Option.some.inj horigin
  revert hpayload
  decide

/-- The event arrives as it was, but for a payload that JSON does not have. -/
structure Retried (event : Event PyPayload) (handed : Event PyValue) : Prop where
  topic : handed.topic = event.topic
  source : handed.source = event.source
  timestamp : handed.timestampMs = event.timestampMs
  payload : event.payload.value.pyEq handed.payload = true ↔ event.payload.value.IsJson

theorem PayloadQueue.Traced.retried (h : s.Traced F) :
    ∀ i ∈ s.queue.invocations, ∃ event, s.origin i.id = some event ∧
      Retried event (loadEvent i.event) := by
  intro i hi
  obtain ⟨event, horigin, hdumped⟩ := h.called i hi
  refine ⟨event, horigin, ?_⟩
  have hsame := sameEvent_loadEvent_iff hdumped
  obtain ⟨document, -, hevent⟩ := Option.map_eq_some_iff.mp hdumped
  rw [← hevent] at hsame ⊢
  refine ⟨rfl, rfl, rfl, ?_⟩
  exact ⟨fun hequal => hsame.mp ⟨rfl, rfl, rfl, hequal⟩, fun hjson => (hsame.mpr hjson).2.2.2⟩

/-- An `enqueue` that raises nothing has stored the event; one whose payload cannot be written
raises and stores nothing. -/
def EnqueueShown (F : JsonText.PyFloatText) (s : PayloadQueue) (act : PayloadAction)
    (t : PayloadQueue) : Prop :=
  match act with
  | .enqueue _ _ event _ _ _ _ =>
      (t.raised = event :: s.raised ∧ (dumpEvent F event = none → t.queue = s.queue)) ∨
        (t.raised = s.raised ∧ t.origin s.queue.table.next = some event ∧
          ∃ r, t.queue.table.row s.queue.table.next = some r ∧ dumpEvent F event = some r.event)
  | .tick _ | .worker _ _ => True

theorem enqueueShown (act : PayloadAction)
    (hstep : payloadStep F maxAttempts settings s act = some t) : EnqueueShown F s act t := by
  cases act with
  | tick | worker => trivial
  | enqueue w readAt event handlerName errorType errorMessage ended =>
      simp only [payloadStep] at hstep
      cases hdumped : dumpEvent F event with
      | none =>
          rw [hdumped] at hstep
          cases hstep
          exact .inl ⟨rfl, fun _ => rfl⟩
      | some dumped =>
          rw [hdumped] at hstep
          obtain ⟨queue, hqueue, rfl⟩ := Option.map_eq_some_iff.mp hstep
          simp only [step] at hqueue
          split_ifs at hqueue
          cases hqueue
          cases ended with
          | lost => exact .inl ⟨rfl, fun hnone => by rw [hdumped] at hnone; cases hnone⟩
          | returned =>
              exact .inr ⟨rfl, update_self _ _ _, _, AutoTable.row_insert_self _ _,
                hdumped⟩
          | raisedAfterCommit =>
              exact .inl ⟨rfl, fun hnone => by rw [hdumped] at hnone; cases hnone⟩

/-- **The payload round trip.**  In every run a retry hands out the event whose failure made its
row, with an equal payload exactly if that consists of values JSON has; and an `enqueue` raises or
has stored the event. -/
theorem retriedEvent_equal_iff (F : JsonText.PyFloatText) (maxAttempts : Int)
    (settings : Nat → DLQSettings) (now : Int) (acts : List PayloadAction) :
    Runs.Throughout (payloadStep F maxAttempts settings)
        (fun s => ∀ i ∈ s.queue.invocations, ∃ event, s.origin i.id = some event ∧
          Retried event (loadEvent i.event)) (.initial now) acts ∧
      Runs.Always (payloadStep F maxAttempts settings) (EnqueueShown F) (.initial now) acts := by
  have hpres : ∀ s act t, s.Traced F → payloadStep F maxAttempts settings s act = some t →
      t.Traced F := fun _ act _ h hstep => traced_step act h hstep
  have hshown : ∀ act ∈ acts, ∀ s t, payloadStep F maxAttempts settings s act = some t →
      EnqueueShown F s act t := fun act _ _ _ hstep => enqueueShown act hstep
  have htraced := Runs.throughout_of_step hpres (traced_initial now) acts
  refine ⟨⟨htraced.1.retried, ?_⟩, Runs.always_of_forall_mem hshown _⟩
  exact htraced.2.mono fun _ _ _ _ h => h.retried

end SkyClaw.Core.Dlq
