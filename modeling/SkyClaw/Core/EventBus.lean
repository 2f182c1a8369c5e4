import SkyClaw.Core.DlqManager

/-!
# The event bus

`CoreEventBus` with a dead letter queue, from `start` on.  All of it runs on one event
loop, so one step of the model is what a coroutine does from one `await` that really
waits to the next:

* `publish` puts its event at once or waits for room in the queue;
* `dispatchLoop` takes events until the queue is empty, since `queue.get` waits only
  then, and creates one task per matching subscription;
* `taskStep` is a task of `_safe_execute` or `_enqueue_backpressure_drop`;
* `stopResumes` takes a `stop` call from one of its waits to the next.

How a callback or a dead-letter insert ends is up to the environment.  Every delivery
that a dispatch makes is numbered and remembered with its outcome.
-/

namespace SkyClaw.Core.EventBus

open Function
open Dlq (Event StatementEnd)

/-! ## Subscribers and their names -/

/-- A callback.  Bound methods of one instance compare equal, those of two instances
differ in `object`. -/
structure Subscriber where
  object : Nat
  moduleName : String
  qualname : Option String
  repr : String
deriving DecidableEq

def Subscriber.handlerName (callback : Subscriber) : String :=
  match callback.qualname with
  | some qualname =>
      if qualname = "" then callback.repr else callback.moduleName ++ "." ++ qualname
  | none => callback.repr

abbrev Subscription := String × Subscriber

/-! ## Deliveries -/

inductive Outcome
  /-- The callback returned. -/
  | completed
  /-- A row for the event and the callback is in the dead letter queue. -/
  | deadLettered
  | neither
deriving DecidableEq

/-- Where the task of a delivery is. -/
inductive TaskPhase
  /-- Created, its first step still to come. -/
  | created
  /-- In `await callback(event)`. -/
  | calling
  /-- In `await self._dlq.enqueue(...)`. -/
  | enqueuing
  | finished (outcome : Outcome)
deriving DecidableEq

inductive TaskEvent
  | begins
  | returns
  /-- The callback raises an `Exception`. -/
  | raises
  /-- It ends with `CancelledError`, or another exception `except Exception` lets through. -/
  | cancelled
  | enqueued (ended : StatementEnd)

/-- `_safe_execute`; a task for a backpressure drop starts in `enqueuing`. -/
def taskStep : TaskPhase → TaskEvent → Option TaskPhase
  | .created, .begins => some .calling
  | .calling, .returns => some (.finished .completed)
  | .calling, .raises => some .enqueuing
  | .calling, .cancelled => some (.finished .neither)
  | .enqueuing, .enqueued ended => some (.finished (ended.leaves .neither .deadLettered))
  | _, _ => none

variable {Payload : Type}

/-- One event for one of the subscriptions that matched it. -/
structure Delivery (Payload : Type) where
  event : Event Payload
  callback : Subscriber
  phase : TaskPhase

/-- `_pending_tasks` and `_dlq_tasks`, and all deliveries made so far. -/
structure Tasks (Payload : Type) where
  deliveries : AutoTable (Delivery Payload)
  pendingTasks : List Nat
  dlqTasks : List Nat

def maxPendingTasks : Nat := 50

def maxDlqTasks : Nat := 50

def Tasks.scheduleBackpressureDrop (tasks : Tasks Payload) (event : Event Payload)
    (callback : Subscriber) : Tasks Payload :=
  if maxDlqTasks ≤ tasks.dlqTasks.length then
    -- Logged as lost; there is no task.
    { tasks with deliveries := tasks.deliveries.insert ⟨event, callback, .finished .neither⟩ }
  else
    { tasks with
      deliveries := tasks.deliveries.insert ⟨event, callback, .enqueuing⟩
      dlqTasks := tasks.dlqTasks ++ [tasks.deliveries.next] }

/-- The body of the loop over the subscriptions, for one that matches. -/
def Tasks.deliver (tasks : Tasks Payload) (event : Event Payload) (callback : Subscriber) :
    Tasks Payload :=
  if maxPendingTasks ≤ tasks.pendingTasks.length then
    tasks.scheduleBackpressureDrop event callback
  else
    { tasks with
      deliveries := tasks.deliveries.insert ⟨event, callback, .created⟩
      pendingTasks := tasks.pendingTasks ++ [tasks.deliveries.next] }

/-- The loop over the subscriptions. -/
def Tasks.dispatch (fnmatch : String → String → Bool) (event : Event Payload) :
    List Subscription → Tasks Payload → Tasks Payload
  | [], tasks => tasks
  | (pattern, callback) :: rest, tasks =>
      if fnmatch event.topic pattern then
        Tasks.dispatch fnmatch event rest (tasks.deliver event callback)
      else Tasks.dispatch fnmatch event rest tasks

/-- `task.cancel()` of a task that has not begun ends it. -/
def Delivery.cancel (delivery : Delivery Payload) : Delivery Payload :=
  if delivery.phase = .created then { delivery with phase := .finished .neither } else delivery

def cancelAll (deliveries : AutoTable (Delivery Payload)) :
    List Nat → AutoTable (Delivery Payload)
  | [] => deliveries
  | n :: rest => cancelAll (deliveries.update n Delivery.cancel) rest

def Tasks.finished (tasks : Tasks Payload) (n : Nat) : Prop :=
  ∃ delivery outcome,
    tasks.deliveries.row n = some delivery ∧ delivery.phase = .finished outcome

/-- What `gather` waits for. -/
def Tasks.isFinished (tasks : Tasks Payload) (n : Nat) : Bool :=
  (tasks.deliveries.row n).any fun delivery =>
    match delivery.phase with
    | .finished _ => true
    | .created | .calling | .enqueuing => false

/-! ## The bus -/

inductive LoopPhase
  /-- About to read `_running`. -/
  | atTop
  /-- In `await self._queue.get()`. -/
  | getting
  | ended
deriving DecidableEq

/-- Where a `stop` call is. -/
inductive StopPhase
  | notCalled
  | awaitingLoop
  | awaitingTasks (tasks : List Nat)
  | awaitingDlqTasks (tasks : List Nat)
  | stoppingDlq
  | returned
deriving DecidableEq

/-- What a bus is constructed with, and `fnmatch.fnmatch`. -/
structure BusSettings where
  maxQueueSize : Int
  fnmatch : String → String → Bool

/-- The attributes of the bus, the publishers that wait for room, the `stop` calls, and
the events accepted so far with how many of them were dispatched. -/
structure Bus (Payload : Type) where
  subscriptions : List Subscription
  handlerIndex : String → Option Subscriber
  queue : List (Option (Event Payload))
  putters : List (Event Payload)
  running : Bool
  dispatchTask : Bool
  loop : LoopPhase
  tasks : Tasks Payload
  stops : Nat → StopPhase
  accepted : List (Event Payload)
  dispatched : Nat

/-- The bus when `start` has returned. -/
def Bus.started (subscriptions : List Subscription) (handlerIndex : String → Option Subscriber) :
    Bus Payload :=
  { subscriptions := subscriptions
    handlerIndex := handlerIndex
    queue := []
    putters := []
    running := true
    dispatchTask := true
    loop := .atTop
    tasks := ⟨AutoTable.empty, [], []⟩
    stops := fun _ => .notCalled
    accepted := []
    dispatched := 0 }

def Bus.subscribe (s : Bus Payload) (pattern : String) (callback : Subscriber) : Bus Payload :=
  { s with
    subscriptions := s.subscriptions ++ [(pattern, callback)]
    handlerIndex := update s.handlerIndex callback.handlerName (some callback) }

def Bus.unsubscribe (s : Bus Payload) (pattern : String) (callback : Subscriber) : Bus Payload :=
  { s with
    subscriptions := s.subscriptions.erase (pattern, callback)
    handlerIndex := update s.handlerIndex callback.handlerName none }

/-- `asyncio.Queue.full`; a size that is not positive is no bound. -/
def Bus.full (settings : BusSettings) (s : Bus Payload) : Prop :=
  0 < settings.maxQueueSize ∧ settings.maxQueueSize ≤ s.queue.length

instance (settings : BusSettings) (s : Bus Payload) : Decidable (s.full settings) :=
  inferInstanceAs (Decidable (_ ∧ _))

/-- The event is in the queue, and `publish` returns. -/
def Bus.accept (s : Bus Payload) (event : Event Payload) : Bus Payload :=
  { s with queue := s.queue ++ [some event], accepted := s.accepted ++ [event] }

/-- `publish`, up to its return or its wait for room; it raises if the bus does not run. -/
def Bus.publish (settings : BusSettings) (s : Bus Payload) (event : Event Payload) : Bus Payload :=
  if s.running = false then s
  else if s.full settings then { s with putters := s.putters ++ [event] }
  else s.accept event

/-- `_dispatch_loop` in `queue.get`, with the given queue. -/
def Bus.getEvents (settings : BusSettings) : List (Option (Event Payload)) → Bus Payload → Bus Payload
  | [], s => { s with queue := [], loop := .getting }
  -- The sentinel ends the loop, whatever is queued behind it.
  | none :: rest, s => { s with queue := rest, loop := .ended }
  | some event :: rest, s =>
      let t := { s with
        tasks := s.tasks.dispatch settings.fnmatch event s.subscriptions
        dispatched := s.dispatched + 1 }
      -- `while self._running` is looked at again after each event.
      if s.running then Bus.getEvents settings rest t
      else { t with queue := rest, loop := .ended }

/-- `_dispatch_loop`, until it waits or ends. -/
def Bus.dispatchLoop (settings : BusSettings) (s : Bus Payload) : Option (Bus Payload) :=
  match s.loop with
  | .atTop => some (if s.running then s.getEvents settings s.queue else { s with loop := .ended })
  | .getting => if s.queue.isEmpty then none else some (s.getEvents settings s.queue)
  | .ended => none

/-- `stop`, up to `await self._dispatch_task`; a second call may come before that. -/
def Bus.stop (settings : BusSettings) (s : Bus Payload) (w : Nat) : Bus Payload :=
  if s.dispatchTask then
    let t := { s with running := false, stops := update s.stops w .awaitingLoop }
    -- `put_nowait` raises `QueueFull`, and the dispatch task is cancelled.
    if s.full settings then { t with loop := .ended } else { t with queue := s.queue ++ [none] }
  else s

/-- From the awaited callbacks to the awaited dead-letter inserts. -/
def Bus.afterTasks (s : Bus Payload) (w : Nat) : Bus Payload :=
  { s with
    tasks := { s.tasks with pendingTasks := [] }
    stops := update s.stops w
      (if s.tasks.dlqTasks.isEmpty then .stoppingDlq else .awaitingDlqTasks s.tasks.dlqTasks) }

/-- From the awaited dispatch loop to the awaited callbacks. -/
def Bus.afterLoop (s : Bus Payload) (w : Nat) : Bus Payload :=
  let t := { s with
    dispatchTask := false
    tasks := { s.tasks with
      deliveries := cancelAll s.tasks.deliveries s.tasks.pendingTasks } }
  if s.tasks.pendingTasks.isEmpty then t.afterTasks w
  else { t with stops := update s.stops w (.awaitingTasks s.tasks.pendingTasks) }

/-- A `stop` call goes on when what it awaits is done. -/
def Bus.stopResumes (s : Bus Payload) (w : Nat) : Option (Bus Payload) :=
  match s.stops w with
  | .notCalled | .returned => none
  | .awaitingLoop => if s.loop = .ended then some (s.afterLoop w) else none
  | .awaitingTasks tasks => if tasks.all s.tasks.isFinished then some (s.afterTasks w) else none
  | .awaitingDlqTasks tasks =>
      if tasks.all s.tasks.isFinished then
        some { s with
          tasks := { s.tasks with dlqTasks := [] }
          stops := update s.stops w .stoppingDlq }
      else none
  | .stoppingDlq => some { s with stops := update s.stops w .returned }

inductive BusAction (Payload : Type)
  | subscribe (pattern : String) (callback : Subscriber)
  | unsubscribe (pattern : String) (callback : Subscriber)
  | publish (event : Event Payload)
  /-- The `i`th waiting publisher finds room. -/
  | putterResumes (i : Nat)
  | putterCancelled (i : Nat)
  | dispatchLoop
  | task (n : Nat) (event : TaskEvent)
  /-- The `add_done_callback` of a task. -/
  | discard (n : Nat)
  | stop (w : Nat)
  | stopResumes (w : Nat)

def busStep (settings : BusSettings) (s : Bus Payload) : BusAction Payload → Option (Bus Payload)
  | .subscribe pattern callback => some (s.subscribe pattern callback)
  | .unsubscribe pattern callback => some (s.unsubscribe pattern callback)
  | .publish event => some (s.publish settings event)
  | .putterResumes i =>
      if s.full settings then none
      else (s.putters[i]?).map fun event => { s.accept event with putters := s.putters.eraseIdx i }
  | .putterCancelled i =>
      if i < s.putters.length then some { s with putters := s.putters.eraseIdx i } else none
  | .dispatchLoop => s.dispatchLoop settings
  | .task n event =>
      (s.tasks.deliveries.row n).bind fun delivery =>
        (taskStep delivery.phase event).map fun phase =>
          { s with tasks := { s.tasks with
              deliveries := s.tasks.deliveries.update n fun d => { d with phase := phase } } }
  | .discard n =>
      if s.tasks.isFinished n then
        some { s with tasks := { s.tasks with
          pendingTasks := s.tasks.pendingTasks.erase n
          dlqTasks := s.tasks.dlqTasks.erase n } }
      else none
  | .stop w => if s.stops w = .notCalled then some (s.stop settings w) else none
  | .stopResumes w => s.stopResumes w

/-! ## What a step can do -/

/-- The ways a step can go. -/
inductive BusMoves (settings : BusSettings) (s : Bus Payload) :
    BusAction Payload → Bus Payload → Prop
  | subscribes {pattern : String} {callback : Subscriber} :
      BusMoves settings s (.subscribe pattern callback) (s.subscribe pattern callback)
  | unsubscribes {pattern : String} {callback : Subscriber} :
      BusMoves settings s (.unsubscribe pattern callback) (s.unsubscribe pattern callback)
  | publishRaises {event : Event Payload} : BusMoves settings s (.publish event) s
  | publishWaits {event : Event Payload} :
      BusMoves settings s (.publish event) { s with putters := s.putters ++ [event] }
  | accepts {event : Event Payload} (hrunning : s.running = true) :
      BusMoves settings s (.publish event) (s.accept event)
  | putterAccepts {i : Nat} {event : Event Payload} :
      BusMoves settings s (.putterResumes i)
        { s.accept event with putters := s.putters.eraseIdx i }
  | putterLeaves {i : Nat} :
      BusMoves settings s (.putterCancelled i) { s with putters := s.putters.eraseIdx i }
  | dispatches {t : Bus Payload} (hloop : s.dispatchLoop settings = some t) :
      BusMoves settings s .dispatchLoop t
  | taskMoves {n : Nat} {event : TaskEvent} {delivery : Delivery Payload} {phase : TaskPhase}
      (hrow : s.tasks.deliveries.row n = some delivery)
      (hphase : taskStep delivery.phase event = some phase) :
      BusMoves settings s (.task n event)
        { s with tasks := { s.tasks with
            deliveries := s.tasks.deliveries.update n fun d => { d with phase := phase } } }
  | discards {n : Nat} (hdone : s.tasks.isFinished n = true) :
      BusMoves settings s (.discard n)
        { s with tasks := { s.tasks with
            pendingTasks := s.tasks.pendingTasks.erase n
            dlqTasks := s.tasks.dlqTasks.erase n } }
  /-- The loop was awaited before. -/
  | stopsLate {w : Nat} (htask : s.dispatchTask = false) : BusMoves settings s (.stop w) s
  /-- There is no room for the sentinel, and the loop is cancelled. -/
  | stopCancels {w : Nat} (htask : s.dispatchTask = true) (hfull : s.full settings) :
      BusMoves settings s (.stop w)
        { s with
          running := false
          stops := update s.stops w .awaitingLoop
          loop := .ended }
  | stopPosts {w : Nat} (hroom : ¬s.full settings) :
      BusMoves settings s (.stop w)
        { s with
          running := false
          stops := update s.stops w .awaitingLoop
          queue := s.queue ++ [none] }
  | resumes {w : Nat} {t : Bus Payload} (hresumes : s.stopResumes w = some t) :
      BusMoves settings s (.stopResumes w) t

/-- **Inversion of a step.** -/
theorem moves_of_busStep {settings : BusSettings} {s t : Bus Payload} {act : BusAction Payload}
    (hstep : busStep settings s act = some t) : BusMoves settings s act t := by
  cases act with
  | subscribe pattern callback =>
      cases hstep
      exact .subscribes
  | unsubscribe pattern callback =>
      cases hstep
      exact .unsubscribes
  | publish event =>
      cases hstep
      unfold Bus.publish
      split
      · exact .publishRaises
      · rename_i hrunning
        split
        · exact .publishWaits
        · exact .accepts (eq_true_of_ne_false hrunning)
  | putterResumes i =>
      simp only [busStep] at hstep
      split at hstep
      · cases hstep
      · obtain ⟨event, -, rfl⟩ := Option.map_eq_some_iff.mp hstep
        exact .putterAccepts
  | putterCancelled i =>
      simp only [busStep] at hstep
      split at hstep
      · cases hstep
        exact .putterLeaves
      · cases hstep
  | dispatchLoop => exact .dispatches hstep
  | task n event =>
      obtain ⟨delivery, hrow, hmoved⟩ := Option.bind_eq_some_iff.mp hstep
      obtain ⟨phase, hphase, rfl⟩ := Option.map_eq_some_iff.mp hmoved
      exact .taskMoves hrow hphase
  | discard n =>
      simp only [busStep] at hstep
      split at hstep
      · rename_i hdone
        cases hstep
        exact .discards hdone
      · cases hstep
  | stop w =>
      simp only [busStep] at hstep
      split at hstep
      · cases hstep
        unfold Bus.stop
        by_cases htask : s.dispatchTask = true
        · rw [if_pos htask]
          by_cases hfull : s.full settings
          · simp only [if_pos hfull]
            exact .stopCancels htask hfull
          · simp only [if_neg hfull]
            exact .stopPosts hfull
        · rw [if_neg htask]
          exact .stopsLate (eq_false_of_ne_true htask)
      · cases hstep
  | stopResumes w => exact .resumes hstep

end SkyClaw.Core.EventBus
