import Mathlib.Data.List.ReduceOption
import SkyClaw.Core.EventBus

/-!
# The invariant of the event bus

What the fan-out of a dispatch and a run of the dispatch loop do, and the invariant that
every step keeps: the accepted events that were not dispatched are those in the queue,
and every unfinished delivery has a task that `stop` waits for.
-/

namespace SkyClaw.Core.EventBus

open Dlq (Event StatementEnd)

variable {Payload : Type}

/-! ## What the loop takes -/

/-- The events `queue.get` hands out before the loop waits or ends. -/
def eventsTaken (running : Bool) : List (Option (Event Payload)) → List (Event Payload)
  | [] => []
  | none :: _ => []
  | some event :: rest => event :: if running then eventsTaken running rest else []

/-- The events the loop dispatches when it goes on from here. -/
def Bus.taken (s : Bus Payload) : List (Event Payload) :=
  match s.loop with
  | .atTop => if s.running then eventsTaken s.running s.queue else []
  | .getting => eventsTaken s.running s.queue
  | .ended => []

/-- The subscriptions that match an event now, with the event. -/
def matchesOf (fnmatch : String → String → Bool) (subscriptions : List Subscription)
    (event : Event Payload) : List (Event Payload × Subscriber) :=
  (subscriptions.filter fun subscription => fnmatch event.topic subscription.1).map
    fun subscription => (event, subscription.2)

/-- The deliveries the loop has to make when it goes on from here. -/
def Bus.matched (settings : BusSettings) (s : Bus Payload) : List (Event Payload × Subscriber) :=
  s.taken.flatMap (matchesOf settings.fnmatch s.subscriptions)

/-- How many deliveries still get a task. -/
def Tasks.room (tasks : Tasks Payload) : Nat :=
  (maxPendingTasks - tasks.pendingTasks.length) + (maxDlqTasks - tasks.dlqTasks.length)

/-! ## The fan-out -/

/-- One delivery after the other. -/
def Tasks.deliverAll (tasks : Tasks Payload) : List (Event Payload × Subscriber) → Tasks Payload
  | [] => tasks
  | (event, callback) :: rest => Tasks.deliverAll (tasks.deliver event callback) rest

/-- The phase in which the `k`th of several deliveries starts. -/
def Tasks.phaseAt (tasks : Tasks Payload) (k : Nat) : TaskPhase :=
  if k < maxPendingTasks - tasks.pendingTasks.length then .created
  else if k < tasks.room then .enqueuing
  else .finished .neither

section FanOut

variable (tasks : Tasks Payload) (event : Event Payload) (callback : Subscriber)

theorem deliverAll_append (xs ys : List (Event Payload × Subscriber)) :
    tasks.deliverAll (xs ++ ys) = (tasks.deliverAll xs).deliverAll ys := by
  induction xs generalizing tasks with
  | nil => rfl
  | cons x xs ih => exact ih (tasks.deliver x.1 x.2)

theorem dispatch_eq (fnmatch : String → String → Bool) (subscriptions : List Subscription) :
    Tasks.dispatch fnmatch event subscriptions tasks =
      tasks.deliverAll (matchesOf fnmatch subscriptions event) := by
  induction subscriptions generalizing tasks with
  | nil => rfl
  | cons subscription rest ih =>
      obtain ⟨pattern, callback⟩ := subscription
      rw [Tasks.dispatch, matchesOf, List.filter_cons]
      by_cases hmatch : fnmatch event.topic pattern = true
      · rw [if_pos hmatch, if_pos hmatch, List.map_cons]
        exact ih (tasks.deliver event callback)
      · rw [if_neg hmatch, if_neg hmatch]
        exact ih tasks

/-- The three ways of one delivery. -/
theorem deliver_cases :
    (tasks.pendingTasks.length < maxPendingTasks ∧ tasks.deliver event callback =
        ⟨tasks.deliveries.insert ⟨event, callback, .created⟩,
          tasks.pendingTasks ++ [tasks.deliveries.next], tasks.dlqTasks⟩) ∨
      (maxPendingTasks ≤ tasks.pendingTasks.length ∧ tasks.dlqTasks.length < maxDlqTasks ∧
        tasks.deliver event callback =
          ⟨tasks.deliveries.insert ⟨event, callback, .enqueuing⟩,
            tasks.pendingTasks, tasks.dlqTasks ++ [tasks.deliveries.next]⟩) ∨
      (maxPendingTasks ≤ tasks.pendingTasks.length ∧ maxDlqTasks ≤ tasks.dlqTasks.length ∧
        tasks.deliver event callback =
          ⟨tasks.deliveries.insert ⟨event, callback, .finished .neither⟩,
            tasks.pendingTasks, tasks.dlqTasks⟩) := by
  unfold Tasks.deliver Tasks.scheduleBackpressureDrop
  by_cases hpending : maxPendingTasks ≤ tasks.pendingTasks.length
  · by_cases hdlq : maxDlqTasks ≤ tasks.dlqTasks.length
    · rw [if_pos hpending, if_pos hdlq]
      exact .inr (.inr ⟨hpending, hdlq, rfl⟩)
    · rw [if_pos hpending, if_neg hdlq]
      exact .inr (.inl ⟨hpending, by omega, rfl⟩)
  · rw [if_neg hpending]
    exact .inl ⟨by omega, rfl⟩

/-- A delivery starts in the first phase there is room for, and leaves the rest of the
room to the next ones. -/
theorem deliver_spec :
    (tasks.deliver event callback).deliveries =
        tasks.deliveries.insert ⟨event, callback, tasks.phaseAt 0⟩ ∧
      ∀ k, (tasks.deliver event callback).phaseAt k = tasks.phaseAt (k + 1) := by
  rcases deliver_cases tasks event callback with
    ⟨hpending, heq⟩ | ⟨hpending, hdlq, heq⟩ | ⟨hpending, hdlq, heq⟩
  · have hfirst : tasks.phaseAt 0 = .created := if_pos (by omega)
    rw [heq, hfirst]
    refine ⟨rfl, fun k => ?_⟩
    simp only [Tasks.phaseAt, Tasks.room, List.length_append, List.length_singleton]
    have hcreated : k < maxPendingTasks - (tasks.pendingTasks.length + 1) ↔
        k + 1 < maxPendingTasks - tasks.pendingTasks.length := by omega
    have henqueuing : k < maxPendingTasks - (tasks.pendingTasks.length + 1) +
          (maxDlqTasks - tasks.dlqTasks.length) ↔
        k + 1 < maxPendingTasks - tasks.pendingTasks.length +
          (maxDlqTasks - tasks.dlqTasks.length) := by omega
    exact if_congr hcreated rfl (if_congr henqueuing rfl rfl)
  · have hfull : ∀ k, ¬k < maxPendingTasks - tasks.pendingTasks.length := fun k => by omega
    have hfirst : tasks.phaseAt 0 = .enqueuing := by
      rw [Tasks.phaseAt, if_neg (hfull 0), if_pos (by unfold Tasks.room; omega)]
    rw [heq, hfirst]
    refine ⟨rfl, fun k => ?_⟩
    simp only [Tasks.phaseAt, Tasks.room, List.length_append, List.length_singleton,
      if_neg (hfull _)]
    have henqueuing : k < maxPendingTasks - tasks.pendingTasks.length +
          (maxDlqTasks - (tasks.dlqTasks.length + 1)) ↔
        k + 1 < maxPendingTasks - tasks.pendingTasks.length +
          (maxDlqTasks - tasks.dlqTasks.length) := by omega
    exact if_congr henqueuing rfl rfl
  · have hnone : ∀ k, tasks.phaseAt k = .finished .neither := by
      intro k
      rw [Tasks.phaseAt, if_neg (by omega), if_neg (by unfold Tasks.room; omega)]
    rw [heq, hnone 0]
    refine ⟨rfl, fun k => ?_⟩
    rw [hnone (k + 1)]
    exact hnone k

/-- **Spec of the fan-out.**  The new deliveries come in order, each in the phase there
is room for; the old ones stay. -/
theorem deliverAll_spec (pairs : List (Event Payload × Subscriber)) :
    (tasks.deliverAll pairs).deliveries.next = tasks.deliveries.next + pairs.length ∧
      (∀ n, n < tasks.deliveries.next →
        (tasks.deliverAll pairs).deliveries.row n = tasks.deliveries.row n) ∧
      ∀ k event callback, pairs[k]? = some (event, callback) →
        (tasks.deliverAll pairs).deliveries.row (tasks.deliveries.next + k) =
          some ⟨event, callback, tasks.phaseAt k⟩ := by
  induction pairs generalizing tasks with
  | nil =>
      refine ⟨rfl, fun n _ => rfl, fun k event callback hpair => ?_⟩
      rw [List.getElem?_nil] at hpair
      cases hpair
  | cons pair rest ih =>
      obtain ⟨event, callback⟩ := pair
      obtain ⟨hdeliveries, hphase⟩ := deliver_spec tasks event callback
      obtain ⟨hnext, hold, hnew⟩ := ih (tasks.deliver event callback)
      rw [hdeliveries, AutoTable.next_insert] at hnext hold hnew
      refine ⟨?_, fun n hn => ?_, fun k event' callback' hpair => ?_⟩
      · rw [Tasks.deliverAll, hnext, List.length_cons]
        omega
      · rw [Tasks.deliverAll, hold n (by omega)]
        exact AutoTable.row_insert_of_ne _ _ (by omega)
      · rw [Tasks.deliverAll]
        cases k with
        | zero =>
            rw [List.getElem?_cons_zero] at hpair
            cases hpair
            rw [Nat.add_zero, hold _ (by omega)]
            exact AutoTable.row_insert_self _ _
        | succ k =>
            rw [List.getElem?_cons_succ] at hpair
            have hrow := hnew k event' callback' hpair
            rw [hphase] at hrow
            rw [← hrow]
            congr 1
            omega

/-- Every delivery that has not ended belongs to one of the two sets of tasks. -/
def Tasks.Outstanding (tasks : Tasks Payload) : Prop :=
  ∀ n delivery, tasks.deliveries.row n = some delivery →
    tasks.finished n ∨ n ∈ tasks.pendingTasks ∨ n ∈ tasks.dlqTasks

theorem outstanding_insert {tasks : Tasks Payload} {delivery : Delivery Payload}
    {pendingTasks dlqTasks : List Nat} (h : tasks.Outstanding)
    (hpending : ∀ n ∈ tasks.pendingTasks, n ∈ pendingTasks)
    (hdlq : ∀ n ∈ tasks.dlqTasks, n ∈ dlqTasks)
    (hnew : delivery.phase = .finished .neither ∨
      tasks.deliveries.next ∈ pendingTasks ∨ tasks.deliveries.next ∈ dlqTasks) :
    (Tasks.mk (tasks.deliveries.insert delivery) pendingTasks dlqTasks).Outstanding := by
  intro n d hn
  rcases AutoTable.row_insert_eq_some hn with hold | ⟨rfl, rfl⟩
  · rcases h n d hold with ⟨e, outcome, he, hphase⟩ | hmem | hmem
    · exact .inl ⟨e, outcome, AutoTable.row_insert_of_some _ _ he, hphase⟩
    · exact .inr (.inl (hpending n hmem))
    · exact .inr (.inr (hdlq n hmem))
  · rcases hnew with hphase | hmem
    · exact .inl ⟨d, .neither, hn, hphase⟩
    · exact .inr hmem

theorem outstanding_deliver {tasks : Tasks Payload} (h : tasks.Outstanding)
    (event : Event Payload) (callback : Subscriber) :
    (tasks.deliver event callback).Outstanding := by
  rcases deliver_cases tasks event callback with ⟨-, heq⟩ | ⟨-, -, heq⟩ | ⟨-, -, heq⟩
  · rw [heq]
    apply outstanding_insert h
    · exact fun n hn => List.mem_append_left _ hn
    · exact fun n hn => hn
    · exact .inr (.inl (List.mem_append_right _ (List.mem_singleton_self _)))
  · rw [heq]
    apply outstanding_insert h
    · exact fun n hn => hn
    · exact fun n hn => List.mem_append_left _ hn
    · exact .inr (.inr (List.mem_append_right _ (List.mem_singleton_self _)))
  · rw [heq]
    apply outstanding_insert h
    · exact fun n hn => hn
    · exact fun n hn => hn
    · exact .inl rfl

theorem outstanding_deliverAll {tasks : Tasks Payload} (h : tasks.Outstanding)
    (pairs : List (Event Payload × Subscriber)) : (tasks.deliverAll pairs).Outstanding := by
  induction pairs generalizing tasks with
  | nil => exact h
  | cons pair rest ih => exact ih (outstanding_deliver h pair.1 pair.2)

end FanOut

/-! ## The dispatch loop -/

section Loop

variable (settings : BusSettings) (s : Bus Payload)

/-- **Spec of `_dispatch_loop`.**  It delivers what it takes, and what it does not take
stays in the queue; it waits with an empty queue, or ends. -/
theorem getEvents_spec (queue : List (Option (Event Payload))) :
    ∃ rest loop, s.getEvents settings queue =
        { s with
          tasks := s.tasks.deliverAll
            ((eventsTaken s.running queue).flatMap (matchesOf settings.fnmatch s.subscriptions))
          dispatched := s.dispatched + (eventsTaken s.running queue).length
          queue := rest
          loop := loop } ∧
      queue.reduceOption = eventsTaken s.running queue ++ rest.reduceOption ∧
      (s.running = true → none ∉ queue → loop = .getting ∧ rest = []) ∧
      (s.running = false → queue ≠ [] → loop = .ended) := by
  induction queue generalizing s with
  | nil => exact ⟨[], .getting, rfl, rfl, fun _ _ => ⟨rfl, rfl⟩, fun _ hne => absurd rfl hne⟩
  | cons first rest ih =>
      cases first with
      | none =>
          refine ⟨rest, .ended, rfl, ?_, fun _ hnone => ?_, fun _ _ => rfl⟩
          · rw [List.reduceOption_cons_of_none]
            rfl
          · exact absurd List.mem_cons_self hnone
      | some event =>
          by_cases hrunning : s.running = true
          · have hsame : eventsTaken s.running (some event :: rest) =
                event :: eventsTaken s.running rest := by
              rw [eventsTaken, if_pos hrunning]
            obtain ⟨rest', loop, heq, hqueue, hopen, -⟩ := ih
              { s with
                tasks := s.tasks.dispatch settings.fnmatch event s.subscriptions
                dispatched := s.dispatched + 1 }
            refine ⟨rest', loop, ?_, ?_, fun _ hnone => ?_, fun hstopped => ?_⟩
            · rw [Bus.getEvents, if_pos hrunning, heq, hsame, List.flatMap_cons,
                deliverAll_append, dispatch_eq, List.length_cons]
              congr 1
              show s.dispatched + 1 + (eventsTaken s.running rest).length =
                s.dispatched + ((eventsTaken s.running rest).length + 1)
              omega
            · rw [List.reduceOption_cons_of_some, hqueue, hsame]
              rfl
            · exact hopen hrunning fun hmem => hnone (List.mem_cons_of_mem _ hmem)
            · rw [hstopped] at hrunning
              cases hrunning
          · have hone : eventsTaken s.running (some event :: rest) = [event] := by
              rw [eventsTaken, if_neg hrunning]
            refine ⟨rest, .ended, ?_, ?_, fun htrue => absurd htrue hrunning, fun _ _ => rfl⟩
            · rw [Bus.getEvents, if_neg hrunning, hone, List.flatMap_singleton, dispatch_eq]
              rfl
            · rw [List.reduceOption_cons_of_some, hone]
              rfl

/-- What `dispatchLoop` does. -/
theorem dispatchLoop_spec {s t : Bus Payload} (h : s.dispatchLoop settings = some t) :
    ∃ rest loop, t =
        { s with
          tasks := s.tasks.deliverAll (s.matched settings)
          dispatched := s.dispatched + s.taken.length
          queue := rest
          loop := loop } ∧
      s.loop ≠ .ended ∧
      s.queue.reduceOption = s.taken ++ rest.reduceOption ∧
      (s.running = true → none ∉ s.queue → loop = .getting ∧ rest = []) ∧
      (s.running = false → loop = .ended) := by
  unfold Bus.dispatchLoop at h
  unfold Bus.matched Bus.taken
  cases hloop : s.loop with
  | ended =>
      rw [hloop] at h
      cases h
  | atTop =>
      rw [hloop] at h
      cases h
      by_cases hrunning : s.running = true
      · obtain ⟨rest, loop, heq, hqueue, hopen, -⟩ := getEvents_spec settings s s.queue
        refine ⟨rest, loop, ?_, nofun, ?_, hopen, fun hstopped => ?_⟩
        · simp only [if_pos hrunning]
          exact heq
        · simp only [if_pos hrunning]
          exact hqueue
        · rw [hstopped] at hrunning
          cases hrunning
      · refine ⟨s.queue, .ended, ?_, nofun, ?_, fun htrue => absurd htrue hrunning, fun _ => rfl⟩
        · simp only [if_neg hrunning]
          rfl
        · simp only [if_neg hrunning]
          rfl
  | getting =>
      rw [hloop] at h
      obtain ⟨rest, loop, heq, hqueue, hopen, hstopped⟩ := getEvents_spec settings s s.queue
      by_cases hempty : s.queue.isEmpty = true
      · simp only [if_pos hempty] at h
        cases h
      · simp only [if_neg hempty] at h
        cases h
        have hne : s.queue ≠ [] := fun hnil => hempty (by rw [hnil]; rfl)
        exact ⟨rest, loop, heq, nofun, hqueue, hopen, fun hrun => hstopped hrun hne⟩

end Loop

/-! ## The invariant -/

/-- What holds while a `stop` call is in a phase. -/
def StopPhase.Sound (loop : LoopPhase) (tasks : Tasks Payload) : StopPhase → Prop
  | .notCalled | .awaitingLoop => True
  | .awaitingTasks awaited => loop = .ended ∧ ∀ n ∈ tasks.pendingTasks, n ∈ awaited
  | .awaitingDlqTasks awaited =>
      loop = .ended ∧ tasks.pendingTasks = [] ∧ ∀ n ∈ tasks.dlqTasks, n ∈ awaited
  | .stoppingDlq | .returned => loop = .ended ∧ tasks.pendingTasks = [] ∧ tasks.dlqTasks = []

/-- The accepted events not yet dispatched are those in the queue; a bus that runs has a
loop and no sentinel in the queue; every unfinished delivery has a task that `stop`
waits for. -/
structure Bus.Sound (s : Bus Payload) : Prop where
  dispatched_le : s.dispatched ≤ s.accepted.length
  queued : s.accepted.drop s.dispatched = s.queue.reduceOption
  running : s.running = true → none ∉ s.queue ∧ s.loop ≠ .ended
  outstanding : s.tasks.Outstanding
  stops : ∀ w, (s.stops w).Sound s.loop s.tasks

theorem sound_started (subscriptions : List Subscription)
    (handlerIndex : String → Option Subscriber) :
    (Bus.started subscriptions handlerIndex : Bus Payload).Sound where
  dispatched_le := Nat.le_refl _
  queued := rfl
  running _ := ⟨List.not_mem_nil, nofun⟩
  outstanding _ _ hn := nomatch hn
  stops _ := trivial

section Invariant

variable {settings : BusSettings} {s t : Bus Payload}

variable {n : Nat}

theorem isFinished_iff {tasks : Tasks Payload} :
    tasks.isFinished n = true ↔ tasks.finished n := by
  rw [Tasks.isFinished, Option.any_eq_true]
  constructor
  · rintro ⟨delivery, hrow, hphase⟩
    cases hfinished : delivery.phase with
    | finished outcome => exact ⟨delivery, outcome, hrow, hfinished⟩
    | created | calling | enqueuing =>
        rw [hfinished] at hphase
        cases hphase
  · rintro ⟨delivery, outcome, hrow, hphase⟩
    refine ⟨delivery, hrow, ?_⟩
    rw [hphase]

variable {loop : LoopPhase}

theorem StopPhase.Sound.mono {tasks tasks' : Tasks Payload} {phase : StopPhase}
    (h : phase.Sound loop tasks) (hpending : ∀ n ∈ tasks'.pendingTasks, n ∈ tasks.pendingTasks)
    (hdlq : ∀ n ∈ tasks'.dlqTasks, n ∈ tasks.dlqTasks) : phase.Sound loop tasks' := by
  have hnil : ∀ {xs ys : List Nat}, ys = [] → (∀ n ∈ xs, n ∈ ys) → xs = [] := by
    intro xs ys hys hsub
    subst hys
    exact List.eq_nil_iff_forall_not_mem.mpr fun n hn => List.not_mem_nil (hsub n hn)
  cases phase with
  | notCalled | awaitingLoop => trivial
  | awaitingTasks awaited => exact ⟨h.1, fun n hn => h.2 n (hpending n hn)⟩
  | awaitingDlqTasks awaited =>
      exact ⟨h.1, hnil h.2.1 hpending, fun n hn => h.2.2 n (hdlq n hn)⟩
  | stoppingDlq | returned => exact ⟨h.1, hnil h.2.1 hpending, hnil h.2.2 hdlq⟩

theorem StopPhase.Sound.ended {tasks : Tasks Payload} {phase : StopPhase}
    (h : phase.Sound loop tasks) : phase.Sound .ended tasks := by
  cases phase with
  | notCalled | awaitingLoop => trivial
  | awaitingTasks | awaitingDlqTasks | stoppingDlq | returned => exact ⟨rfl, h.2⟩

theorem StopPhase.Sound.of_loop {loop' : LoopPhase} {tasks tasks' : Tasks Payload}
    {phase : StopPhase} (h : phase.Sound loop tasks) (hloop : loop ≠ .ended) :
    phase.Sound loop' tasks' := by
  cases phase with
  | notCalled | awaitingLoop => trivial
  | awaitingTasks | awaitingDlqTasks | stoppingDlq | returned => exact absurd h.1 hloop

variable {w : Nat}

theorem Bus.Sound.finished (h : s.Sound) {delivery : Delivery Payload}
    (hreturned : s.stops w = .returned) (hrow : s.tasks.deliveries.row n = some delivery) :
    s.tasks.finished n := by
  have hstop := h.stops w
  rw [hreturned] at hstop
  obtain ⟨-, hpending, hdlq⟩ := hstop
  rcases h.outstanding n delivery hrow with hfinished | hmem | hmem
  · exact hfinished
  · rw [hpending] at hmem
    cases hmem
  · rw [hdlq] at hmem
    cases hmem

theorem cancel_cancel (delivery : Delivery Payload) :
    delivery.cancel.cancel = delivery.cancel := by
  unfold Delivery.cancel
  by_cases hcreated : delivery.phase = .created
  · rw [if_pos hcreated, if_neg nofun]
  · rw [if_neg hcreated, if_neg hcreated]

theorem cancelAll_row (deliveries : AutoTable (Delivery Payload)) (ns : List Nat) (n : Nat) :
    (cancelAll deliveries ns).row n =
      if n ∈ ns then (deliveries.row n).map Delivery.cancel else deliveries.row n := by
  induction ns generalizing deliveries with
  | nil => rfl
  | cons m ns ih =>
      rw [cancelAll, ih]
      by_cases hself : n = m
      · subst hself
        rw [AutoTable.row_update_self, if_pos List.mem_cons_self, Option.map_map]
        have hidem : Delivery.cancel ∘ Delivery.cancel = @Delivery.cancel Payload :=
          funext cancel_cancel
        rw [hidem, ite_self]
      · rw [AutoTable.row_update_of_ne _ _ hself]
        simp only [List.mem_cons, hself, false_or]

theorem sound_accept (h : s.Sound) (event : Event Payload) : (s.accept event).Sound where
  dispatched_le := by
    have hle := h.dispatched_le
    show s.dispatched ≤ (s.accepted ++ [event]).length
    rw [List.length_append]
    omega
  queued := by
    show (s.accepted ++ [event]).drop s.dispatched = (s.queue ++ [some event]).reduceOption
    rw [List.drop_append_of_le_length h.dispatched_le, h.queued, List.reduceOption_append]
    rfl
  running hrunning := by
    obtain ⟨hnone, hloop⟩ := h.running hrunning
    refine ⟨fun hmem => ?_, hloop⟩
    rcases List.mem_append.mp hmem with hold | hnew
    · exact hnone hold
    · exact nomatch List.mem_singleton.mp hnew
  outstanding := h.outstanding
  stops := h.stops

theorem sound_dispatchLoop (h : s.Sound) (hstep : s.dispatchLoop settings = some t) : t.Sound := by
  obtain ⟨rest, loop, rfl, hloop, hqueue, hopen, -⟩ := dispatchLoop_spec settings hstep
  have hlength : s.accepted.length - s.dispatched = s.taken.length + rest.reduceOption.length := by
    rw [← List.length_drop, h.queued, hqueue, List.length_append]
  have hle := h.dispatched_le
  constructor
  · show s.dispatched + s.taken.length ≤ s.accepted.length
    omega
  · show s.accepted.drop (s.dispatched + s.taken.length) = rest.reduceOption
    rw [← List.drop_drop, h.queued, hqueue, List.drop_left]
  · intro hrunning
    obtain ⟨hgetting, hrest⟩ := hopen hrunning (h.running hrunning).1
    refine ⟨?_, ?_⟩
    · rw [hrest]
      exact List.not_mem_nil
    · show loop ≠ .ended
      rw [hgetting]
      exact nofun
  · exact outstanding_deliverAll h.outstanding _
  · exact fun w => (h.stops w).of_loop hloop

theorem outstanding_update {tasks : Tasks Payload} (h : tasks.Outstanding)
    (hn : ¬tasks.finished n) (phase : TaskPhase) :
    ({ tasks with
        deliveries := tasks.deliveries.update n fun d => { d with phase := phase } } :
      Tasks Payload).Outstanding := by
  intro m delivery hm
  by_cases hself : m = n
  · subst hself
    have hrow : (tasks.deliveries.row m).map _ = some delivery :=
      (AutoTable.row_update_self tasks.deliveries m _).symm.trans hm
    obtain ⟨before, hbefore, -⟩ := Option.map_eq_some_iff.mp hrow
    exact .inr ((h m before hbefore).resolve_left hn)
  · have hother := AutoTable.row_update_of_ne tasks.deliveries
      (fun d : Delivery Payload => { d with phase := phase }) hself
    rcases h m delivery (hother.symm.trans hm) with ⟨d, outcome, hd, hphase⟩ | hmem
    · exact .inl ⟨d, outcome, hother.trans hd, hphase⟩
    · exact .inr hmem

theorem outstanding_cancelAll {tasks : Tasks Payload} (h : tasks.Outstanding) :
    ({ tasks with deliveries := cancelAll tasks.deliveries tasks.pendingTasks } :
      Tasks Payload).Outstanding := by
  intro n delivery hn
  have hrow := cancelAll_row tasks.deliveries tasks.pendingTasks n
  by_cases hmem : n ∈ tasks.pendingTasks
  · exact .inr (.inl hmem)
  · rw [if_neg hmem] at hrow
    rcases h n delivery (hrow.symm.trans hn) with ⟨d, outcome, hd, hphase⟩ | hlist
    · exact .inl ⟨d, outcome, hrow.trans hd, hphase⟩
    · exact .inr hlist

theorem sound_stopsUpdate {tasks : Tasks Payload} {stops : Nat → StopPhase} {phase : StopPhase} (hown : phase.Sound loop tasks)
    (hothers : ∀ w', (stops w').Sound loop tasks) :
    ∀ w', (Function.update stops w phase w').Sound loop tasks :=
  (Function.forall_update_iff stops fun _ phase => phase.Sound loop tasks).mpr
    ⟨hown, fun w' _ => hothers w'⟩

theorem sound_afterTasks (h : s.Sound) (w : Nat) (hloop : s.loop = .ended)
    (hfinished : ∀ n ∈ s.tasks.pendingTasks, s.tasks.finished n) : (s.afterTasks w).Sound := by
  refine ⟨h.dispatched_le, h.queued, h.running, fun n delivery hn => ?_, fun w' => ?_⟩
  · rcases h.outstanding n delivery hn with hdone | hmem | hmem
    · exact .inl hdone
    · exact .inl (hfinished n hmem)
    · exact .inr (.inr hmem)
  · refine sound_stopsUpdate ?_ (fun w' => ?_) w'
    · cases hdlq : s.tasks.dlqTasks with
      | nil => exact ⟨hloop, rfl, hdlq⟩
      | cons n rest => exact ⟨hloop, rfl, fun m hm => hdlq ▸ hm⟩
    · exact (h.stops w').mono (fun _ hn => nomatch hn) fun _ hn => hn

theorem sound_afterLoop (h : s.Sound) (w : Nat) (hloop : s.loop = .ended) :
    (s.afterLoop w).Sound := by
  have hcancelled : ({ s with
      dispatchTask := false
      tasks := { s.tasks with
        deliveries := cancelAll s.tasks.deliveries s.tasks.pendingTasks } } : Bus Payload).Sound :=
    ⟨h.dispatched_le, h.queued, h.running, outstanding_cancelAll h.outstanding,
      fun w' => (h.stops w').mono (fun _ hn => hn) fun _ hn => hn⟩
  unfold Bus.afterLoop
  cases hpending : s.tasks.pendingTasks with
  | nil =>
      rw [hpending] at hcancelled
      exact sound_afterTasks hcancelled w hloop fun n hn => nomatch hpending ▸ hn
  | cons n rest =>
      rw [hpending] at hcancelled
      exact ⟨hcancelled.dispatched_le, hcancelled.queued, hcancelled.running,
        hcancelled.outstanding,
        sound_stopsUpdate ⟨hloop, fun m hm => hpending ▸ hm⟩ hcancelled.stops⟩

theorem all_isFinished {tasks : Tasks Payload} {ns : List Nat}
    (h : ns.all tasks.isFinished = true) : ∀ n ∈ ns, tasks.finished n :=
  fun n hn => isFinished_iff.mp (List.all_eq_true.mp h n hn)

/-- What a `stop` call does when it goes on. -/
theorem stopResumes_cases (hstep : s.stopResumes w = some t) :
    (s.stops w = .awaitingLoop ∧ s.loop = .ended ∧ t = s.afterLoop w) ∨
      (∃ awaited, s.stops w = .awaitingTasks awaited ∧
        (∀ n ∈ awaited, s.tasks.finished n) ∧ t = s.afterTasks w) ∨
      (∃ awaited, s.stops w = .awaitingDlqTasks awaited ∧
        (∀ n ∈ awaited, s.tasks.finished n) ∧
        t = { s with
          tasks := { s.tasks with dlqTasks := [] }
          stops := Function.update s.stops w .stoppingDlq }) ∨
      (s.stops w = .stoppingDlq ∧
        t = { s with stops := Function.update s.stops w .returned }) := by
  unfold Bus.stopResumes at hstep
  cases hphase : s.stops w with
  | notCalled | returned =>
      simp only [hphase] at hstep
      cases hstep
  | awaitingLoop =>
      simp only [hphase] at hstep
      split at hstep
      · rename_i hloop
        exact .inl ⟨rfl, hloop, (Option.some.inj hstep).symm⟩
      · cases hstep
  | awaitingTasks awaited =>
      simp only [hphase] at hstep
      split at hstep
      · rename_i hall
        exact .inr (.inl ⟨awaited, rfl, all_isFinished hall, (Option.some.inj hstep).symm⟩)
      · cases hstep
  | awaitingDlqTasks awaited =>
      simp only [hphase] at hstep
      split at hstep
      · rename_i hall
        exact .inr (.inr (.inl
          ⟨awaited, rfl, all_isFinished hall, (Option.some.inj hstep).symm⟩))
      · cases hstep
  | stoppingDlq =>
      simp only [hphase] at hstep
      exact .inr (.inr (.inr ⟨rfl, (Option.some.inj hstep).symm⟩))

theorem sound_stopResumes (h : s.Sound) (hstep : s.stopResumes w = some t) :
    t.Sound := by
  have hstop := h.stops w
  rcases stopResumes_cases hstep with ⟨hphase, hloop, rfl⟩ | ⟨awaited, hphase, hdone, rfl⟩ |
    ⟨awaited, hphase, hdone, rfl⟩ | ⟨hphase, rfl⟩
  · exact sound_afterLoop h w hloop
  · rw [hphase] at hstop
    exact sound_afterTasks h w hstop.1 fun n hn => hdone n (hstop.2 n hn)
  · rw [hphase] at hstop
    obtain ⟨hloop, hpending, hdlq⟩ := hstop
    refine ⟨h.dispatched_le, h.queued, h.running, fun n delivery hn => ?_,
      sound_stopsUpdate ⟨hloop, hpending, rfl⟩ fun w' => ?_⟩
    · rcases h.outstanding n delivery hn with hfinished | hmem | hmem
      · exact .inl hfinished
      · exact .inr (.inl hmem)
      · exact .inl (hdone n (hdlq n hmem))
    · exact (h.stops w').mono (fun _ hn => hn) fun _ hn => nomatch hn
  · rw [hphase] at hstop
    exact ⟨h.dispatched_le, h.queued, h.running, h.outstanding, sound_stopsUpdate hstop h.stops⟩

theorem outstanding_discard {tasks : Tasks Payload} (h : tasks.Outstanding)
    (hdone : tasks.finished n) :
    ({ tasks with
        pendingTasks := tasks.pendingTasks.erase n
        dlqTasks := tasks.dlqTasks.erase n } : Tasks Payload).Outstanding := by
  intro m delivery hm
  by_cases hself : m = n
  · subst hself
    exact .inl hdone
  · rcases h m delivery hm with hfinished | hmem | hmem
    · exact .inl hfinished
    · exact .inr (.inl ((List.mem_erase_of_ne hself).mpr hmem))
    · exact .inr (.inr ((List.mem_erase_of_ne hself).mpr hmem))

/-- **The invariant is kept** by every step. -/
theorem sound_step (h : s.Sound) {act : BusAction Payload}
    (hstep : busStep settings s act = some t) : t.Sound := by
  cases moves_of_busStep hstep with
  | subscribes | unsubscribes
      => exact ⟨h.dispatched_le, h.queued, h.running, h.outstanding, h.stops⟩
  | publishRaises => exact h
  | publishWaits => exact ⟨h.dispatched_le, h.queued, h.running, h.outstanding, h.stops⟩
  | accepts => exact sound_accept h _
  | @putterAccepts i event =>
      have haccept := sound_accept h event
      exact ⟨haccept.dispatched_le, haccept.queued, haccept.running, haccept.outstanding,
        haccept.stops⟩
  | putterLeaves => exact ⟨h.dispatched_le, h.queued, h.running, h.outstanding, h.stops⟩
  | dispatches hloop => exact sound_dispatchLoop h hloop
  | @taskMoves n event delivery phase hrow hphase =>
      have hunfinished : ¬s.tasks.finished n := by
        rintro ⟨d, outcome, hd, hfinished⟩
        cases hrow.symm.trans hd
        rw [hfinished] at hphase
        cases event <;> cases hphase
      exact ⟨h.dispatched_le, h.queued, h.running,
        outstanding_update h.outstanding hunfinished phase,
        fun w => (h.stops w).mono (fun _ hn => hn) fun _ hn => hn⟩
  | discards hdone =>
      refine ⟨h.dispatched_le, h.queued, h.running,
        outstanding_discard h.outstanding (isFinished_iff.mp hdone), fun w => (h.stops w).mono ?_ ?_⟩
      · exact fun _ hm => List.mem_of_mem_erase hm
      · exact fun _ hm => List.mem_of_mem_erase hm
  | stopsLate => exact h
  | @stopCancels w =>
      have hstops : ∀ w', (Function.update s.stops w .awaitingLoop w').Sound s.loop s.tasks :=
        sound_stopsUpdate trivial h.stops
      exact ⟨h.dispatched_le, h.queued, nofun, h.outstanding, fun w' => (hstops w').ended⟩
  | @stopPosts w =>
      refine ⟨h.dispatched_le, ?_, nofun, h.outstanding,
        sound_stopsUpdate trivial h.stops⟩
      -- The sentinel is no event.
      show s.accepted.drop s.dispatched = (s.queue ++ [none]).reduceOption
      rw [List.reduceOption_append, h.queued]
      exact (List.append_nil _).symm
  | resumes hresumes => exact sound_stopResumes h hresumes

end Invariant

end SkyClaw.Core.EventBus
