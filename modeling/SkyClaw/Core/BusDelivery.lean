import SkyClaw.Core.BusInvariant

/-!
# What the event bus delivers

The bus loses events, by design, in a few places: `stop` leaves what is still queued,
tasks are cancelled, and no more than a hundred deliveries are pending at a time.
`delivery_accounted` is the exact law: along every run each step loses just the
deliveries and events it names, every other accepted event is dispatched in order, and
when `stop` has returned nothing is outstanding.
-/

namespace SkyClaw.Core.EventBus

open Dlq (Event StatementEnd)

variable {Payload : Type}

/-! ## What can be lost -/

/-- The delivery ended, and neither did its callback return nor is it dead-lettered. -/
def Bus.Lost (s : Bus Payload) (n : Nat) : Prop :=
  ∃ delivery, s.tasks.deliveries.row n = some delivery ∧ delivery.phase = .finished .neither

/-- The `i`th accepted event was not dispatched before the loop ended. -/
def Bus.Abandoned (s : Bus Payload) (i : Nat) : Prop :=
  s.loop = .ended ∧ s.dispatched ≤ i ∧ i < s.accepted.length

/-- The promise as it is often made: nothing accepted is lost. -/
def Bus.LosesNothing (s : Bus Payload) : Prop :=
  (∀ n, ¬s.Lost n) ∧ ∀ i, ¬s.Abandoned i

/-- The deliveries a step loses: those for which there is no room, those `stop` cancels
before they begin, a callback that is cancelled, an insert that takes no effect. -/
def Bus.Losing (settings : BusSettings) (s : Bus Payload) (act : BusAction Payload) (n : Nat) :
    Prop :=
  match act with
  | .dispatchLoop =>
      ∃ k, n = s.tasks.deliveries.next + k ∧ s.tasks.room ≤ k ∧ k < (s.matched settings).length
  | .task m .cancelled => m = n
  | .task m (.enqueued .lost) => m = n
  | .stopResumes w =>
      s.stops w = .awaitingLoop ∧ n ∈ s.tasks.pendingTasks ∧
        ∃ delivery, s.tasks.deliveries.row n = some delivery ∧ delivery.phase = .created
  | _ => False

/-- The events a step leaves in the queue for good: those a loop that stops does not
take, all of them when `stop` finds the queue full, and the event of a publisher that
finds room too late. -/
def Bus.Abandoning (settings : BusSettings) (s : Bus Payload) (act : BusAction Payload) (i : Nat) :
    Prop :=
  match act with
  | .dispatchLoop =>
      s.running = false ∧ s.dispatched + s.taken.length ≤ i ∧ i < s.accepted.length
  | .stop _ =>
      s.dispatchTask = true ∧ s.full settings ∧ s.dispatched ≤ i ∧ i < s.accepted.length
  | .putterResumes _ => s.loop = .ended ∧ i = s.accepted.length
  | _ => False

/-- The loop takes the next events in the order of their acceptance and makes one
delivery for each subscription that matches. -/
structure Dispatches (settings : BusSettings) (s t : Bus Payload) : Prop where
  inOrder : s.taken = (s.accepted.drop s.dispatched).take s.taken.length
  counted : t.dispatched = s.dispatched + s.taken.length
  delivered : ∀ k event callback, (s.matched settings)[k]? = some (event, callback) →
    ∃ delivery, t.tasks.deliveries.row (s.tasks.deliveries.next + k) = some delivery ∧
      delivery.event = event ∧ delivery.callback = callback

/-- The account of one step. -/
structure Accounted (settings : BusSettings) (s : Bus Payload) (act : BusAction Payload)
    (t : Bus Payload) : Prop where
  lost : ∀ n, t.Lost n ↔ s.Lost n ∨ s.Losing settings act n
  abandoned : ∀ i, t.Abandoned i ↔ s.Abandoned i ∨ s.Abandoning settings act i
  dispatches : act = .dispatchLoop → Dispatches settings s t
  kept : ∀ n delivery, s.tasks.deliveries.row n = some delivery →
    ∃ later, t.tasks.deliveries.row n = some later ∧ later.event = delivery.event ∧
      later.callback = delivery.callback ∧
      ∀ outcome, delivery.phase = .finished outcome → later.phase = .finished outcome
  returned : ∀ w, t.stops w = .returned →
    (∀ i, i < t.accepted.length → i < t.dispatched ∨ t.Abandoned i) ∧
      ∀ n delivery, t.tasks.deliveries.row n = some delivery → t.tasks.finished n

/-! ## What a step loses -/

section Losses

variable {settings : BusSettings} {s t : Bus Payload} {n i : Nat}

theorem phaseAt_eq_neither {tasks : Tasks Payload} {k : Nat} :
    tasks.phaseAt k = .finished .neither ↔ tasks.room ≤ k := by
  unfold Tasks.phaseAt
  by_cases hcreated : k < maxPendingTasks - tasks.pendingTasks.length
  · rw [if_pos hcreated]
    have hroom : ¬tasks.room ≤ k := by
      unfold Tasks.room
      omega
    exact ⟨nofun, fun hle => absurd hle hroom⟩
  · rw [if_neg hcreated]
    by_cases hroom : k < tasks.room
    · rw [if_pos hroom]
      exact ⟨nofun, fun hle => absurd hroom (by omega)⟩
    · rw [if_neg hroom]
      exact ⟨fun _ => by omega, fun _ => rfl⟩

theorem lost_of_deliveries (h : t.tasks.deliveries = s.tasks.deliveries) :
    t.Lost n ↔ s.Lost n := by
  unfold Bus.Lost
  rw [h]

theorem lost_dispatchLoop (hstep : s.dispatchLoop settings = some t) :
    t.Lost n ↔ s.Lost n ∨ s.Losing settings .dispatchLoop n := by
  obtain ⟨rest, loop, rfl, -⟩ := dispatchLoop_spec settings hstep
  obtain ⟨hnext, hold, hnew⟩ := deliverAll_spec s.tasks (s.matched settings)
  by_cases hlt : n < s.tasks.deliveries.next
  · have hnot : ¬s.Losing settings .dispatchLoop n := by
      rintro ⟨k, rfl, -⟩
      omega
    rw [or_iff_left hnot]
    show (∃ delivery, (s.tasks.deliverAll _).deliveries.row n = some delivery ∧ _) ↔ _
    rw [hold n hlt]
    exact Iff.rfl
  · obtain ⟨k, rfl⟩ := Nat.exists_eq_add_of_le (Nat.le_of_not_lt hlt)
    have hbefore : ¬s.Lost (s.tasks.deliveries.next + k) := by
      rintro ⟨delivery, hrow, -⟩
      exact absurd (AutoTable.lt_next hrow) (by omega)
    rw [or_iff_right hbefore]
    constructor
    · rintro ⟨delivery, hrow, hphase⟩
      have hk : k < (s.matched settings).length := by
        have hlast := AutoTable.lt_next hrow
        rw [hnext] at hlast
        omega
      have hkth := hnew k _ _ (List.getElem?_eq_getElem hk)
      cases hrow.symm.trans hkth
      exact ⟨k, rfl, phaseAt_eq_neither.mp hphase, hk⟩
    · rintro ⟨k', hk', hroom, hk⟩
      obtain rfl : k = k' := by omega
      exact ⟨_, hnew k _ _ (List.getElem?_eq_getElem hk), phaseAt_eq_neither.mpr hroom⟩

theorem taskStep_neither {phase : TaskPhase} {event : TaskEvent}
    (h : taskStep phase event = some (.finished .neither)) :
    event = .cancelled ∨ event = .enqueued .lost := by
  unfold taskStep at h
  split at h
  · cases h
  · cases h
  · cases h
  · exact .inl rfl
  · rename_i ended
    cases ended with
    | lost => exact .inr rfl
    | returned | raisedAfterCommit => cases h
  · cases h

theorem lost_task {m : Nat} {event : TaskEvent}
    (hstep : busStep settings s (.task m event) = some t) :
    t.Lost n ↔ s.Lost n ∨ s.Losing settings (.task m event) n := by
  obtain ⟨delivery, hrow, hmoved⟩ := Option.bind_eq_some_iff.mp hstep
  obtain ⟨phase, hphase, rfl⟩ := Option.map_eq_some_iff.mp hmoved
  by_cases hself : n = m
  · subst hself
    have hself : (s.tasks.deliveries.update n fun d => { d with phase := phase }).row n =
        some { delivery with phase := phase } := by
      rw [AutoTable.row_update_self, hrow]
      rfl
    have hbefore : ¬s.Lost n := by
      rintro ⟨d, hd, hlost⟩
      cases hrow.symm.trans hd
      rw [hlost] at hphase
      cases event <;> cases hphase
    rw [or_iff_right hbefore]
    constructor
    · rintro ⟨d, hd, hlost⟩
      cases hself.symm.trans hd
      obtain rfl : phase = .finished .neither := hlost
      rcases taskStep_neither hphase with rfl | rfl <;> rfl
    · intro hlosing
      refine ⟨_, hself, ?_⟩
      show phase = .finished .neither
      cases event with
      | begins | returns | raises => cases hlosing
      | cancelled =>
          cases hbusy : delivery.phase <;> rw [hbusy] at hphase <;> cases hphase
          rfl
      | enqueued ended =>
          cases ended with
          | returned | raisedAfterCommit => cases hlosing
          | lost =>
              cases hbusy : delivery.phase <;> rw [hbusy] at hphase <;> cases hphase
              rfl
  · have hnot : ¬s.Losing settings (.task m event) n := by
      intro hlosing
      cases event with
      | begins | returns | raises => cases hlosing
      | cancelled => exact hself hlosing.symm
      | enqueued ended =>
          cases ended with
          | returned | raisedAfterCommit => cases hlosing
          | lost => exact hself hlosing.symm
    rw [or_iff_left hnot]
    show (∃ d, (s.tasks.deliveries.update m _).row n = some d ∧ _) ↔ _
    rw [AutoTable.row_update_of_ne _ _ hself]
    exact Iff.rfl

theorem deliveries_afterTasks (w : Nat) :
    (s.afterTasks w).tasks.deliveries = s.tasks.deliveries := rfl

theorem deliveries_afterLoop (w : Nat) :
    (s.afterLoop w).tasks.deliveries = cancelAll s.tasks.deliveries s.tasks.pendingTasks := by
  unfold Bus.afterLoop
  cases s.tasks.pendingTasks <;> rfl

theorem lost_stopResumes {w : Nat} (hstep : s.stopResumes w = some t) :
    t.Lost n ↔ s.Lost n ∨ s.Losing settings (.stopResumes w) n := by
  have hlater : s.stops w ≠ .awaitingLoop → ¬s.Losing settings (.stopResumes w) n :=
    fun hne hlosing => hne hlosing.1
  rcases stopResumes_cases hstep with ⟨hphase, hloop, rfl⟩ | ⟨awaited, hphase, -, rfl⟩ |
    ⟨awaited, hphase, -, rfl⟩ | ⟨hphase, rfl⟩
  · have hrow := cancelAll_row s.tasks.deliveries s.tasks.pendingTasks n
    unfold Bus.Lost
    rw [deliveries_afterLoop, hrow]
    by_cases hmem : n ∈ s.tasks.pendingTasks
    · rw [if_pos hmem]
      constructor
      · rintro ⟨delivery, hd, hlost⟩
        obtain ⟨before, hbefore, rfl⟩ := Option.map_eq_some_iff.mp hd
        by_cases hcreated : before.phase = .created
        · exact .inr ⟨hphase, hmem, before, hbefore, hcreated⟩
        · rw [Delivery.cancel, if_neg hcreated] at hlost
          exact .inl ⟨before, hbefore, hlost⟩
      · rintro (⟨before, hbefore, hlost⟩ | ⟨-, -, before, hbefore, hcreated⟩)
        · refine ⟨before.cancel, by rw [hbefore]; rfl, ?_⟩
          rw [Delivery.cancel, if_neg (by rw [hlost]; exact nofun)]
          exact hlost
        · refine ⟨before.cancel, by rw [hbefore]; rfl, ?_⟩
          rw [Delivery.cancel, if_pos hcreated]
    · rw [if_neg hmem]
      exact (or_iff_left fun hlosing => hmem hlosing.2.1).symm
  · rw [or_iff_left (hlater (by rw [hphase]; exact nofun))]
    exact lost_of_deliveries (deliveries_afterTasks w)
  · rw [or_iff_left (hlater (by rw [hphase]; exact nofun))]
    exact lost_of_deliveries rfl
  · rw [or_iff_left (hlater (by rw [hphase]; exact nofun))]
    exact lost_of_deliveries rfl

theorem step_deliveries {act : BusAction Payload} (hstep : busStep settings s act = some t) :
    (t.tasks.deliveries = s.tasks.deliveries ∧ ∀ n, ¬s.Losing settings act n) ∨
      act = .dispatchLoop ∨ (∃ m event, act = .task m event) ∨ ∃ w, act = .stopResumes w := by
  cases moves_of_busStep hstep with
  | subscribes | unsubscribes | publishRaises | publishWaits | accepts | putterAccepts
  | putterLeaves | discards | stopsLate | stopCancels | stopPosts => exact .inl ⟨rfl, fun _ => id⟩
  | dispatches => exact .inr (.inl rfl)
  | @taskMoves m event => exact .inr (.inr (.inl ⟨m, event, rfl⟩))
  | @resumes w => exact .inr (.inr (.inr ⟨w, rfl⟩))

theorem lost_step {act : BusAction Payload} (hstep : busStep settings s act = some t) :
    t.Lost n ↔ s.Lost n ∨ s.Losing settings act n := by
  rcases step_deliveries hstep with ⟨hsame, hnot⟩ | rfl | ⟨m, event, rfl⟩ | ⟨w, rfl⟩
  · rw [or_iff_left (hnot n)]
    exact lost_of_deliveries hsame
  · exact lost_dispatchLoop hstep
  · exact lost_task hstep
  · exact lost_stopResumes hstep

/-- A delivery stays what it is, and one that has ended stays ended. -/
theorem delivery_kept {act : BusAction Payload} (hstep : busStep settings s act = some t)
    {delivery : Delivery Payload} (hrow : s.tasks.deliveries.row n = some delivery) :
    ∃ later, t.tasks.deliveries.row n = some later ∧ later.event = delivery.event ∧
      later.callback = delivery.callback ∧
      ∀ outcome, delivery.phase = .finished outcome → later.phase = .finished outcome := by
  rcases step_deliveries hstep with ⟨hsame, -⟩ | rfl | ⟨m, event, rfl⟩ | ⟨w, rfl⟩
  · rw [hsame]
    exact ⟨delivery, hrow, rfl, rfl, fun _ => id⟩
  · obtain ⟨rest, loop, rfl, -⟩ := dispatchLoop_spec settings hstep
    obtain ⟨-, hold, -⟩ := deliverAll_spec s.tasks (s.matched settings)
    exact ⟨delivery, (hold n (AutoTable.lt_next hrow)).trans hrow, rfl, rfl, fun _ => id⟩
  · obtain ⟨before, hbefore, hmoved⟩ := Option.bind_eq_some_iff.mp hstep
    obtain ⟨phase, hphase, rfl⟩ := Option.map_eq_some_iff.mp hmoved
    by_cases hself : n = m
    · subst hself
      cases hrow.symm.trans hbefore
      refine ⟨{ delivery with phase := phase }, ?_, rfl, rfl, fun outcome hended => ?_⟩
      · show (s.tasks.deliveries.update n _).row n = _
        rw [AutoTable.row_update_self, hrow]
        rfl
      · rw [hended] at hphase
        cases event <;> cases hphase
    · exact ⟨delivery, (AutoTable.row_update_of_ne _ _ hself).trans hrow, rfl, rfl, fun _ => id⟩
  · have hdeliveries : t.tasks.deliveries = s.tasks.deliveries ∨
        t.tasks.deliveries = cancelAll s.tasks.deliveries s.tasks.pendingTasks := by
      rcases stopResumes_cases hstep with ⟨-, -, rfl⟩ | ⟨-, -, -, rfl⟩ | ⟨-, -, -, rfl⟩ | ⟨-, rfl⟩
      · exact .inr (deliveries_afterLoop w)
      · exact .inl (deliveries_afterTasks w)
      · exact .inl rfl
      · exact .inl rfl
    rcases hdeliveries with hsame | hcancel
    · rw [hsame]
      exact ⟨delivery, hrow, rfl, rfl, fun _ => id⟩
    · rw [hcancel, cancelAll_row, hrow, Option.map_some]
      by_cases hmem : n ∈ s.tasks.pendingTasks
      · rw [if_pos hmem]
        by_cases hcreated : delivery.phase = .created
        · refine ⟨delivery.cancel, rfl, ?_, ?_, fun outcome hended => ?_⟩
          · rw [Delivery.cancel, if_pos hcreated]
          · rw [Delivery.cancel, if_pos hcreated]
          · rw [hcreated] at hended
            cases hended
        · refine ⟨delivery, ?_, rfl, rfl, fun _ => id⟩
          rw [Delivery.cancel, if_neg hcreated]
      · rw [if_neg hmem]
        exact ⟨delivery, rfl, rfl, rfl, fun _ => id⟩

theorem abandoned_of_same (hloop : t.loop = s.loop) (hdispatched : t.dispatched = s.dispatched)
    (haccepted : t.accepted = s.accepted) : t.Abandoned i ↔ s.Abandoned i := by
  unfold Bus.Abandoned
  rw [hloop, hdispatched, haccepted]

theorem abandoned_accept (h : s.Sound) (event : Event Payload) :
    (s.accept event).Abandoned i ↔
      s.Abandoned i ∨ s.loop = .ended ∧ i = s.accepted.length := by
  have hle := h.dispatched_le
  have hlength : (s.accept event).accepted.length = s.accepted.length + 1 := List.length_append
  constructor
  · rintro ⟨hloop, hdispatched, hi⟩
    rw [hlength] at hi
    by_cases hlast : i = s.accepted.length
    · exact .inr ⟨hloop, hlast⟩
    · exact .inl ⟨hloop, hdispatched, by omega⟩
  · rintro (⟨hloop, hdispatched, hi⟩ | ⟨hloop, rfl⟩)
    · exact ⟨hloop, hdispatched, by omega⟩
    · exact ⟨hloop, hle, by omega⟩

theorem abandoned_dispatchLoop (h : s.Sound) (hstep : s.dispatchLoop settings = some t) :
    t.Abandoned i ↔ s.Abandoned i ∨ s.Abandoning settings .dispatchLoop i := by
  obtain ⟨rest, loop, rfl, hloop, -, hopen, hstopped⟩ := dispatchLoop_spec settings hstep
  have hbefore : ¬s.Abandoned i := fun habandoned => hloop habandoned.1
  rw [or_iff_right hbefore]
  by_cases hrunning : s.running = true
  · obtain ⟨hgetting, -⟩ := hopen hrunning (h.running hrunning).1
    constructor
    · rintro ⟨hended, -⟩
      exact nomatch hgetting.symm.trans hended
    · rintro ⟨hnot, -⟩
      rw [hrunning] at hnot
      cases hnot
  · have hfalse : s.running = false := eq_false_of_ne_true hrunning
    constructor
    · rintro ⟨-, hdispatched, hi⟩
      exact ⟨hfalse, hdispatched, hi⟩
    · rintro ⟨-, hdispatched, hi⟩
      exact ⟨hstopped hfalse, hdispatched, hi⟩

theorem abandoned_stopResumes {w : Nat} (hstep : s.stopResumes w = some t) :
    t.Abandoned i ↔ s.Abandoned i := by
  rcases stopResumes_cases hstep with ⟨-, -, rfl⟩ | ⟨-, -, -, rfl⟩ | ⟨-, -, -, rfl⟩ | ⟨-, rfl⟩
  · unfold Bus.afterLoop
    cases s.tasks.pendingTasks <;> exact abandoned_of_same rfl rfl rfl
  · exact abandoned_of_same rfl rfl rfl
  · exact abandoned_of_same rfl rfl rfl
  · exact abandoned_of_same rfl rfl rfl

theorem abandoned_step (h : s.Sound) {act : BusAction Payload}
    (hstep : busStep settings s act = some t) :
    t.Abandoned i ↔ s.Abandoned i ∨ s.Abandoning settings act i := by
  cases moves_of_busStep hstep with
  | subscribes | unsubscribes | publishRaises | publishWaits => exact (or_iff_left id).symm
  | accepts hrunning =>
      -- A bus that runs has a loop that still will take the event.
      have hloop : s.loop ≠ .ended := (h.running hrunning).2
      refine Iff.trans ?_ (or_iff_left id).symm
      exact ⟨fun hafter => absurd hafter.1 hloop, fun hbefore => absurd hbefore.1 hloop⟩
  | @putterAccepts _ event => exact abandoned_accept h event
  | putterLeaves => exact (or_iff_left id).symm
  | dispatches hloop => exact abandoned_dispatchLoop h hloop
  | @taskMoves n event => cases event <;> exact (or_iff_left id).symm
  | discards => exact (or_iff_left id).symm
  | @stopsLate w htask =>
      have hnot : ¬s.Abandoning settings (.stop w) i :=
        fun habandoning => nomatch htask.symm.trans habandoning.1
      exact (or_iff_left hnot).symm
  | stopCancels htask hfull =>
      constructor
      · rintro ⟨-, hdispatched, hi⟩
        exact .inr ⟨htask, hfull, hdispatched, hi⟩
      · rintro (⟨-, hdispatched, hi⟩ | ⟨-, -, hdispatched, hi⟩)
        · exact ⟨rfl, hdispatched, hi⟩
        · exact ⟨rfl, hdispatched, hi⟩
  | stopPosts hroom => exact (or_iff_left fun habandoning => hroom habandoning.2.1).symm
  | resumes hresumes => exact (abandoned_stopResumes hresumes).trans (or_iff_left id).symm

theorem dispatches_dispatchLoop (h : s.Sound) (hstep : s.dispatchLoop settings = some t) :
    Dispatches settings s t := by
  obtain ⟨rest, loop, rfl, -, hqueue, -⟩ := dispatchLoop_spec settings hstep
  obtain ⟨-, -, hnew⟩ := deliverAll_spec s.tasks (s.matched settings)
  refine ⟨?_, rfl, fun k event callback hpair => ⟨_, hnew k event callback hpair, rfl, rfl⟩⟩
  rw [h.queued, hqueue, List.take_left]

theorem accounted_step (h : s.Sound) {act : BusAction Payload}
    (hstep : busStep settings s act = some t) : Accounted settings s act t where
  lost _ := lost_step hstep
  abandoned _ := abandoned_step h hstep
  dispatches hact := by
    subst hact
    exact dispatches_dispatchLoop h hstep
  kept _ _ hrow := delivery_kept hstep hrow
  returned w hreturned := by
    have ht : t.Sound := sound_step h hstep
    have hended : t.loop = .ended := by
      have hstop := ht.stops w
      rw [hreturned] at hstop
      exact hstop.1
    refine ⟨fun i hi => ?_, fun n delivery hrow => ht.finished hreturned hrow⟩
    by_cases hdispatched : i < t.dispatched
    · exact .inl hdispatched
    · exact .inr ⟨hended, by omega, hi⟩

end Losses

/-- **The account of a run.**  Along every run from `start` on, in any interleaving of
publishers, dispatch loop, tasks and `stop` calls, each step loses exactly the deliveries
and events it names, the loop dispatches in order to all subscriptions that match, and
nothing is outstanding once `stop` has returned. -/
theorem delivery_accounted (settings : BusSettings) (subscriptions : List Subscription)
    (handlerIndex : String → Option Subscriber) (schedule : List (BusAction Payload)) :
    Runs.Always (busStep settings) (Accounted settings)
      (Bus.started subscriptions handlerIndex) schedule := by
  have hsound : Runs.Throughout (busStep settings) Bus.Sound
      (Bus.started subscriptions handlerIndex) schedule :=
    Runs.throughout_of_step (fun _ _ _ h hstep => sound_step h hstep)
      (sound_started subscriptions handlerIndex) schedule
  refine Runs.Always.of_throughout (C := fun _ _ _ => True) ?_ hsound
    (Runs.always_of_forall_mem (fun _ _ _ _ _ => trivial) _)
  intro s act t h hstep _
  exact accounted_step h hstep

def roomyBus : BusSettings := ⟨1024, fun _ _ => true⟩

def listener : Subscriber := ⟨0, "tests", some "listener", "<listener>"⟩

def news (payload : String) : Event String := ⟨"news", payload, 0, "source"⟩

/-- Two events are in the queue when `stop` is called. -/
def stopsWithQueue : List (BusAction String) :=
  [.dispatchLoop, .publish (news "first"), .publish (news "second"), .stop 0]

/-- A callback runs when `stop` is called. -/
def stopsWithCallback : List (BusAction String) :=
  [.dispatchLoop, .publish (news "first"), .dispatchLoop, .task 1 .begins, .stop 0,
    .dispatchLoop, .stopResumes 0]

theorem losesNothing_counterexample :
    ¬Runs.Always (busStep roomyBus) (fun _ _ t => t.LosesNothing)
        (Bus.started [("*", listener)] fun _ => none) (stopsWithQueue ++ [.dispatchLoop]) ∧
      ¬Runs.Always (busStep roomyBus) (fun _ _ t => t.LosesNothing)
        (Bus.started [("*", listener)] fun _ => none)
        (stopsWithCallback ++ [.task 1 .cancelled]) := by
  refine ⟨fun h => ?_, fun h => ?_⟩
  · have hlast := h.at_prefix rfl rfl
    exact hlast.2 1 ⟨rfl, by decide, by decide⟩
  · have hlast := h.at_prefix rfl rfl
    exact hlast.1 1 ⟨_, rfl, rfl⟩

end SkyClaw.Core.EventBus
