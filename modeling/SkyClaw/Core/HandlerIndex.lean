import SkyClaw.Core.BusInvariant
import SkyClaw.Core.DlqColumns
import SkyClaw.Core.RetryAccounting

/-!
# The handler index

`create_bus_with_dlq` lets the retry worker look its handlers up in `_handler_index` of
the bus, under the name stored with the row.  The index keeps one callback per name,
and `unsubscribe` removes the name whatever else carries it.  `faithful_iff` says when
the index is right about who is subscribed and the retries reach the callback that
failed.
-/

namespace SkyClaw.Core

open Function

namespace Dlq

variable {Payload : Type}

/-! ## Handler names in the queue -/

/-- Every row was there before under the same handler name. -/
def SameNames (before after : DLQTable Payload) : Prop :=
  ∀ id r, after.row id = some r → ∃ q, before.row id = some q ∧ q.handlerName = r.handlerName

theorem workerStep_names {maxAttempts now : Int} {settings : DLQSettings}
    {table : DLQTable Payload} {phase : WorkerPhase Payload} {event : WorkerEvent}
    {moved : Moved Payload}
    (h : workerStep maxAttempts settings now table phase event = some moved) :
    SameNames table moved.table ∧ ∀ row ∈ moved.phase.copies, row ∈ phase.copies ∨
      ∃ q, table.row row.id = some q ∧ q.handlerName = row.handlerName := by
  constructor
  · intro id r hr
    obtain ⟨q, hq, -, hname⟩ := workerStep_sameEntries h id r hr
    exact ⟨q, hq, hname.symm⟩
  · intro row hrow
    rcases workerStep_copies h row hrow with hold | hstored
    · exact .inl hold
    · exact .inr ⟨row.toDLQRecord, hstored, rfl⟩

end Dlq

namespace EventBus

open Dlq (Event StatementEnd DLQTable DLQRow DLQSettings WorkerPhase WorkerEvent)

variable {Payload : Type}

/-! ## The bus with its dead letter queue -/

/-- The bus and its queue, with the callback whose failure made each row and the
callbacks that retries have invoked. -/
structure Wired (Payload : Type) where
  bus : Bus Payload
  dlq : Dlq.State Payload
  origin : Nat → Option Subscriber
  retries : List (Nat × Subscriber)

inductive WiredAction (Payload : Type)
  /-- Anything the bus does but a dead-letter insert. -/
  | bus (act : BusAction Payload)
  /-- Delivery `n` is dead-lettered. -/
  | deadLetter (n : Nat) (readAt : Int) (errorType errorMessage : String) (ended : StatementEnd)
  | tick (now : Int)
  /-- Anything the retry worker does but looking up a handler. -/
  | worker (event : WorkerEvent)
  | resolve

structure WiredSettings where
  bus : BusSettings
  dlq : DLQSettings
  maxAttempts : Int

def Wired.initial (now : Int) : Wired Payload :=
  { bus := Bus.started [] fun _ => none
    dlq := Dlq.State.initial now AutoTable.empty
    origin := fun _ => none
    retries := [] }

/-- The row is there unless the insert was lost. -/
def Wired.originAfter (s : Wired Payload) (callback : Subscriber) (ended : StatementEnd) :
    Nat → Option Subscriber :=
  ended.leaves s.origin (update s.origin s.dlq.table.next (some callback))

/-- One step of the bus or of the queue. -/
def wiredStep (settings : WiredSettings) (s : Wired Payload) :
    WiredAction Payload → Option (Wired Payload)
  | .bus (.task _ (.enqueued _)) => none
  | .bus act => (busStep settings.bus s.bus act).map fun bus => { s with bus := bus }
  | .deadLetter n readAt errorType errorMessage ended =>
      (s.bus.tasks.deliveries.row n).bind fun delivery =>
        (busStep settings.bus s.bus (.task n (.enqueued ended))).bind fun bus =>
          (Dlq.step settings.maxAttempts (fun _ => settings.dlq) s.dlq
              (.enqueue 0 readAt delivery.event delivery.callback.handlerName errorType
                errorMessage ended)).map fun dlq =>
            { s with bus := bus, dlq := dlq, origin := s.originAfter delivery.callback ended }
  | .tick now =>
      (Dlq.step settings.maxAttempts (fun _ => settings.dlq) s.dlq (.tick now)).map fun dlq =>
        { s with dlq := dlq }
  | .worker (.resolve _) => none
  | .worker event =>
      (Dlq.step settings.maxAttempts (fun _ => settings.dlq) s.dlq (.worker 0 event)).map
        fun dlq => { s with dlq := dlq }
  | .resolve =>
      match s.dlq.phase 0 with
      | .resolving row _ =>
          -- `handler_resolver=bus._handler_index.get`
          match s.bus.handlerIndex row.handlerName with
          | some callback =>
              (Dlq.step settings.maxAttempts (fun _ => settings.dlq) s.dlq
                (.worker 0 (.resolve .registered))).map fun dlq =>
                  { s with dlq := dlq, retries := (row.id, callback) :: s.retries }
          | none =>
              (Dlq.step settings.maxAttempts (fun _ => settings.dlq) s.dlq
                (.worker 0 (.resolve .unregistered))).map fun dlq => { s with dlq := dlq }
      | .stopped | .recovering _ | .idle | .fetching _ | .batch _ | .claiming _ _ _
      | .handling _ _ | .settling _ _ _ => none

/-- A name resolves exactly when a subscribed callback carries it, and every retry
invoked the callback whose failure made its row. -/
structure Faithful (s : Wired Payload) : Prop where
  index : ∀ name, s.bus.handlerIndex name ≠ none ↔
    ∃ subscription ∈ s.bus.subscriptions, subscription.2.handlerName = name
  retries : ∀ id callback, (id, callback) ∈ s.retries → s.origin id = some callback

/-- The callback subscribed last under a name, of those still subscribed. -/
def lastNamed (subscriptions : List Subscription) (name : String) : Option Subscriber :=
  (subscriptions.filter fun subscription => subscription.2.handlerName = name).getLast?.map
    (·.2)

/-- The condition on a step.  `unsubscribe` leaves no subscription with the callback's
name; and when a row's handler is looked up, no other callback with the name of the
one that failed is subscribed after it. -/
def Unambiguous (s : Wired Payload) (act : WiredAction Payload) (_t : Wired Payload) : Prop :=
  match act with
  | .bus (.unsubscribe pattern callback) =>
      ∀ subscription ∈ s.bus.subscriptions.erase (pattern, callback),
        subscription.2.handlerName ≠ callback.handlerName
  | .resolve =>
      ∀ row rest failed, s.dlq.phase 0 = .resolving row rest → s.origin row.id = some failed →
        ∀ last, lastNamed s.bus.subscriptions failed.handlerName = some last → last = failed
  | _ => True

section Names

variable {subscriptions : List Subscription} {name : String}

theorem lastNamed_eq_none :
    lastNamed subscriptions name = none ↔
      ∀ subscription ∈ subscriptions, subscription.2.handlerName ≠ name := by
  simp [lastNamed]

theorem lastNamed_append (pattern : String) (callback : Subscriber) :
    lastNamed (subscriptions ++ [(pattern, callback)]) name =
      if callback.handlerName = name then some callback else lastNamed subscriptions name := by
  unfold lastNamed
  rw [List.filter_append]
  by_cases hname : callback.handlerName = name
  · rw [if_pos hname, List.filter_cons_of_pos (by simpa using hname), List.filter_nil,
      List.getLast?_append]
    rfl
  · rw [if_neg hname, List.filter_cons_of_neg (by simpa using hname), List.filter_nil,
      List.append_nil]

theorem filter_erase_of_not {α : Type} [BEq α] [LawfulBEq α] {q : α → Bool} {x : α}
    (hq : q x = false) (xs : List α) : (xs.erase x).filter q = xs.filter q := by
  induction xs with
  | nil => rfl
  | cons y ys ih =>
      by_cases hself : y = x
      · subst hself
        rw [List.erase_cons_head, List.filter_cons_of_neg (by rw [hq]; exact Bool.false_ne_true)]
      · rw [List.erase_cons_tail (by simpa using hself), List.filter_cons, List.filter_cons, ih]

theorem lastNamed_erase {pattern : String} {callback : Subscriber}
    (hname : callback.handlerName ≠ name) :
    lastNamed (subscriptions.erase (pattern, callback)) name = lastNamed subscriptions name := by
  unfold lastNamed
  rw [filter_erase_of_not (by simpa using hname)]

end Names

/-! ## The invariant -/

/-- The callback whose failure made row `id` has this name. -/
def Wired.MadeUnder (s : Wired Payload) (id : Nat) (name : String) : Prop :=
  ∃ callback, s.origin id = some callback ∧ callback.handlerName = name

/-- Every row, stored or copied, carries the name of the callback that failed; and the
index holds the callback subscribed last under a name. -/
structure Wired.Sound (s : Wired Payload) : Prop where
  rows : ∀ id r, s.dlq.table.row id = some r → s.MadeUnder id r.handlerName
  copies : ∀ row ∈ (s.dlq.phase 0).copies, s.MadeUnder row.id row.handlerName
  unborn : ∀ id, s.dlq.table.next ≤ id → s.origin id = none
  index : ∀ name, s.bus.handlerIndex name = lastNamed s.bus.subscriptions name

theorem Wired.Sound.resolves {s : Wired Payload} (h : s.Sound) (name : String) :
    s.bus.handlerIndex name ≠ none ↔
      ∃ subscription ∈ s.bus.subscriptions, subscription.2.handlerName = name := by
  rw [h.index, ne_eq, lastNamed_eq_none]
  simp only [ne_eq, not_forall, not_not, exists_prop]

theorem sound_wired (now : Int) : (Wired.initial now : Wired Payload).Sound where
  rows _ _ hr := nomatch hr
  copies _ hrow := nomatch hrow
  unborn _ _ := rfl
  index _ := rfl

section Steps

variable {settings : WiredSettings} {s t : Wired Payload}

/-- Only `subscribe` and `unsubscribe` touch the subscriptions and the index. -/
theorem busStep_index {settings : BusSettings} {b b' : Bus Payload} {act : BusAction Payload}
    (hstep : busStep settings b act = some b')
    (hsubscribe : ∀ pattern callback, act ≠ .subscribe pattern callback)
    (hunsubscribe : ∀ pattern callback, act ≠ .unsubscribe pattern callback) :
    b'.subscriptions = b.subscriptions ∧ b'.handlerIndex = b.handlerIndex := by
  cases moves_of_busStep hstep with
  | @subscribes pattern callback => exact absurd rfl (hsubscribe pattern callback)
  | @unsubscribes pattern callback => exact absurd rfl (hunsubscribe pattern callback)
  | publishRaises | publishWaits | accepts | putterAccepts | putterLeaves | taskMoves | discards
  | stopsLate | stopCancels | stopPosts => exact ⟨rfl, rfl⟩
  | dispatches hloop =>
      obtain ⟨rest, loop, rfl, -⟩ := dispatchLoop_spec settings hloop
      exact ⟨rfl, rfl⟩
  | resumes hresumes =>
      rcases stopResumes_cases hresumes with ⟨-, -, rfl⟩ | ⟨-, -, -, rfl⟩ | ⟨-, -, -, rfl⟩ |
        ⟨-, rfl⟩
      · unfold Bus.afterLoop
        cases b.tasks.pendingTasks <;> exact ⟨rfl, rfl⟩
      · exact ⟨rfl, rfl⟩
      · exact ⟨rfl, rfl⟩
      · exact ⟨rfl, rfl⟩

theorem sound_moved (h : s.Sound) {event : WorkerEvent} {moved : Dlq.Moved Payload}
    (hmoved : Dlq.workerStep settings.maxAttempts settings.dlq s.dlq.now s.dlq.table
      (s.dlq.phase 0) event = some moved) (retries : List (Nat × Subscriber)) :
    ({ s with dlq := s.dlq.after 0 moved, retries := retries } : Wired Payload).Sound := by
  obtain ⟨hnames, hcopies⟩ := Dlq.workerStep_names hmoved
  have hrows : ∀ id name, (∃ q, s.dlq.table.row id = some q ∧ q.handlerName = name) →
      s.MadeUnder id name := by
    rintro id name ⟨q, hq, rfl⟩
    exact h.rows id q hq
  constructor
  · exact fun id r hr => hrows id r.handlerName (hnames id r hr)
  · intro row hrow
    rw [Dlq.phase_after_self] at hrow
    rcases hcopies row hrow with hold | hstored
    · exact h.copies row hold
    · exact hrows row.id row.handlerName hstored
  · intro id hid
    have hnext : moved.table.next = s.dlq.table.next := Dlq.workerStep_next hmoved
    exact h.unborn id (hnext ▸ hid)
  · exact h.index

/-- The failure of a callback is written, or lost. -/
theorem sound_originAfter (h : s.Sound) {callback : Subscriber} {r : Dlq.DLQRecord Payload}
    (hname : r.handlerName = callback.handlerName) (ended : StatementEnd) :
    ({ s with
        dlq := { s.dlq with table := ended.leaves s.dlq.table (s.dlq.table.insert r) }
        origin := s.originAfter callback ended } : Wired Payload).Sound := by
  have hkept : ∀ {id name}, s.MadeUnder id name → ∃ failed,
      update s.origin s.dlq.table.next (some callback) id = some failed ∧
        failed.handlerName = name := by
    rintro id name ⟨failed, hfailed, hfailedName⟩
    have hne : id ≠ s.dlq.table.next := by
      rintro rfl
      rw [h.unborn _ (Nat.le_refl _)] at hfailed
      cases hfailed
    exact ⟨failed, (update_of_ne hne _ _).trans hfailed, hfailedName⟩
  have hwritten : ({ s with
      dlq := { s.dlq with table := s.dlq.table.insert r }
      origin := update s.origin s.dlq.table.next (some callback) } :
        Wired Payload).Sound := by
    constructor
    · intro id q hq
      rcases AutoTable.row_insert_eq_some hq with hold | ⟨rfl, rfl⟩
      · exact hkept (h.rows id q hold)
      · exact ⟨callback, update_self _ _ _, hname.symm⟩
    · exact fun row hrow => hkept (h.copies row hrow)
    · intro id hid
      have hlt : s.dlq.table.next + 1 ≤ id := hid
      have hne : id ≠ s.dlq.table.next := by omega
      exact (update_of_ne hne _ _).trans (h.unborn id (by omega))
    · exact h.index
  cases ended with
  | lost => exact h
  | returned | raisedAfterCommit => exact hwritten

theorem sound_bus (h : s.Sound) {bus : Bus Payload}
    (hbus : bus.subscriptions = s.bus.subscriptions ∧ bus.handlerIndex = s.bus.handlerIndex) :
    ({ s with bus := bus } : Wired Payload).Sound :=
  ⟨h.rows, h.copies, h.unborn, fun name => by
    show bus.handlerIndex name = lastNamed bus.subscriptions name
    rw [hbus.1, hbus.2]
    exact h.index name⟩

theorem sound_subscribe (h : s.Sound) (pattern : String) (callback : Subscriber) :
    ({ s with bus := s.bus.subscribe pattern callback } : Wired Payload).Sound := by
  refine ⟨h.rows, h.copies, h.unborn, fun name => ?_⟩
  show update s.bus.handlerIndex callback.handlerName (some callback) name =
    lastNamed (s.bus.subscriptions ++ [(pattern, callback)]) name
  rw [lastNamed_append]
  by_cases hname : callback.handlerName = name
  · rw [if_pos hname, ← hname, update_self]
  · rw [if_neg hname, update_of_ne fun heq => hname heq.symm]
    exact h.index name

theorem sound_unsubscribe (h : s.Sound) {pattern : String} {callback : Subscriber}
    (hnone : ∀ subscription ∈ s.bus.subscriptions.erase (pattern, callback),
      subscription.2.handlerName ≠ callback.handlerName) :
    ({ s with bus := s.bus.unsubscribe pattern callback } : Wired Payload).Sound := by
  refine ⟨h.rows, h.copies, h.unborn, fun name => ?_⟩
  show update s.bus.handlerIndex callback.handlerName none name =
    lastNamed (s.bus.subscriptions.erase (pattern, callback)) name
  by_cases hname : callback.handlerName = name
  · subst hname
    rw [update_self]
    exact (lastNamed_eq_none.mpr hnone).symm
  · rw [update_of_ne fun heq => hname heq.symm, lastNamed_erase hname]
    exact h.index name

/-- What looking up a handler does. -/
theorem resolve_cases (hstep : wiredStep settings s .resolve = some t) :
    ∃ row rest, s.dlq.phase 0 = .resolving row rest ∧ ∃ answer moved,
      Dlq.workerStep settings.maxAttempts settings.dlq s.dlq.now s.dlq.table (s.dlq.phase 0)
          (.resolve answer) = some moved ∧
        t = { s with
          dlq := s.dlq.after 0 moved
          retries := ((s.bus.handlerIndex row.handlerName).map fun callback =>
            (row.id, callback)).toList ++ s.retries } := by
  simp only [wiredStep] at hstep
  cases hphase : s.dlq.phase 0 with
  | resolving row rest =>
      simp only [hphase] at hstep
      cases hindex : s.bus.handlerIndex row.handlerName with
      | some callback =>
          simp only [hindex, Dlq.step, hphase, Option.map_map, Option.map_eq_some_iff] at hstep
          obtain ⟨moved, hmoved, rfl⟩ := hstep
          exact ⟨row, rest, rfl, .registered, moved, hmoved, by rw [hindex]; rfl⟩
      | none =>
          simp only [hindex, Dlq.step, hphase, Option.map_map, Option.map_eq_some_iff] at hstep
          obtain ⟨moved, hmoved, rfl⟩ := hstep
          exact ⟨row, rest, rfl, .unregistered, moved, hmoved, by rw [hindex]; rfl⟩
  | stopped | recovering | idle | fetching | batch | claiming | handling | settling =>
      simp only [hphase] at hstep
      cases hstep

theorem bus_spec {act : BusAction Payload} (hstep : wiredStep settings s (.bus act) = some t) :
    ∃ bus, busStep settings.bus s.bus act = some bus ∧ t = { s with bus := bus } := by
  cases act
  case task n event =>
    cases event
    case enqueued ended => cases hstep
    all_goals
      simp only [wiredStep, Option.map_eq_some_iff] at hstep
      obtain ⟨bus, hbus, rfl⟩ := hstep
      exact ⟨bus, hbus, rfl⟩
  all_goals
    simp only [wiredStep, Option.map_eq_some_iff] at hstep
    obtain ⟨bus, hbus, rfl⟩ := hstep
    exact ⟨bus, hbus, rfl⟩

theorem worker_spec {event : WorkerEvent} (hstep : wiredStep settings s (.worker event) = some t) :
    ∃ moved, Dlq.workerStep settings.maxAttempts settings.dlq s.dlq.now s.dlq.table
        (s.dlq.phase 0) event = some moved ∧ t = { s with dlq := s.dlq.after 0 moved } := by
  cases event
  case resolve answer => cases hstep
  all_goals
    simp only [wiredStep, Option.map_eq_some_iff] at hstep
    obtain ⟨dlq, hdlq, rfl⟩ := hstep
    obtain ⟨moved, hmoved, rfl⟩ := Option.map_eq_some_iff.mp hdlq
    exact ⟨moved, hmoved, rfl⟩

/-- **The invariant is kept** by a step that meets the condition. -/
theorem sound_wiredStep (h : s.Sound) {act : WiredAction Payload}
    (hstep : wiredStep settings s act = some t) (hcond : Unambiguous s act t) : t.Sound := by
  cases act with
  | bus act =>
      obtain ⟨bus, hbus, rfl⟩ := bus_spec hstep
      by_cases hsubscribe : ∃ pattern callback, act = .subscribe pattern callback
      · obtain ⟨pattern, callback, rfl⟩ := hsubscribe
        cases hbus
        exact sound_subscribe h pattern callback
      · by_cases hunsubscribe : ∃ pattern callback, act = .unsubscribe pattern callback
        · obtain ⟨pattern, callback, rfl⟩ := hunsubscribe
          cases hbus
          exact sound_unsubscribe h hcond
        · refine sound_bus h (busStep_index hbus ?_ ?_)
          · exact fun pattern callback heq => hsubscribe ⟨pattern, callback, heq⟩
          · exact fun pattern callback heq => hunsubscribe ⟨pattern, callback, heq⟩
  | deadLetter n readAt errorType errorMessage ended =>
      obtain ⟨delivery, -, hrest⟩ := Option.bind_eq_some_iff.mp hstep
      obtain ⟨bus, hbus, hrest⟩ := Option.bind_eq_some_iff.mp hrest
      obtain ⟨dlq, hdlq, rfl⟩ := Option.map_eq_some_iff.mp hrest
      simp only [Dlq.step] at hdlq
      split at hdlq
      · cases hdlq
        have hindex := busStep_index hbus (by intro _ _ heq; cases heq)
          (by intro _ _ heq; cases heq)
        refine sound_bus (sound_originAfter h ?_ ended) hindex
        rfl
      · cases hdlq
  | tick now =>
      obtain ⟨dlq, hdlq, rfl⟩ := Option.map_eq_some_iff.mp hstep
      simp only [Dlq.step] at hdlq
      split at hdlq
      · cases hdlq
        exact ⟨h.rows, h.copies, h.unborn, h.index⟩
      · cases hdlq
  | worker event =>
      obtain ⟨moved, hmoved, rfl⟩ := worker_spec hstep
      exact sound_moved h hmoved s.retries
  | resolve =>
      obtain ⟨row, rest, -, answer, moved, hmoved, rfl⟩ := resolve_cases hstep
      exact sound_moved h hmoved _

/-- A step other than a lookup retries nothing, and origins are never changed. -/
theorem retries_step (h : s.Sound) {act : WiredAction Payload}
    (hstep : wiredStep settings s act = some t) (hact : act ≠ .resolve) :
    t.retries = s.retries ∧ ∀ id callback, s.origin id = some callback →
      t.origin id = some callback := by
  cases act with
  | bus act =>
      obtain ⟨bus, -, rfl⟩ := bus_spec hstep
      exact ⟨rfl, fun _ _ => id⟩
  | deadLetter n readAt errorType errorMessage ended =>
      obtain ⟨delivery, -, hrest⟩ := Option.bind_eq_some_iff.mp hstep
      obtain ⟨bus, -, hrest⟩ := Option.bind_eq_some_iff.mp hrest
      obtain ⟨dlq, -, rfl⟩ := Option.map_eq_some_iff.mp hrest
      refine ⟨rfl, fun id callback hid => ?_⟩
      have hne : id ≠ s.dlq.table.next := by
        rintro rfl
        rw [h.unborn _ (Nat.le_refl _)] at hid
        cases hid
      have hupdated := (update_of_ne hne (some delivery.callback) s.origin).trans hid
      cases ended with
      | lost => exact hid
      | returned | raisedAfterCommit => exact hupdated
  | tick now =>
      obtain ⟨dlq, -, rfl⟩ := Option.map_eq_some_iff.mp hstep
      exact ⟨rfl, fun _ _ => id⟩
  | worker event =>
      obtain ⟨moved, -, rfl⟩ := worker_spec hstep
      exact ⟨rfl, fun _ _ => id⟩
  | resolve => exact absurd rfl hact

/-- The lookup invokes the callback that failed exactly under the condition. -/
theorem retries_resolve (h : s.Sound)
    (hretries : ∀ id callback, (id, callback) ∈ s.retries → s.origin id = some callback)
    (hstep : wiredStep settings s .resolve = some t) :
    (∀ id callback, (id, callback) ∈ t.retries → t.origin id = some callback) ↔
      Unambiguous s .resolve t := by
  obtain ⟨row, rest, hphase, answer, moved, hmoved, rfl⟩ := resolve_cases hstep
  have hmade : s.MadeUnder row.id row.handlerName := by
    have hcopies := h.copies
    rw [hphase] at hcopies
    exact hcopies row List.mem_cons_self
  obtain ⟨failed, hfailed, hname⟩ := hmade
  have hlookup : s.bus.handlerIndex row.handlerName =
      lastNamed s.bus.subscriptions failed.handlerName := by
    rw [hname]
    exact h.index row.handlerName
  constructor
  · intro hall row' rest' failed' hphase' hfailed' last hlast
    obtain ⟨rfl, rfl⟩ : row = row' ∧ rest = rest' := by
      have heq := hphase.symm.trans hphase'
      injection heq with hrow hrest
      exact ⟨hrow, hrest⟩
    cases hfailed.symm.trans hfailed'
    have hmem : (row.id, last) ∈ ((s.bus.handlerIndex row.handlerName).map fun callback =>
        (row.id, callback)).toList ++ s.retries := by
      rw [hlookup, hlast]
      exact List.mem_cons_self
    exact Option.some.inj ((hall row.id last hmem).symm.trans hfailed)
  · intro hcond id callback hmem
    rcases List.mem_append.mp hmem with hnew | hold
    · rw [hlookup] at hnew
      cases hlast : lastNamed s.bus.subscriptions failed.handlerName with
      | none =>
          rw [hlast] at hnew
          cases hnew
      | some last =>
          rw [hlast] at hnew
          cases List.mem_singleton.mp hnew
          rw [hcond row rest failed hphase hfailed callback hlast]
          exact hfailed
    · exact hretries id callback hold

theorem faithful_step_iff (h : s.Sound) (hfaithful : Faithful s) {act : WiredAction Payload}
    (hstep : wiredStep settings s act = some t) : Faithful t ↔ Unambiguous s act t := by
  by_cases hresolve : act = .resolve
  · subst hresolve
    constructor
    · exact fun ht => (retries_resolve h hfaithful.retries hstep).mp ht.retries
    · intro hcond
      exact ⟨(sound_wiredStep h hstep hcond).resolves,
        (retries_resolve h hfaithful.retries hstep).mpr hcond⟩
  · obtain ⟨hsame, horigin⟩ := retries_step h hstep hresolve
    have hretries : ∀ id callback, (id, callback) ∈ t.retries → t.origin id = some callback := by
      intro id callback hmem
      rw [hsame] at hmem
      exact horigin id callback (hfaithful.retries id callback hmem)
    constructor
    · intro ht
      by_cases hunsubscribe : ∃ pattern callback, act = .bus (.unsubscribe pattern callback)
      · obtain ⟨pattern, callback, rfl⟩ := hunsubscribe
        obtain ⟨bus, hbus, rfl⟩ := bus_spec hstep
        cases hbus
        -- The name is gone from the index, so nothing subscribed may carry it.
        intro subscription hmem hname
        refine (ht.index callback.handlerName).mpr ⟨subscription, hmem, hname⟩ ?_
        exact update_self _ _ _
      · cases act with
        | bus act =>
            cases act with
            | unsubscribe pattern callback => exact absurd ⟨_, _, rfl⟩ hunsubscribe
            | subscribe | publish | putterResumes | putterCancelled | dispatchLoop | task
            | discard | stop | stopResumes => trivial
        | deadLetter | tick | worker => trivial
        | resolve => exact absurd rfl hresolve
    · intro hcond
      exact ⟨(sound_wiredStep h hstep hcond).resolves, hretries⟩

end Steps

/-- **The handler index, exactly.**  Along every run of the bus with its dead letter
queue the index and the retries are faithful in every state exactly when every step
meets the condition. -/
theorem faithful_iff (settings : WiredSettings) (now : Int)
    (schedule : List (WiredAction Payload)) :
    Runs.Always (wiredStep settings) (fun _ _ t => Faithful t) (Wired.initial now) schedule ↔
      Runs.Always (wiredStep settings) Unambiguous (Wired.initial now) schedule := by
  have hstart : Faithful (Wired.initial now : Wired Payload) :=
    ⟨(sound_wired now).resolves, fun _ _ hmem => nomatch hmem⟩
  refine Runs.always_iff_of_guarded (I := fun s => s.Sound ∧ Faithful s) ?_ ?_
    ⟨sound_wired now, hstart⟩ schedule
  · rintro s act t ⟨h, hfaithful⟩ hstep hcond
    exact ⟨sound_wiredStep h hstep hcond, (faithful_step_iff h hfaithful hstep).mpr hcond⟩
  · rintro s act t ⟨h, hfaithful⟩ hstep
    exact faithful_step_iff h hfaithful hstep

def exactTopics : WiredSettings := ⟨⟨1024, fun topic pattern => topic == pattern⟩, ⟨2, 50⟩, 5⟩

/-- The method of two instances. -/
def onNews (instance_ : Nat) : Subscriber :=
  ⟨instance_, "agents", some "Agent.on_news", "<bound method>"⟩

/-- One callback under two patterns; one subscription is dropped. -/
def twoPatterns : List (WiredAction String) :=
  [.bus (.subscribe "news" (onNews 0)), .bus (.subscribe "sports" (onNews 0))]

/-- The method of instance 0 fails; instance 1 has subscribed its own after it. -/
def twoInstances : List (WiredAction String) :=
  [.bus (.subscribe "news" (onNews 0)), .bus (.subscribe "sports" (onNews 1)),
    .bus .dispatchLoop, .bus (.publish ⟨"news", "{}", 0, "source"⟩), .bus .dispatchLoop,
    .bus (.task 1 .begins), .bus (.task 1 .raises),
    .deadLetter 1 0 "ValueError" "failed" .returned, .worker .start,
    .worker (.recover .returned), .tick 2000, .worker .poll, .worker (.fetch false),
    .worker .next, .worker (.claim .returned)]

theorem faithful_counterexample :
    ¬Runs.Always (wiredStep exactTopics) (fun _ _ t => Faithful t) (Wired.initial 0)
        (twoPatterns ++ [.bus (.unsubscribe "sports" (onNews 0))]) ∧
      ¬Runs.Always (wiredStep exactTopics) (fun _ _ t => Faithful t) (Wired.initial 0)
        (twoInstances ++ [.resolve]) := by
  refine ⟨fun h => ?_, fun h => ?_⟩
  · have hlast := h.at_prefix rfl rfl
    exact absurd ((hlast.index "agents.Agent.on_news").mpr
      ⟨("news", onNews 0), List.mem_cons_self, rfl⟩) (by decide)
  · have hlast := h.at_prefix rfl rfl
    exact absurd (hlast.retries 1 (onNews 1) List.mem_cons_self) (by decide)

end EventBus
end SkyClaw.Core
