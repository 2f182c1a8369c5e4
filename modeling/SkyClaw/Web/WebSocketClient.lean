import Mathlib.Algebra.GroupWithZero.Nat
import SkyClaw.Lib.Cells
import SkyClaw.Lib.Json
import SkyClaw.Lib.Runs

/-!
# The WebSocket client of the Operations Hub

`WebSocketClient` of the browser with its sockets and its timer.  The handlers of the events do not
know which socket an event belongs to: `always_oneLive_iff` says which late events do harm.
-/

namespace SkyClaw.Web.WebSocketClient

inductive ReadyState
  | connecting
  | opened
  | closing
  | closed
deriving DecidableEq

structure Socket where
  ready : ReadyState
  /-- `close` was called -/
  told : Bool
  /-- it had its `open` event -/
  wasOpened : Bool
deriving DecidableEq

inductive Emission
  | connecting (attempts : Nat)
  | opened (attempts : Nat)
  | frame (frame : Json)
  | closed (code : Nat)
  | error
  | reconnecting (attempts delay : Nat)

structure Options where
  baseBackoffMs : Nat := 1000
  maxBackoffMs : Nat := 30000
  pingIntervalMs : Nat := 20000

structure State where
  /-- all sockets that were ever constructed -/
  sockets : List Socket
  ws : Option Nat
  reconnectAttempts : Nat
  /-- the timeouts of `_scheduleReconnect` that are pending -/
  timers : List Nat
  nextTimer : Nat
  reconnectTimer : Option Nat
  pinging : Bool
  intentionalClose : Bool
  emitted : List Emission
  /-- the last call was `disconnect()` -/
  disconnected : Bool

section Client

variable (options : Options)

/-! ## The methods -/

section

variable (s : State)

def emit (emission : Emission) : State := { s with emitted := s.emitted ++ [emission] }

def clearReconnectTimer : State :=
  match s.reconnectTimer with
  | some id => { s with timers := s.timers.erase id, reconnectTimer := none }
  | none => s

def startPingTimer : State := { s with pinging := 0 < options.pingIntervalMs }

def clearPingTimer : State := { s with pinging := false }

/-- The delay without its jitter. -/
def backoff (attempts : Nat) : Nat :=
  min (options.baseBackoffMs * 2 ^ attempts) options.maxBackoffMs

def scheduleReconnect : State :=
  if s.intentionalClose then s
  else
    let s := clearReconnectTimer s
    let delay := backoff options s.reconnectAttempts
    let s := emit { s with reconnectAttempts := s.reconnectAttempts + 1 }
      (.reconnecting (s.reconnectAttempts + 1) delay)
    { s with
      timers := s.timers ++ [s.nextTimer]
      reconnectTimer := some s.nextTimer
      nextTimer := s.nextTimer + 1 }

/-- The socket is open, or about to be. -/
def Socket.busy (socket : Socket) : Bool :=
  socket.ready = .opened || socket.ready = .connecting

/-- `connect`; `constructs`: the constructor does not throw. -/
def connect (constructs : Bool) (s : State) : State :=
  if ((s.ws.bind (s.sockets[·]?)).any Socket.busy) then s
  else
    let s := clearReconnectTimer { s with intentionalClose := false }
    let s := emit s (.connecting s.reconnectAttempts)
    if constructs then
      { s with sockets := s.sockets ++ [⟨.connecting, false, false⟩], ws := some s.sockets.length }
    else scheduleReconnect options (emit s .error)

/-- `close()` of a socket. -/
def Socket.close (socket : Socket) : Socket :=
  { socket with ready := if socket.ready = .closed then .closed else .closing, told := true }

def disconnect : State :=
  let s := clearPingTimer (clearReconnectTimer { s with intentionalClose := true })
  match s.ws with
  | some i => { s with sockets := s.sockets.modify i Socket.close, ws := none }
  | none => s

def handleOpen : State :=
  emit (startPingTimer options { s with reconnectAttempts := 0 }) (.opened s.reconnectAttempts)

/-- `_handleMessage`; `none`: the data is binary, or no JSON. -/
def handleMessage (data : Option Json) (s : State) : State :=
  match data with
  | some frame => emit s (.frame frame)
  | none => s

def handleClose (code : Nat) (s : State) : State :=
  scheduleReconnect options { emit (clearPingTimer s) (.closed code) with ws := none }

/-! ## Calls, timers and events -/

inductive Action
  | connect (constructs : Bool)
  | disconnect
  /-- A timeout of `_scheduleReconnect` expires. -/
  | expires (timer : Nat) (constructs : Bool)
  | pings
  | opens (i : Nat)
  | receives (i : Nat) (data : Option Json)
  | closes (i : Nat) (code : Nat)
  | errs (i : Nat)
  /-- The other side begins to close. -/
  | fades (i : Nat)

/-- An event of a socket that is not closed yet. -/
def onSocket (i : Nat) (allowed : Socket → Bool) (change : Socket → Socket)
    (handler : State → State) : Option State :=
  match s.sockets[i]? with
  | some socket =>
      if socket.ready ≠ .closed ∧ allowed socket = true then
        some (handler { s with sockets := s.sockets.set i (change socket) })
      else none
  | none => none

/-- What becomes of a socket when its `open` event comes. -/
def Socket.open (socket : Socket) : Socket :=
  { socket with
    ready := if socket.ready = .connecting then .opened else socket.ready
    wasOpened := true }

def step : Action → Option State
  | .connect constructs => some (connect options constructs { s with disconnected := false })
  | .disconnect => some { disconnect s with disconnected := true }
  | .expires timer constructs =>
      if timer ∈ s.timers then
        some (connect options constructs
          { s with timers := s.timers.erase timer, reconnectTimer := none })
      else none
  | .pings => if s.pinging then some s else none
  | .opens i => onSocket s i (!·.wasOpened) Socket.open (handleOpen options)
  | .receives i data => onSocket s i (·.wasOpened) id (handleMessage data)
  | .closes i code =>
      onSocket s i (fun _ => true) (fun socket => { socket with ready := .closed })
        (handleClose options code)
  | .errs i => onSocket s i (fun _ => true) id (emit · .error)
  | .fades i =>
      onSocket s i (fun _ => true) (fun socket => { socket with ready := .closing }) id

/-- A client that was constructed. -/
def start : State := ⟨[], none, 0, [], 0, none, false, false, [], false⟩

/-- Connecting or open, and not told to close. -/
def Socket.live (socket : Socket) : Bool := socket.busy && !socket.told

def Live (i : Nat) : Prop := Cells.Has Socket.live s.sockets i

def Emission.isFrame : Emission → Bool
  | frame _ => true
  | _ => false

def Action.connects : Action → Bool
  | connect _ => true
  | _ => false

/-- **One live socket.** -/
structure OneLive (action : Action) (t : State) : Prop where
  unique : ∀ i j, Live t i → Live t j → i = j
  reference : ∀ i, Live t i → t.ws = some i
  timers_le : t.timers.length ≤ 1
  timers_nil : ∀ i, Live t i → t.timers = []
  quiet : s.disconnected = true → action.connects = false →
    t.emitted.filter Emission.isFrame = s.emitted.filter Emission.isFrame ∧
      t.sockets.length = s.sockets.length ∧ t.timers = []

/-- **No late event does harm**: no socket is closed while the client has another one that is
live, and no frame comes in after `disconnect()`. -/
def NotLate (action : Action) : Prop :=
  (∀ i code j, action = .closes i code → s.ws = some j → Live s j → j = i) ∧
    (∀ i frame, action = .receives i (some frame) → s.disconnected = false)

end

variable {options : Options}

/-! ## What the methods keep -/

structure Sound (s : State) : Prop where
  reference : ∀ i, Live s i → s.ws = some i
  timers : s.timers = s.reconnectTimer.toList
  timers_nil : ∀ i, Live s i → s.timers = []
  intentional : s.disconnected = true → s.intentionalClose = true
  stopped : s.intentionalClose = true → s.timers = [] ∧ s.ws = none

theorem sound_start : Sound start :=
  ⟨fun i h => absurd h (Cells.not_has_nil i), rfl, fun _ _ => rfl, nofun,
    fun _ => ⟨rfl, rfl⟩⟩

variable {s : State}

theorem clearReconnectTimer_eq (h : s.timers = s.reconnectTimer.toList) :
    clearReconnectTimer s = { s with timers := [], reconnectTimer := none } := by
  unfold clearReconnectTimer
  cases htimer : s.reconnectTimer with
  | some id =>
      rw [htimer] at h
      simp [h]
  | none =>
      rw [htimer] at h
      cases s
      simp_all

theorem scheduleReconnect_eq (h : s.timers = s.reconnectTimer.toList)
    (hintentional : s.intentionalClose = false) :
    scheduleReconnect options s =
      { s with
        reconnectAttempts := s.reconnectAttempts + 1
        emitted := s.emitted ++
          [.reconnecting (s.reconnectAttempts + 1) (backoff options s.reconnectAttempts)]
        timers := [s.nextTimer]
        reconnectTimer := some s.nextTimer
        nextTimer := s.nextTimer + 1 } := by
  unfold scheduleReconnect
  rw [if_neg (by rw [hintentional]; exact Bool.false_ne_true), clearReconnectTimer_eq h]
  rfl

theorem scheduleReconnect_intentional (h : s.intentionalClose = true) :
    scheduleReconnect options s = s := if_pos h

theorem sound_scheduleReconnect (h : Sound s) (hnone : ∀ i, ¬Live s i) :
    Sound (scheduleReconnect options s) := by
  cases hintentional : s.intentionalClose with
  | true =>
      rw [scheduleReconnect_intentional hintentional]
      exact h
  | false =>
      rw [scheduleReconnect_eq h.timers hintentional]
      refine ⟨h.reference, rfl, fun i hi => absurd hi (hnone i), h.intentional, ?_⟩
      intro htrue
      exact absurd (hintentional.symm.trans htrue) Bool.false_ne_true

variable {socket : Socket}

theorem busy_of_live (h : socket.live = true) : socket.busy = true :=
  (Bool.and_eq_true_iff.mp h).1

theorem not_live_of_connects (h : Sound s)
    (hbusy : ¬((s.ws.bind (s.sockets[·]?)).any Socket.busy) = true) (i : Nat) : ¬Live s i := by
  rintro ⟨socket, hsocket, hlive⟩
  rw [h.reference i ⟨socket, hsocket, hlive⟩, Option.bind_some, hsocket] at hbusy
  exact hbusy (busy_of_live hlive)

theorem sound_connect (h : Sound s) (hcalled : s.disconnected = false)
    (constructs : Bool) : Sound (connect options constructs s) := by
  have hcalled : ∀ b, s.disconnected = true → b = true := fun b htrue =>
    absurd (hcalled.symm.trans htrue) Bool.false_ne_true
  unfold connect
  split
  · exact h
  · next hbusy =>
    have hnone := not_live_of_connects h hbusy
    have hcleared := clearReconnectTimer_eq (s := { s with intentionalClose := false }) h.timers
    simp only [hcleared]
    cases constructs with
    | true =>
        refine ⟨?_, rfl, fun _ _ => rfl, hcalled false, fun hfalse => by cases hfalse⟩
        intro i hi
        -- Only the new socket is live.
        rcases Cells.Has.of_append hi with hi | rfl
        · exact absurd hi (hnone i)
        · rfl
    | false =>
        have hsound : Sound (emit (emit { s with
            intentionalClose := false, timers := [], reconnectTimer := none }
            (.connecting s.reconnectAttempts)) .error) :=
          ⟨fun i hi => absurd hi (hnone i), rfl, fun _ _ => rfl, hcalled false,
            fun hfalse => by cases hfalse⟩
        exact sound_scheduleReconnect hsound hnone

@[simp] theorem clearReconnectTimer_sockets (s : State) :
    (clearReconnectTimer s).sockets = s.sockets := by
  unfold clearReconnectTimer
  split <;> rfl

@[simp] theorem clearReconnectTimer_ws (s : State) : (clearReconnectTimer s).ws = s.ws := by
  unfold clearReconnectTimer
  split <;> rfl

@[simp] theorem clearReconnectTimer_emitted (s : State) :
    (clearReconnectTimer s).emitted = s.emitted := by
  unfold clearReconnectTimer
  split <;> rfl

@[simp] theorem clearReconnectTimer_disconnected (s : State) :
    (clearReconnectTimer s).disconnected = s.disconnected := by
  unfold clearReconnectTimer
  split <;> rfl

@[simp] theorem scheduleReconnect_sockets (s : State) :
    (scheduleReconnect options s).sockets = s.sockets := by
  unfold scheduleReconnect
  split
  · rfl
  · exact clearReconnectTimer_sockets s

@[simp] theorem scheduleReconnect_ws (s : State) : (scheduleReconnect options s).ws = s.ws := by
  unfold scheduleReconnect
  split
  · rfl
  · exact clearReconnectTimer_ws s

@[simp] theorem scheduleReconnect_disconnected (s : State) :
    (scheduleReconnect options s).disconnected = s.disconnected := by
  unfold scheduleReconnect
  split
  · rfl
  · exact clearReconnectTimer_disconnected s

theorem connect_disconnected (constructs : Bool) (s : State) :
    (connect options constructs s).disconnected = s.disconnected := by
  unfold connect
  split
  · rfl
  · cases constructs with
    | true => exact clearReconnectTimer_disconnected _
    | false =>
        exact (scheduleReconnect_disconnected _).trans (clearReconnectTimer_disconnected _)

theorem disconnect_emitted (s : State) : (disconnect s).emitted = s.emitted := by
  unfold disconnect clearPingTimer
  dsimp only
  split <;> exact clearReconnectTimer_emitted _

theorem disconnect_length (s : State) : (disconnect s).sockets.length = s.sockets.length := by
  unfold disconnect clearPingTimer
  dsimp only
  split
  · simp only [List.length_modify, clearReconnectTimer_sockets]
  · simp only [clearReconnectTimer_sockets]

theorem handleClose_sockets (code : Nat) (s : State) :
    (handleClose options code s).sockets = s.sockets := scheduleReconnect_sockets _

theorem handleClose_ws (code : Nat) (s : State) : (handleClose options code s).ws = none :=
  scheduleReconnect_ws _

theorem not_live_close (socket : Socket) : socket.close.live = false := by
  unfold Socket.live Socket.close
  exact Bool.and_false _

theorem live_of_live_close (socket : Socket) (h : socket.close.live = true) :
    socket.live = true := by
  rw [not_live_close] at h
  cases h

theorem sound_disconnect (h : Sound s) :
    Sound { disconnect s with disconnected := true } := by
  have hcleared := clearReconnectTimer_eq (s := { s with intentionalClose := true }) h.timers
  unfold disconnect
  simp only [hcleared]
  cases hws : s.ws with
  | none =>
      simp only [clearPingTimer]
      refine ⟨fun i hi => ?_, rfl, fun _ _ => rfl, fun _ => rfl, fun _ => ⟨rfl, rfl⟩⟩
      have hreference := h.reference i hi
      rw [hws] at hreference
      cases hreference
  | some i =>
      simp only [clearPingTimer]
      refine ⟨?_, rfl, fun _ _ => rfl, fun _ => rfl, fun _ => ⟨rfl, rfl⟩⟩
      intro j hj
      -- A socket that is told to close is not live any more, and no other one was.
      have hreference := h.reference j (Cells.Has.of_modify live_of_live_close hj)
      cases hws.symm.trans hreference
      exact absurd hj (Cells.not_has_modify_self not_live_close)

theorem sound_set {i : Nat} {new : Socket} (h : Sound s)
    (hsocket : s.sockets[i]? = some socket) (hnew : new.live = true → socket.live = true) :
    Sound { s with sockets := s.sockets.set i new } :=
  ⟨fun j hj => h.reference j (hj.of_set hsocket hnew), h.timers,
    fun j hj => h.timers_nil j (hj.of_set hsocket hnew), h.intentional, h.stopped⟩

theorem filter_emit (s : State) (emission : Emission) (h : emission.isFrame = false) :
    (emit s emission).emitted.filter Emission.isFrame = s.emitted.filter Emission.isFrame := by
  unfold emit
  rw [List.filter_append, List.filter_cons_of_neg (by rw [h]; exact Bool.false_ne_true),
    List.filter_nil, List.append_nil]

theorem sound_emit (h : Sound s) (emission : Emission) : Sound (emit s emission) :=
  ⟨h.reference, h.timers, h.timers_nil, h.intentional, h.stopped⟩

theorem sound_handleOpen (h : Sound s) : Sound (handleOpen options s) :=
  ⟨h.reference, h.timers, h.timers_nil, h.intentional, h.stopped⟩

theorem sound_handleMessage (h : Sound s) (data : Option Json) :
    Sound (handleMessage data s) := by
  cases data with
  | none => exact h
  | some frame => exact sound_emit h (.frame frame)

theorem sound_handleClose (h : Sound s) (code : Nat) (hnone : ∀ i, ¬Live s i) :
    Sound (handleClose options code s) := by
  unfold handleClose
  refine sound_scheduleReconnect ?_ hnone
  exact ⟨fun i hi => absurd hi (hnone i), h.timers, fun i hi => absurd hi (hnone i), h.intentional,
    fun hintentional => ⟨(h.stopped hintentional).1, rfl⟩⟩

theorem live_open (h : socket.open.live = true) : socket.live = true := by
  unfold Socket.live Socket.busy Socket.open at *
  cases hready : socket.ready <;> simp_all

variable {t : State}

theorem onSocket_eq_some {i : Nat} {allowed : Socket → Bool}
    {change : Socket → Socket} {handler : State → State}
    (h : onSocket s i allowed change handler = some t) :
    ∃ socket, s.sockets[i]? = some socket ∧ socket.ready ≠ .closed ∧
      t = handler { s with sockets := s.sockets.set i (change socket) } := by
  unfold onSocket at h
  split at h
  · next socket hsocket =>
    split at h
    · next hallowed => exact ⟨socket, hsocket, hallowed.1, (Option.some.inj h).symm⟩
    · cases h
  · cases h

/-- A timeout that expires is the one the client knows, and `disconnect` was not called. -/
theorem sound_reconnect {timer : Nat} (h : Sound s) (hmem : timer ∈ s.timers)
    (constructs : Bool) :
    Sound (connect options constructs
      { s with timers := s.timers.erase timer, reconnectTimer := none }) := by
  -- `disconnect` would have cleared the timer.
  have hcalled : s.disconnected = false := by
    cases hdisconnected : s.disconnected with
    | false => rfl
    | true =>
        rw [(h.stopped (h.intentional hdisconnected)).1] at hmem
        cases hmem
  have hid : s.timers = [timer] := by
    rw [h.timers] at hmem ⊢
    cases htimer : s.reconnectTimer with
    | none =>
        rw [htimer] at hmem
        cases hmem
    | some id =>
        rw [htimer] at hmem
        obtain rfl := List.mem_singleton.mp hmem
        rfl
  have herase : s.timers.erase timer = [] := by
    rw [hid]
    exact List.erase_cons_head ..
  rw [herase]
  have hsound : Sound { s with timers := [], reconnectTimer := none } :=
    ⟨h.reference, rfl, fun _ _ => rfl, h.intentional, fun htrue => ⟨rfl, (h.stopped htrue).2⟩⟩
  exact sound_connect hsound hcalled constructs

variable {action : Action}

/-- **Step lemma.** -/
theorem sound_of_step (h : Sound s)
    (hstep : step options s action = some t) (hlate : NotLate s action) : Sound t := by
  cases action with
  | connect constructs =>
      cases hstep
      have hsound : Sound { s with disconnected := false } :=
        ⟨h.reference, h.timers, h.timers_nil, (fun hfalse => by cases hfalse), h.stopped⟩
      exact sound_connect hsound rfl constructs
  | disconnect =>
      cases hstep
      exact sound_disconnect h
  | expires timer constructs =>
      simp only [step] at hstep
      split at hstep
      · next hmem =>
        cases hstep
        exact sound_reconnect h hmem constructs
      · cases hstep
  | pings =>
      simp only [step] at hstep
      split at hstep
      · cases hstep
        exact h
      · cases hstep
  | opens i =>
      obtain ⟨socket, hsocket, -, rfl⟩ := onSocket_eq_some hstep
      exact sound_handleOpen (sound_set h hsocket live_open)
  | receives i data =>
      obtain ⟨socket, hsocket, -, rfl⟩ := onSocket_eq_some hstep
      exact sound_handleMessage (sound_set h hsocket id) data
  | closes i code =>
      obtain ⟨socket, hsocket, -, rfl⟩ := onSocket_eq_some hstep
      refine sound_handleClose (sound_set h hsocket fun hlive => by cases hlive) code fun j hj => ?_
      -- The socket that is closed is the one the client knows.
      have hbefore : Live s j := Cells.Has.of_set hsocket (fun hlive => by cases hlive) hj
      obtain rfl := hlate.1 i code j rfl (h.reference j hbefore) hbefore
      exact Cells.not_has_set_self rfl hj
  | errs i =>
      have hstep : onSocket s i (fun _ => true) id (emit · .error) = some t := hstep
      obtain ⟨socket, hsocket, -, rfl⟩ := onSocket_eq_some hstep
      exact sound_emit (sound_set h hsocket id) .error
  | fades i =>
      obtain ⟨socket, hsocket, -, rfl⟩ := onSocket_eq_some hstep
      exact sound_set h hsocket fun hlive => by cases hlive

/-! ## Along a run -/

@[simp] theorem isFrame_frame (frame : Json) : (Emission.frame frame).isFrame = true := rfl

/-- With `disconnect` in force no handler emits a frame, and nothing begins. -/
theorem quiet_of_step (h : Sound s)
    (hstep : step options s action = some t) (hlate : NotLate s action)
    (hdisconnected : s.disconnected = true) (hcall : action.connects = false) :
    t.emitted.filter Emission.isFrame = s.emitted.filter Emission.isFrame ∧
      t.sockets.length = s.sockets.length := by
  have hintentional := h.intentional hdisconnected
  cases action with
  | connect constructs => cases hcall
  | disconnect =>
      cases hstep
      exact ⟨congrArg _ (disconnect_emitted s), disconnect_length s⟩
  | expires timer constructs =>
      simp only [step, (h.stopped hintentional).1, List.not_mem_nil, if_false] at hstep
      cases hstep
  | pings =>
      simp only [step] at hstep
      split at hstep
      · cases hstep
        exact ⟨rfl, rfl⟩
      · cases hstep
  | opens i =>
      obtain ⟨socket, hsocket, -, rfl⟩ := onSocket_eq_some hstep
      exact ⟨filter_emit _ _ rfl, List.length_set ..⟩
  | receives i data =>
      obtain ⟨socket, hsocket, -, rfl⟩ := onSocket_eq_some hstep
      cases data with
      | none => exact ⟨rfl, List.length_set ..⟩
      -- A frame that comes in now would be late.
      | some frame => exact absurd ((hlate.2 i frame rfl).symm.trans hdisconnected) Bool.false_ne_true
  | closes i code =>
      obtain ⟨socket, hsocket, -, rfl⟩ := onSocket_eq_some hstep
      unfold handleClose
      rw [scheduleReconnect_intentional (by exact hintentional)]
      exact ⟨filter_emit _ _ rfl, List.length_set ..⟩
  | errs i =>
      have hstep : onSocket s i (fun _ => true) id (emit · .error) = some t := hstep
      obtain ⟨socket, hsocket, -, rfl⟩ := onSocket_eq_some hstep
      exact ⟨filter_emit _ _ rfl, List.length_set ..⟩
  | fades i =>
      obtain ⟨socket, hsocket, -, rfl⟩ := onSocket_eq_some hstep
      exact ⟨rfl, List.length_set ..⟩

/-- `disconnect` stays in force until `connect` is called. -/
theorem disconnected_of_step
    (hstep : step options s action = some t) (h : s.disconnected = true)
    (hcall : action.connects = false) : t.disconnected = true := by
  cases action with
  | connect constructs => cases hcall
  | disconnect =>
      cases hstep
      rfl
  | expires timer constructs =>
      simp only [step] at hstep
      split at hstep
      · cases hstep
        exact (connect_disconnected ..).trans h
      · cases hstep
  | pings =>
      simp only [step] at hstep
      split at hstep
      · cases hstep
        exact h
      · cases hstep
  | opens | fades =>
      obtain ⟨_, -, -, rfl⟩ := onSocket_eq_some hstep
      exact h
  | receives i data =>
      obtain ⟨_, -, -, rfl⟩ := onSocket_eq_some hstep
      cases data <;> exact h
  | closes i code =>
      obtain ⟨_, -, -, rfl⟩ := onSocket_eq_some hstep
      exact (scheduleReconnect_disconnected ..).trans h
  | errs i =>
      have hstep : onSocket s i (fun _ => true) id (emit · .error) = some t := hstep
      obtain ⟨_, -, -, rfl⟩ := onSocket_eq_some hstep
      exact h

/-- From a sound state, a step keeps the one live socket exactly if it is no late event. -/
theorem oneLive_iff (h : Sound s)
    (hstep : step options s action = some t) : OneLive s action t ↔ NotLate s action := by
  constructor
  · intro hone
    refine ⟨?_, ?_⟩
    · rintro i code j rfl hws hlive
      obtain ⟨socket, hsocket, -, rfl⟩ := onSocket_eq_some hstep
      by_contra hij
      -- The live socket is left without the reference.
      have hafter : Live (handleClose options code
          { s with sockets := s.sockets.set i { socket with ready := .closed } }) j := by
        unfold Live
        rw [handleClose_sockets]
        exact hlive.set_ne _ (Ne.symm hij)
      have hreference := hone.reference j hafter
      rw [handleClose_ws] at hreference
      cases hreference
    · rintro i frame rfl
      obtain ⟨socket, hsocket, -, rfl⟩ := onSocket_eq_some hstep
      by_contra hdisconnected
      have hquiet := (hone.quiet ((Bool.not_eq_false _).mp hdisconnected) rfl).1
      have hlength := congrArg List.length hquiet
      simp [handleMessage, emit] at hlength
  · intro hlate
    have hsound := sound_of_step h hstep hlate
    refine ⟨?_, hsound.reference, ?_, hsound.timers_nil, ?_⟩
    · intro i j hi hj
      exact Option.some.inj ((hsound.reference i hi).symm.trans (hsound.reference j hj))
    · rw [hsound.timers]
      cases t.reconnectTimer with
      | none => exact Nat.zero_le _
      | some id => exact Nat.le_refl _
    · intro hdisconnected hcall
      have hafter := disconnected_of_step hstep hdisconnected hcall
      obtain ⟨hframes, hlength⟩ := quiet_of_step h hstep hlate hdisconnected hcall
      exact ⟨hframes, hlength, (hsound.stopped (hsound.intentional hafter)).1⟩

/-- **One live socket if and only if no event comes late**: in every run of calls, timeouts and
events. -/
theorem always_oneLive_iff (options : Options) (schedule : List Action) :
    Runs.Always (step options) OneLive start schedule ↔
      Runs.Always (step options) (fun s action _ => NotLate s action) start schedule := by
  refine Runs.always_iff_of_guarded ?_ ?_ sound_start schedule
  · intro s action t h hstep hlate
    exact sound_of_step h hstep hlate
  · intro s action t h hstep
    exact oneLive_iff h hstep

/-- The client connects again before the socket that it was told to close is closed. -/
def lateClose : List Action :=
  [.connect true, .opens 0, .disconnect, .connect true, .closes 0 1000]

/-- **The new socket is dropped** when the old one is closed. -/
theorem always_oneLive_counterexample :
    ¬Runs.Always (step {}) OneLive start lateClose := by
  intro h
  have hlast : Runs.Always (step {}) OneLive start (lateClose.take 4 ++ [.closes 0 1000]) := h
  have hreference := (hlast.at_prefix rfl rfl).reference 1 ⟨⟨.connecting, false, false⟩, rfl, rfl⟩
  cases hreference

end Client

end SkyClaw.Web.WebSocketClient
