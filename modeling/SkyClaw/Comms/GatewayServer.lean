import SkyClaw.Lib.Cells
import SkyClaw.Lib.Json
import SkyClaw.Lib.Runs

/-!
# The gateway between the web interface and the agent

The two servers of the gateway process, with the slot of the agent and the buffer of commands.  The
`close` handler of an agent empties the slot whosever it is: `always_keepsAgent_iff` says when that
does harm.
-/

namespace SkyClaw.Comms.GatewayServer

/-- `readyState` of a socket that a server accepted. -/
inductive ReadyState
  | opened
  | closing
  | closed
deriving DecidableEq

structure Socket where
  ready : ReadyState
  /-- the gateway called `close` -/
  told : Bool
  /-- the timeout of `requireAuth` is pending -/
  timer : Bool
  /-- the first message has not come -/
  awaiting : Bool

def Socket.opened (socket : Socket) : Bool := socket.ready = .opened

/-- Open, and not told to close. -/
def Socket.live (socket : Socket) : Bool := socket.opened && !socket.told

def Socket.close (socket : Socket) : Socket :=
  { socket with ready := if socket.ready = .opened then .closing else socket.ready, told := true }

/-! ## `requireAuth` -/

def Socket.accepted : Socket := ⟨.opened, false, true, true⟩

def Socket.timesOut (socket : Socket) : Socket := { socket.close with timer := false }

def timingSafeEqual (a : Option Json) (b : String) : Bool :=
  match a with
  | some (.str a) => a = b
  | _ => false

/-- Whether a message is the right handshake; `none`: it is no JSON. -/
def authorized (token : String) (raw : Option Json) : Bool :=
  match raw with
  | some (.obj fields) =>
      timingSafeEqual (fields.lookup "type") "auth" && timingSafeEqual (fields.lookup "token") token
  | _ => false

/-- The listener of the first message. -/
def Socket.handshake (token : String) (raw : Option Json) (socket : Socket) : Socket :=
  let socket := { socket with timer := false, awaiting := false }
  if authorized token raw then socket else socket.close

/-! ## The state of the gateway -/

/-- What is given to `send` of an agent. -/
inductive Frame
  /-- the text as it came -/
  | data (command : Json)
  /-- `JSON.stringify` of a command of the buffer -/
  | stringified (command : Json)

def Frame.command : Frame → Json
  | data command => command
  | stringified command => command

structure Ui where
  socket : Socket
  authenticated : Bool
  messageTimestamps : List Nat

structure State where
  agents : List Socket
  /-- the agents with the listeners of the authenticated, the latest first -/
  authenticated : List Nat
  agentSocket : Option Nat
  uis : List Ui
  pendingCommands : List Json
  /-- the commands that wait for `agentMutex`, the first one first -/
  waiting : List Json
  handed : List (Nat × Frame)
  accepted : List Json
  /-- the most commands that ever were in the buffer -/
  mostPending : Nat

def start : State := ⟨[], [], none, [], [], [], [], [], 0⟩

def Opened (s : State) (i : Nat) : Prop := Cells.Has Socket.opened s.agents i

instance (s : State) (i : Nat) : Decidable (Opened s i) :=
  inferInstanceAs (Decidable (Cells.Has Socket.opened s.agents i))

def Live (s : State) (i : Nat) : Prop := Cells.Has Socket.live s.agents i

instance (s : State) (i : Nat) : Decidable (Live s i) :=
  inferInstanceAs (Decidable (Cells.Has Socket.live s.agents i))

/-- The agent before `ws` is told to close. -/
def closePrevious (ws : Nat) (s : State) : State :=
  match s.agentSocket with
  | some previous =>
      if previous ≠ ws ∧ Opened s previous then
        { s with agents := s.agents.modify previous Socket.close }
      else s
  | none => s

/-- The buffer goes to the new agent: `send` leaves `readyState` as it is, so the loop takes all
commands or none. -/
def dispatchPending (ws : Nat) (s : State) : State :=
  if Opened s ws then
    { s with
      pendingCommands := []
      handed := s.handed ++ s.pendingCommands.map fun command => (ws, .stringified command) }
  else s

def agentAuthenticated (ws : Nat) (s : State) : State :=
  let s := closePrevious ws s
  dispatchPending ws { s with agentSocket := some ws, authenticated := ws :: s.authenticated }

/-- The `close` listener of an agent that was authenticated. -/
def agentClosed (ws : Nat) (s : State) : State :=
  if ws ∈ s.authenticated then { s with agentSocket := none } else s

def rateLimitWindowMs : Nat := 1000

def rateLimitMax : Nat := 10

/-- A message of an authenticated interface. -/
def uiMessage (u : Nat) (ui : Ui) (now : Nat) (raw : Option Json) (s : State) : State :=
  let recent := ui.messageTimestamps.filter fun ts => now < ts + rateLimitWindowMs
  if rateLimitMax ≤ recent.length then
    { s with uis := s.uis.set u { ui with messageTimestamps := recent } }
  else
    let s := { s with uis := s.uis.set u { ui with messageTimestamps := recent ++ [now] } }
    match raw with
    | none => s
    -- `command.type` throws.
    | some .null => s
    | some command =>
        { s with accepted := s.accepted ++ [command], waiting := s.waiting ++ [command] }

/-- `pendingCommands.push` and its limit. -/
def enqueue (command : Json) (s : State) : State :=
  let pending := s.pendingCommands ++ [command]
  { s with
    pendingCommands := if 100 < pending.length then pending.tail else pending
    mostPending := max s.mostPending pending.length }

/-- What `agentMutex` guards.  `send` throws only while a socket is connecting, which no socket of a
server is. -/
def deliver (command : Json) (s : State) : State :=
  match s.agentSocket with
  | some ws =>
      if Opened s ws then { s with handed := s.handed ++ [(ws, .data command)] }
      else enqueue command s
  | none => enqueue command s

/-! ## Events -/

inductive Action
  | agentConnects
  | agentTimesOut (i : Nat)
  | agentSends (i : Nat) (raw : Option Json)
  /-- The other side begins to close. -/
  | agentFades (i : Nat)
  | agentCloses (i : Nat)
  | uiConnects
  | uiTimesOut (u : Nat)
  | uiSends (u now : Nat) (raw : Option Json)
  | uiFades (u : Nat)
  | uiCloses (u : Nat)
  /-- The first waiting command gets the mutex. -/
  | delivers

def setAgent (s : State) (i : Nat) (socket : Socket) : State :=
  { s with agents := s.agents.set i socket }

/-- Something happens to a socket of an agent that meets `allowed`. -/
def onAgent (s : State) (i : Nat) (allowed : Socket → Bool) (handler : Socket → State) :
    Option State :=
  s.agents[i]?.bind fun socket => if allowed socket then some (handler socket) else none

def onUi (s : State) (u : Nat) (allowed : Socket → Bool) (handler : Ui → State) : Option State :=
  s.uis[u]?.bind fun ui => if allowed ui.socket then some (handler ui) else none

def Socket.notClosed (socket : Socket) : Bool := socket.ready ≠ .closed

def step (token : String) (s : State) : Action → Option State
  | .agentConnects => some { s with agents := s.agents ++ [Socket.accepted] }
  | .agentTimesOut i => onAgent s i Socket.timer fun socket => setAgent s i socket.timesOut
  | .agentSends i raw =>
      onAgent s i Socket.notClosed fun socket =>
        if socket.awaiting then
          let after := setAgent s i (socket.handshake token raw)
          if authorized token raw then agentAuthenticated i after else after
        else s
  | .agentFades i =>
      onAgent s i Socket.notClosed fun socket => setAgent s i { socket with ready := .closing }
  | .agentCloses i =>
      onAgent s i Socket.notClosed fun socket =>
        agentClosed i (setAgent s i { socket with ready := .closed })
  | .uiConnects => some { s with uis := s.uis ++ [⟨Socket.accepted, false, []⟩] }
  | .uiTimesOut u =>
      onUi s u Socket.timer fun ui =>
        { s with uis := s.uis.set u { ui with socket := ui.socket.timesOut } }
  | .uiSends u now raw =>
      onUi s u Socket.notClosed fun ui =>
        if ui.socket.awaiting then
          { s with
            uis := s.uis.set u
              ⟨ui.socket.handshake token raw, authorized token raw, ui.messageTimestamps⟩ }
        else if ui.authenticated then uiMessage u ui now raw s
        else s
  | .uiFades u =>
      onUi s u Socket.notClosed fun ui =>
        { s with uis := s.uis.set u { ui with socket := { ui.socket with ready := .closing } } }
  | .uiCloses u =>
      onUi s u Socket.notClosed fun ui =>
        { s with uis := s.uis.set u { ui with socket := { ui.socket with ready := .closed } } }
  | .delivers =>
      match s.waiting with
      | command :: rest => some (deliver command { s with waiting := rest })
      | [] => none

/-- The agent that was authenticated last, among those that are live. -/
def latest (s : State) : Option Nat := s.authenticated.find? fun i => decide (Live s i)

/-- **The gateway keeps the live agent**, and no command is lost, handed twice or overtaken. -/
structure KeepsAgent (s : State) : Prop where
  slot : ∀ i, latest s = some i → s.agentSocket = some i
  /-- every accepted command is handed or still waits, in the order of acceptance -/
  inOrder : s.mostPending ≤ 100 →
    s.accepted = s.handed.map (·.2.command) ++ s.pendingCommands ++ s.waiting
  /-- with a live agent there, none is left in the buffer -/
  delivered : ∀ i, latest s = some i → s.pendingCommands = []

/-- No authenticated agent is closed while another one that is live has the slot. -/
def NotLate (s : State) (action : Action) : Prop :=
  ∀ i j, action = .agentCloses i → i ∈ s.authenticated → s.agentSocket = some j → Live s j → j = i

/-! ## What the handlers keep -/

structure Sound (s : State) : Prop where
  slot : ∀ i ∈ s.authenticated, Live s i → s.agentSocket = some i
  known : ∀ i, s.agentSocket = some i → i ∈ s.authenticated
  bound : ∀ i ∈ s.authenticated, i < s.agents.length
  drained : ∀ i, s.agentSocket = some i → Opened s i → s.pendingCommands = []
  inOrder : s.mostPending ≤ 100 →
    s.accepted = s.handed.map (·.2.command) ++ s.pendingCommands ++ s.waiting

theorem sound_start : Sound start :=
  ⟨fun _ hi => absurd hi List.not_mem_nil, nofun,
    fun _ hi => absurd hi List.not_mem_nil, fun _ _ _ => rfl, fun _ => rfl⟩

variable {socket : Socket}

theorem opened_of_live (h : socket.live = true) : socket.opened = true :=
  (Bool.and_eq_true_iff.mp h).1

variable {s : State} {i : Nat}

theorem opened_of_has_live (h : Live s i) : Opened s i := by
  obtain ⟨socket, hsocket, hlive⟩ := h
  exact ⟨socket, hsocket, opened_of_live hlive⟩

/-- A socket that is at most as open, and as live, as another one. -/
structure Socket.Below (new old : Socket) : Prop where
  opened : new.opened = true → old.opened = true
  live : new.live = true → old.live = true

theorem below_of_not_opened {new old : Socket} (h : new.opened = false) : new.Below old := by
  refine ⟨fun hopened => ?_, fun hlive => ?_⟩
  · exact absurd (h.symm.trans hopened) Bool.false_ne_true
  · exact absurd (h.symm.trans (opened_of_live hlive)) Bool.false_ne_true

theorem below_close (socket : Socket) : socket.close.Below socket := by
  refine below_of_not_opened ?_
  unfold Socket.close Socket.opened
  cases socket.ready <;> rfl

theorem live_close (socket : Socket) : socket.close.live = false := Bool.and_false _

theorem below_handshake (token : String) (raw : Option Json) (socket : Socket) :
    (socket.handshake token raw).Below socket := by
  unfold Socket.handshake
  dsimp only
  split
  · exact ⟨id, id⟩
  · have hclose := below_close { socket with timer := false, awaiting := false }
    exact ⟨hclose.opened, hclose.live⟩

theorem below_timesOut (socket : Socket) : socket.timesOut.Below socket :=
  ⟨(below_close socket).opened, (below_close socket).live⟩

theorem sound_setAgent {new : Socket} (h : Sound s)
    (hsocket : s.agents[i]? = some socket) (hnew : new.Below socket) : Sound (setAgent s i new) :=
  ⟨fun j hj hlive => h.slot j hj (hlive.of_set hsocket hnew.live), h.known,
    fun j hj => (h.bound j hj).trans_eq List.length_set.symm,
    fun j hj hopened => h.drained j hj (hopened.of_set hsocket hnew.opened), h.inOrder⟩

theorem sound_uis (h : Sound s) (uis : List Ui) : Sound { s with uis := uis } :=
  ⟨h.slot, h.known, h.bound, h.drained, h.inOrder⟩

theorem sound_closePrevious (h : Sound s) (ws : Nat) : Sound (closePrevious ws s) := by
  unfold closePrevious
  split
  · split
    · exact ⟨fun i hi hlive => h.slot i hi (hlive.of_modify fun socket => (below_close socket).live),
        h.known, fun i hi => (h.bound i hi).trans_eq (List.length_modify ..).symm,
        fun i hi hopened => h.drained i hi
          (hopened.of_modify fun socket => (below_close socket).opened), h.inOrder⟩
    · exact h
  · exact h

@[simp] theorem closePrevious_authenticated (ws : Nat) (s : State) :
    (closePrevious ws s).authenticated = s.authenticated := by
  unfold closePrevious
  split
  · split <;> rfl
  · rfl

@[simp] theorem closePrevious_length (ws : Nat) (s : State) :
    (closePrevious ws s).agents.length = s.agents.length := by
  unfold closePrevious
  split
  · split
    · exact List.length_modify ..
    · rfl
  · rfl

variable {ws : Nat}

theorem eq_of_live_closePrevious (h : Sound s) (hi : i ∈ s.authenticated)
    (hlive : Live (closePrevious ws s) i) : i = ws := by
  unfold closePrevious at hlive
  by_contra hne
  split at hlive
  · next previous hprevious =>
    split at hlive
    · have hbefore : Live s i := Cells.Has.of_modify (fun socket => (below_close socket).live) hlive
      cases hprevious.symm.trans (h.slot i hi hbefore)
      exact Cells.not_has_modify_self live_close hlive
    · next hclosed =>
      cases hprevious.symm.trans (h.slot i hi hlive)
      exact hclosed ⟨hne, opened_of_has_live hlive⟩
  · next hnone =>
    rw [h.slot i hi hlive] at hnone
    cases hnone

theorem sound_agentAuthenticated (h : Sound s) (hws : ws < s.agents.length) :
    Sound (agentAuthenticated ws s) := by
  have hclosed := sound_closePrevious h ws
  have hslot : ∀ i ∈ ws :: (closePrevious ws s).authenticated, Live (closePrevious ws s) i →
      some ws = some i := by
    intro i hi hlive
    rcases List.mem_cons.mp hi with rfl | hi
    · rfl
    · rw [closePrevious_authenticated] at hi
      rw [eq_of_live_closePrevious h hi hlive]
  have hbound : ∀ i ∈ ws :: (closePrevious ws s).authenticated,
      i < (closePrevious ws s).agents.length := by
    intro i hi
    rcases List.mem_cons.mp hi with rfl | hi
    · rw [closePrevious_length]
      exact hws
    · exact hclosed.bound i hi
  unfold agentAuthenticated dispatchPending
  dsimp only
  split
  · refine ⟨hslot, ?_, hbound, fun _ _ _ => rfl, fun hmost => ?_⟩
    · rintro i ⟨⟩
      exact List.mem_cons_self
    · have hinOrder := hclosed.inOrder hmost
      simp only [List.map_append, List.map_map, List.append_nil]
      rw [hinOrder]
      congr 2
      exact (List.map_id' _).symm
  · next hopened =>
    refine ⟨hslot, ?_, hbound, ?_, hclosed.inOrder⟩
    · rintro i ⟨⟩
      exact List.mem_cons_self
    · rintro i ⟨⟩ hi
      exact absurd hi hopened

theorem sound_enqueue {command : Json} {rest : List Json} (h : Sound s)
    (hwaiting : s.waiting = command :: rest) (hslot : ∀ i, s.agentSocket = some i → ¬Opened s i) :
    Sound (enqueue command { s with waiting := rest }) := by
  refine ⟨h.slot, h.known, h.bound, fun i hi hopened => absurd hopened (hslot i hi), ?_⟩
  intro hmost
  have hmost : max s.mostPending (s.pendingCommands ++ [command]).length ≤ 100 := hmost
  have hlength := (le_max_right _ _).trans hmost
  have hinOrder := h.inOrder ((le_max_left _ _).trans hmost)
  unfold enqueue
  dsimp only
  rw [if_neg (Nat.not_lt.mpr hlength), hinOrder, hwaiting]
  simp only [List.append_assoc, List.singleton_append]

theorem sound_deliver {command : Json} {rest : List Json} (h : Sound s)
    (hwaiting : s.waiting = command :: rest) :
    Sound (deliver command { s with waiting := rest }) := by
  unfold deliver
  dsimp only
  split
  · next ws hws =>
    split
    · next hopened =>
      -- The buffer is empty while the agent is there, so the command overtakes none.
      have hpending := h.drained ws hws hopened
      refine ⟨h.slot, h.known, h.bound, fun _ _ _ => hpending, fun hmost => ?_⟩
      have hinOrder := h.inOrder hmost
      rw [hpending, hwaiting, List.append_nil] at hinOrder
      simp only [hinOrder, hpending, List.map_append, List.append_nil, List.append_assoc]
      rfl
    · next hopened =>
      refine sound_enqueue h hwaiting fun i hi => ?_
      cases hws.symm.trans hi
      exact hopened
  · next hnone =>
    refine sound_enqueue h hwaiting fun i hi => ?_
    rw [hnone] at hi
    cases hi

theorem sound_uiMessage (h : Sound s) (u : Nat) (ui : Ui) (now : Nat)
    (raw : Option Json) : Sound (uiMessage u ui now raw s) := by
  unfold uiMessage
  dsimp only
  split
  · exact sound_uis h _
  · split
    · exact sound_uis h _
    · exact sound_uis h _
    · refine ⟨h.slot, h.known, h.bound, h.drained, fun hmost => ?_⟩
      have hinOrder := h.inOrder hmost
      simp only [hinOrder, List.append_assoc]

variable {t : State}

theorem onAgent_eq_some {allowed : Socket → Bool}
    {handler : Socket → State} (h : onAgent s i allowed handler = some t) :
    ∃ socket, s.agents[i]? = some socket ∧ t = handler socket := by
  obtain ⟨socket, hsocket, h⟩ := Option.bind_eq_some_iff.mp h
  split at h
  · exact ⟨socket, hsocket, (Option.some.inj h).symm⟩
  · cases h

theorem onUi_eq_some {u : Nat} {allowed : Socket → Bool} {handler : Ui → State}
    (h : onUi s u allowed handler = some t) : ∃ ui, t = handler ui := by
  obtain ⟨ui, -, h⟩ := Option.bind_eq_some_iff.mp h
  split at h
  · exact ⟨ui, (Option.some.inj h).symm⟩
  · cases h

theorem sound_agentClosed (h : Sound s)
    (hsocket : s.agents[i]? = some socket) (hlate : NotLate s (.agentCloses i)) :
    Sound (agentClosed i (setAgent s i { socket with ready := .closed })) := by
  have hset : Sound (setAgent s i { socket with ready := .closed }) :=
    sound_setAgent h hsocket (below_of_not_opened rfl)
  unfold agentClosed
  split
  · next hmem =>
    refine ⟨fun j hj hlive => ?_, (fun _ hfalse => by cases hfalse), hset.bound,
      (fun _ hfalse => by cases hfalse), hset.inOrder⟩
    have hbefore : Live s j := Cells.Has.of_set hsocket (fun hfalse => by cases hfalse) hlive
    -- A live agent has the slot, so it can only be the one that is closed.
    obtain rfl := hlate i j rfl hmem (h.slot j hj hbefore) hbefore
    exact absurd hlive (Cells.not_has_set_self rfl)
  · exact hset

variable {token : String} {action : Action}

/-- **Step lemma.** -/
theorem sound_of_step (h : Sound s)
    (hstep : step token s action = some t) (hlate : NotLate s action) : Sound t := by
  cases action with
  | agentConnects =>
      cases hstep
      -- No authenticated agent has the place of the new socket.
      have hold : ∀ {p : Socket → Bool} {i : Nat}, i ∈ s.authenticated →
          Cells.Has p (s.agents ++ [Socket.accepted]) i → Cells.Has p s.agents i := by
        intro p i hi hhas
        exact hhas.of_append.resolve_right (Nat.ne_of_lt (h.bound i hi))
      refine ⟨fun i hi hlive => h.slot i hi (hold hi hlive), h.known, fun i hi => ?_,
        fun i hi hopened => h.drained i hi (hold (h.known i hi) hopened), h.inOrder⟩
      rw [List.length_append]
      exact Nat.lt_add_right _ (h.bound i hi)
  | agentTimesOut i =>
      obtain ⟨socket, hsocket, rfl⟩ := onAgent_eq_some hstep
      exact sound_setAgent h hsocket (below_timesOut socket)
  | agentSends i raw =>
      obtain ⟨socket, hsocket, rfl⟩ := onAgent_eq_some hstep
      split
      · have hset := sound_setAgent h hsocket (below_handshake token raw socket)
        dsimp only
        split
        · refine sound_agentAuthenticated hset ?_
          exact (List.getElem?_eq_some_iff.mp hsocket).1.trans_eq List.length_set.symm
        · exact hset
      · exact h
  | agentFades i =>
      obtain ⟨socket, hsocket, rfl⟩ := onAgent_eq_some hstep
      exact sound_setAgent h hsocket (below_of_not_opened rfl)
  | agentCloses i =>
      obtain ⟨socket, hsocket, rfl⟩ := onAgent_eq_some hstep
      exact sound_agentClosed h hsocket hlate
  | uiConnects =>
      cases hstep
      exact sound_uis h _
  | uiTimesOut | uiFades | uiCloses =>
      obtain ⟨ui, rfl⟩ := onUi_eq_some hstep
      exact sound_uis h _
  | uiSends u now raw =>
      obtain ⟨ui, rfl⟩ := onUi_eq_some hstep
      split
      · exact sound_uis h _
      · split
        · exact sound_uiMessage h u ui now raw
        · exact h
  | delivers =>
      simp only [step] at hstep
      split at hstep
      · next command rest hwaiting =>
        cases hstep
        exact sound_deliver h hwaiting
      · cases hstep

/-! ## Along a run -/

theorem live_of_latest (h : latest s = some i) :
    i ∈ s.authenticated ∧ Live s i := by
  have hlive := List.find?_some (p := fun i => decide (Live s i)) h
  exact ⟨List.mem_of_find?_eq_some h, of_decide_eq_true hlive⟩

theorem keepsAgent_of_sound (h : Sound s) : KeepsAgent s := by
  have hslot : ∀ i, latest s = some i → s.agentSocket = some i := by
    intro i hi
    obtain ⟨hmem, hlive⟩ := live_of_latest hi
    exact h.slot i hmem hlive
  refine ⟨hslot, h.inOrder, fun i hi => ?_⟩
  exact h.drained i (hslot i hi) (opened_of_has_live (live_of_latest hi).2)

theorem keepsAgent_iff (h : Sound s)
    (hstep : step token s action = some t) : KeepsAgent t ↔ NotLate s action := by
  constructor
  · rintro hkeeps i j rfl hmem hslot hlive
    obtain ⟨socket, -, rfl⟩ := onAgent_eq_some hstep
    by_contra hij
    unfold agentClosed at hkeeps
    rw [if_pos (by exact hmem)] at hkeeps
    have hafter : Live (setAgent s i { socket with ready := .closed }) j :=
      hlive.set_ne _ (Ne.symm hij)
    -- The agent of the slot is still there to be found.
    have hfound : (s.authenticated.find? fun k =>
        decide (Live (setAgent s i { socket with ready := .closed }) k)).isSome :=
      List.find?_isSome.mpr ⟨j, h.known j hslot, decide_eq_true hafter⟩
    obtain ⟨k, hk⟩ := Option.isSome_iff_exists.mp hfound
    have hnone := hkeeps.slot k hk
    cases hnone
  · intro hlate
    exact keepsAgent_of_sound (sound_of_step h hstep hlate)

/-- **The gateway keeps the live agent if and only if none is closed late**: in every run of
connections, messages, timeouts and closings. -/
theorem always_keepsAgent_iff (token : String) (schedule : List Action) :
    Runs.Always (step token) (fun _ _ t => KeepsAgent t) start schedule ↔
      Runs.Always (step token) (fun s action _ => NotLate s action) start schedule := by
  refine Runs.always_iff_of_guarded ?_ ?_ sound_start schedule
  · intro s action t h hstep hlate
    exact sound_of_step h hstep hlate
  · intro s action t h hstep
    exact keepsAgent_iff h hstep

/-- A second agent replaces the first one, which is closed behind it. -/
def replaced : List Action :=
  let handshake := some (.obj [("type", .str "auth"), ("token", .str "secret")])
  [.agentConnects, .agentSends 0 handshake, .agentConnects, .agentSends 1 handshake,
    .agentCloses 0]

/-- **The new agent is forgotten** when the old one is closed. -/
theorem always_keepsAgent_counterexample :
    ¬Runs.Always (step "secret") (fun _ _ t => KeepsAgent t) start replaced := by
  intro h
  have hlast : Runs.Always (step "secret") (fun _ _ t => KeepsAgent t) start
      (replaced.take 4 ++ [.agentCloses 0]) := h
  have hslot := (hlast.at_prefix rfl rfl).slot 1 rfl
  cases hslot

end SkyClaw.Comms.GatewayServer
