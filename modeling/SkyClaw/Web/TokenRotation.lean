import SkyClaw.Lib.Interleave
import SkyClaw.Lib.Runs

/-!
# The rotation of the token

`OperationsHubWSHandler` admits a socket by its token, and closes the sockets when the token is
rotated.  Between the check of the token and the check of the flag a connecting socket waits:
`always_evicts_iff` says what must not happen in between.
-/

namespace SkyClaw.Web.TokenRotation

/-- A socket, and the number of the token that it was admitted with. -/
structure Client where
  socket : Nat
  auth : Nat
deriving DecidableEq

structure Shared where
  /-- the tokens generated so far; the last one is current -/
  generation : Nat
  clients : List Client
  /-- `_token_rotating` -/
  rotating : Bool
  /-- `_clients_lock` -/
  locked : Bool
  /-- the generation when `close_all_clients` has returned last -/
  floor : Nat
deriving DecidableEq

inductive HandlerPhase
  | starting
  /-- not authenticated -/
  | refused
  | preparing (auth : Nat)
  /-- waits for the lock -/
  | entering (auth : Nat)
  /-- closes the socket, with the lock -/
  | rejecting
  | connected
  | ended
deriving DecidableEq

inductive RotationPhase
  | starting
  | closing (stale : List Client)
  /-- an exception, in front of the `finally` -/
  | failing
  | returned
  | raised
deriving DecidableEq

/-- `floor`: what it was at the beginning. -/
inductive BroadcastPhase
  | starting
  | waiting (floor : Nat)
  | sending (floor : Nat) (rest dead : List Client)
  | ended
deriving DecidableEq

/-- A call of `websocket_handler`, `close_all_clients` or `_broadcast`. -/
inductive Task
  | handler (socket : Nat) (phase : HandlerPhase)
  | rotation (phase : RotationPhase)
  | broadcast (phase : BroadcastPhase)
deriving DecidableEq

inductive Event
  /-- `header`: the number of the token in the request, if it is one that was generated -/
  | authenticates (header : Option Nat) (expired : Bool)
  | prepared
  | enters
  | leaves
  | clears
  | closed
  | finishes
  | begins
  | snapshots
  | sends (dead : Bool)
  | prunes
  /-- an exception, or the task is cancelled -/
  | fails
deriving DecidableEq

section

variable (shared : Shared)

/-- `validate` -/
def Shared.validates (header : Option Nat) (expired : Bool) : Bool :=
  shared.generation ≠ 0 && !expired && header = some shared.generation

/-- `websocket_handler` -/
def handlerNext (socket : Nat) : HandlerPhase → Event →
    Option (Shared × HandlerPhase)
  | .starting, .authenticates header expired =>
      some (shared, if shared.validates header expired then .preparing shared.generation else .refused)
  | .refused, .closed => some (shared, .ended)
  | .preparing auth, .prepared => some (shared, .entering auth)
  | .preparing _, .fails => some (shared, .ended)
  | .entering auth, .enters =>
      if shared.locked then none
      else if shared.rotating then some ({ shared with locked := true }, .rejecting)
      else some ({ shared with clients := ⟨socket, auth⟩ :: shared.clients }, .connected)
  | .entering _, .fails => some (shared, .ended)
  | .rejecting, .closed => some ({ shared with locked := false }, .ended)
  | .connected, .leaves =>
      if shared.locked then none
      else some ({ shared with clients := shared.clients.filter (·.socket ≠ socket) }, .ended)
  -- The first frame is sent in front of the `try`.
  | .connected, .fails => some (shared, .ended)
  | _, _ => none

/-- `close_all_clients` -/
def rotationNext : RotationPhase → Event → Option (Shared × RotationPhase)
  | .starting, .clears =>
      if shared.locked then none
      else some ({ shared with rotating := true, clients := [] }, .closing shared.clients)
  | .closing (_ :: rest), .closed => some (shared, .closing rest)
  | .closing (_ :: _), .fails => some (shared, .failing)
  | .closing [], .finishes =>
      if shared.locked then none
      else some ({ shared with rotating := false, floor := shared.generation }, .returned)
  | .failing, .finishes =>
      if shared.locked then none else some ({ shared with rotating := false }, .raised)
  -- The lock of the `finally` is not reached.
  | .closing [], .fails => some (shared, .raised)
  | .failing, .fails => some (shared, .raised)
  | _, _ => none

/-- `_broadcast` -/
def broadcastNext : BroadcastPhase → Event → Option (Shared × BroadcastPhase)
  | .starting, .begins => some (shared, .waiting shared.floor)
  | .waiting floor, .snapshots =>
      if shared.locked then none else some (shared, .sending floor shared.clients [])
  | .sending floor (client :: rest) dead, .sends isDead =>
      some (shared, .sending floor rest (if isDead then client :: dead else dead))
  | .sending _ [] [], .prunes => some (shared, .ended)
  | .sending _ [] (client :: dead), .prunes =>
      if shared.locked then none
      else some ({ shared with clients := shared.clients.filter (· ∉ client :: dead) }, .ended)
  | .sending _ _ _, .fails => some (shared, .ended)
  | _, _ => none

def next (event : Event) (shared : Shared) : Task → Option (Shared × Task)
  | .handler socket phase =>
      (handlerNext shared socket phase event).map fun after => (after.1, .handler socket after.2)
  | .rotation phase => (rotationNext shared phase event).map fun after => (after.1, .rotation after.2)
  | .broadcast phase =>
      (broadcastNext shared phase event).map fun after => (after.1, .broadcast after.2)

structure State where
  shared : Shared
  tasks : List Task
deriving DecidableEq

inductive Action
  | generate
  | task (i : Nat) (event : Event)
deriving DecidableEq

def step (s : State) : Action → Option State
  | .generate => some { s with shared := { s.shared with generation := s.shared.generation + 1 } }
  | .task i event =>
      (Interleave.stepAt (next event) s.shared s.tasks i).map fun after => ⟨after.1, after.2⟩

/-- Nothing has happened yet; the tasks may begin in any order. -/
def start (handlers : List Nat) (rotations broadcasts : Nat) : State where
  shared := ⟨0, [], false, false, 0⟩
  tasks := handlers.map (Task.handler · .starting) ++ List.replicate rotations (.rotation .starting) ++
    List.replicate broadcasts (.broadcast .starting)

/-! ## What is promised -/

/-- **Old sessions are evicted**: once `close_all_clients` has returned no client has an older token than
the one that is current then, and what a broadcast that begins afterwards is sent to has neither. -/
structure Evicts (s : State) (action : Action) (t : State) : Prop where
  members : ∀ client ∈ t.shared.clients, t.shared.floor ≤ client.auth
  reaches : ∀ i floor client rest dead isDead, action = .task i (.sends isDead) →
    s.tasks[i]? = some (.broadcast (.sending floor (client :: rest) dead)) →
      floor ≤ client.auth ∧ client.auth ≤ s.shared.generation

def Task.rotates : Task → Bool
  | rotation (.closing _) | rotation .failing => true
  | _ => false

/-- No rotation ends while another one closes its sockets. -/
def NoOverlap (s : State) (action : Action) : Prop :=
  ∀ i, action = .task i .finishes → ∀ (j : Nat) (task : Task), j ≠ i → s.tasks[j]? = some task →
    task.rotates = false

/-- **No rotation is completed between the two checks of a socket**: where the flag lets a socket in, no
`close_all_clients` has returned under a newer token than the one that the socket was checked with. -/
def NotOvertaken (s : State) (action : Action) : Prop :=
  ∀ i socket auth, action = .task i .enters →
    s.tasks[i]? = some (.handler socket (.entering auth)) → s.shared.locked = false →
      s.shared.rotating = false → s.shared.floor ≤ auth

/-! ## The invariant -/

structure Shared.Sound : Prop where
  nobody : shared.rotating = true → shared.clients = []
  floor_le : shared.floor ≤ shared.generation
  members : ∀ client ∈ shared.clients,
    shared.floor ≤ client.auth ∧ client.auth ≤ shared.generation

/-- What a task relies on. -/
def Task.Ok : Task → Prop
  | handler _ (.preparing auth) | handler _ (.entering auth) => auth ≤ shared.generation
  | rotation (.closing _) | rotation .failing => shared.rotating = true
  | broadcast (.waiting floor) => floor ≤ shared.floor
  | broadcast (.sending floor rest _) =>
      ∀ client ∈ rest, floor ≤ client.auth ∧ client.auth ≤ shared.generation
  | _ => True

/-- Tokens and rotations only get more. -/
structure Onward (shared shared' : Shared) : Prop where
  generation_le : shared.generation ≤ shared'.generation
  floor_le : shared.floor ≤ shared'.floor

theorem Onward.refl : Onward shared shared := ⟨Nat.le_refl _, Nat.le_refl _⟩

end

variable {shared : Shared} {task : Task}

theorem Task.Ok.rotating (h : task.Ok shared)
    (hrotates : task.rotates = true) : shared.rotating = true := by
  cases task with
  | rotation phase =>
      cases phase with
      | closing | failing => exact h
      | _ => cases hrotates
  | _ => cases hrotates

variable {shared' : Shared}

/-- A task relies on no more than that, and a rotation on the flag. -/
theorem Task.Ok.mono (h : task.Ok shared)
    (honward : Onward shared shared')
    (hrotating : task.rotates = true → shared'.rotating = true) : task.Ok shared' := by
  cases task with
  | handler socket phase =>
      cases phase with
      | preparing | entering => exact Nat.le_trans h honward.generation_le
      | _ => trivial
  | rotation phase =>
      cases phase with
      | closing | failing => exact hrotating rfl
      | _ => trivial
  | broadcast phase =>
      cases phase with
      | waiting floor => exact Nat.le_trans h honward.floor_le
      | sending floor rest dead =>
          intro client hmem
          obtain ⟨hfloor, hauth⟩ := h client hmem
          exact ⟨hfloor, Nat.le_trans hauth honward.generation_le⟩
      | _ => trivial

theorem Shared.Sound.filter (h : shared.Sound) (keep : Client → Bool) :
    { shared with clients := shared.clients.filter keep }.Sound where
  nobody hrotating := by
    show shared.clients.filter keep = []
    rw [h.nobody hrotating, List.filter_nil]
  floor_le := h.floor_le
  members client hmem := h.members client (List.mem_of_mem_filter hmem)

/-- What a step of a task keeps. -/
structure Keeps (event : Event) (shared shared' : Shared) (task' : Task) : Prop where
  sound : shared'.Sound
  ok : task'.Ok shared'
  onward : Onward shared shared'
  rotating : shared.rotating = true → shared'.rotating = true ∨ event = .finishes

variable {task' : Task}

theorem keeps_of_eq {event : Event} (hsound : shared.Sound)
    (hok : task'.Ok shared) : Keeps event shared shared task' :=
  ⟨hsound, hok, .refl shared, .inl⟩

theorem keeps_handler {event : Event} {socket : Nat}
    {phase phase' : HandlerPhase} (hsound : shared.Sound)
    (hok : (Task.handler socket phase).Ok shared)
    (hentered : ∀ auth, phase = .entering auth → event = .enters → shared.locked = false →
      shared.rotating = false → shared.floor ≤ auth)
    (h : handlerNext shared socket phase event = some (shared', phase')) :
    Keeps event shared shared' (.handler socket phase') := by
  unfold handlerNext at h
  split at h
  · cases h
    refine keeps_of_eq hsound ?_
    split
    · exact Nat.le_refl _
    · trivial
  · cases h
    exact keeps_of_eq hsound trivial
  · cases h
    exact keeps_of_eq hsound hok
  · cases h
    exact keeps_of_eq hsound trivial
  · next auth =>
      split at h
      · cases h
      · next hlocked =>
          split at h
          · -- A rotation is going on, and the socket is turned away.
            cases h
            exact ⟨⟨hsound.nobody, hsound.floor_le, hsound.members⟩, trivial,
              ⟨Nat.le_refl _, Nat.le_refl _⟩, .inl⟩
          · next hrotating =>
              -- The only place where a client comes in, with the token of a check made before.
              cases h
              have hfloor := hentered auth rfl rfl (eq_false_of_ne_true hlocked)
                (eq_false_of_ne_true hrotating)
              refine ⟨⟨fun htrue => absurd htrue hrotating, hsound.floor_le, ?_⟩, trivial,
                ⟨Nat.le_refl _, Nat.le_refl _⟩, .inl⟩
              intro client hmem
              rcases List.mem_cons.mp hmem with rfl | hmem
              · exact ⟨hfloor, hok⟩
              · exact hsound.members client hmem
  · cases h
    exact keeps_of_eq hsound trivial
  · cases h
    exact ⟨⟨hsound.nobody, hsound.floor_le, hsound.members⟩, trivial,
      ⟨Nat.le_refl _, Nat.le_refl _⟩, .inl⟩
  · split at h
    · cases h
    · cases h
      exact ⟨hsound.filter _, trivial, ⟨Nat.le_refl _, Nat.le_refl _⟩, .inl⟩
  · cases h
    exact keeps_of_eq hsound trivial
  · cases h

theorem keeps_rotation {event : Event} {phase phase' : RotationPhase}
    (hsound : shared.Sound) (hok : (Task.rotation phase).Ok shared)
    (h : rotationNext shared phase event = some (shared', phase')) :
    Keeps event shared shared' (.rotation phase') := by
  unfold rotationNext at h
  split at h
  · split at h
    · cases h
    · cases h
      exact ⟨⟨fun _ => rfl, hsound.floor_le, fun _ hmem => absurd hmem List.not_mem_nil⟩, rfl,
        ⟨Nat.le_refl _, Nat.le_refl _⟩, fun _ => .inl rfl⟩
  · cases h
    exact keeps_of_eq hsound hok
  · cases h
    exact keeps_of_eq hsound hok
  · split at h
    · cases h
    · cases h
      -- Nobody has come in since the clients were cleared.
      have hnobody : shared.clients = [] := hsound.nobody hok
      refine ⟨⟨nofun, Nat.le_refl _, ?_⟩, trivial,
        ⟨Nat.le_refl _, hsound.floor_le⟩, fun _ => .inr rfl⟩
      intro client hmem
      have hmem : client ∈ shared.clients := hmem
      rw [hnobody] at hmem
      cases hmem
  · split at h
    · cases h
    · cases h
      exact ⟨⟨nofun, hsound.floor_le, hsound.members⟩, trivial,
        ⟨Nat.le_refl _, Nat.le_refl _⟩, fun _ => .inr rfl⟩
  · cases h
    exact keeps_of_eq hsound trivial
  · cases h
    exact keeps_of_eq hsound trivial
  · cases h

theorem keeps_broadcast {event : Event} {phase phase' : BroadcastPhase}
    (hsound : shared.Sound) (hok : (Task.broadcast phase).Ok shared)
    (h : broadcastNext shared phase event = some (shared', phase')) :
    Keeps event shared shared' (.broadcast phase') := by
  unfold broadcastNext at h
  split at h
  · cases h
    exact keeps_of_eq hsound (Nat.le_refl _)
  · next floor =>
      split at h
      · cases h
      · cases h
        refine keeps_of_eq hsound fun client hmem => ?_
        -- The floor may have risen while the broadcast was waiting for the lock.
        obtain ⟨hfloor, hauth⟩ := hsound.members client hmem
        have hwaiting : floor ≤ shared.floor := hok
        exact ⟨Nat.le_trans hwaiting hfloor, hauth⟩
  · cases h
    exact keeps_of_eq hsound fun client hmem => hok client (List.mem_cons_of_mem _ hmem)
  · cases h
    exact keeps_of_eq hsound trivial
  · split at h
    · cases h
    · cases h
      exact ⟨hsound.filter _, trivial, ⟨Nat.le_refl _, Nat.le_refl _⟩, .inl⟩
  · cases h
    exact keeps_of_eq hsound trivial
  · cases h

theorem keeps_of_next {event : Event}
    (hsound : shared.Sound) (hok : task.Ok shared)
    (hentered : ∀ socket auth, task = .handler socket (.entering auth) → event = .enters →
      shared.locked = false → shared.rotating = false → shared.floor ≤ auth)
    (h : next event shared task = some (shared', task')) : Keeps event shared shared' task' := by
  cases task with
  | handler socket phase =>
      obtain ⟨⟨shared'', phase'⟩, hnext, heq⟩ := Option.map_eq_some_iff.mp h
      cases heq
      refine keeps_handler hsound hok (fun auth hphase => hentered socket auth ?_) hnext
      rw [hphase]
  | rotation phase =>
      obtain ⟨⟨shared'', phase'⟩, hnext, heq⟩ := Option.map_eq_some_iff.mp h
      cases heq
      exact keeps_rotation hsound hok hnext
  | broadcast phase =>
      obtain ⟨⟨shared'', phase'⟩, hnext, heq⟩ := Option.map_eq_some_iff.mp h
      cases heq
      exact keeps_broadcast hsound hok hnext

structure Sound (s : State) : Prop where
  shared : s.shared.Sound
  tasks : ∀ (i : Nat) (task : Task), s.tasks[i]? = some task → task.Ok s.shared

theorem sound_start (handlers : List Nat) (rotations broadcasts : Nat) :
    Sound (start handlers rotations broadcasts) := by
  refine ⟨⟨fun _ => rfl, Nat.le_refl _, fun _ hmem => absurd hmem List.not_mem_nil⟩, ?_⟩
  intro i task hi
  have hmem := List.mem_of_getElem? hi
  unfold start at hmem
  simp only [List.mem_append, List.mem_map, List.mem_replicate] at hmem
  obtain (⟨socket, -, rfl⟩ | ⟨-, rfl⟩) | ⟨-, rfl⟩ := hmem <;> trivial

variable {s t : State} {action : Action}

/-- **Step lemma.** -/
theorem sound_of_step (hsound : Sound s)
    (h : step s action = some t) (hoverlap : NoOverlap s action)
    (hovertaken : NotOvertaken s action) : Sound t := by
  cases action with
  | generate =>
      cases h
      have honward : Onward s.shared { s.shared with generation := s.shared.generation + 1 } :=
        ⟨Nat.le_succ _, Nat.le_refl _⟩
      refine ⟨⟨hsound.shared.nobody, Nat.le_succ_of_le hsound.shared.floor_le, ?_⟩, ?_⟩
      · intro client hmem
        obtain ⟨hfloor, hauth⟩ := hsound.shared.members client hmem
        exact ⟨hfloor, Nat.le_succ_of_le hauth⟩
      · intro i task hi
        have hok := hsound.tasks i task hi
        exact hok.mono honward hok.rotating
  | task i event =>
      obtain ⟨⟨shared', tasks'⟩, hat, rfl⟩ := Option.map_eq_some_iff.mp h
      obtain ⟨task, task', htask, hnext, htask', hothers⟩ := Interleave.stepAt_getElem? hat
      have hkeeps := keeps_of_next hsound.shared (hsound.tasks i task htask) (fun socket auth heq
        hevent => hovertaken i socket auth (by rw [hevent]) (by rw [htask, heq])) hnext
      refine ⟨hkeeps.sound, fun j other hother => ?_⟩
      by_cases hj : j = i
      · subst hj
        cases htask'.symm.trans hother
        exact hkeeps.ok
      · have hother : s.tasks[j]? = some other := (hothers j hj).symm.trans hother
        have hok := hsound.tasks j other hother
        -- A rotation needs its flag, which only another one that ends could take away.
        refine hok.mono hkeeps.onward fun hrotates => ?_
        rcases hkeeps.rotating (hok.rotating hrotates) with hrotating | rfl
        · exact hrotating
        · rw [hoverlap i rfl j other hj hother] at hrotates
          cases hrotates

/-- From a sound state, a step that ends no rotation beside another one evicts exactly if no rotation
was completed between the two checks. -/
theorem evicts_iff (hsound : Sound s)
    (h : step s action = some t) (hoverlap : NoOverlap s action) :
    Evicts s action t ↔ NotOvertaken s action := by
  constructor
  · rintro hevicts i socket auth rfl htask hlocked hrotating
    -- The socket comes in at this step, so its token is one of those that are promised.
    have hstep : step s (.task i .enters) = some
        ⟨{ s.shared with clients := ⟨socket, auth⟩ :: s.shared.clients },
          s.tasks.set i (.handler socket .connected)⟩ := by
      unfold step Interleave.stepAt
      simp only [htask, Option.bind_some, next, handlerNext, hlocked, hrotating, Bool.false_eq_true,
        if_false, Option.map_some]
    cases hstep.symm.trans h
    exact hevicts.members ⟨socket, auth⟩ List.mem_cons_self
  · intro hovertaken
    refine ⟨fun client hmem => ?_, ?_⟩
    · exact ((sound_of_step hsound h hoverlap hovertaken).shared.members client hmem).1
    · intro i floor client rest dead isDead _ htask
      exact hsound.tasks i _ htask client List.mem_cons_self

/-- **Old sessions are evicted if and only if no rotation falls between the two checks**: in every run in which
no `close_all_clients` ends beside another one. -/
theorem always_evicts_iff (handlers : List Nat) (rotations broadcasts : Nat) (schedule : List Action)
    (hoverlap : Runs.Always step (fun s action _ => NoOverlap s action)
      (start handlers rotations broadcasts) schedule) :
    Runs.Always step Evicts (start handlers rotations broadcasts) schedule ↔
      Runs.Always step (fun s action _ => NotOvertaken s action)
        (start handlers rotations broadcasts) schedule := by
  have hiff : Runs.Always step (fun s action t => NoOverlap s action ∧ Evicts s action t)
        (start handlers rotations broadcasts) schedule ↔
      Runs.Always step (fun s action _ => NoOverlap s action ∧ NotOvertaken s action)
        (start handlers rotations broadcasts) schedule := by
    refine Runs.always_iff_of_guarded ?_ ?_ (sound_start handlers rotations broadcasts) schedule
    · intro s action t hsound hstep hguard
      exact sound_of_step hsound hstep hguard.1 hguard.2
    · intro s action t hsound hstep
      exact and_congr_right fun hoverlap => evicts_iff hsound hstep hoverlap
  rw [Runs.always_and, Runs.always_and] at hiff
  exact (and_iff_right hoverlap).symm.trans (hiff.trans (and_iff_right hoverlap))

/-- A socket is checked and admitted, and evicted with the token. -/
def evictedSocket : List Action :=
  [.generate, .task 0 (.authenticates (some 1) false), .task 0 .prepared, .task 0 .enters,
    .generate, .task 1 .clears, .task 1 .closed]

theorem always_evicts_iff_evictedSocket :
    Runs.Always step Evicts (start [7] 1 0) (evictedSocket ++ [.task 1 .finishes]) ↔
      Runs.Always step (fun s action _ => NotOvertaken s action) (start [7] 1 0)
        (evictedSocket ++ [.task 1 .finishes]) := by
  refine always_evicts_iff [7] 1 0 _ (Runs.Always.append ?_ rfl fun _ _ => ⟨?_, trivial⟩)
  · refine Runs.always_of_forall_mem (fun action hmem s t _ i heq => ?_) _
    subst heq
    exact absurd hmem (by simp [evictedSocket])
  · intro i heq j task hj htask
    cases heq
    cases j with
    | zero =>
        cases htask
        rfl
    | succ j =>
        cases j with
        | zero => exact absurd rfl hj
        | succ j => cases htask

/-- The token is rotated while the socket is prepared. -/
def overtakenSocket : List Action :=
  [.generate, .task 0 (.authenticates (some 1) false), .generate, .task 1 .clears,
    .task 1 .finishes, .task 0 .prepared, .task 0 .enters]

/-- **A socket with the old token is admitted** after the rotation. -/
theorem always_evicts_counterexample :
    ¬Runs.Always step Evicts (start [7] 1 0) overtakenSocket := by
  intro h
  have hlast : Runs.Always step Evicts (start [7] 1 0)
      (overtakenSocket.take 6 ++ [.task 0 .enters]) := h
  have hmembers := (hlast.at_prefix rfl rfl).members ⟨7, 1⟩ List.mem_cons_self
  exact absurd hmembers (by decide)

end SkyClaw.Web.TokenRotation
