import Mathlib.Tactic.Linarith
import SkyClaw.Lib.Runs
import SkyClaw.Lib.SlidingWindow

/-!
# The rate limit of `TelegramSender`

`send` waits for the rate limit before each chunk, and notes a chunk when Telegram has accepted it.
Between the two it awaits, so that a check does not see the chunks that are sent meanwhile, nor those that
have failed.  `keepsRate`: no window of 60 seconds gets more chunks than the limit, as long as at each
check the chunks that it does not see leave room.
-/

namespace SkyClaw.Comms.TelegramRateLimit

open SlidingWindow (since dueBy AtMost Reserved)

/-- A sender for one chat. -/
structure Sender where
  rateLimit : Nat
  positive : 1 ≤ rateLimit

/-- The window of the limit, in seconds. -/
def window : ℚ := 60

/-- A call of `send` that awaits: since when or until when, and the chunks that it has left. -/
abbrev Waiting := ℚ × Nat

structure State where
  /-- `time.monotonic()` -/
  now : ℚ
  /-- `_send_times[chat_id]` -/
  times : List ℚ
  /-- the chunks left to the calls that are before a check -/
  ready : List Nat
  /-- the calls in `asyncio.sleep`, with the time of its end -/
  sleeping : List Waiting
  /-- the calls in `_send_chunk`, with the time at which the gateway got the chunk -/
  requesting : List Waiting
  /-- when the gateway got the chunks -/
  handed : List ℚ
  /-- when it got those that have failed or were cancelled -/
  lost : List ℚ

inductive Action
  | tick (now : ℚ)
  | send (chunks : Nat)
  /-- `_wait_for_rate_limit` of a call that is ready; at its end the clock shows `later` -/
  | check (call : Nat) (later : ℚ)
  /-- the sleep of a call is over -/
  | wake (call : Nat)
  /-- Telegram answers 200 -/
  | accepted (call : Nat)
  /-- another answer, an exception of the gateway, or a cancellation of the request -/
  | failed (call : Nat)
  | cancelReady (call : Nat)
  | cancelSleep (call : Nat)
deriving DecidableEq

/-- The entries older than 60 seconds are taken out. -/
def prune (now : ℚ) (times : List ℚ) : List ℚ := times.dropWhile fun t => now - t > window

/-- `wait_seconds`, 0 when there is no need to wait. -/
def waitSeconds (S : Sender) (now : ℚ) (times : List ℚ) : ℚ :=
  if S.rateLimit ≤ times.length then
    match times with
    | oldest :: _ => max 0 (window - (now - oldest))
    | [] => 0
  else 0

/-- The gateway gets a chunk. -/
def handOver (s : State) (left : Nat) : State :=
  { s with
    requesting := s.requesting ++ [(s.now, left)]
    handed := s.handed ++ [s.now] }

/-- The end of a check: the call sleeps, or the gateway gets its chunk. -/
def checked (S : Sender) (s : State) (call left : Nat) (later : ℚ) : State :=
  let times := prune s.now s.times
  let wait := waitSeconds S s.now times
  let t := { s with now := later, times := times, ready := s.ready.eraseIdx call }
  if wait > 0 then { t with sleeping := t.sleeping ++ [(later + wait, left)] } else handOver t left

def step (S : Sender) (s : State) : Action → Option State
  | .tick now => if s.now ≤ now then some { s with now := now } else none
  | .send chunks => some { s with ready := s.ready ++ [chunks] }
  | .check call later =>
      match s.ready[call]? with
      | some (left + 1) => if s.now ≤ later then some (checked S s call left later) else none
      | _ => none
  | .wake call =>
      match s.sleeping[call]? with
      | some (deadline, left) =>
          if deadline ≤ s.now then some (handOver { s with sleeping := s.sleeping.eraseIdx call } left)
          else none
      | none => none
  | .accepted call =>
      match s.requesting[call]? with
      | some (_, left) =>
          some { s with
            requesting := s.requesting.eraseIdx call
            times := s.times ++ [s.now]
            ready := s.ready ++ [left] }
      | none => none
  | .failed call =>
      match s.requesting[call]? with
      | some (handedAt, _) =>
          some { s with
            requesting := s.requesting.eraseIdx call
            lost := s.lost ++ [handedAt] }
      | none => none
  | .cancelReady call => some { s with ready := s.ready.eraseIdx call }
  | .cancelSleep call => some { s with sleeping := s.sleeping.eraseIdx call }

def start (now : ℚ) : State := ⟨now, [], [], [], [], [], []⟩

/-! ## What it is for -/

/-- **In no window of 60 seconds does the gateway get more chunks than the limit.** -/
def Limited (S : Sender) (s : State) : Prop := AtMost S.rateLimit window s.handed

/-- When a call whose check ends at `later` can hand its chunk over. -/
def handOverAt (S : Sender) (s : State) (later : ℚ) : ℚ :=
  later + waitSeconds S s.now (prune s.now s.times)

/-- What a check does not see: the chunks of other calls, which the gateway has got less than 60 seconds
before `t` and which are on their way or lost, and those that sleep. -/
def unseen (s : State) (t : ℚ) : Nat :=
  since (t - window) (s.requesting.map Prod.fst) + since (t - window) s.lost + s.sleeping.length

/-- At each check the chunks that it does not see, with the accepted ones of the window that ends when its
own chunk is handed over, are fewer than the limit. -/
def LeavesRoom (S : Sender) (s : State) (a : Action) (_ : State) : Prop :=
  match a with
  | .check _ later =>
      since (handOverAt S s later - window) (prune s.now s.times) + unseen s (handOverAt S s later)
        < S.rateLimit
  | _ => True

instance (S : Sender) (s : State) (a : Action) (t : State) : Decidable (LeavesRoom S s a t) :=
  match a with
  | .check _ _ => inferInstanceAs (Decidable (_ < _))
  | .tick _ | .send _ | .wake _ | .accepted _ | .failed _ | .cancelReady _ | .cancelSleep _ =>
      .isTrue trivial

/-! ## The invariant -/

section Invariant

variable {S : Sender} {s t : State} {a : Action}

structure Inv (S : Sender) (s : State) : Prop where
  limited : Limited S s
  /-- There is room for the sleeping calls. -/
  reserved : Reserved S.rateLimit window s.now s.handed (s.sleeping.map Prod.fst)
  /-- A chunk of the last window is noted, on its way or lost. -/
  known : ∀ c, s.now - window ≤ c →
    since c s.handed ≤ since c s.times + since c (s.requesting.map Prod.fst) + since c s.lost
  past : ∀ call ∈ s.requesting, call.1 ≤ s.now

open SlidingWindow

theorem inv_start (now : ℚ) : Inv S (start now) where
  limited := atMost_nil _ _
  reserved := fun _ _ => Nat.zero_le _
  known := fun _ _ => le_rfl
  past := fun _ hmem => absurd hmem List.not_mem_nil

theorem waitSeconds_nonneg (S : Sender) (now : ℚ) (times : List ℚ) : 0 ≤ waitSeconds S now times := by
  unfold waitSeconds
  split
  · cases times with
    | nil => exact le_rfl
    | cons oldest times => exact le_max_left _ _
  · exact le_rfl

theorem since_prune {now c : ℚ} (hc : now - window ≤ c) (times : List ℚ) :
    since c (prune now times) = since c times := by
  refine since_dropWhile (fun t hold => ?_) times
  have hlate : window < now - t := of_decide_eq_true hold
  linarith

theorem Inv.later (h : Inv S s) {now : ℚ} (hle : s.now ≤ now) (ready : List Nat) {times : List ℚ}
    (htimes : ∀ c, s.now - window ≤ c → since c times = since c s.times) :
    Inv S { s with now := now, times := times, ready := ready } where
  limited := h.limited
  reserved := h.reserved.later hle
  known := fun c hc => by
    have hold : s.now - window ≤ c := (sub_le_sub_right hle window).trans hc
    rw [htimes c hold]
    exact h.known c hold
  past := fun call hmem => (h.past call hmem).trans hle

theorem Inv.sleep (h : Inv S s) {deadline : ℚ} (left : Nat) (hle : s.now ≤ deadline)
    (hroom : since (deadline - window) s.times + unseen s deadline < S.rateLimit) :
    Inv S { s with sleeping := s.sleeping ++ [(deadline, left)] } where
  limited := h.limited
  reserved := by
    have hknown := h.known (deadline - window) (sub_le_sub_right hle window)
    have hfree : since (deadline - window) s.handed + (s.sleeping.map Prod.fst).length
        < S.rateLimit := by
      rw [List.length_map]
      unfold unseen at hroom
      omega
    have hpush := h.reserved.push hfree
    rwa [List.map_append, List.map_cons, List.map_nil]
  known := h.known
  past := h.past

theorem Inv.wake (h : Inv S s) {call left : Nat} {deadline : ℚ}
    (hcall : s.sleeping[call]? = some (deadline, left)) (hdue : deadline ≤ s.now) :
    Inv S (handOver { s with sleeping := s.sleeping.eraseIdx call } left) := by
  have hfirst : (s.sleeping.map Prod.fst)[call]? = some deadline := by
    rw [List.getElem?_map, hcall, Option.map_some]
  refine ⟨h.limited.concat (h.reserved.room hfirst hdue), ?_, fun c hc => ?_, fun r hmem => ?_⟩
  · have htake := h.reserved.take hfirst hdue
    rwa [List.eraseIdx_map] at htake
  · have hknown := h.known c hc
    simp only [handOver, List.map_append, List.map_cons, List.map_nil, since_append]
    omega
  · rcases List.mem_append.mp hmem with hold | hnew
    · exact h.past r hold
    · obtain rfl := List.mem_singleton.mp hnew
      exact le_rfl

/-- **A check that leaves room.** -/
theorem Inv.checked (h : Inv S s) {call left : Nat} {later : ℚ} (hle : s.now ≤ later)
    (hroom : LeavesRoom S s (.check call later) t) : Inv S (checked S s call left later) := by
  have hnonneg := waitSeconds_nonneg S s.now (prune s.now s.times)
  have hbegin := h.later hle (s.ready.eraseIdx call) (fun c hc => since_prune hc s.times)
  have hsleep := hbegin.sleep left (le_add_of_nonneg_right hnonneg) hroom
  unfold TelegramRateLimit.checked
  by_cases hwait : waitSeconds S s.now (prune s.now s.times) > 0
  · rw [if_pos hwait]
    exact hsleep
  · -- The chunk that is handed over at once is one whose sleep is over when it begins.
    rw [if_neg hwait]
    have hzero : waitSeconds S s.now (prune s.now s.times) = 0 :=
      le_antisymm (not_lt.mp hwait) hnonneg
    rw [hzero, add_zero] at hsleep
    have hlast : (s.sleeping ++ [(later, left)])[s.sleeping.length]? = some (later, left) := by
      rw [List.getElem?_append_right le_rfl, Nat.sub_self, List.getElem?_cons_zero]
    have hwake := hsleep.wake hlast le_rfl
    have herase : (s.sleeping ++ [(later, left)]).eraseIdx s.sleeping.length = s.sleeping := by
      rw [List.eraseIdx_append_of_length_le le_rfl, Nat.sub_self, List.eraseIdx_cons_zero,
        List.append_nil]
    simp only [herase] at hwake
    exact hwake

/-- A call that awaits Telegram ends: its chunk is noted or lost. -/
theorem Inv.answered (h : Inv S s) {call left : Nat} {handedAt : ℚ}
    (hcall : s.requesting[call]? = some (handedAt, left)) (ready : List Nat) {times lost : List ℚ}
    (hnoted : ∀ c, since c s.times + since c s.lost + since c [handedAt] ≤
      since c times + since c lost) :
    Inv S { s with
      requesting := s.requesting.eraseIdx call
      ready := ready
      times := times
      lost := lost } where
  limited := h.limited
  reserved := h.reserved
  known := fun c hc => by
    have hfirst : (s.requesting.map Prod.fst)[call]? = some handedAt := by
      rw [List.getElem?_map, hcall, Option.map_some]
    have hcount : since c (s.requesting.map Prod.fst) =
        since c ((s.requesting.eraseIdx call).map Prod.fst) + since c [handedAt] := by
      rw [← List.eraseIdx_map, since, countP_eraseIdx hfirst,
        since_singleton]
      simp [since]
    have hknown := h.known c hc
    have hnow := hnoted c
    simp only
    omega
  past := fun r hmem => h.past r (List.mem_of_mem_eraseIdx hmem)

/-- **Step lemma.** -/
theorem inv_of_step (h : Inv S s) (hstep : step S s a = some t) (hroom : LeavesRoom S s a t) :
    Inv S t := by
  cases a with
  | tick now =>
      simp only [step] at hstep
      split_ifs at hstep with hle
      cases hstep
      exact h.later hle s.ready fun _ _ => rfl
  | send | cancelReady =>
      cases hstep
      exact h.later le_rfl _ fun _ _ => rfl
  | check call later =>
      simp only [step] at hstep
      split at hstep
      · split_ifs at hstep with hle
        cases hstep
        exact h.checked hle hroom
      · cases hstep
  | wake call =>
      simp only [step] at hstep
      split at hstep
      case h_1 deadline left hcall =>
        split_ifs at hstep with hdue
        cases hstep
        exact h.wake hcall hdue
      case h_2 => cases hstep
  | accepted call =>
      simp only [step] at hstep
      split at hstep
      case h_1 handedAt left hcall =>
        cases hstep
        refine h.answered hcall _ fun c => ?_
        -- It is noted later than it was handed over.
        have hpast : handedAt ≤ s.now := h.past _ (List.mem_of_getElem? hcall)
        have hlater : since c [handedAt] ≤ since c [s.now] := by
          rw [since_singleton, since_singleton]
          split_ifs with hhanded hnow
          · exact le_rfl
          · exact absurd (hhanded.trans_le hpast) hnow
          · exact Nat.zero_le 1
          · exact le_rfl
        rw [since_append]
        omega
      case h_2 => cases hstep
  | failed call =>
      simp only [step] at hstep
      split at hstep
      case h_1 handedAt left hcall =>
        cases hstep
        refine h.answered hcall _ fun c => ?_
        rw [since_append]
        omega
      case h_2 => cases hstep
  | cancelSleep call =>
      cases hstep
      exact
        { limited := h.limited
          reserved := by
            have hsub : ((s.sleeping.eraseIdx call).map Prod.fst).Sublist
                (s.sleeping.map Prod.fst) := (List.eraseIdx_sublist _ _).map _
            exact h.reserved.drop hsub
          known := h.known
          past := h.past }

end Invariant

end SkyClaw.Comms.TelegramRateLimit
