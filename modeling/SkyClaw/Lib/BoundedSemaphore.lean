import Mathlib.Data.List.Nodup
import Mathlib.Logic.Function.Iterate

/-!
# A counting semaphore with a bound

`asyncio.BoundedSemaphore`: a counter and the futures of those that wait, in their order.  A permit
that is given back goes to the first waiter that has none, which then owns it before it runs again;
so the permits that nobody owns are not the counter but `free`.
-/

/-- The counter, its bound, and the waiters with whether a permit is set on their future. -/
structure BoundedSemaphore (ι : Type*) where
  bound : Nat
  value : Nat
  waiters : List (ι × Bool)
deriving DecidableEq, Repr

namespace BoundedSemaphore

variable {ι : Type*}

def new (bound : Nat) : BoundedSemaphore ι := ⟨bound, bound, []⟩

section

variable (s : BoundedSemaphore ι)

/-- `locked()`: there is no permit, or others are in front. -/
def locked : Bool := s.value == 0 || !s.waiters.isEmpty

/-- Those that wait. -/
def queue : List ι := s.waiters.map Prod.fst

/-- The permits that are not out: in the counter, or set on a future that has not been seen. -/
def free : Nat := s.value + s.waiters.countP Prod.snd

/-- A permit for the first waiter that has none. -/
def grantFirst : List (ι × Bool) → Option (List (ι × Bool))
  | [] => none
  | (k, false) :: rest => some ((k, true) :: rest)
  | (k, true) :: rest => (grantFirst rest).map ((k, true) :: ·)

/-- `_wake_up_next()` -/
def wakeNext : BoundedSemaphore ι :=
  match grantFirst s.waiters with
  | some waiters => { s with value := s.value - 1, waiters := waiters }
  | none => s

/-- `while self._value > 0: if not self._wake_up_next(): break`; a round more than there are waiters
changes nothing. -/
def wakeWhile : Nat → BoundedSemaphore ι → BoundedSemaphore ι
  | 0, s => s
  | rounds + 1, s => if s.value = 0 then s else wakeWhile rounds s.wakeNext

def wakeAll : BoundedSemaphore ι := wakeWhile s.waiters.length s

/-- `release()` under `suppress(ValueError)`: nothing above the bound. -/
def release : BoundedSemaphore ι :=
  if s.bound ≤ s.value then s else wakeNext { s with value := s.value + 1 }

/-- `acquire()` without a wait. -/
def take : BoundedSemaphore ι := { s with value := s.value - 1 }

/-- `acquire()` waits. -/
def enqueue (k : ι) : BoundedSemaphore ι :=
  { s with waiters := s.waiters ++ [(k, false)] }

end

variable [DecidableEq ι]

section

variable (s : BoundedSemaphore ι)

/-- `self._waiters.remove(fut)` -/
def remove (k : ι) : BoundedSemaphore ι :=
  { s with waiters := s.waiters.eraseP fun entry => entry.1 = k }

/-- The future of a waiter, when it waits. -/
def granted (k : ι) : Option Bool := s.waiters.lookup k

/-- A waiter goes on with its permit. -/
def resume (k : ι) : BoundedSemaphore ι := (s.remove k).wakeAll

/-- A waiter is cancelled; a permit that is set on its future goes back to the counter. -/
def withdraw (k : ι) : BoundedSemaphore ι :=
  if s.granted k = some true then wakeAll { s.remove k with value := s.value + 1 }
  else (s.remove k).wakeAll

end

/-! ## What the operations keep -/

omit [DecidableEq ι]

@[simp] theorem queue_new (bound : Nat) : (new bound : BoundedSemaphore ι).queue = [] := rfl

variable {waiters : List (ι × Bool)}

theorem grantFirst_keys {granted : List (ι × Bool)}
    (h : grantFirst waiters = some granted) : granted.map Prod.fst = waiters.map Prod.fst := by
  induction waiters generalizing granted with
  | nil => cases h
  | cons entry rest ih =>
      obtain ⟨k, flag⟩ := entry
      cases flag with
      | false =>
          cases h
          rfl
      | true =>
          obtain ⟨tail, htail, rfl⟩ := Option.map_eq_some_iff.mp h
          rw [List.map_cons, List.map_cons, ih htail]

theorem grantFirst_count {granted : List (ι × Bool)}
    (h : grantFirst waiters = some granted) :
    granted.countP Prod.snd = waiters.countP Prod.snd + 1 := by
  induction waiters generalizing granted with
  | nil => cases h
  | cons entry rest ih =>
      obtain ⟨k, flag⟩ := entry
      cases flag with
      | false =>
          cases h
          simp
      | true =>
          obtain ⟨tail, htail, rfl⟩ := Option.map_eq_some_iff.mp h
          have hcount := ih htail
          simp [hcount]

@[simp] theorem bound_wakeNext (s : BoundedSemaphore ι) : s.wakeNext.bound = s.bound := by
  unfold wakeNext
  cases grantFirst s.waiters with
  | none | some => rfl

@[simp] theorem queue_wakeNext (s : BoundedSemaphore ι) : s.wakeNext.queue = s.queue := by
  unfold wakeNext
  cases hgrant : grantFirst s.waiters with
  | none => rfl
  | some granted => exact grantFirst_keys hgrant

variable {s : BoundedSemaphore ι}

theorem free_wakeNext (hvalue : 0 < s.value) :
    s.wakeNext.free = s.free := by
  unfold wakeNext
  cases hgrant : grantFirst s.waiters with
  | none => rfl
  | some granted =>
      show s.value - 1 + granted.countP Prod.snd = s.value + s.waiters.countP Prod.snd
      rw [grantFirst_count hgrant]
      omega

theorem wakeWhile_keeps (rounds : Nat) (s : BoundedSemaphore ι) :
    (wakeWhile rounds s).bound = s.bound ∧ (wakeWhile rounds s).queue = s.queue ∧
      (wakeWhile rounds s).free = s.free := by
  induction rounds generalizing s with
  | zero => exact ⟨rfl, rfl, rfl⟩
  | succ rounds ih =>
      unfold wakeWhile
      by_cases hvalue : s.value = 0
      · rw [if_pos hvalue]
        exact ⟨rfl, rfl, rfl⟩
      · rw [if_neg hvalue]
        obtain ⟨hbound, hqueue, hfree⟩ := ih s.wakeNext
        refine ⟨hbound.trans (bound_wakeNext s), hqueue.trans (queue_wakeNext s), ?_⟩
        exact hfree.trans (free_wakeNext (Nat.pos_of_ne_zero hvalue))

section

variable (s : BoundedSemaphore ι)

@[simp] theorem bound_wakeAll : s.wakeAll.bound = s.bound :=
  (wakeWhile_keeps _ s).1

@[simp] theorem queue_wakeAll : s.wakeAll.queue = s.queue :=
  (wakeWhile_keeps _ s).2.1

@[simp] theorem free_wakeAll : s.wakeAll.free = s.free :=
  (wakeWhile_keeps _ s).2.2

@[simp] theorem bound_release : s.release.bound = s.bound := by
  unfold release
  split
  · rfl
  · rw [bound_wakeNext]

@[simp] theorem queue_release : s.release.queue = s.queue := by
  unfold release
  split
  · rfl
  · rw [queue_wakeNext]
    rfl

end

theorem release_iterate_keeps (n : Nat) (s : BoundedSemaphore ι) :
    (release^[n] s).bound = s.bound ∧ (release^[n] s).queue = s.queue := by
  induction n with
  | zero => exact ⟨rfl, rfl⟩
  | succ n ih =>
      rw [Function.iterate_succ_apply', bound_release, queue_release]
      exact ih

theorem release_of_full (hfull : s.bound ≤ s.value) : s.release = s :=
  if_pos hfull

theorem free_release (hlt : s.free < s.bound) :
    s.release.free = s.free + 1 := by
  have hvalue : ¬ s.bound ≤ s.value := by
    unfold free at hlt
    omega
  unfold release
  rw [if_neg hvalue, free_wakeNext (Nat.succ_pos _)]
  show s.value + 1 + s.waiters.countP Prod.snd = s.value + s.waiters.countP Prod.snd + 1
  omega

@[simp] theorem bound_take (s : BoundedSemaphore ι) : s.take.bound = s.bound := rfl

theorem free_take (hlocked : s.locked = false) :
    s.take.free + 1 = s.free := by
  have hvalue : s.value ≠ 0 := by
    intro hzero
    simp [locked, hzero] at hlocked
  show s.value - 1 + s.waiters.countP Prod.snd + 1 = s.value + s.waiters.countP Prod.snd
  omega

@[simp] theorem bound_enqueue (s : BoundedSemaphore ι) (k : ι) :
    (s.enqueue k).bound = s.bound := rfl

@[simp] theorem queue_enqueue (s : BoundedSemaphore ι) (k : ι) :
    (s.enqueue k).queue = s.queue ++ [k] := List.map_append

@[simp] theorem free_enqueue (s : BoundedSemaphore ι) (k : ι) : (s.enqueue k).free = s.free := by
  unfold free enqueue
  simp

variable [DecidableEq ι]

theorem queue_remove (s : BoundedSemaphore ι) (k : ι) : (s.remove k).queue = s.queue.erase k := by
  unfold queue remove
  show (s.waiters.eraseP _).map Prod.fst = (s.waiters.map Prod.fst).erase k
  induction s.waiters with
  | nil => rfl
  | cons entry rest ih =>
      by_cases hkey : entry.1 = k
      · simp [hkey]
      · simp [hkey, ih]

variable {k : ι}

theorem count_remove {flag : Bool}
    (h : waiters.lookup k = some flag) :
    (waiters.eraseP fun entry => entry.1 = k).countP Prod.snd + flag.toNat =
      waiters.countP Prod.snd := by
  induction waiters with
  | nil => cases h
  | cons entry rest ih =>
      obtain ⟨key, own⟩ := entry
      by_cases hkey : key = k
      · subst hkey
        obtain rfl : own = flag := by simpa using h
        cases own <;> simp
      · have hrest : rest.lookup k = some flag := by
          rw [List.lookup_cons] at h
          have hne : (k == key) = false := by simpa using Ne.symm hkey
          rwa [hne] at h
        have hcount := ih hrest
        simp only [hkey, decide_false, List.eraseP_cons, List.countP_cons, cond_false]
        omega

theorem free_remove {flag : Bool}
    (h : s.granted k = some flag) : (s.remove k).free + flag.toNat = s.free := by
  have hcount := count_remove h
  show s.value + (s.waiters.eraseP fun entry => entry.1 = k).countP Prod.snd + flag.toNat =
    s.value + s.waiters.countP Prod.snd
  omega

@[simp] theorem bound_resume (s : BoundedSemaphore ι) (k : ι) : (s.resume k).bound = s.bound := by
  unfold resume
  rw [bound_wakeAll]
  rfl

@[simp] theorem queue_resume (s : BoundedSemaphore ι) (k : ι) :
    (s.resume k).queue = s.queue.erase k := by
  unfold resume
  rw [queue_wakeAll, queue_remove]

theorem free_resume (h : s.granted k = some true) :
    (s.resume k).free + 1 = s.free := by
  unfold resume
  rw [free_wakeAll]
  exact free_remove h

section

variable (s : BoundedSemaphore ι)

@[simp] theorem bound_withdraw (k : ι) : (s.withdraw k).bound = s.bound := by
  unfold withdraw
  split
  · rw [bound_wakeAll]
    rfl
  · rw [bound_wakeAll]
    rfl

@[simp] theorem queue_withdraw (k : ι) : (s.withdraw k).queue = s.queue.erase k := by
  unfold withdraw
  split
  · rw [queue_wakeAll, ← queue_remove]
    rfl
  · rw [queue_wakeAll, queue_remove]

/-- Who is cancelled takes no permit out. -/
@[simp] theorem free_withdraw (k : ι) : (s.withdraw k).free = s.free := by
  unfold withdraw
  cases hgranted : s.granted k with
  | none =>
      have habsent : ∀ entry ∈ s.waiters, ¬ (decide (entry.1 = k)) = true := by
        intro entry hentry heq
        have hne := List.lookup_eq_none_iff.mp hgranted entry hentry
        simp [of_decide_eq_true heq] at hne
      have hremove : s.remove k = s := by
        unfold remove
        rw [List.eraseP_of_forall_not habsent]
      rw [if_neg (by simp), free_wakeAll, hremove]
  | some flag =>
      have hremove := free_remove hgranted
      cases flag with
      | true =>
          rw [if_pos rfl, free_wakeAll, ← hremove]
          show s.value + 1 + (s.remove k).waiters.countP Prod.snd =
            s.value + (s.remove k).waiters.countP Prod.snd + 1
          omega
      | false =>
          rw [if_neg (by simp), free_wakeAll]
          exact hremove

end

theorem granted_of_mem (hnodup : s.queue.Nodup) {flag : Bool}
    (h : (k, flag) ∈ s.waiters) : s.granted k = some flag := by
  cases hgranted : s.granted k with
  | none =>
      have hne := List.lookup_eq_none_iff.mp hgranted _ h
      simp at hne
  | some own =>
      obtain ⟨before, after, heq, -⟩ := List.lookup_eq_some_iff.mp hgranted
      have hown : (k, own) ∈ s.waiters := by
        rw [heq]
        simp
      have hsame := List.inj_on_of_nodup_map hnodup hown h rfl
      rw [(Prod.mk.inj hsame).2]

theorem free_of_unseen (hnodup : s.queue.Nodup)
    (h : ∀ k ∈ s.queue, s.granted k ≠ some true) : s.free = s.value := by
  have hnone : s.waiters.countP Prod.snd = 0 := by
    rw [List.countP_eq_zero]
    intro entry hentry hflag
    refine h entry.1 (List.mem_map_of_mem hentry) (granted_of_mem hnodup ?_)
    rw [← hflag]
    exact hentry
  unfold free
  rw [hnone]
  rfl

end BoundedSemaphore
